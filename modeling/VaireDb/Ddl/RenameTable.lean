import VaireDb.Ddl.CreateTable

/-!
# `ALTER TABLE … RENAME TO` and `SET SCHEMA`

A table is renamed by claiming the new name, recording the same shards under it,
renaming the table of every shard on every replica, and deleting the records of the
old name.  If some replica is not seen to succeed, those that were are renamed back
and the new name is released.

`SET SCHEMA` is a rename to the same relation under another schema.
-/

namespace VaireDb.Ddl

open Lib Sql Coordinator

variable {Table : Type}

structure RenameChoices where
  faults : Faults
  delivery : ShardMeta → Nat → Delivery
  undo : String → Nat → Delivery

/-- The statements that remove what stands in the way of a rename. -/
def renameBlockers (table : TableMeta) : List String :=
  table.indexes.map (fun index => "DROP INDEX \"" ++ index.name ++ "\"") ++
    (table.constraints.filter fun constraint => constraint.indexBacked).map fun constraint =>
      "ALTER TABLE " ++ table.tableName ++ " DROP CONSTRAINT \"" ++ constraint.name ++ "\""

def renameBlocked (oldName : String) (blocking : List String) : ErrorDetail where
  code := .featureNotSupported
  message :=
    let hint :=
      match blocking with
      | [only] => only ++ " first"
      | many => "remove all of them first: " ++ "; ".intercalate many
    "cannot rename table \"" ++ oldName ++ "\" because it carries an index, and the " ++
      "shards' engine refuses to alter a table an index depends on; " ++ hint ++
      " and recreate it on the renamed table"

def renamedShard (newName : String) (shard : ShardMeta) : ShardMeta :=
  { shard with tableName := newName }

def renameShardTable (oldName newName : String) (shard : ShardMeta)
    (engine : ShardEngine Table) : Option (ShardEngine Table) :=
  engine.renameTable (shardTableName oldName shard.hashBucket)
    (shardTableName newName shard.hashBucket)

def releaseClaimedName (faults : Faults) (catalog : Catalog) (tableName : String) :
    Catalog :=
  forgetTable faults catalog tableName

/-- The outcome of a rename's broadcast: the nodes that were not seen to rename their
shard, the sends that were, and what became of the sites. -/
structure RenameBroadcast (Table : Type) where
  failedNodes : List String
  applied : List (Send ShardMeta String)
  sites : String → ShardEngine Table

def broadcastTableRename (catalog : Catalog) (delivery : ShardMeta → Nat → Delivery)
    (shards : List ShardMeta) (oldName newName : String)
    (sites : String → ShardEngine Table) : RenameBroadcast Table :=
  let (replies, exchange) := (Exchange.start sites).sendAll
    (renameShardTable oldName newName) (sendsOf catalog delivery shards)
  { failedNodes := ((targets catalog delivery shards).zip replies).filterMap
      fun (target, reply) => if reply.2 then none else some target.nodeId
    applied := replies.filterMap fun reply => if reply.2 then some reply.1 else none
    sites := exchange.sites }

variable (choices : RenameChoices)

def renameBackSends (applied : List (Send ShardMeta String)) : List (Send ShardMeta String) :=
  applied.zipIdx.map fun (send, position) =>
    { send with delivery := choices.undo send.site position }

/-- Rename the shards on every replica, or take it back. -/
def renameShards (oldName newName : String) (shards : List ShardMeta) (cluster : Cluster Table) :
    Except ErrorDetail Unit × Cluster Table :=
  let sent := broadcastTableRename cluster.catalog choices.delivery shards oldName newName
    cluster.sites
  match failIfUnreachable "ALTER TABLE ... RENAME TO" sent.failedNodes with
  | .error error =>
    (.error error, {
      catalog := releaseClaimedName choices.faults cluster.catalog newName
      sites := undoAll (renameShardTable newName oldName)
        (renameBackSends choices sent.applied) sent.sites })
  | .ok () =>
    let (result, catalog) := deleteRecords choices.faults cluster.catalog oldName
    (result, { catalog := catalog, sites := sent.sites })

/-- What follows the claim of the new name. -/
def moveTable (oldName newName : String) (shards : List ShardMeta) (cluster : Cluster Table) :
    Except ErrorDetail Unit × Cluster Table :=
  match putShards choices.faults (shards.map (renamedShard newName)) 0 cluster.catalog with
  | (.error error, catalog) =>
    (.error error, { cluster with
      catalog := releaseClaimedName choices.faults catalog newName })
  | (.ok (), catalog) =>
    renameShards choices oldName newName shards { cluster with catalog := catalog }

/-- Everything before the claim of the new name. -/
def prepareRename (catalog : Catalog) (table : TableMeta) (newName : String) :
    Except ErrorDetail (List ShardMeta) :=
  let blocking := renameBlockers table
  if blocking ≠ [] then
    .error (renameBlocked table.tableName blocking)
  else do
    checkName choices.faults catalog newName
    let shards ← choices.faults.guard .shardsForTable (catalog.shardsForTable table.tableName)
    choices.faults.guard .nodeAddressMap shards

/-- The new name is claimed, and the table moved to it. -/
def claimAndMove (table : TableMeta) (newName : String) (shards : List ShardMeta)
    (cluster : Cluster Table) : Except ErrorDetail Unit × Cluster Table :=
  match choices.faults.guard .createTableIfAbsent
      (cluster.catalog.createTableIfAbsent { table with tableName := newName }) with
  | .error error => (.error error, cluster)
  | .ok (false, _) => (.error (alreadyExists newName), cluster)
  | .ok (true, catalog) =>
    moveTable choices table.tableName newName shards { cluster with catalog := catalog }

def renameTable (table : TableMeta) (newName : String)
    (cluster : Cluster Table) : Except ErrorDetail Unit × Cluster Table :=
  match prepareRename choices cluster.catalog table newName with
  | .error error => (.error error, cluster)
  | .ok shards => claimAndMove choices table newName shards cluster

/-- What an `ALTER TABLE` that names a new key asks for. -/
inductive RenameRequest where
  | rename (newRelation : String)
  | setSchema (newName : String)

namespace RenameRequest

/-- The key the table is renamed to.  A new relation stays in the schema. -/
def newName (tableName : String) : RenameRequest → String
  | rename newRelation => qualifiedName (schemaOf tableName) (relationOf newRelation)
  | setSchema newName => newName

end RenameRequest

def relationDoesNotExist (tableName : String) : ErrorDetail where
  code := .tableNotFound
  message := "relation \"" ++ tableName ++ "\" does not exist"

def alreadyInSchema (tableName : String) : ErrorDetail where
  code := .tableAlreadyExists
  message := "relation \"" ++ tableName ++ "\" is already in schema \"" ++
    schemaOf tableName ++ "\""

def handleRename (tableName : String) (ifExists : Bool)
    (request : RenameRequest) (cluster : Cluster Table) :
    Except ErrorDetail Unit × Cluster Table :=
  match choices.faults.guard .getTable (cluster.catalog.getTable tableName) with
  | .error error => (.error error, cluster)
  | .ok none =>
    if ifExists then (.ok (), cluster)
    else (.error (relationDoesNotExist tableName), cluster)
  | .ok (some table) =>
    match request with
    | .rename newRelation =>
      renameTable choices table
        (qualifiedName (schemaOf tableName) (relationOf newRelation)) cluster
    | .setSchema newName =>
      if newName = tableName then (.error (alreadyInSchema tableName), cluster)
      else renameTable choices table newName cluster

end VaireDb.Ddl
