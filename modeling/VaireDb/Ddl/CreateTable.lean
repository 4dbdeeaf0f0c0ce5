import VaireDb.Ddl.Broadcast

/-!
# `CREATE TABLE` and `DROP TABLE`

A new table's name is claimed in the catalog, its shards are assigned and recorded,
and every replica is sent the shard's `CREATE TABLE`.  The first send that is not seen
to succeed stops the broadcast; the replicas that were seen to succeed are then sent a
`DROP TABLE IF EXISTS`, and the records are deleted.

`CREATE TABLE … AS SELECT` runs its query, creates the table from the columns of the
result and writes the rows.  If they cannot be written it drops the table again.

The choices of a run are what the statement does not determine: which catalog calls
fail, which nodes are alive when, and what becomes of each send.
-/

namespace VaireDb.Ddl

open Lib Sql Coordinator

variable {Table : Type}

structure DropChoices where
  faults : Faults
  delivery : ShardMeta → Nat → Delivery

def tableDoesNotExist (tableName : String) : ErrorDetail where
  code := .tableNotFound
  message := "table \"" ++ tableName ++ "\" does not exist"

def dropShardTable (tableName : String) (shard : ShardMeta)
    (engine : ShardEngine Table) : Option (ShardEngine Table) :=
  some (engine.dropTableIfExists (shardTableName tableName shard.hashBucket))

/-- Delete the records of a table that is gone from its replicas. -/
def deleteRecords (faults : Faults) (catalog : Catalog) (tableName : String) :
    Except ErrorDetail Unit × Catalog :=
  match faults.guard .deleteShards () with
  | .error error => (.error error, catalog)
  | .ok () =>
    let catalog := catalog.deleteShardsForTable tableName
    match faults.guard .deleteTable () with
    | .error error => (.error error, catalog)
    | .ok () => (.ok (), catalog.deleteTable tableName)

/-- Delete the records of a table.  What fails here is not reported. -/
def forgetTable (faults : Faults) (catalog : Catalog) (tableName : String) : Catalog :=
  let catalog :=
    if (faults .deleteShards).isNone then catalog.deleteShardsForTable tableName
    else catalog
  if (faults .deleteTable).isNone then catalog.deleteTable tableName else catalog

def dropExistingTable (choices : DropChoices) (cluster : Cluster Table)
    (tableName : String) : Except ErrorDetail Unit × Cluster Table :=
  match choices.faults.guard .shardsForTable (cluster.catalog.shardsForTable tableName) with
  | .error error => (.error error, cluster)
  | .ok shards =>
    match choices.faults.guard .nodeAddressMap () with
    | .error error => (.error error, cluster)
    | .ok () =>
      let (failed, sites) := broadcastDdlBatchBestEffort cluster.catalog
        choices.delivery shards (dropShardTable tableName) cluster.sites
      match failIfUnreachable "DROP TABLE" failed with
      | .error error => (.error error, { cluster with sites := sites })
      | .ok () =>
        let (result, catalog) :=
          deleteRecords choices.faults cluster.catalog tableName
        (result, { catalog := catalog, sites := sites })

def handleDropTable (choices : DropChoices) (cluster : Cluster Table)
    (tableName : String) (ifExists : Bool) :
    Except ErrorDetail Unit × Cluster Table :=
  match choices.faults.guard .getTable (cluster.catalog.getTable tableName) with
  | .error error => (.error error, cluster)
  | .ok none =>
    if ifExists then (.ok (), cluster)
    else (.error (tableDoesNotExist tableName), cluster)
  | .ok (some _) => dropExistingTable choices cluster tableName

structure CreateTableConfig where
  columns : List ColumnDef
  shardKey : String
  shardCount : Nat
  replicationFactor : Nat
  anonymizedColumns : List (String × String)
  constraints : List ConstraintMeta

/-- A `CREATE TABLE` with a column list, and what the checks that read only the
statement say of it. -/
structure CreateTable where
  name : ObjectName
  ifNotExists : Bool
  form : Except ErrorDetail Unit
  columnTypes : Except ErrorDetail Unit
  config : Except ErrorDetail CreateTableConfig

structure CreateChoices where
  faults : Faults
  checkedNodes : List NodeMeta
  aliveNodes : List NodeMeta
  delivery : ShardMeta → Nat → Delivery
  connects : Nat → Bool
  undo : String → Nat → Delivery

def noTableName : ErrorDetail where
  code := .sqlSyntaxError
  message := "could not determine table name"

/-- The namespace exists and the physical name is free. -/
def checkName (faults : Faults) (catalog : Catalog) (tableName : String) :
    Except ErrorDetail Unit := do
  requireSchemaExists
    (fun schema => faults.guard .getSchema (catalog.schemaIsRecorded schema)) tableName
  let tables ← faults.guard .listTables catalog.listTables
  rejectPhysicalNameConflict tables tableName

/-- The name is seen to be taken by a table.  A read that fails sees nothing. -/
def seenTaken (faults : Faults) (catalog : Catalog) (tableName : String) : Bool :=
  (faults .getTable).isNone && (catalog.getTable tableName).isSome

def newTableMeta (config : CreateTableConfig) (tableName : String)
    (nodeCount : Nat) : TableMeta where
  tableName := tableName
  columns := config.columns
  shardKey := config.shardKey
  shardCount := effectiveShardCount config.shardCount nodeCount
  replicationFactor := config.replicationFactor
  anonymizedColumns := config.anonymizedColumns
  indexes := []
  constraints := config.constraints

variable (choices : CreateChoices)

/-- Everything before the claim.  No record means that the table is there and the
statement asks for nothing more. -/
def prepareCreate (catalog : Catalog) (stmt : CreateTable) :
    Except ErrorDetail (Option TableMeta) := do
  stmt.form
  stmt.columnTypes
  let tableName ← (canonicalTableName stmt.name).elim (.error noTableName) .ok
  checkName choices.faults catalog tableName
  if seenTaken choices.faults catalog tableName then
    if stmt.ifNotExists then
      return none
    throw (alreadyExists tableName)
  let config ← stmt.config
  let checked ← choices.faults.guard .listAliveNodes choices.checkedNodes
  if checked.length < config.replicationFactor then
    throw (tooFewNodes config.replicationFactor checked.length)
  return some (newTableMeta config tableName checked.length)

/-- Record the shards one by one, up to the first that fails. -/
def putShards (faults : Faults) : List ShardMeta → Nat → Catalog → Except ErrorDetail Unit × Catalog
  | [], _, catalog => (.ok (), catalog)
  | shard :: shards, index, catalog =>
    match faults.guard (.putShard index) () with
    | .error error => (.error error, catalog)
    | .ok () => putShards faults shards (index + 1) (catalog.putShard shard)

/-- Assign and record the shards of a table that has been claimed. -/
def placeShards (table : TableMeta) (catalog : Catalog) :
    Except ErrorDetail (List ShardMeta) × Catalog :=
  match choices.faults.guard .assignShards () with
  | .error error => (.error error, catalog)
  | .ok () =>
    match assignShardsRoundRobin choices.aliveNodes table.tableName table.shardCount
        table.replicationFactor with
    | .error error => (.error (enrichCoordinatorError error), catalog)
    | .ok shards =>
      match putShards choices.faults shards 0 catalog with
      | (.error error, catalog) => (.error error, catalog)
      | (.ok (), catalog) =>
        match choices.faults.guard .nodeAddressMap () with
        | .error error => (.error error, catalog)
        | .ok () => (.ok shards, catalog)

def createShardTable (ifNotExists : Bool) (fresh : Table) (tableName : String)
    (shard : ShardMeta) (engine : ShardEngine Table) : Option (ShardEngine Table) :=
  engine.createTable (shardTableName tableName shard.hashBucket) ifNotExists fresh

def broadcastStopped (sent : List Target) (position : Nat) :
    ErrorDetail :=
  let nodeId := (sent.map Target.nodeId).getD position ""
  { code := .nodeCommunicationError
    message :=
      if choices.connects position then "DDL broadcast to node " ++ nodeId ++ " failed"
      else "connection to node " ++ nodeId ++ " failed" }

/-- Drop the table where it was seen to be created, and delete its records. -/
def rollbackPartialCreate (tableName : String)
    (successfulSends : List (Send ShardMeta String)) (cluster : Cluster Table) :
    Cluster Table where
  catalog := forgetTable choices.faults cluster.catalog tableName
  sites := undoAll (dropShardTable tableName)
    (successfulSends.zipIdx.map fun (send, position) =>
      { send with delivery := choices.undo send.site position })
    cluster.sites

/-- Create the table on every replica, or take it back. -/
def broadcastCreate (ifNotExists : Bool) (fresh : Table)
    (tableName : String) (shards : List ShardMeta) (cluster : Cluster Table) :
    Except ErrorDetail Unit × Cluster Table :=
  let (done, stopped, exchange) := (Exchange.start cluster.sites).sendUntil
    (createShardTable ifNotExists fresh tableName)
    (sendsOf cluster.catalog choices.delivery shards)
  let cluster := { cluster with sites := exchange.sites }
  if stopped.isSome then
    let sent := targets cluster.catalog choices.delivery shards
    (.error (broadcastStopped choices sent done.length),
      rollbackPartialCreate choices tableName done cluster)
  else
    (.ok (), cluster)

/-- The table is claimed, placed and created. -/
def claimAndCreate (fresh : Table) (ifNotExists : Bool) (table : TableMeta)
    (cluster : Cluster Table) : Except ErrorDetail Unit × Cluster Table :=
  match choices.faults.guard .createTableIfAbsent (cluster.catalog.createTableIfAbsent table) with
  | .error error => (.error error, cluster)
  | .ok (false, _) =>
    if ifNotExists then (.ok (), cluster)
    else (.error (alreadyExists table.tableName), cluster)
  | .ok (true, catalog) =>
    match placeShards choices table catalog with
    | (.error error, catalog) => (.error error, { cluster with catalog := catalog })
    | (.ok shards, catalog) =>
      broadcastCreate choices ifNotExists fresh table.tableName shards
        { cluster with catalog := catalog }

def createTableFromColumnList (fresh : Table) (stmt : CreateTable) (cluster : Cluster Table) :
    Except ErrorDetail Unit × Cluster Table :=
  match prepareCreate choices cluster.catalog stmt with
  | .error error => (.error error, cluster)
  | .ok none => (.ok (), cluster)
  | .ok (some table) => claimAndCreate choices fresh stmt.ifNotExists table cluster

/-- A `CREATE TABLE … AS SELECT`.  `refusal` is what the statement alone decides,
`columns` what running its query gives: the statement with the column list of the
result, or an error. -/
structure CreateTableAs where
  name : ObjectName
  ifNotExists : Bool
  refusal : Except ErrorDetail Unit
  columns : Except ErrorDetail CreateTable

/-- The choices of a `CREATE TABLE … AS SELECT`: those before the query, those of the
creation, whether the rows can be written, and those of the drop. -/
structure CreateAsChoices where
  early : Faults
  create : CreateChoices
  fill : Except ErrorDetail Unit
  drop : DropChoices

def partialCreate (tableName : String) (writeError dropError : ErrorDetail) : ErrorDetail where
  code := .partialCommit
  message := "CREATE TABLE ... AS SELECT could not write the query's rows, and the " ++
    "empty table \"" ++ tableName ++ "\" it created could not be dropped again. Drop " ++
    "it manually before retrying. Write failure: " ++ writeError.message ++
    ". Drop failure: " ++ dropError.message

/-- Write the rows, or drop the table again. -/
def fillCreatedTable (choices : CreateAsChoices) (tableName : String)
    (cluster : Cluster Table) : Except ErrorDetail Unit × Cluster Table :=
  match choices.fill with
  | .ok () => (.ok (), cluster)
  | .error writeError =>
    match handleDropTable choices.drop cluster tableName true with
    | (.error dropError, cluster) =>
      (.error (partialCreate tableName writeError dropError), cluster)
    | (.ok (), cluster) => (.error writeError, cluster)

/-- Everything before the table is created.  No statement means that the table is
there and nothing more is asked for. -/
def prepareCreateAs (choices : CreateAsChoices) (catalog : Catalog)
    (stmt : CreateTableAs) : Except ErrorDetail (Option (String × CreateTable)) := do
  stmt.refusal
  let tableName ← (canonicalTableName stmt.name).elim (.error noTableName) .ok
  checkName choices.early catalog tableName
  if seenTaken choices.early catalog tableName then
    if stmt.ifNotExists then
      return none
    throw (alreadyExists tableName)
  let plain ← stmt.columns
  return some (tableName, { plain with name := stmt.name, ifNotExists := stmt.ifNotExists })

def handleCreateTableAsSelect (choices : CreateAsChoices) (fresh : Table)
    (stmt : CreateTableAs) (cluster : Cluster Table) :
    Except ErrorDetail Unit × Cluster Table :=
  match prepareCreateAs choices cluster.catalog stmt with
  | .error error => (.error error, cluster)
  | .ok none => (.ok (), cluster)
  | .ok (some (tableName, plain)) =>
    match createTableFromColumnList choices.create fresh plain cluster with
    | (.error error, cluster) => (.error error, cluster)
    | (.ok (), cluster) => fillCreatedTable choices tableName cluster

inductive CreateStatement where
  | columnList (stmt : CreateTable)
  | asSelect (stmt : CreateTableAs)

def handleCreateTable (choices : CreateAsChoices) (fresh : Table) :
    CreateStatement → Cluster Table → Except ErrorDetail Unit × Cluster Table
  | .columnList stmt => createTableFromColumnList choices.create fresh stmt
  | .asSelect stmt => handleCreateTableAsSelect choices fresh stmt

end VaireDb.Ddl
