import VaireDb.Ddl.RenameTable
import VaireDb.Ddl.TableMetaOps
import VaireDb.Lib.Checks

/-!
# `ALTER TABLE` on columns

The operations are applied to a copy of the table's record, the statement is sent to
every replica of every shard, and the copy is stored once every replica was seen to
succeed.  A table with indexes is sent a batch instead: every recorded index off, the
change, and the indexes of the changed record back on, in one transaction.

What a node makes of an operation is a parameter.  It may refuse one for any reason,
as it does most changes of a table that has an index.  When it does not, the columns
follow the operation, with names compared without regard to case.
-/

namespace VaireDb.Ddl

open Lib Sql Coordinator ShardEngine
open ShardEngine (key)

/-- The columns after an operation that was not refused, by the names a node finds
them by. -/
def alteredColumns (columns : List String) : AlterOperation → List String
  | .addColumn column _ =>
    let name := key column.name.value
    if name ∈ columns then columns else columns ++ [name]
  | .dropColumn columnNames _ =>
    columns.filter fun column => column ∉ columnNames.map fun name =>
      key name.value
  | .renameColumn oldColumnName newColumnName =>
    columns.map fun column =>
      if column = key oldColumnName.value then
        key newColumnName.value
      else column
  | .alterColumn _ _ => columns
  | .other _ => columns

/-- What a node makes of the operations on a shard's table, which may have an index. -/
structure AlterEngine (Table : Type) where
  columns : Table → List String
  alter : Bool → AlterOperation → Table → Option Table
  columns_alter : ∀ indexed op table after, alter indexed op table = some after →
    columns after = alteredColumns (columns table) op
  renamed_present : ∀ indexed oldName newName table after,
    alter indexed (.renameColumn oldName newName) table = some after →
    key oldName.value ∈ columns table

namespace AlterEngine

variable {Table : Type}

def alterAll (engine : AlterEngine Table) (operations : List AlterOperation)
    (indexed : Bool) (table : Table) : Option Table :=
  operations.foldlM (fun table op => engine.alter indexed op table) table

end AlterEngine

variable {Table : Type}

def shardIndexName (indexName : String) (hashBucket : Nat) : String :=
  shardTableName indexName hashBucket

def shardLocalRecordedIndexSql (indexName : String) (columns : List String)
    (unique : Bool) (tableName : String) (hashBucket : Nat) : ShardDdl Table :=
  .createIndexIfNotExists (shardIndexName indexName hashBucket)
    (shardTableName tableName hashBucket) columns unique

def shardLocalDropIndexSql (indexName : String) (hashBucket : Nat) : ShardDdl Table :=
  .dropIndexIfExists (shardIndexName indexName hashBucket)

/-- Every index off, the change, and the indexes that are left back on. -/
def shardLocalAlterWithIndexRebuild (before after : List IndexMeta)
    (alter : ShardDdl Table) (tableName : String) (hashBucket : Nat) :
    List (ShardDdl Table) :=
  if before.isEmpty then
    [alter]
  else
    before.map (fun index => shardLocalDropIndexSql index.name hashBucket) ++ alter ::
      after.map fun index =>
        shardLocalRecordedIndexSql index.name index.columns index.unique tableName hashBucket

section Rebuild

variable {engine done : ShardEngine Table} {before after : List IndexMeta}
  {name tableName : String} {change : Bool → Table → Option Table} {hashBucket : Nat}

theorem tables_dropIndexes (executed : engine.executeBatch (before.map fun index =>
      shardLocalDropIndexSql index.name hashBucket) = some done) :
    done.tables = engine.tables := by
  refine foldlM_some_invariant (fun reached => reached.tables = engine.tables) ?_ rfl executed
  intro reached statement next member holds stepped
  obtain ⟨index, _, rfl⟩ := List.mem_map.mp member
  cases stepped
  exact holds

theorem tables_recordedIndexes (executed : engine.executeBatch (after.map fun index =>
      shardLocalRecordedIndexSql index.name index.columns index.unique tableName
        hashBucket) = some done) :
    done.tables = engine.tables := by
  refine foldlM_some_invariant (fun reached => reached.tables = engine.tables) ?_ rfl executed
  intro reached statement next member holds stepped
  obtain ⟨index, _, rfl⟩ := List.mem_map.mp member
  simp only [shardLocalRecordedIndexSql, execute, createIndexIfNotExists] at stepped
  split at stepped
  · cases stepped
    exact holds
  · split at stepped <;> cases stepped
    exact holds

/-- A change with a rebuild of the indexes is the change, as far as tables go. -/
theorem executeBatch_rebuild
    (executed : engine.executeBatch (shardLocalAlterWithIndexRebuild before after
      (.alterTable name change) tableName hashBucket) = some done) :
    (∃ indexed found changed, engine.table name = some found ∧
      change indexed found = some changed ∧ done.table name = some changed) ∧
    ∀ other, key other ≠ key name → done.table other = engine.table other := by
  unfold shardLocalAlterWithIndexRebuild at executed
  split at executed
  · unfold executeBatch at executed
    rw [List.foldlM_cons] at executed
    obtain ⟨next, altered, last⟩ := Option.bind_eq_some_iff.mp executed
    cases last
    obtain ⟨own, others, _⟩ := alterTable_some altered
    exact ⟨own, others⟩
  · unfold executeBatch at executed
    rw [List.foldlM_append] at executed
    obtain ⟨bare, dropped, executed⟩ := Option.bind_eq_some_iff.mp executed
    rw [List.foldlM_cons] at executed
    obtain ⟨changedEngine, altered, recreated⟩ := Option.bind_eq_some_iff.mp executed
    have first := tables_dropIndexes dropped
    have last := tables_recordedIndexes recreated
    obtain ⟨⟨indexed, found, changed, there, accepted, stored⟩, others, _⟩ :=
      alterTable_some altered
    have start : ∀ other, bare.table other = engine.table other :=
      fun other => congrArg (AList.lookup (key other)) first
    have finish : ∀ other, done.table other = changedEngine.table other :=
      fun other => congrArg (AList.lookup (key other)) last
    refine ⟨⟨indexed, found, changed, (start name).symm.trans there, accepted,
      (finish name).trans stored⟩, fun other different => ?_⟩
    rw [finish, others other different, start]

end Rebuild

/-- The choices of a schema statement that is broadcast and then recorded. -/
structure AlterChoices where
  faults : Faults
  delivery : ShardMeta → Nat → Delivery

/-- Send every shard its statements, and store the record if every node was seen to
succeed. -/
def broadcastAndRecord (choices : AlterChoices) (opLabel : String) (shards : List ShardMeta)
    (statements : ShardMeta → List (ShardDdl Table)) (record : TableMeta)
    (cluster : Cluster Table) : Except ErrorDetail Unit × Cluster Table :=
  let (failed, sites) := broadcastDdlBatchBestEffort cluster.catalog choices.delivery shards
    (fun shard engine => engine.executeBatch (statements shard)) cluster.sites
  match failIfUnreachable opLabel failed with
  | .error error => (.error error, { cluster with sites := sites })
  | .ok () =>
    match choices.faults.guard .putTable () with
    | .error error => (.error error, { cluster with sites := sites })
    | .ok () => (.ok (), { catalog := cluster.catalog.putTable record, sites := sites })

section BroadcastAndRecord

def batchOf (statements : ShardMeta → List (ShardDdl Table)) (shard : ShardMeta)
    (engine : ShardEngine Table) : Option (ShardEngine Table) :=
  engine.executeBatch (statements shard)

/-- The nodes at the end of a broadcast of statements. -/
def statementExchange (choices : AlterChoices) (shards : List ShardMeta)
    (statements : ShardMeta → List (ShardDdl Table)) (cluster : Cluster Table) :
    Exchange ShardMeta String (ShardEngine Table) :=
  ddlExchange cluster.catalog choices.delivery shards (batchOf statements) cluster.sites

/-- Every node is seen to succeed, and the record can be stored. -/
structure Completes (choices : AlterChoices) (shards : List ShardMeta)
    (statements : ShardMeta → List (ShardDdl Table)) (cluster : Cluster Table) : Prop where
  answered : ∀ send ∈ sendsOf cluster.catalog choices.delivery shards, send.delivery = .answered ∧
      (statementExchange choices shards statements cluster).Executed send.label send.site
  stored : choices.faults .putTable = none

/-- Some node has executed its statements. -/
def ExecutedSomewhere (choices : AlterChoices) (shards : List ShardMeta)
    (statements : ShardMeta → List (ShardDdl Table)) (cluster : Cluster Table) : Prop :=
  ∃ send ∈ sendsOf cluster.catalog choices.delivery shards,
    (statementExchange choices shards statements cluster).Executed send.label send.site

variable {choices : AlterChoices} {shards : List ShardMeta}
  {statements : ShardMeta → List (ShardDdl Table)} {cluster : Cluster Table}
  (opLabel : String) (record : TableMeta)

theorem broadcastAndRecord_of_completes (completes : Completes choices shards statements cluster) :
    broadcastAndRecord choices opLabel shards statements record cluster = (.ok (), {
        catalog := cluster.catalog.putTable record
        sites := (statementExchange choices shards statements cluster).sites }) := by
  have reached : (broadcastDdlBatchBestEffort cluster.catalog choices.delivery shards
      (batchOf statements) cluster.sites).1 = [] :=
    failed_eq_nil_iff_executed.mpr completes.answered
  have sent : broadcastDdlBatchBestEffort cluster.catalog choices.delivery shards
      (batchOf statements) cluster.sites =
        ([], (statementExchange choices shards statements cluster).sites) :=
    Prod.ext reached rfl
  unfold broadcastAndRecord Faults.guard
  simp only [completes.stored]
  rw [show (fun shard engine => executeBatch engine (statements shard)) =
    batchOf statements from rfl, sent]
  rfl

theorem broadcastAndRecord_of_not_completes (stops : ¬Completes choices shards statements cluster) :
    ∃ error, broadcastAndRecord choices opLabel shards statements record cluster =
      (.error error, { cluster with
        sites := (statementExchange choices shards statements cluster).sites }) := by
  unfold broadcastAndRecord
  simp only
  split
  · next error failed => exact ⟨error, rfl⟩
  · rename_i reached
    have answered := failed_eq_nil_iff_executed.mp (failIfUnreachable_ok reached)
    unfold Faults.guard
    cases stored : choices.faults .putTable with
    | none => exact absurd ⟨answered, stored⟩ stops
    | some fault => exact ⟨_, rfl⟩

end BroadcastAndRecord

/-- The shards of a table, and that their nodes' addresses can be read. -/
def placement (choices : AlterChoices) (catalog : Catalog) (tableName : String) :
    Except ErrorDetail (List ShardMeta) := do
  let shards ← choices.faults.guard .shardsForTable (catalog.shardsForTable tableName)
  choices.faults.guard .nodeAddressMap shards

/-- The statements a shard is sent for a change of its columns. -/
def alterStatements (engine : AlterEngine Table) (operations : List AlterOperation)
    (before after : TableMeta) (tableName : String) (shard : ShardMeta) :
    List (ShardDdl Table) :=
  shardLocalAlterWithIndexRebuild before.indexes after.indexes
    (.alterTable (shardTableName tableName shard.hashBucket) (engine.alterAll operations))
    tableName shard.hashBucket

def alterColumns (engine : AlterEngine Table) (renameInCheck : RenameColumnInCheck)
    (choices : AlterChoices) (tableName : String) (operations : List AlterOperation)
    (table : TableMeta) (cluster : Cluster Table) :
    Except ErrorDetail Unit × Cluster Table :=
  let prepared : Except ErrorDetail (TableMeta × List ShardMeta) := do
    let altered ← operations.foldlM (applyAlterOperation renameInCheck) table
    let shards ← placement choices cluster.catalog tableName
    return (altered, shards)
  match prepared with
  | .error error => (.error error, cluster)
  | .ok (altered, shards) =>
    broadcastAndRecord choices "ALTER TABLE" shards
      (alterStatements engine operations table altered tableName) altered cluster

def handleAlterColumns (engine : AlterEngine Table) (renameInCheck : RenameColumnInCheck)
    (choices : AlterChoices) (tableName : String) (ifExists : Bool)
    (operations : List AlterOperation) (cluster : Cluster Table) :
    Except ErrorDetail Unit × Cluster Table :=
  match choices.faults.guard .getTable (cluster.catalog.getTable tableName) with
  | .error error => (.error error, cluster)
  | .ok none =>
    if ifExists then (.ok (), cluster)
    else (.error (relationDoesNotExist tableName), cluster)
  | .ok (some table) =>
    alterColumns engine renameInCheck choices tableName operations table cluster

end VaireDb.Ddl
