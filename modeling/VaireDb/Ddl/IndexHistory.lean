import VaireDb.Ddl.RecordedIndexes

/-!
# Histories of index statements

Every index statement that gets past its checks is one change of a table, sent to all
of its replicas and then recorded.  Over any sequence of such statements the recorded
indexes are those of the shards exactly if every node that executes a change matches
what is recorded after it.
-/

namespace VaireDb.Ddl

open Lib Sql Coordinator List

variable {Table : Type}

namespace Alters

variable {added : String → Prop} {table after : TableMeta}

theorem bases (same : Alters added table after) :
    indexBases after.indexes = indexBases table.indexes := by
  have names := congrArg (map indexBase) same.indexes
  rwa [map_map, map_map] at names

theorem recordedBases (same : Alters added table after) :
    indexBases (recordedIndexes after) ⊆ indexBases (recordedIndexes table) := by
  intro base member
  obtain ⟨index, among, rfl⟩ := mem_map.mp member
  rcases mem_append.mp among with own | backed
  · have inBases : indexBase index.name ∈ indexBases after.indexes :=
      mem_map.mpr ⟨index, own, rfl⟩
    rw [same.bases] at inBases
    obtain ⟨old, known, equal⟩ := mem_map.mp inBases
    exact mem_map.mpr ⟨old, mem_append_left _ known, equal⟩
  · obtain ⟨constraint, inFilter, rfl⟩ := mem_map.mp backed
    obtain ⟨old, known, equal⟩ := mem_map.mp
      (same.constraints (mem_map.mpr ⟨constraint, inFilter, rfl⟩))
    refine mem_map.mpr ⟨old.asIndex, mem_append_right _ (mem_map.mpr ⟨old, known, rfl⟩), ?_⟩
    exact congrArg indexBase equal

end Alters

section Uniques

variable {table after : TableMeta} {columns : List String} {name verb : String}
  {rewritesColumn : Bool} {op : AlterOperation} {renameInCheck : RenameColumnInCheck}

/-- A change that an index may block is refused if a unique index is recorded. -/
theorem not_uniqueAmong_of_rebuildable
    (checked : rejectUnrebuildableIndex table name verb rewritesColumn = .ok ()) :
    ¬UniqueAmong (recordedIndexes table) columns := by
  rintro ⟨index, member, unique, _⟩
  have blocking : ∃ blocked ∈ blockingIndexes table name, blocked.unique = true := by
    rcases mem_append.mp member with own | backed
    · exact ⟨_, mem_append_left _ (mem_map.mpr ⟨index, own, rfl⟩), unique⟩
    · obtain ⟨constraint, among, rfl⟩ := mem_map.mp backed
      exact ⟨_, mem_append_right _ (mem_map.mpr ⟨constraint, among, rfl⟩), rfl⟩
  obtain ⟨blocked, among, alsoUnique⟩ := blocking
  unfold rejectUnrebuildableIndex at checked
  simp only at checked
  rw [if_pos (ne_nil_of_mem (mem_filter.mpr ⟨among, alsoUnique⟩))] at checked
  cases checked

theorem recordedIndexes_changeColumn {change : ColumnDef → ColumnDef}
    (changed : changeColumn table name change = .ok after) :
    recordedIndexes after = recordedIndexes table := by
  unfold changeColumn at changed
  split at changed <;> cases changed
  rfl

/-- A uniqueness that is recorded stays recorded. -/
theorem uniqueAmong_operation (unique : UniqueAmong (recordedIndexes table) columns)
    (applied : applyAlterOperation renameInCheck table op = .ok after) :
    UniqueAmong (recordedIndexes after) columns := by
  cases op with
  | addColumn column ifNotExists =>
    simp only [applyAlterOperation, applyAddColumn] at applied
    split at applied
    · split at applied <;> cases applied
      exact unique
    · obtain ⟨_, _, applied⟩ := bind_eq_ok_iff.mp applied
      obtain ⟨_, _, applied⟩ := bind_eq_ok_iff.mp applied
      cases applied
      exact unique
  | dropColumn columnNames ifExists =>
    cases columnNames with
    | nil =>
      cases applied
      exact unique
    | cons columnName columnNames =>
      rw [applyAlterOperation, foldlM_cons] at applied
      obtain ⟨_, dropped, _⟩ := bind_eq_ok_iff.mp applied
      obtain ⟨_, _, dropped⟩ := bind_eq_ok_iff.mp dropped
      obtain ⟨_, checked, _⟩ := bind_eq_ok_iff.mp dropped
      exact absurd unique (not_uniqueAmong_of_rebuildable checked)
  | renameColumn oldName newName =>
    obtain ⟨_, _, renamed⟩ := bind_eq_ok_iff.mp applied
    obtain ⟨_, checked, _⟩ := bind_eq_ok_iff.mp renamed
    exact absurd unique (not_uniqueAmong_of_rebuildable checked)
  | alterColumn columnName op =>
    obtain ⟨_, _, altered⟩ := bind_eq_ok_iff.mp applied
    obtain ⟨_, _, altered⟩ := bind_eq_ok_iff.mp altered
    cases op with
    | other rendered =>
      obtain ⟨_, _, impossible⟩ := bind_eq_ok_iff.mp altered
      cases impossible
    | _ =>
      rw [recordedIndexes_changeColumn altered]
      exact unique
  | other rendered => cases applied

end Uniques

inductive IndexStatement where
  | createIndex (create : CreateIndex)
  | dropIndex (indexName : String) (ifExists : Bool)
  | alterTable (tableName : String) (ifExists : Bool) (plan : AlterPlan)

structure IndexRequest where
  choices : AlterChoices
  statement : IndexStatement

def handleIndexRequest (engine : AlterEngine Table) (renameInCheck : RenameColumnInCheck)
    (request : IndexRequest) (cluster : Cluster Table) :
    Except ErrorDetail Unit × Cluster Table :=
  match request.statement with
  | .createIndex create => handleCreateIndex request.choices create cluster
  | .dropIndex indexName ifExists =>
    handleDropIndex request.choices indexName ifExists cluster
  | .alterTable tableName ifExists plan =>
    handleAlterTable engine renameInCheck request.choices tableName ifExists plan cluster

def indexStep (engine : AlterEngine Table) (renameInCheck : RenameColumnInCheck)
    (cluster : Cluster Table) (request : IndexRequest) : Option (Cluster Table) :=
  some (handleIndexRequest engine renameInCheck request cluster).2

variable {index : IndexMeta} {constraint : TableConstraint}

section Plans

variable (choices : AlterChoices) (catalog : Catalog)

def readTable (tableName : String) : Option TableMeta :=
  (choices.faults.guard .getTable (catalog.getTable tableName)).toOption.join

/-- An index is new, and its table's shards can be listed. -/
def createPlan (index : IndexMeta) (ifNotExists : Bool) (table record : TableMeta) :
    Option IndexPlan :=
  match checkNewIndexName choices catalog index.name ifNotExists,
      placement choices catalog table.tableName with
  | .ok true, .ok _ => some {
      tableName := table.tableName, table := table, record := record
      change := .create index }
  | _, _ => none

def dropPlan (indexName : String) (table record : TableMeta) : Option IndexPlan :=
  match placement choices catalog table.tableName with
  | .ok _ => some {
      tableName := table.tableName, table := table, record := record
      change := .drop indexName }
  | .error _ => none

def createIndexPlan (create : CreateIndex) : Option IndexPlan := do
  let tableName ← canonicalTableName create.tableName
  let table ← readTable choices catalog tableName
  let index ← (planCreateIndex create table).toOption
  createPlan choices catalog index create.ifNotExists table (table.withIndex index)

def dropIndexPlan (indexName : String) : Option IndexPlan := do
  let table ← (choices.faults.guard .tableWithIndex
    (catalog.tableWithIndex indexName)).toOption.join
  dropPlan choices catalog indexName table (table.withoutIndex indexName)

def addConstraintPlan (table : TableMeta) (constraint : TableConstraint)
    (notValid : Bool) : Option IndexPlan := do
  let added ← (planAddConstraint table constraint notValid).toOption
  createPlan choices catalog added.asIndex false table (table.withConstraint added)

def dropConstraintPlan (table : TableMeta) (name : String) : Option IndexPlan := do
  let existing ← table.constraints.find? fun constraint =>
    relationOf constraint.name = relationOf name
  if existing.indexBacked then
    dropPlan choices catalog existing.name table (table.withoutConstraint existing.name)
  else
    none

def columnsPlan (renameInCheck : RenameColumnInCheck) (tableName : String)
    (operations : List AlterOperation) (table : TableMeta) : Option IndexPlan := do
  let altered ← (operations.foldlM (applyAlterOperation renameInCheck) table).toOption
  match placement choices catalog tableName with
  | .ok _ => some {
      tableName := tableName, table := table, record := altered
      change := .alter operations }
  | .error _ => none

/-- The change a statement sends, if it gets as far. -/
def IndexStatement.plan (renameInCheck : RenameColumnInCheck) : IndexStatement → Option IndexPlan
  | .createIndex create => createIndexPlan choices catalog create
  | .dropIndex indexName _ => dropIndexPlan choices catalog indexName
  | .alterTable tableName _ plan => do
      let table ← readTable choices catalog tableName
      match plan with
      | .addConstraint constraint notValid =>
        addConstraintPlan choices catalog table constraint notValid
      | .dropConstraint name _ => dropConstraintPlan choices catalog table name
      | .columnOps operations =>
        columnsPlan choices catalog renameInCheck tableName operations table

end Plans

section Recorded

variable {table : TableMeta} {other : IndexMeta}

variable {added : ConstraintMeta}

/-- A constraint that can be added is enforced by an index. -/
theorem indexBacked_of_planned {notValid : Bool}
    (planned : planAddConstraint table constraint notValid = .ok added) :
    added.indexBacked = true := by
  cases constraint with
  | unique name columns decorations =>
    unfold planAddConstraint at planned
    simp only at planned
    split at planned
    · cases planned
    obtain ⟨_, _, planned⟩ := bind_eq_ok_iff.mp planned
    obtain ⟨listed, _, planned⟩ := bind_eq_ok_iff.mp planned
    cases name with
    | none => cases planned
    | some name =>
      simp only [intoMeta] at planned
      split at planned
      · cases planned
      split at planned
      · cases planned
      split at planned <;> cases planned
      rfl
  | primaryKey => cases planned
  | check => cases planned
  | foreignKey foreignTable => cases planned
  | index => cases planned
  | usingIndex => cases planned

theorem known_of_withoutConstraint {name : String}
    (among : other ∈ recordedIndexes (table.withoutConstraint name)) :
    other ∈ recordedIndexes table := by
  rcases mem_append.mp among with own | inFilter
  · exact mem_append_left _ own
  · obtain ⟨constraint, kept, rfl⟩ := mem_map.mp inFilter
    obtain ⟨inRecord, backed⟩ := mem_filter.mp kept
    exact mem_append_right _ (mem_map.mpr ⟨constraint,
      mem_filter.mpr ⟨(mem_filter.mp inRecord).1, backed⟩, rfl⟩)

end Recorded

section Handlers

variable {engine : AlterEngine Table} {renameInCheck : RenameColumnInCheck}
  {choices : AlterChoices} {cluster : Cluster Table} {opLabel tableName indexName : String}
  {table record : TableMeta}

/-- A handler either sends a plan that suits the catalog or leaves the cluster as it
is. -/
def Runs (engine : AlterEngine Table) (choices : AlterChoices) (cluster : Cluster Table)
    (plan : Option IndexPlan) (after : Cluster Table) : Prop :=
  match plan with
  | none => after = cluster
  | some plan => plan.Suits cluster.catalog ∧ ∃ opLabel, after = (broadcastAndRecord choices opLabel
      (cluster.catalog.shardsForTable plan.tableName) (plan.statements engine)
      plan.record cluster).2

theorem placement_ok {catalog : Catalog} {shards : List ShardMeta}
    (placed : placement choices catalog tableName = .ok shards) :
    shards = catalog.shardsForTable tableName := by
  unfold placement at placed
  obtain ⟨listed, first, second⟩ := bind_eq_ok_iff.mp placed
  exact ((guard_ok first).trans (guard_ok second)).symm

theorem runs_create {ifNotExists : Bool}
    (found : cluster.catalog.getTable table.tableName = some table)
    (named : record.tableName = table.tableName) (gained : ∀ other, other ∈ recordedIndexes record ↔
      other ∈ recordedIndexes table ∨ other = index) :
    Runs engine choices cluster (createPlan choices cluster.catalog index ifNotExists table record)
      (createRecordedIndex choices opLabel index ifNotExists table record cluster).2 := by
  unfold createPlan createRecordedIndex prepareIndex
  cases checkNewIndexName choices cluster.catalog index.name ifNotExists with
  | error error => rfl
  | ok fresh =>
    cases fresh with
    | false => rfl
    | true =>
      cases placed : placement choices cluster.catalog table.tableName with
      | error error => rfl
      | ok shards =>
        obtain rfl := placement_ok placed
        exact ⟨⟨found, named, gained⟩, opLabel, rfl⟩

theorem runs_drop (found : cluster.catalog.getTable table.tableName = some table)
    (named : record.tableName = table.tableName)
    (known : ∃ index ∈ recordedIndexes table, index.name = indexName)
    (fewer : ∀ other ∈ recordedIndexes record, other ∈ recordedIndexes table) :
    Runs engine choices cluster (dropPlan choices cluster.catalog indexName table record)
      (dropRecordedIndex choices opLabel indexName table record cluster).2 := by
  unfold dropPlan dropRecordedIndex
  cases placed : placement choices cluster.catalog table.tableName with
  | error error => rfl
  | ok shards =>
    obtain rfl := placement_ok placed
    exact ⟨⟨found, named, known, fewer⟩, opLabel, rfl⟩

theorem Sound.tableName_eq (sound : Sound cluster)
    (found : cluster.catalog.getTable tableName = some table) : table.tableName = tableName :=
  (sound.hosted tableName table found).named table found

theorem runs_dropIndex (sound : Sound cluster) {ifExists : Bool} :
    Runs engine choices cluster (dropIndexPlan choices cluster.catalog indexName)
      (handleDropIndex choices indexName ifExists cluster).2 := by
  unfold dropIndexPlan handleDropIndex
  cases read : choices.faults.guard .tableWithIndex (cluster.catalog.tableWithIndex indexName) with
  | error error => rfl
  | ok found =>
    cases found with
    | none => rfl
    | some table =>
      have owner := guard_ok read
      obtain ⟨⟨key, stored⟩, inOrder, same⟩ := mem_map.mp (mem_of_find?_eq_some owner)
      have found : cluster.catalog.getTable key = some table :=
        (Records.mem_inOrder.mp inOrder).trans (congrArg some same)
      obtain rfl := sound.tableName_eq found
      have owns := @List.find?_some _ (fun table : TableMeta =>
        table.indexes.any fun index => decide (index.name = indexName)) _ _ owner
      obtain ⟨index, member, same⟩ := any_eq_true.mp owns
      refine runs_drop found rfl ⟨index, mem_append_left _ member, of_decide_eq_true same⟩ ?_
      intro other among
      exact mem_append.mpr ((mem_append.mp among).imp_left fun own => (mem_filter.mp own).1)

section Alter

variable (found : cluster.catalog.getTable table.tableName = some table)
include found

theorem runs_addConstraint {notValid : Bool} :
    Runs engine choices cluster
      (addConstraintPlan choices cluster.catalog table constraint notValid)
      (addConstraint choices table constraint notValid cluster).2 := by
  unfold addConstraintPlan addConstraint
  cases planned : planAddConstraint table constraint notValid with
  | error error => rfl
  | ok added =>
    refine runs_create found rfl fun other => ?_
    unfold recordedIndexes TableMeta.withConstraint
    rw [filter_append, map_append, ← append_assoc, mem_append,
      filter_cons_of_pos (indexBacked_of_planned planned), filter_nil, map_singleton, mem_singleton]

theorem runs_dropConstraint {name : String} {ifExists : Bool} :
    Runs engine choices cluster (dropConstraintPlan choices cluster.catalog table name)
      (dropConstraint choices table name ifExists cluster).2 := by
  unfold dropConstraintPlan dropConstraint
  cases known : table.constraints.find? fun constraint =>
      decide (relationOf constraint.name = relationOf name) with
  | none => cases ifExists <;> rfl
  | some existing =>
    simp only [Option.bind_eq_bind, Option.bind_some]
    cases backed : existing.indexBacked with
    | false => rfl
    | true =>
      refine runs_drop found rfl ⟨existing.asIndex, mem_append_right _ (mem_map.mpr
        ⟨existing, mem_filter.mpr ⟨mem_of_find?_eq_some known, backed⟩, rfl⟩), rfl⟩
        fun _ => known_of_withoutConstraint

theorem runs_columns {operations : List AlterOperation} :
    Runs engine choices cluster
      (columnsPlan choices cluster.catalog renameInCheck table.tableName operations table)
      (alterColumns engine renameInCheck choices table.tableName operations table cluster).2 := by
  unfold columnsPlan alterColumns
  cases applied : operations.foldlM (applyAlterOperation renameInCheck) table with
  | error error => rfl
  | ok altered =>
    cases placed : placement choices cluster.catalog table.tableName with
    | error error => rfl
    | ok shards =>
      obtain rfl := placement_ok placed
      have same := Alters.ofOperations applied
      have uniques : ∀ columns, UniqueAmong (recordedIndexes table) columns →
          UniqueAmong (recordedIndexes altered) columns := fun columns unique =>
        foldlM_ok_invariant (fun reached => UniqueAmong (recordedIndexes reached) columns)
          (fun _ _ _ _ holds stepped => uniqueAmong_operation holds stepped) unique applied
      exact ⟨⟨found, same.name, same.bases, same.recordedBases, uniques⟩, "ALTER TABLE", rfl⟩

end Alter

theorem runs_request (sound : Sound cluster) {request : IndexRequest} :
    Runs engine request.choices cluster
      (request.statement.plan request.choices cluster.catalog renameInCheck)
      (handleIndexRequest engine renameInCheck request cluster).2 := by
  obtain ⟨choices, statement⟩ := request
  cases statement with
  | createIndex create =>
    change Runs engine choices cluster (createIndexPlan choices cluster.catalog create)
      (handleCreateIndex choices create cluster).2
    unfold createIndexPlan handleCreateIndex readTable
    cases canonicalTableName create.tableName with
    | none => rfl
    | some tableName =>
      simp only [Option.bind_eq_bind, Option.bind_some]
      cases read : choices.faults.guard .getTable (cluster.catalog.getTable tableName) with
      | error error => rfl
      | ok found =>
        cases found with
        | none => rfl
        | some table =>
          simp only [Except.toOption, Option.join_some, Option.bind_some]
          cases planCreateIndex create table with
          | error error => rfl
          | ok index =>
            have found := guard_ok read
            obtain rfl := sound.tableName_eq found
            refine runs_create found rfl fun other => ?_
            simp only [recordedIndexes, TableMeta.withIndex, mem_append, mem_singleton]
            tauto
  | dropIndex indexName ifExists => exact runs_dropIndex sound
  | alterTable tableName ifExists plan =>
    unfold IndexStatement.plan handleIndexRequest handleAlterTable readTable
    simp only
    cases read : choices.faults.guard .getTable (cluster.catalog.getTable tableName) with
    | error error => rfl
    | ok found =>
      cases found with
      | none => cases ifExists <;> rfl
      | some table =>
        have found := guard_ok read
        obtain rfl := sound.tableName_eq found
        cases plan with
        | addConstraint constraint notValid => exact runs_addConstraint found
        | dropConstraint name missingOk => exact runs_dropConstraint found
        | columnOps operations => exact runs_columns found

end Handlers

section Histories

variable {engine : AlterEngine Table} {renameInCheck : RenameColumnInCheck}
  {cluster : Cluster Table} {request : IndexRequest}

/-- Every node that executes the statement's change matches what is recorded after
it. -/
def KeepsIndexes (engine : AlterEngine Table) (renameInCheck : RenameColumnInCheck)
    (cluster : Cluster Table) (request : IndexRequest) : Prop :=
  ∀ plan, request.statement.plan request.choices cluster.catalog renameInCheck = some plan →
    plan.Keeps engine request.choices cluster

theorem indexStep_spec (sound : Sound cluster) :
    Sound (handleIndexRequest engine renameInCheck request cluster).2 ∧ (IndexesMatch cluster →
      (IndexesMatch (handleIndexRequest engine renameInCheck request cluster).2 ↔
        KeepsIndexes engine renameInCheck cluster request)) := by
  have runs : Runs engine request.choices cluster
      (request.statement.plan request.choices cluster.catalog renameInCheck)
      (handleIndexRequest engine renameInCheck request cluster).2 := runs_request sound
  unfold KeepsIndexes
  revert runs
  generalize (handleIndexRequest engine renameInCheck request cluster).2 = after
  cases request.statement.plan request.choices cluster.catalog renameInCheck with
  | none =>
    rintro rfl
    exact ⟨sound, fun holds => iff_of_true holds fun plan impossible => by cases impossible⟩
  | some plan =>
    rintro ⟨suits, opLabel, rfl⟩
    refine ⟨?_, fun holds => ?_⟩
    · obtain ⟨record, catalog, updated, run, _⟩ := IndexPlan.exists_updated suits sound
      rw [run]
      exact IndexPlan.sound_after sound suits updated
    rw [IndexPlan.indexesMatch_broadcast_iff sound suits holds]
    simp only [Option.some.injEq, forall_eq']

/-- Along every sequence of index statements, with any failures and retries, the
recorded indexes are those of the shards after each of them, exactly if every node
that executes a change matches what is recorded after it. -/
theorem indexesMatch_along_iff (engine : AlterEngine Table)
    (renameInCheck : RenameColumnInCheck) (sound : Sound cluster)
    (holds : IndexesMatch cluster) (requests : List IndexRequest) :
    Along (indexStep engine renameInCheck) (fun state request => ∀ after,
          indexStep engine renameInCheck state request = some after → IndexesMatch after)
        cluster requests ↔
      Along (indexStep engine renameInCheck) (KeepsIndexes engine renameInCheck) cluster
        requests := by
  have same : ∀ state request, Sound state ∧ IndexesMatch state →
      ((∀ after, indexStep engine renameInCheck state request = some after →
        IndexesMatch after) ↔ KeepsIndexes engine renameInCheck state request) := by
    rintro state request ⟨sound, holds⟩
    rw [← (indexStep_spec sound).2 holds]
    constructor
    · intro after
      exact after _ rfl
    · rintro after next ⟨⟩
      exact after
  refine along_congr (fun state => Sound state ∧ IndexesMatch state) same ?_ ⟨sound, holds⟩ requests
  intro state request next invariant keeps stepped
  refine ⟨?_, (same state request invariant).mpr keeps next stepped⟩
  cases stepped
  exact (indexStep_spec invariant.1).1

end Histories

theorem pairCluster_sound : Sound pairCluster where
  hosted := by
    intro tableName table stored
    by_cases same : tableName = "t"
    · subst same
      exact pairCluster_hosted
    · cases (AList.lookup_insert_ne same).symm.trans stored
  apart := by
    intro first firstTable second secondTable firstStored secondStored _
    have only : ∀ name table, pairCluster.catalog.getTable name = some table → name = "t" := by
      intro name table stored
      by_contra different
      cases (AList.lookup_insert_ne different).symm.trans stored
    rw [only first firstTable firstStored, only second secondTable secondStored]
  suffixed := fun _ _ _ impossible => by cases impossible

theorem pairCluster_indexesMatch : IndexesMatch pairCluster where
  recorded := by
    intro tableName table stored index member
    by_cases same : tableName = "t"
    · subst same
      cases stored
      cases member
    · cases (AList.lookup_insert_ne same).symm.trans stored
  enforced := fun _ _ _ _ _ _ _ _ _ _ _ impossible => by cases impossible

def createI (unique : Bool) (columns : List String) : IndexStatement :=
  .createIndex {
    name := some [Ident.new "i"]
    tableName := [Ident.new "t"]
    columns := columns.map fun column => .column (Ident.new column)
    unique := unique
    ifNotExists := false
    hasPredicate := false
    nullsDistinct := none }

/-- A statement whose send to the second node has the given delivery. -/
def pairIndexRequest (second : Delivery) (statement : IndexStatement) : IndexRequest where
  choices := (pairRequest second addW).choices
  statement := statement

/-- `ADD CONSTRAINT u UNIQUE (id)`. -/
def addU : IndexStatement :=
  .alterTable "t" false
    (.addConstraint (.unique (some (Ident.new "u")) [.column (Ident.new "id")] (.ok ())) false)

/-- An index that does not reach the second node is not recorded, and is recorded once
it is sent again.  A column is then added to a table with an index and a constraint. -/
theorem resent_index_matches : Along (indexStep columnEngine fun _ _ _ => none)
      (fun state request => ∀ after,
        indexStep columnEngine (fun _ _ _ => none) state request = some after →
        IndexesMatch after) pairCluster [pairIndexRequest .missed (createI false ["v"]),
        pairIndexRequest .answered (createI false ["v"]), pairIndexRequest .answered addU,
        pairIndexRequest .answered (.alterTable "t" false (.columnOps [addW]))] := by
  refine (indexesMatch_along_iff columnEngine _ pairCluster_sound pairCluster_indexesMatch
    _).mpr ⟨?_, fun _ first => ⟨?_, fun _ second => ⟨?_, fun _ third =>
      ⟨?_, fun _ _ => trivial⟩⟩⟩⟩
  · rintro plan ⟨⟩
    intro send sent executed
    refine ⟨fun _ => .inl rfl, fun _ unique => ?_⟩
    cases unique
  · cases first
    rintro plan ⟨⟩
    intro send sent executed
    refine ⟨fun _ => ?_, fun _ unique => ?_⟩
    · rcases mem_pair.mp sent with rfl | rfl
      · exact .inr rfl
      · exact .inl rfl
    · cases unique
  · cases first
    cases second
    rintro plan ⟨⟩
    intro send sent executed
    refine ⟨fun _ => .inl ?_, fun stops => absurd ⟨fun send sent => ?_, rfl⟩ stops⟩
    · rcases mem_pair.mp sent with rfl | rfl <;> rfl
    · rcases mem_pair.mp sent with rfl | rfl <;> exact ⟨rfl, rfl⟩
  · cases first
    cases second
    cases third
    rintro plan ⟨⟩
    intro send sent executed
    constructor <;> intro _ index member <;>
      rcases mem_pair.mp member with rfl | rfl <;> exact ⟨_, rfl, rfl, rfl⟩

/-- A recorded index that the first node has in another form. -/
theorem not_indexesMatch {cluster : Cluster (List String)} {table : TableMeta}
    (stored : cluster.catalog.getTable "t" = some table) (recorded : index ∈ recordedIndexes table)
    (listed : pairShard ∈ cluster.catalog.shardsForTable "t")
    (known : cluster.catalog.nodeAddress "n1" = some "a1")
    (other : (cluster.sites "a1").index (shardIndexName index.name 0) ≠
      some (shardIndexOf index "t" 0)) :
    ¬IndexesMatch cluster := by
  intro holds
  obtain ⟨address, also, there⟩ := holds.recorded "t" table stored index recorded pairShard
    listed "n1" (mem_cons_self ..)
  cases known.symm.trans also
  exact other there

/-- A `CREATE UNIQUE INDEX` that does not reach the second node leaves the first one
unique, and nothing is recorded.  An index that did not reach the second node is sent
again with other columns, and is then recorded with columns the first node's index
does not have.  A `DROP INDEX` that does not reach the second node leaves the index
recorded. -/
theorem failed_statements_leave_indexes : ¬Along (indexStep columnEngine fun _ _ _ => none)
        (fun state request => ∀ after,
          indexStep columnEngine (fun _ _ _ => none) state request = some after →
          IndexesMatch after) pairCluster [pairIndexRequest .missed (createI true ["id"])] ∧
      ¬Along (indexStep columnEngine fun _ _ _ => none) (fun state request => ∀ after,
          indexStep columnEngine (fun _ _ _ => none) state request = some after →
          IndexesMatch after) pairCluster [pairIndexRequest .missed (createI false ["v"]),
          pairIndexRequest .answered (createI false ["id", "v"])] ∧
      ¬Along (indexStep columnEngine fun _ _ _ => none) (fun state request => ∀ after,
          indexStep columnEngine (fun _ _ _ => none) state request = some after →
          IndexesMatch after) pairCluster [pairIndexRequest .answered (createI false ["v"]),
          pairIndexRequest .missed (.dropIndex "i" false)] := by
  refine ⟨?_, ?_, ?_⟩
  · rintro ⟨holds, _⟩
    obtain ⟨index, impossible, _⟩ := (holds _ rfl).enforced "t" pairTable rfl pairShard
      (mem_singleton_self _) "n1" (mem_cons_self ..) "a1" rfl "i_shard0"
      { table := "t_shard0", columns := ["id"], unique := true } rfl rfl rfl
    cases impossible
  · rintro ⟨_, rest⟩
    obtain ⟨holds, _⟩ := rest _ rfl
    have recorded : { name := "i", columns := ["id", "v"], unique := false } ∈
        recordedIndexes (pairTable.withIndex
          { name := "i", columns := ["id", "v"], unique := false }) :=
      mem_cons_self ..
    exact not_indexesMatch rfl recorded (mem_singleton_self _) rfl (by decide) (holds _ rfl)
  · rintro ⟨_, rest⟩
    obtain ⟨holds, _⟩ := rest _ rfl
    have recorded : { name := "i", columns := ["v"], unique := false } ∈
        recordedIndexes (pairTable.withIndex
          { name := "i", columns := ["v"], unique := false }) :=
      mem_cons_self ..
    exact not_indexesMatch rfl recorded (mem_singleton_self _) rfl (by decide) (holds _ rfl)

end VaireDb.Ddl
