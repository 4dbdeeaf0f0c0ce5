import VaireDb.Ddl.AlterTable
import VaireDb.Ddl.CreateBroadcast
import VaireDb.Ddl.ShardRecords
import VaireDb.Lib.Run

/-!
# Recorded columns on the shards

The record of a table is changed only after every node was seen to succeed, so an
added column is on every replica before it is recorded.  A column that is dropped or
renamed is taken off some replicas first.  If the statement then fails, it is still
recorded.

A name is matched exactly in the record and without regard to case on the nodes, so a
`DROP COLUMN IF EXISTS` that finds nothing in the record may take off a recorded
column everywhere.
-/

namespace VaireDb.Ddl

open Lib Sql Coordinator List ShardEngine
open ShardEngine (key)

variable {Table : Type} {op : AlterOperation}

namespace AlterOperation

/-- Whether a name is on a shard after an operation, given whether it was before. -/
def leaves (name : String) (there : Bool) : AlterOperation → Bool
  | addColumn column _ => there || name = key column.name.value
  | dropColumn columnNames _ =>
    there && name ∉ columnNames.map fun column => key column.value
  | renameColumn oldColumnName newColumnName =>
    name = key newColumnName.value ||
      there && name ≠ key oldColumnName.value
  | alterColumn _ _ => there
  | other _ => there

theorem leaves_mono {name : String}
    (introduced : op.leaves name false = true) : op.leaves name true = true := by
  cases op with
  | addColumn column ifNotExists => rfl
  | dropColumn columnNames ifExists => cases introduced
  | renameColumn oldName newName =>
    simp only [leaves, Bool.false_and, Bool.or_false] at introduced
    simp only [leaves, introduced, Bool.true_or]
  | alterColumn columnName op => rfl
  | other rendered => rfl

end AlterOperation

open AlterOperation (leaves)

/-- The name is on a shard after the operations, if it was before. -/
def remains (operations : List AlterOperation) (name : String) : Bool :=
  operations.foldl (fun there op => op.leaves name there) true

variable {name : String} {operations : List AlterOperation}

/-- Once an operation has introduced a name, it does not matter whether it was there
before. -/
theorem foldl_leaves_of_introduced
    (introduced : ∃ op ∈ operations, op.leaves name false = true) (there : Bool) :
    operations.foldl (fun there op => op.leaves name there) there = remains operations name := by
  unfold remains
  induction operations generalizing there with
  | nil =>
    obtain ⟨_, impossible, _⟩ := introduced
    cases impossible
  | cons op operations induction =>
    rw [foldl_cons, foldl_cons]
    by_cases here : op.leaves name false = true
    · have kept := AlterOperation.leaves_mono here
      cases there with
      | true => rfl
      | false => rw [here, kept]
    · have later : ∃ op ∈ operations, op.leaves name false = true := by
        obtain ⟨found, member, makes⟩ := introduced
        rcases mem_cons.mp member with rfl | inRest
        · exact absurd makes here
        · exact ⟨found, inRest, makes⟩
      rw [induction later (op.leaves name there), induction later (op.leaves name true)]

theorem mem_alteredColumns_iff {columns : List String}
    (present : ∀ oldName newName, op = .renameColumn oldName newName →
      key oldName.value ∈ columns) :
    name ∈ alteredColumns columns op ↔ op.leaves name (decide (name ∈ columns)) = true := by
  cases op with
  | addColumn column ifNotExists =>
    by_cases known : key column.name.value ∈ columns
    · simp only [alteredColumns, known, if_true, leaves, Bool.or_eq_true,
        decide_eq_true_eq]
      refine ⟨Or.inl, ?_⟩
      rintro (there | rfl)
      · exact there
      · exact known
    · simp [alteredColumns, known, leaves]
  | dropColumn columnNames ifExists => simp [alteredColumns, leaves]
  | renameColumn oldName newName =>
    have old := present oldName newName rfl
    simp only [alteredColumns, leaves, mem_map, Bool.or_eq_true,
      Bool.and_eq_true, decide_eq_true_eq]
    constructor
    · rintro ⟨column, member, rfl⟩
      split
      · exact .inl rfl
      · next other => exact .inr ⟨member, other⟩
    · rintro (rfl | ⟨member, other⟩)
      · exact ⟨_, old, if_pos rfl⟩
      · exact ⟨name, member, if_neg other⟩
  | alterColumn columnName op => simp [alteredColumns, leaves]
  | other rendered => simp [alteredColumns, leaves]

theorem AlterEngine.mem_columns_alterAll_iff (engine : AlterEngine Table)
    {indexed : Bool} {table after : Table}
    (altered : engine.alterAll operations indexed table = some after)
    (name : String) :
    name ∈ engine.columns after ↔ operations.foldl (fun there op => op.leaves name there)
        (decide (name ∈ engine.columns table)) = true := by
  induction operations generalizing table with
  | nil =>
    cases altered
    exact decide_eq_true_iff.symm
  | cons op operations induction =>
    unfold AlterEngine.alterAll at altered
    rw [foldlM_cons] at altered
    obtain ⟨next, stepped, rest⟩ := Option.bind_eq_some_iff.mp altered
    rw [induction rest, foldl_cons, engine.columns_alter indexed op table next stepped]
    have step : decide (name ∈ alteredColumns (engine.columns table) op) =
        op.leaves name (decide (name ∈ engine.columns table)) := by
      refine Bool.eq_iff_iff.mpr (decide_eq_true_iff.trans (mem_alteredColumns_iff ?_))
      rintro oldName newName rfl
      exact engine.renamed_present indexed oldName newName table next stepped
    rw [step]

/-- The names of a record's columns, as a node finds them. -/
def recordedKeys (table : TableMeta) : List String :=
  table.columns.map fun column => key column.name

theorem mem_recordedKeys {table : TableMeta} : name ∈ recordedKeys table ↔
      ∃ column ∈ table.columns, key column.name = name :=
  mem_map

variable {table after : TableMeta}

/-- The record keeps its table's name, has the same indexes by name and no new constraint
that is enforced by one, and a column's name was there before or is added. -/
structure Alters (added : String → Prop) (table after : TableMeta) : Prop where
  name : after.tableName = table.tableName
  indexes : after.indexes.map IndexMeta.name = table.indexes.map IndexMeta.name
  constraints : (after.constraints.filter fun constraint => constraint.indexBacked).map
      ConstraintMeta.name ⊆
    (table.constraints.filter fun constraint => constraint.indexBacked).map
      ConstraintMeta.name
  columns : ∀ name ∈ recordedKeys after, name ∈ recordedKeys table ∨ added name

namespace Alters

variable {added : String → Prop} {next : TableMeta} {old new : String}
  {renameInCheck : RenameColumnInCheck}

theorem refl (table : TableMeta) : Alters added table table :=
  ⟨rfl, rfl, Subset.refl _, fun _ => Or.inl⟩

theorem trans (first : Alters added table next) (second : Alters added next after) :
    Alters added table after :=
  ⟨second.name.trans first.name, second.indexes.trans first.indexes,
    Subset.trans second.constraints first.constraints,
    fun name member => (second.columns name member).elim (first.columns name) Or.inr⟩

theorem changeColumn {change : ColumnDef → ColumnDef}
    (changed : Ddl.changeColumn table name change = .ok after)
    (named : ∀ column, (change column).name = column.name ∨
      added (key (change column).name)) : Alters added table after := by
  unfold Ddl.changeColumn at changed
  split at changed <;> cases changed
  refine ⟨rfl, rfl, Subset.refl _, fun name member => ?_⟩
  obtain ⟨column, among, rfl⟩ := mem_recordedKeys.mp member
  obtain ⟨index, bound, rfl⟩ := getElem_of_mem among
  simp only [length_modify] at bound
  have old := mem_recordedKeys.mpr ⟨table.columns[index], getElem_mem bound, rfl⟩
  simp only [getElem_modify]
  split
  · rcases named table.columns[index] with same | new
    · exact .inl (same ▸ old)
    · exact .inr new
  · exact .inl old

theorem addColumn {column : NewColumn} {ifNotExists : Bool} (new : added (key column.name.value))
    (applied : applyAddColumn table column ifNotExists = .ok after) :
    Alters added table after := by
  unfold applyAddColumn at applied
  simp only at applied
  split at applied
  · split at applied <;> cases applied
    exact refl table
  · obtain ⟨_, _, applied⟩ := bind_eq_ok_iff.mp applied
    obtain ⟨_, _, applied⟩ := bind_eq_ok_iff.mp applied
    cases applied
    refine ⟨rfl, rfl, Subset.refl _, fun name member => ?_⟩
    rw [recordedKeys, map_append] at member
    refine (mem_append.mp member).imp_right fun last => ?_
    cases mem_singleton.mp last
    rwa [← key_canonicalizeIdent] at new

theorem dropColumn {ifExists : Bool} {columnName : Ident}
    (applied : applyDropColumn table ifExists columnName = .ok after) :
    Alters added table after := by
  unfold applyDropColumn at applied
  obtain ⟨_, _, applied⟩ := bind_eq_ok_iff.mp applied
  obtain ⟨_, _, applied⟩ := bind_eq_ok_iff.mp applied
  obtain ⟨_, _, applied⟩ := bind_eq_ok_iff.mp applied
  split at applied
  · cases applied
  split at applied
  · cases applied
    refine ⟨rfl, rfl, map_subset _ fun constraint member => ?_, fun name member => ?_⟩
    · obtain ⟨kept, backed⟩ := mem_filter.mp member
      exact mem_filter.mpr ⟨(mem_filter.mp kept).1, backed⟩
    · exact .inl (map_subset _ (eraseIdx_sublist _ _).subset member)
  · split at applied <;> cases applied
    exact refl table

theorem renameInIndexes : Alters added table (renameColumnInIndexes table old new) := by
  refine ⟨rfl, ?_, Subset.refl _, fun _ => Or.inl⟩
  unfold renameColumnInIndexes
  rw [map_map]
  rfl

theorem renameInConstraints :
    Alters added table (renameColumnInConstraints renameInCheck table old new) := by
  have kept : ∀ constraint, (renameColumnInConstraint renameInCheck old new constraint).name =
      constraint.name ∧ (renameColumnInConstraint renameInCheck old new constraint).indexBacked =
      constraint.indexBacked := by
    intro constraint
    unfold renameColumnInConstraint
    split <;> exact ⟨rfl, rfl⟩
  refine ⟨rfl, rfl, fun name member => ?_, fun _ => Or.inl⟩
  obtain ⟨renamed, among, rfl⟩ := mem_map.mp member
  obtain ⟨inRecord, backed⟩ := mem_filter.mp among
  obtain ⟨constraint, original, rfl⟩ := mem_map.mp inRecord
  rw [(kept constraint).2] at backed
  rw [(kept constraint).1]
  exact mem_map.mpr ⟨constraint, mem_filter.mpr ⟨original, backed⟩, rfl⟩

theorem renameColumn {oldName newName : Ident} (new : added (key newName.value))
    (applied : applyRenameColumn renameInCheck table oldName newName = .ok after) :
    Alters added table after := by
  unfold applyRenameColumn at applied
  obtain ⟨_, _, applied⟩ := bind_eq_ok_iff.mp applied
  obtain ⟨_, _, applied⟩ := bind_eq_ok_iff.mp applied
  obtain ⟨renamed, changed, applied⟩ := bind_eq_ok_iff.mp applied
  cases applied
  rw [← key_canonicalizeIdent] at new
  refine (changeColumn changed fun _ => .inr new).trans ?_
  refine Alters.trans ?_ renameInIndexes
  refine Alters.trans ?_ renameInConstraints
  split
  · exact ⟨rfl, rfl, Subset.refl _, fun _ => Or.inl⟩
  · exact refl renamed

theorem alterColumn {columnName : Ident} {op : AlterColumnOperation}
    (applied : applyAlterColumn table columnName op = .ok after) : Alters added table after := by
  unfold applyAlterColumn at applied
  obtain ⟨_, _, applied⟩ := bind_eq_ok_iff.mp applied
  obtain ⟨_, _, applied⟩ := bind_eq_ok_iff.mp applied
  cases op with
  | setDataType dataType typeCheck => exact changeColumn applied fun _ => .inl rfl
  | setNotNull => exact changeColumn applied fun _ => .inl rfl
  | dropNotNull => exact changeColumn applied fun _ => .inl rfl
  | setDefault value => exact changeColumn applied fun _ => .inl rfl
  | dropDefault => exact changeColumn applied fun _ => .inl rfl
  | other rendered =>
    obtain ⟨_, _, impossible⟩ := bind_eq_ok_iff.mp applied
    cases impossible

theorem operation (introduced : ∀ name, op.leaves name false = true → added name)
    (applied : applyAlterOperation renameInCheck table op = .ok after) :
    Alters added table after := by
  cases op with
  | addColumn column ifNotExists =>
    exact addColumn (introduced _ (by simp [leaves])) applied
  | dropColumn columnNames ifExists =>
    exact foldlM_ok_invariant (Alters added table) (fun before _ next _ holds stepped => holds.trans
      (dropColumn stepped)) (refl table) applied
  | renameColumn oldName newName =>
    exact renameColumn (introduced _ (by simp [leaves])) applied
  | alterColumn columnName op => exact alterColumn applied
  | other rendered => cases applied

/-- A name a record has after the operations was there before or is introduced by one
of them. -/
theorem ofOperations
    (applied : operations.foldlM (applyAlterOperation renameInCheck) table = .ok after) :
    Alters (fun name => ∃ op ∈ operations, op.leaves name false = true) table after :=
  foldlM_ok_invariant (Alters _ table) (fun _ op _ among holds stepped => holds.trans
      (operation (fun _ introduced => ⟨op, among, introduced⟩) stepped)) (refl table) applied

end Alters

/-- The names a record has after an operation.  They are matched as they are spelled. -/
def recordedAfter (names : List String) : AlterOperation → List String
  | .addColumn column _ =>
    if canonicalizeIdent column.name ∈ names then names
    else names ++ [canonicalizeIdent column.name]
  | .dropColumn columnNames _ =>
    columnNames.foldl (fun names name => names.erase (canonicalizeIdent name)) names
  | .renameColumn oldColumnName newColumnName =>
    names.replace (canonicalizeIdent oldColumnName) (canonicalizeIdent newColumnName)
  | .alterColumn _ _ => names
  | .other _ => names

section Names

variable {columns : List ColumnDef} {position : Nat} {renameInCheck : RenameColumnInCheck}

theorem names_eraseIdx (found : columns.findIdx? (fun column => column.name = name) =
    some position) : (columns.eraseIdx position).map ColumnDef.name =
      (columns.map ColumnDef.name).erase name := by
  induction columns generalizing position with
  | nil => cases found
  | cons column columns induction =>
    rw [findIdx?_cons] at found
    by_cases same : column.name = name
    · rw [if_pos (decide_eq_true same)] at found
      cases found
      simp [same]
    · rw [if_neg (by simpa using same)] at found
      obtain ⟨later, known, rfl⟩ := Option.map_eq_some_iff.mp found
      simp [induction known, same]

theorem names_modify {new : String} {change : ColumnDef → ColumnDef}
    (found : columns.findIdx? (fun column => column.name = name) = some position)
    (renamed : ∀ column, column.name = name → (change column).name = new) :
    (columns.modify position change).map ColumnDef.name =
      (columns.map ColumnDef.name).replace name new := by
  induction columns generalizing position with
  | nil => cases found
  | cons column columns induction =>
    rw [findIdx?_cons] at found
    by_cases same : column.name = name
    · rw [if_pos (decide_eq_true same)] at found
      cases found
      simp [same, renamed]
    · rw [if_neg (by simpa using same)] at found
      obtain ⟨later, known, rfl⟩ := Option.map_eq_some_iff.mp found
      have other : (name == column.name) = false := beq_false_of_ne (Ne.symm same)
      simp [replace_cons, other, induction known]

theorem names_changeColumn {new : String} {change : ColumnDef → ColumnDef}
    (changed : changeColumn table name change = .ok after)
    (renamed : ∀ column, column.name = name → (change column).name = new) :
    after.columns.map ColumnDef.name = (table.columns.map ColumnDef.name).replace name new := by
  unfold changeColumn at changed
  split at changed <;> cases changed
  next found => exact names_modify found renamed

theorem names_kept {change : ColumnDef → ColumnDef}
    (changed : changeColumn table name change = .ok after)
    (same : ∀ column, (change column).name = column.name) :
    after.columns.map ColumnDef.name = table.columns.map ColumnDef.name := by
  unfold changeColumn at changed
  split at changed <;> cases changed
  refine ext_getElem (by simp) fun index _ _ => ?_
  simp only [getElem_map, getElem_modify]
  split
  · exact same _
  · rfl

theorem names_dropColumn {ifExists : Bool} {columnName : Ident}
    (applied : applyDropColumn table ifExists columnName = .ok after) :
    after.columns.map ColumnDef.name =
      (table.columns.map ColumnDef.name).erase (canonicalizeIdent columnName) := by
  unfold applyDropColumn at applied
  obtain ⟨_, _, applied⟩ := bind_eq_ok_iff.mp applied
  obtain ⟨_, _, applied⟩ := bind_eq_ok_iff.mp applied
  obtain ⟨_, _, applied⟩ := bind_eq_ok_iff.mp applied
  split at applied
  · cases applied
  split at applied
  · next position found =>
    cases applied
    exact names_eraseIdx found
  · next missing =>
    split at applied <;> cases applied
    refine (erase_of_not_mem fun member => ?_).symm
    obtain ⟨column, among, same⟩ := mem_map.mp member
    simpa [same] using findIdx?_eq_none_iff.mp missing column among

theorem names_dropColumns {ifExists : Bool} {columnNames : List Ident}
    (applied : columnNames.foldlM (fun table name => applyDropColumn table ifExists name) table =
      .ok after) : after.columns.map ColumnDef.name =
      columnNames.foldl (fun names name => names.erase (canonicalizeIdent name))
        (table.columns.map ColumnDef.name) := by
  induction columnNames generalizing table with
  | nil =>
    cases applied
    rfl
  | cons columnName columnNames induction =>
    rw [foldlM_cons] at applied
    obtain ⟨next, stepped, rest⟩ := bind_eq_ok_iff.mp applied
    rw [induction rest, names_dropColumn stepped, foldl_cons]

theorem names_addColumn {column : NewColumn} {ifNotExists : Bool}
    (applied : applyAddColumn table column ifNotExists = .ok after) :
    after.columns.map ColumnDef.name =
      recordedAfter (table.columns.map ColumnDef.name) (.addColumn column ifNotExists) := by
  have recorded : canonicalizeIdent column.name ∈ table.columns.map ColumnDef.name ↔
      table.columns.any (fun existing => existing.name = canonicalizeIdent column.name) = true := by
    simp
  unfold applyAddColumn at applied
  simp only at applied
  split at applied
  · next there =>
    split at applied <;> cases applied
    exact (if_pos (recorded.mpr there)).symm
  · next new =>
    obtain ⟨_, _, applied⟩ := bind_eq_ok_iff.mp applied
    obtain ⟨_, _, applied⟩ := bind_eq_ok_iff.mp applied
    cases applied
    refine Eq.trans ?_ (if_neg fun there => new (recorded.mp there)).symm
    rw [map_append]
    rfl

theorem names_alterColumn {columnName : Ident} {change : AlterColumnOperation}
    (applied : applyAlterColumn table columnName change = .ok after) :
    after.columns.map ColumnDef.name = table.columns.map ColumnDef.name := by
  unfold applyAlterColumn at applied
  obtain ⟨_, _, applied⟩ := bind_eq_ok_iff.mp applied
  obtain ⟨_, _, applied⟩ := bind_eq_ok_iff.mp applied
  cases change with
  | setDataType dataType typeCheck => exact names_kept applied fun _ => rfl
  | setNotNull => exact names_kept applied fun _ => rfl
  | dropNotNull => exact names_kept applied fun _ => rfl
  | setDefault value => exact names_kept applied fun _ => rfl
  | dropDefault => exact names_kept applied fun _ => rfl
  | other rendered =>
    obtain ⟨_, _, impossible⟩ := bind_eq_ok_iff.mp applied
    cases impossible

theorem names_operation (applied : applyAlterOperation renameInCheck table op = .ok after) :
    after.columns.map ColumnDef.name = recordedAfter (table.columns.map ColumnDef.name) op := by
  cases op with
  | addColumn column ifNotExists => exact names_addColumn applied
  | dropColumn columnNames ifExists => exact names_dropColumns applied
  | renameColumn oldName newName =>
    unfold applyAlterOperation applyRenameColumn at applied
    obtain ⟨_, _, applied⟩ := bind_eq_ok_iff.mp applied
    obtain ⟨_, _, applied⟩ := bind_eq_ok_iff.mp applied
    obtain ⟨renamed, changed, applied⟩ := bind_eq_ok_iff.mp applied
    cases applied
    refine Eq.trans ?_ (names_changeColumn changed fun _ _ => rfl)
    unfold renameColumnInIndexes renameColumnInConstraints
    split <;> rfl
  | alterColumn columnName change => exact names_alterColumn applied
  | other rendered => cases applied

/-- The names recorded after the operations are found from the old ones. -/
theorem names_operations
    (applied : operations.foldlM (applyAlterOperation renameInCheck) table = .ok after) :
    after.columns.map ColumnDef.name =
      operations.foldl recordedAfter (table.columns.map ColumnDef.name) := by
  induction operations generalizing table with
  | nil =>
    cases applied
    rfl
  | cons op operations induction =>
    rw [foldlM_cons] at applied
    obtain ⟨next, stepped, rest⟩ := bind_eq_ok_iff.mp applied
    rw [induction rest, names_operation stepped, foldl_cons]

end Names

/-- Every column is on every replica of every shard. -/
def PresentFor (engine : AlterEngine Table) (tableName : String) (columns : List ColumnDef)
    (cluster : Cluster Table) : Prop :=
  ∀ column ∈ columns, ∀ shard ∈ cluster.catalog.shardsForTable tableName,
    ∀ nodeId ∈ shard.nodes, ∃ address stored, cluster.catalog.nodeAddress nodeId = some address ∧
      shardTable tableName shard (cluster.sites address) = some stored ∧
      key column.name ∈ engine.columns stored

/-- Every recorded column is on every replica of every shard. -/
def ColumnsPresent (engine : AlterEngine Table) (tableName : String)
    (cluster : Cluster Table) : Prop :=
  ∀ table, cluster.catalog.getTable tableName = some table →
    PresentFor engine tableName table.columns cluster

/-- The table's records are its own, and its replicas' nodes are registered. -/
structure Hosted (tableName : String) (cluster : Cluster Table) : Prop where
  named : ∀ table, cluster.catalog.getTable tableName = some table → table.tableName = tableName
  own : OwnShards cluster.catalog tableName
  addressed : ∀ shard ∈ cluster.catalog.shardsForTable tableName, ∀ nodeId ∈ shard.nodes,
    (cluster.catalog.nodeAddress nodeId).isSome = true

structure AlterRequest where
  choices : AlterChoices
  ifExists : Bool
  operations : List AlterOperation

section Statement

variable (engine : AlterEngine Table) (renameInCheck : RenameColumnInCheck) (tableName : String)

def alterStep (cluster : Cluster Table) (request : AlterRequest) : Option (Cluster Table) :=
  some (handleAlterColumns engine renameInCheck request.choices tableName request.ifExists
    request.operations cluster).2

/-- The statement gets as far as its broadcast. -/
structure SendsAlter (request : AlterRequest) (cluster : Cluster Table)
    (table altered : TableMeta) : Prop where
  read : request.choices.faults .getTable = none
  found : cluster.catalog.getTable tableName = some table
  applied : request.operations.foldlM (applyAlterOperation renameInCheck) table = .ok altered
  listed : request.choices.faults .shardsForTable = none
  addressed : request.choices.faults .nodeAddressMap = none

variable {engine renameInCheck tableName} {request : AlterRequest} {cluster : Cluster Table}
  {table altered : TableMeta}

theorem handle_of_not_sends (silent : ∀ table altered,
      ¬SendsAlter renameInCheck tableName request cluster table altered) :
    (handleAlterColumns engine renameInCheck request.choices tableName request.ifExists
      request.operations cluster).2 = cluster := by
  unfold handleAlterColumns Faults.guard
  cases read : request.choices.faults .getTable with
  | some fault => rfl
  | none =>
    cases found : cluster.catalog.getTable tableName with
    | none =>
      simp only
      split <;> rfl
    | some table =>
      simp only [alterColumns, placement, Faults.guard, bind, Except.bind]
      cases applied : request.operations.foldlM (applyAlterOperation renameInCheck) table with
      | error error => rfl
      | ok altered =>
        cases listed : request.choices.faults .shardsForTable with
        | some fault => rfl
        | none =>
          cases addressed : request.choices.faults .nodeAddressMap with
          | some fault => rfl
          | none =>
            exact absurd ⟨read, found, applied, listed, addressed⟩ (silent table altered)

/-- The statement takes no name off a shard that is recorded afterwards.  What is
recorded afterwards are the names the operations make of the old ones if every node was
seen to succeed and the record can be stored, and the old ones if not. -/
def KeepsRecorded (engine : AlterEngine Table) (renameInCheck : RenameColumnInCheck)
    (tableName : String) (cluster : Cluster Table) (request : AlterRequest) : Prop :=
  ∀ table altered, SendsAlter renameInCheck tableName request cluster table altered →
    ExecutedSomewhere request.choices (cluster.catalog.shardsForTable tableName)
      (alterStatements engine request.operations table altered tableName) cluster →
    (Completes request.choices (cluster.catalog.shardsForTable tableName)
      (alterStatements engine request.operations table altered tableName) cluster →
      ∀ name ∈ request.operations.foldl recordedAfter (table.columns.map ColumnDef.name),
        remains request.operations (key name) = true) ∧
    (¬Completes request.choices (cluster.catalog.shardsForTable tableName)
      (alterStatements engine request.operations table altered tableName) cluster →
      ∀ name ∈ table.columns.map ColumnDef.name,
        remains request.operations (key name) = true)

def alterEffect (engine : AlterEngine Table) (operations : List AlterOperation)
    (_ : ShardMeta) (before after : Option Table) : Prop :=
  ∃ indexed found changed, before = some found ∧
    engine.alterAll operations indexed found = some changed ∧ after = some changed

/-- A recorded name is on a shard after the operations exactly if they leave it. -/
theorem mem_changed_iff {indexed : Bool} {found changed : Table}
    (accepted : engine.alterAll operations indexed found = some changed)
    (present : ∀ name ∈ recordedKeys table, name ∈ engine.columns found)
    (gained : name ∈ recordedKeys table ∨ ∃ op ∈ operations, op.leaves name false = true) :
    name ∈ engine.columns changed ↔ remains operations name = true := by
  rw [engine.mem_columns_alterAll_iff accepted]
  rcases gained with old | introduced
  · rw [decide_eq_true (present name old)]
    rfl
  · rw [foldl_leaves_of_introduced introduced]

theorem recorded_present {shard : ShardMeta} {nodeId address : String} {found : Table}
    (present : PresentFor engine tableName table.columns cluster)
    (member : shard ∈ cluster.catalog.shardsForTable tableName) (among : nodeId ∈ shard.nodes)
    (known : cluster.catalog.nodeAddress nodeId = some address)
    (there : shardTable tableName shard (cluster.sites address) = some found) :
    ∀ name ∈ recordedKeys table, name ∈ engine.columns found := by
  intro name inKeys
  obtain ⟨column, inColumns, rfl⟩ := mem_recordedKeys.mp inKeys
  obtain ⟨other, stored, also, holds, kept⟩ :=
    present column inColumns shard member nodeId among
  cases known.symm.trans also
  cases there.symm.trans holds
  exact kept

/-- After the broadcast, some names are everywhere exactly if the operations leave
them, provided a node that has not executed the operations has the names. -/
theorem presentFor_after_iff (request : AlterRequest) (altered : TableMeta)
    (hosted : Hosted tableName cluster)
    (present : PresentFor engine tableName table.columns cluster) (columns : List ColumnDef)
    (gained : ∀ column ∈ columns, key column.name ∈ recordedKeys table ∨
      ∃ op ∈ request.operations, op.leaves (key column.name) false = true)
    (unexecuted : (∀ column ∈ columns, column ∈ table.columns) ∨
      ∀ send ∈ sendsOf cluster.catalog request.choices.delivery
        (cluster.catalog.shardsForTable tableName),
        (statementExchange request.choices (cluster.catalog.shardsForTable tableName)
          (alterStatements engine request.operations table altered tableName)
          cluster).Executed send.label send.site) :
    PresentFor engine tableName columns { cluster with
        sites := (statementExchange request.choices (cluster.catalog.shardsForTable tableName)
          (alterStatements engine request.operations table altered tableName) cluster).sites } ↔
      (ExecutedSomewhere request.choices (cluster.catalog.shardsForTable tableName)
          (alterStatements engine request.operations table altered tableName) cluster →
        ∀ column ∈ columns, remains request.operations (key column.name) = true) := by
  have follows : Follows (· ∈ cluster.catalog.shardsForTable tableName)
      (alterEffect engine request.operations) (shardTable tableName) cluster.sites
      (statementExchange request.choices (cluster.catalog.shardsForTable tableName)
        (alterStatements engine request.operations table altered tableName) cluster) :=
    Follows.sendAll
      { own := fun _ _ _ _ executed => (executeBatch_rebuild executed).1
        others := fun _ _ member alsoMember different _ _ executed =>
          (executeBatch_rebuild executed).2 _
            (key_shardTableName_ne hosted.own.distinct member alsoMember different) }
      (Follows.start cluster.sites) fun _ => label_mem_of_mem_sendsOf
  constructor
  · rintro after ⟨send, sent, executed⟩ column inColumns
    obtain ⟨shard, member, nodeId, position, address, indexed, known, rfl⟩ :=
      mem_sendsOf.mp sent
    have among : nodeId ∈ shard.nodes := mem_of_getElem? indexed
    obtain ⟨_, found, changed, there, accepted, left⟩ := follows.executed _ _ member executed
    obtain ⟨other, stored, also, holds, kept⟩ :=
      after column inColumns shard member nodeId among
    cases known.symm.trans also
    cases left.symm.trans holds
    exact (mem_changed_iff accepted (recorded_present present member among known there)
      (gained column inColumns)).mp kept
  · intro keeps column inColumns shard member nodeId among
    obtain ⟨address, known⟩ := Option.isSome_iff_exists.mp
      (hosted.addressed shard member nodeId among)
    obtain ⟨send, sent, rfl, rfl⟩ := exists_send request.choices.delivery member among known
    by_cases executed : (statementExchange request.choices
        (cluster.catalog.shardsForTable tableName)
        (alterStatements engine request.operations table altered tableName)
        cluster).Executed send.label send.site
    · obtain ⟨_, found, changed, there, accepted, left⟩ := follows.executed _ _ member executed
      refine ⟨send.site, changed, known, left, ?_⟩
      exact (mem_changed_iff accepted (recorded_present present member among known there)
        (gained column inColumns)).mpr (keeps ⟨send, sent, executed⟩ column inColumns)
    · rcases unexecuted with old | everyone
      · obtain ⟨other, stored, also, holds, kept⟩ :=
          present column (old column inColumns) send.label member nodeId among
        cases known.symm.trans also
        exact ⟨send.site, stored, known, (follows.unexecuted _ _ member executed).trans holds, kept⟩
      · exact absurd (everyone send sent) executed

theorem alterStep_spec (hosted : Hosted tableName cluster)
    (present : ColumnsPresent engine tableName cluster) :
    Hosted tableName (handleAlterColumns engine renameInCheck
        request.choices tableName request.ifExists request.operations cluster).2 ∧
      (ColumnsPresent engine tableName (handleAlterColumns engine renameInCheck
          request.choices tableName request.ifExists request.operations cluster).2 ↔
        KeepsRecorded engine renameInCheck tableName cluster request) := by
  by_cases sent : ∃ table altered, SendsAlter renameInCheck tableName request cluster table altered
  · obtain ⟨table, altered, sends⟩ := sent
    have alters := Alters.ofOperations sends.applied
    have name := alters.name.trans (hosted.named table sends.found)
    have before : PresentFor engine tableName table.columns cluster :=
      present table sends.found
    have sole : KeepsRecorded engine renameInCheck tableName cluster request ↔ _ :=
      ⟨fun keeps => keeps table altered sends, fun keeps other also otherSends => by
        cases sends.found.symm.trans otherSends.found
        cases sends.applied.symm.trans otherSends.applied
        exact keeps⟩
    simp only [handleAlterColumns, alterColumns, placement, Faults.guard, sends.read, sends.found,
      sends.applied, sends.listed, sends.addressed, bind, Except.bind, pure, Except.pure, sole]
    by_cases completes : Completes request.choices (cluster.catalog.shardsForTable tableName)
        (alterStatements engine request.operations table altered tableName) cluster
    · rw [broadcastAndRecord_of_completes _ _ completes]
      have stored : ∀ found, (cluster.catalog.putTable altered).getTable tableName = some found →
          found = altered := by
        rw [← name]
        exact fun found there => Option.some.inj (there.symm.trans (AList.lookup_insert _))
      have whole := presentFor_after_iff request altered hosted before altered.columns
        (fun column member => alters.columns _ (mem_recordedKeys.mpr ⟨column, member, rfl⟩))
        (.inr fun send member => (completes.answered send member).2)
      refine ⟨⟨fun found there => ?_, hosted.own, hosted.addressed⟩, ?_, ?_⟩
      · rwa [stored found there]
      · intro after executed
        rw [← names_operations sends.applied]
        refine ⟨fun _ => forall_mem_map.mpr (whole.mp (after altered ?_) executed),
          fun stops => absurd completes stops⟩
        rw [← name]
        exact AList.lookup_insert _
      · intro keeps found also
        rw [stored found also]
        rw [← names_operations sends.applied] at keeps
        exact whole.mpr fun executed => forall_mem_map.mp ((keeps executed).1 completes)
    · obtain ⟨error, run⟩ := broadcastAndRecord_of_not_completes "ALTER TABLE" altered completes
      rw [run]
      have whole := presentFor_after_iff request altered hosted before table.columns (fun column
        member => .inl (mem_recordedKeys.mpr ⟨column, member, rfl⟩)) (.inl fun _ => id)
      refine ⟨⟨hosted.named, hosted.own, hosted.addressed⟩, ?_, ?_⟩
      · intro after executed
        exact ⟨fun done => absurd done completes,
          fun _ => forall_mem_map.mpr (whole.mp (after table sends.found) executed)⟩
      · intro keeps found also
        cases sends.found.symm.trans also
        exact whole.mpr fun executed => forall_mem_map.mp ((keeps executed).2 completes)
  · simp only [not_exists] at sent
    rw [handle_of_not_sends sent]
    exact ⟨hosted, iff_of_true present fun table altered sends => absurd sends (sent table altered)⟩

/-- Along every sequence of statements the recorded columns are on every replica
after each of them, exactly if no statement takes a name off a shard that is recorded
afterwards. -/
theorem columnsPresent_along_iff (engine : AlterEngine Table)
    (renameInCheck : RenameColumnInCheck) (hosted : Hosted tableName cluster)
    (present : ColumnsPresent engine tableName cluster) (requests : List AlterRequest) :
    Along (alterStep engine renameInCheck tableName) (fun state request => ∀ after,
          alterStep engine renameInCheck tableName state request = some after →
          ColumnsPresent engine tableName after) cluster requests ↔
      Along (alterStep engine renameInCheck tableName)
        (KeepsRecorded engine renameInCheck tableName) cluster requests := by
  have same : ∀ state request, Hosted tableName state ∧ ColumnsPresent engine tableName state →
      ((∀ after, alterStep engine renameInCheck tableName state request = some after →
        ColumnsPresent engine tableName after) ↔
        KeepsRecorded engine renameInCheck tableName state request) := by
    rintro state request ⟨hosted, present⟩
    rw [← (alterStep_spec hosted present).2]
    exact ⟨fun after => after _ rfl, fun after next stepped => by cases stepped; exact after⟩
  refine along_congr (fun state => Hosted tableName state ∧
    ColumnsPresent engine tableName state) same ?_ ⟨hosted, present⟩ requests
  intro state request next holds keeps stepped
  refine ⟨?_, (same state request holds).mpr keeps next stepped⟩
  cases stepped
  exact (alterStep_spec holds.1 holds.2).1

end Statement

/-- A table that has an index takes a new column and a new default alone. -/
def AlterOperation.allowed (indexed : Bool) (columns : List String) : AlterOperation → Bool
  | addColumn column ifNotExists => ifNotExists || key column.name.value ∉ columns
  | dropColumn columnNames ifExists =>
    !indexed && (ifExists || columnNames.all fun name => key name.value ∈ columns)
  | renameColumn oldName newName =>
    !indexed && key oldName.value ∈ columns && key newName.value ∉ columns
  | alterColumn columnName op =>
    (!indexed || op.indexedVerb.isNone) && key columnName.value ∈ columns
  | other _ => false

/-- Tables that are no more than their columns. -/
def columnEngine : AlterEngine (List String) where
  columns := id
  alter := fun indexed op columns =>
    if op.allowed indexed columns then some (alteredColumns columns op) else none
  columns_alter := by
    intro indexed op columns after altered
    obtain ⟨_, same⟩ := Option.ite_none_right_eq_some.mp altered
    exact (Option.some.inj same).symm
  renamed_present := by
    intro indexed oldName newName columns after altered
    obtain ⟨allowed, _⟩ := Option.ite_none_right_eq_some.mp altered
    simp only [AlterOperation.allowed, Bool.and_eq_true, decide_eq_true_eq] at allowed
    exact allowed.1.2

def pairTable : TableMeta where
  tableName := "t"
  columns := [
    { name := "id", dataType := "BIGINT", nullable := true, defaultExpr := "" },
    { name := "v", dataType := "BIGINT", nullable := true, defaultExpr := "" }]
  shardKey := "id"
  shardCount := 1
  replicationFactor := 2
  anonymizedColumns := []
  indexes := []
  constraints := []

def pairShard : ShardMeta where
  shardId := "shard0"
  tableName := "t"
  primaryNodeId := "n1"
  replicaNodeIds := ["n2"]
  hashBucket := 0

/-- A table whose shard is on two nodes. -/
def pairCluster : Cluster (List String) where
  catalog := { Catalog.empty with
    tables := AList.insert "t" pairTable ∅
    shards := AList.insert "t:shard0" pairShard ∅
    nodes := AList.insert "n1" (liveNode "n1" "a1") (AList.insert "n2" (liveNode "n2" "a2") ∅) }
  sites := fun _ => { tables := AList.insert "t_shard0" ["id", "v"] ∅, indexes := ∅ }

/-- A statement whose send to the second node has the given delivery. -/
def pairRequest (second : Delivery) (op : AlterOperation) : AlterRequest where
  choices := {
    faults := fun _ => none
    delivery := fun _ position => if position = 0 then .answered else second }
  ifExists := false
  operations := [op]

theorem pairCluster_hosted : Hosted "t" pairCluster where
  named := by
    rintro table ⟨⟩
    rfl
  own := by
    intro key shard _ stored
    by_cases same : key = "t:shard0"
    · subst same
      cases stored
      exact ⟨rfl, rfl, rfl⟩
    · have absent : pairCluster.catalog.shards.lookup key = none :=
        (AList.lookup_insert_ne same).trans rfl
      cases absent.symm.trans stored
  addressed := by
    intro shard member nodeId among
    cases mem_singleton.mp (member : shard ∈ [pairShard])
    rcases mem_pair.mp (among : nodeId ∈ ["n1", "n2"]) with rfl | rfl <;> rfl

theorem pairCluster_present : ColumnsPresent columnEngine "t" pairCluster := by
  intro table found column inColumns shard member nodeId among
  cases found
  cases mem_singleton.mp (member : shard ∈ [pairShard])
  have there : key column.name ∈ ["id", "v"] := by
    rcases mem_pair.mp inColumns with rfl | rfl <;> decide
  rcases mem_pair.mp (among : nodeId ∈ ["n1", "n2"]) with rfl | rfl
  · exact ⟨"a1", ["id", "v"], rfl, rfl, there⟩
  · exact ⟨"a2", ["id", "v"], rfl, rfl, there⟩

/-- `ADD COLUMN IF NOT EXISTS w BIGINT`. -/
def addW : AlterOperation :=
  .addColumn {
    name := Ident.new "w", dataType := "BIGINT", notNull := false
    typeCheck := .ok (), collationCheck := .ok () } true

/-- An added column that does not reach the second node is not recorded, and one that
is sent again is. -/
theorem added_column_is_present : Along (alterStep columnEngine (fun _ _ _ => none) "t")
      (fun state request => ∀ after,
        alterStep columnEngine (fun _ _ _ => none) "t" state request = some after →
        ColumnsPresent columnEngine "t" after) pairCluster
      [pairRequest .missed addW, pairRequest .answered addW] := by
  refine (columnsPresent_along_iff columnEngine _ pairCluster_hosted pairCluster_present _).mpr ?_
  have keeps : ∀ state delivery, KeepsRecorded columnEngine (fun _ _ _ => none) "t" state
      (pairRequest delivery addW) :=
    fun _ _ _ _ _ _ => ⟨fun _ _ _ => rfl, fun _ _ _ => rfl⟩
  exact ⟨keeps _ _, fun _ _ => ⟨keeps _ _, fun _ _ => trivial⟩⟩

theorem missing_of_stored {cluster : Cluster (List String)}
    (recorded : cluster.catalog.getTable "t" = some pairTable)
    (listed : pairShard ∈ cluster.catalog.shardsForTable "t")
    (known : cluster.catalog.nodeAddress "n1" = some "a1")
    (left : shardTable "t" pairShard (cluster.sites "a1") = some ["id"]) :
    ¬ColumnsPresent columnEngine "t" cluster := by
  intro present
  obtain ⟨address, stored, also, there, kept⟩ := present pairTable recorded
    pairTable.columns[1] (getElem_mem _) pairShard listed "n1" (mem_cons_self ..)
  cases known.symm.trans also
  cases left.symm.trans there
  revert kept
  decide

/-- A dropped column that does not reach the second node is still recorded, and is no
longer on the first.  A `DROP COLUMN IF EXISTS "V"` that reaches both takes `v` off
them and leaves it recorded. -/
theorem dropped_column_is_missing : ¬Along (alterStep columnEngine (fun _ _ _ => none) "t")
        (fun state request => ∀ after,
          alterStep columnEngine (fun _ _ _ => none) "t" state request = some after →
          ColumnsPresent columnEngine "t" after) pairCluster
        [pairRequest .missed (.dropColumn [Ident.new "v"] false)] ∧
      ¬Along (alterStep columnEngine (fun _ _ _ => none) "t") (fun state request => ∀ after,
          alterStep columnEngine (fun _ _ _ => none) "t" state request = some after →
          ColumnsPresent columnEngine "t" after) pairCluster
        [pairRequest .answered (.dropColumn [{ value := "V", quoted := true }] true)] := by
  constructor
  · rintro ⟨present, _⟩
    exact missing_of_stored rfl (mem_singleton_self _) rfl rfl (present _ rfl)
  · rintro ⟨present, _⟩
    exact missing_of_stored rfl (mem_singleton_self _) rfl rfl (present _ rfl)

end VaireDb.Ddl
