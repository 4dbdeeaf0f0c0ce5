import VaireDb.Anonymization.Rewrite
import VaireDb.Coordinator.PlanDml

/-!
# The plan of a client's write

The whole of `plan_dml`, from the statement the client sent: a positional `INSERT`
gets the leading columns of the table, the values of pseudonymized columns are
replaced by digests, the shard-key and `ON CONFLICT` rules are checked, and what is
left is planned.
-/

namespace VaireDb.Coordinator

open Routing Sql Anonymization

/-- What the catalog knows of the target's columns. -/
structure TableSchema where
  columns : List String
  anonymized : AnonymizedColumns

def quotedColumnNames (columns : List String) : List ObjectName :=
  columns.map fun column => [{ value := column, quoted := true }]

def materializeInsertColumnsForArity (insert : Insert Expr)
    (tableColumns : List String) (arity : Nat) : Except String (Insert Expr) :=
  if !insert.columns.isEmpty || tableColumns.isEmpty || arity = 0 then
    .ok insert
  else if tableColumns.length < arity then
    .error ("INSERT has more expressions than target columns: " ++ toString arity ++
      " values for a table with " ++ toString tableColumns.length ++ " columns")
  else
    .ok { insert with columns := quotedColumnNames (tableColumns.take arity) }

def materializeInsertColumns (insert : Insert Expr) (tableColumns : List String) :
    Except String (Insert Expr) :=
  match insert.source with
  | .values (first :: rows) =>
    if !insert.columns.isEmpty then
      .ok insert
    else if rows.any fun row => row.length ≠ first.length then
      .error "VALUES lists must all be the same length"
    else
      materializeInsertColumnsForArity insert tableColumns first.length
  | _ => .ok insert

section Conflicts

variable (display : SqlDisplay)

/-- The arbiter of a conflict decides it on one shard. -/
def validateConflictTarget (shardKey : String) : ConflictTarget → Except String Unit
  | .unspecified => .ok ()
  | .duplicateKey =>
    .error ("ON DUPLICATE KEY UPDATE is not supported by VaireDB; use " ++
      "ON CONFLICT (<shard key>) DO UPDATE")
  | .columns names =>
    if names.any fun name => canonicalizeIdent name = shardKey then
      .ok ()
    else
      .error ("ON CONFLICT (" ++ String.intercalate ", " (names.map canonicalizeIdent) ++
        ") cannot be honored: the conflict target must include shard key " ++
        "column \"" ++ shardKey ++ "\". A unique index exists once per shard, " ++
        "so rows with different shard keys never conflict with each other and " ++
        "the upsert would silently insert a duplicate instead")
  | .onConstraint name =>
    .error ("ON CONFLICT ON CONSTRAINT " ++ display.expr (.compoundIdentifier name) ++
      " is not supported by VaireDB; name the conflicting columns instead, " ++
      "including shard key column \"" ++ shardKey ++ "\"")

def validateOnConflict (insert : Insert Expr) (shardKey : String) : Except String Unit :=
  match insert.onConflict with
  | none => .ok ()
  | some action =>
    match validateConflictTarget display shardKey insert.conflictTarget with
    | .error message => .error message
    | .ok _ =>
      match action with
      | .doNothing => .ok ()
      | .doUpdate assignments _ =>
        if assignmentsTargetShardKey assignments shardKey then
          .error ("ON CONFLICT ... DO UPDATE cannot assign shard key column \""
            ++ shardKey ++ "\"; relocating a row to a different shard is " ++
            "not supported in v0.1")
        else
          .ok ()

end Conflicts

section Plan

variable (display : SqlDisplay) (hmac : String → String → String)
  (resolver : String → Option Secret)

/-- The statement with its column list written out and its pseudonymized values
hashed. -/
def prepareDml (schema : TableSchema) (stmt : Statement Expr) : Except PlanError (Statement Expr) :=
  let named :=
    match stmt with
    | .insert insert =>
      (materializeInsertColumns insert schema.columns).map Statement.insert
    | stmt => .ok stmt
  match named with
  | .error message => .error (.sqlSyntaxError message)
  | .ok named =>
    match anonymizeStatement display hmac resolver schema.anonymized named with
    | .error message => .error (.featureNotSupported message)
    | .ok hashed => .ok hashed

variable (hash : String → UInt64) (texts : Conversions)
  (toWriteParam : Option ScalarValue → Nat → Except CoordinatorError WriteParam)

def planPrepared (table : TableMeta) (stmt : Statement Expr)
    (params : List ScalarValue) : Except PlanError (List ShardWrite) :=
  match stmt with
  | .insert insert =>
    match validateInsertShardKey display insert table.shardKey params with
    | .error message => .error (.featureNotSupported message)
    | .ok _ =>
      match validateOnConflict display insert table.shardKey with
      | .error message => .error (.featureNotSupported message)
      | .ok _ =>
        planInsertWithSplit display hash texts toWriteParam table insert params
  | stmt => planDml display hash texts toWriteParam table stmt params

def planClientDml (table : TableMeta) (schema : TableSchema)
    (stmt : Statement Expr) (params : List ScalarValue) :
    Except PlanError (List ShardWrite) :=
  match prepareDml display hmac resolver schema stmt with
  | .error error => .error error
  | .ok prepared =>
    planPrepared display hash texts toWriteParam table prepared params

variable {insert named : Insert Expr} {tableColumns : List String}

theorem materializeInsertColumnsForArity_eq {arity : Nat}
    (done : materializeInsertColumnsForArity insert tableColumns arity = .ok named) :
    named = { insert with columns := named.columns } := by
  unfold materializeInsertColumnsForArity at done
  split at done
  · cases done
    rfl
  · split at done <;> cases done
    rfl

theorem materializeInsertColumns_eq
    (done : materializeInsertColumns insert tableColumns = .ok named) :
    named = { insert with columns := named.columns } := by
  unfold materializeInsertColumns at done
  split at done
  · split at done
    · cases done
      rfl
    · split at done
      · cases done
      · exact materializeInsertColumnsForArity_eq done
  · cases done
    rfl

variable {insert : Insert Expr}

theorem materializeInsertColumns_of_columns (named : insert.columns ≠ []) :
    materializeInsertColumns insert tableColumns = .ok insert := by
  unfold materializeInsertColumns
  split
  · simp [named]
  · rfl

variable {rows : List (List Expr)}

variable {schema : TableSchema} {stmt : Statement Expr}

theorem prepareDml_insert (source : insert.source = .values rows) :
    prepareDml display hmac resolver schema (.insert insert) = .ok stmt ↔ ∃ named secrets,
        materializeInsertColumns insert schema.columns = .ok named ∧
        insertSecrets display resolver schema.anonymized named.columns = .ok secrets ∧
        (∀ row ∈ rows, HashableRow secrets row) ∧ .insert { named with
          source := .values (rows.map (digestRow display hmac secrets)) } =
            stmt := by
  unfold prepareDml
  simp only
  cases known : materializeInsertColumns insert schema.columns with
  | error message => simp [Except.map]
  | ok named =>
    have namedSource : named.source = .values rows := by
      rwa [materializeInsertColumns_eq known]
    simp only [Except.map, Except.ok.injEq, exists_and_left, exists_eq_left']
    rw [← anonymizeStatement_insert display hmac resolver namedSource]
    cases anonymizeStatement display hmac resolver schema.anonymized (.insert named) <;> simp

/-- Without pseudonymized columns an `INSERT` that names its columns is kept. -/
theorem prepareDml_plain (plain : schema.anonymized = [])
    (source : insert.source = .values rows) (named : insert.columns ≠ []) :
    prepareDml display hmac resolver schema (.insert insert) = .ok (.insert insert) := by
  rw [prepareDml_insert display hmac resolver source]
  refine ⟨insert, [], materializeInsertColumns_of_columns named, ?_,
    fun row _ => hashableRow_nil row, ?_⟩
  · simp [insertSecrets, writeSecrets, plain]
  · rw [List.map_congr_left fun row _ => digestRow_nil display hmac row, List.map_id', ← source]

theorem prepareDml_update {update : Update Expr} :
    prepareDml display hmac resolver schema (.update update) = .ok stmt ↔ ∃ secrets,
        updateSecrets display resolver schema.anonymized update.assignments = .ok secrets ∧
        HashableRow secrets (update.assignments.map Assignment.value) ∧ .update { update with
          assignments := withValues update.assignments (digestRow display hmac secrets
              (update.assignments.map Assignment.value)) } = stmt := by
  rw [← anonymizeStatement_update display hmac resolver]
  unfold prepareDml
  simp only
  cases anonymizeStatement display hmac resolver schema.anonymized (.update update) <;> simp

section Shipped

variable {display hash texts toWriteParam} {table : TableMeta}
  {insert : Insert Expr} {params : List ScalarValue} {writes : List ShardWrite}

theorem planInsertWithSplit_of_planPrepared
    (planned : planPrepared display hash texts toWriteParam table (.insert insert)
      params = .ok writes) :
    validateInsertShardKey display insert table.shardKey params = .ok () ∧
      planInsertWithSplit display hash texts toWriteParam table insert params = .ok writes := by
  simp only [planPrepared] at planned
  split at planned
  · cases planned
  rename_i valid
  split at planned
  · cases planned
  · exact ⟨valid, planned⟩

/-- Each write of an `INSERT` is the statement with some of its rows. -/
theorem insertOf_of_planPrepared
    (planned : planPrepared display hash texts toWriteParam table (.insert insert)
      params = .ok writes) {write : ShardWrite} (member : write ∈ writes) :
    ∃ rows positions shard, insert.source = .values rows ∧
      planWrite texts toWriteParam (.insert (insertOf insert rows positions)) params
        shard = .ok write := by
  obtain ⟨valid, split⟩ := planInsertWithSplit_of_planPrepared planned
  have whole : planDml display hash texts toWriteParam table (.insert insert)
      params = .ok writes := by simp only [planDml, valid, split]
  obtain ⟨rows, source, ⟨plan⟩⟩ := exists_insertPlan whole
  obtain ⟨position, there⟩ := List.getElem?_of_mem member
  obtain ⟨part, -, sent⟩ := Lib.Traverse.getElem?_of_forall₂ plan.planned.flip there
  exact ⟨rows, part.2, part.1, source, sent⟩

theorem planPrepared_insert_ne_nil
    (planned : planPrepared display hash texts toWriteParam table (.insert insert)
      params = .ok writes) : writes ≠ [] := by
  obtain ⟨-, split⟩ := planInsertWithSplit_of_planPrepared planned
  unfold planInsertWithSplit at split
  split at split
  · cases split
  split at split
  · rename_i first second keys known
    rintro rfl
    have grouped := Lib.Traverse.forall₂_of_mapM_ok split
    rw [shardRows_eq_group, List.forall₂_nil_right_iff] at grouped
    have all := Lib.Grouping.group_perm (fun key => computeShardIndex hash key.2
      table.shards.length) Prod.fst (first :: second :: keys)
    rw [grouped] at all
    simp at all
  · obtain ⟨targets, sent, each⟩ :=
      planRouted_cases display hash texts toWriteParam split
    have reached : targets ≠ [] := by
      rcases resolveTargetShards_cases display sent with rfl | ⟨shard, -, rfl⟩
      · rintro empty
        simp [resolveTargetShards, empty] at sent
      · simp
    rintro rfl
    cases each
    exact reached rfl

end Shipped

end Plan

end VaireDb.Coordinator
