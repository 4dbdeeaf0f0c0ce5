import VaireDb.Coordinator.HandleWrite

/-!
# Writes that differ in their plaintexts

Two runs of the coordinator are compared, each with its own digest.  Their writes
are the same except for the plaintexts of pseudonymized columns, and there the
digests are the same.  What an accepted write is prepared to is then the same, as
long as its `ON CONFLICT` clause is.
-/

namespace VaireDb.Anonymization

open Coordinator Routing Rows Sql List Except

/-- The secret id of a pseudonymized column, whatever case or qualifier names it. -/
def pseudonymOf (anonymized : AnonymizedColumns) (name : ObjectName) : Option String :=
  (loweredLastPart name).bind fun column => anonymized.lookup column

/-- The secret id of the column an assignment sets; a tuple sets several. -/
def targetPseudonym (anonymized : AnonymizedColumns) : AssignmentTarget → Option String
  | .columnName name => pseudonymOf anonymized name
  | .tuple _ => none

/-- The columns whose values the rows of an `INSERT` are. -/
def writtenColumns (schema : TableSchema) (insert : Insert Expr) : List ObjectName :=
  if insert.columns.isEmpty then quotedColumnNames schema.columns
  else insert.columns

/-- The secret id of each column an `INSERT` writes. -/
def insertPseudonyms (schema : TableSchema) (insert : Insert Expr) : List (Option String) :=
  (writtenColumns schema insert).map (pseudonymOf schema.anonymized)

/-- A literal that is neither `NULL` nor a parameter. -/
def isPlaintext : Expr → Bool
  | .value .null | .value (.placeholder _) => false
  | .value _ => true
  | _ => false

variable {row : List Expr}

section Runs

variable (display : SqlDisplay) (resolver : String → Option Secret)
  (first second : String → String → String)

def plaintext : Expr → String
  | .value literal => hashedText display literal
  | _ => ""

/-- The digests of two texts under the secret of a column. -/
def SameDigest (id left right : String) : Prop :=
  ∀ secret, resolver id = some secret →
    first secret.secretKey left = second secret.secretKey right

def SameValue (id : Option String) (left right : Expr) : Prop :=
  match id with
  | none => left = right
  | some id =>
    if isPlaintext left then
      isPlaintext right ∧ SameDigest resolver first second id
        (plaintext display left) (plaintext display right)
    else
      left = right

def SameRow : List (Option String) → List Expr → List Expr → Prop
  | id :: ids, left :: lefts, right :: rights =>
    SameValue display resolver first second id left right ∧ SameRow ids lefts rights
  | _, lefts, rights => lefts = rights

def SameAssignment (anonymized : AnonymizedColumns) (left right : Assignment Expr) : Prop :=
  left.target = right.target ∧ SameValue display resolver first second
      (targetPseudonym anonymized left.target) left.value right.value

def SameSource (ids : List (Option String)) : InsertSource Expr → InsertSource Expr → Prop
  | .values lefts, .values rights =>
    List.Forall₂ (SameRow display resolver first second ids) lefts rights
  | left, right => left = right

def SameConflict (anonymized : AnonymizedColumns) :
    Option (ConflictAction Expr) → Option (ConflictAction Expr) → Prop
  | some (.doUpdate lefts selection), some (.doUpdate rights other) =>
    List.Forall₂ (SameAssignment display resolver first second anonymized) lefts
      rights ∧ selection = other
  | left, right => left = right

structure SameInsert (schema : TableSchema) (left right : Insert Expr) : Prop where
  table : left.table = right.table
  columns : left.columns = right.columns
  source : SameSource display resolver first second (insertPseudonyms schema left)
    left.source right.source
  conflictTarget : left.conflictTarget = right.conflictTarget
  conflict : SameConflict display resolver first second schema.anonymized
    left.onConflict right.onConflict

structure SameUpdate (schema : TableSchema) (left right : Update Expr) : Prop where
  table : left.table = right.table
  assignments : List.Forall₂ (SameAssignment display resolver first second schema.anonymized)
    left.assignments right.assignments
  fromTables : left.fromTables = right.fromTables
  selection : left.selection = right.selection

def SameStatement (schema : TableSchema) : Statement Expr → Statement Expr → Prop
  | .insert left, .insert right =>
    SameInsert display resolver first second schema left right
  | .update left, .update right =>
    SameUpdate display resolver first second schema left right
  | left, right => left = right

def SameCell (id : Option String) (left right : Cell) : Prop :=
  match id with
  | none => left = right
  | some id =>
    if left = .null then
      right = .null
    else
      right ≠ .null ∧ SameDigest resolver first second id
        (arrowArrayValueToString left) (arrowArrayValueToString right)

structure SameColumn (id : Option String) (left right : Column) : Prop where
  name : left.name = right.name
  dataType : left.dataType = right.dataType
  cells : List.Forall₂ (SameCell resolver first second id) left.cells right.cells

def SameColumns : List (Option String) → List Column → List Column → Prop
  | id :: ids, left :: lefts, right :: rights =>
    SameColumn resolver first second id left right ∧ SameColumns ids lefts rights
  | _, lefts, rights => lefts = rights

structure SameBatch (ids : List (Option String)) (left right : RecordBatch) :
    Prop where
  numRows : left.numRows = right.numRows
  columns : SameColumns resolver first second ids left.columns right.columns

/-- Two writes that differ only in the plaintexts of pseudonymized columns, with the
same digests. -/
def SameWrite (schema : TableSchema) : ClientWrite → ClientWrite → Prop
  | .statement left params, .statement right others =>
    SameStatement display resolver first second schema left right ∧ params = others
  | .insertFromQuery left tables arity batches params,
    .insertFromQuery right otherTables otherArity otherBatches others =>
      SameInsert display resolver first second schema left right ∧
        tables = otherTables ∧ arity = otherArity ∧
        List.Forall₂ (SameBatch resolver first second (insertPseudonyms schema left))
          batches otherBatches ∧
        params = others
  | .copyBatch target left, .copyBatch other right =>
    target = other ∧ SameBatch resolver first second
        (insertPseudonyms schema target.template) left right
  | left, right => left = right

end Runs

section Rows

variable {display : SqlDisplay} {resolver : String → Option Secret}
  {first second : String → String → String}

/-- The secret that a column's id resolves to. -/
def ResolvesTo (resolver : String → Option Secret) (id : Option String)
    (secret : Option Secret) : Prop :=
  match id with
  | none => secret = none
  | some id => ∃ known, resolver id = some known ∧ secret = some known

variable {id : Option String} {secret : Option Secret}

theorem digestCell_same {left right : Expr} (resolved : ResolvesTo resolver id secret)
    (same : SameValue display resolver first second id left right)
    (hashable : Hashable secret left) :
    Hashable secret right ∧ digestCell display first secret left =
        digestCell display second secret right := by
  cases id with
  | none =>
    obtain rfl : secret = none := resolved
    obtain rfl : left = right := same
    exact ⟨hashable, rfl⟩
  | some id =>
    obtain ⟨known, found, rfl⟩ := resolved
    simp only [SameValue] at same
    split at same
    · rename_i plain
      obtain ⟨alsoPlain, digests⟩ := same
      have equal := digests known found
      revert plain alsoPlain equal
      cases left with
      | value literal =>
        cases right with
        | value other =>
          intro plain alsoPlain equal
          cases literal <;> cases plain <;> cases other <;>
            cases alsoPlain <;>
            exact ⟨trivial, congrArg (Expr.value ∘ Value.singleQuotedString) equal⟩
        | _ => intro _ alsoPlain _; cases alsoPlain
      | _ => intro plain; cases plain
    · rename_i notPlain
      subst same
      refine ⟨hashable, ?_⟩
      cases left with
      | value literal =>
        cases literal with
        | null => rfl
        | placeholder => exact hashable.elim
        | _ => exact absurd rfl notPlain
      | _ => rfl

variable {ids : List (Option String)} {secrets : List (Option Secret)} {lefts rights : List Expr}

theorem sameRow_eq (plain : ∀ id ∈ ids, id = none)
    (same : SameRow display resolver first second ids lefts rights) :
    lefts = rights := by
  induction ids generalizing lefts rights with
  | nil => cases lefts <;> exact same
  | cons id ids induction =>
    rw [forall_mem_cons] at plain
    obtain ⟨rfl, plain⟩ := plain
    cases lefts with
    | nil => exact same
    | cons left lefts =>
      cases rights with
      | nil => exact same
      | cons right rights =>
        obtain ⟨rfl, rest⟩ := same
        rw [induction plain rest]

theorem sameRow_length (same : SameRow display resolver first second ids lefts rights) :
    lefts.length = rights.length := by
  induction ids generalizing lefts rights with
  | nil =>
    obtain rfl : lefts = rights := by cases lefts <;> exact same
    rfl
  | cons id ids induction =>
    cases lefts with
    | nil =>
      obtain rfl : [] = rights := same
      rfl
    | cons left lefts =>
      cases rights with
      | nil => cases (same : left :: lefts = [])
      | cons right rights =>
        rw [length_cons, length_cons, induction same.2]

theorem sameRow_take {arity : Nat} (fits : lefts.length ≤ arity)
    (same : SameRow display resolver first second ids lefts rights) :
    SameRow display resolver first second (ids.take arity) lefts rights := by
  induction ids generalizing lefts rights arity with
  | nil => simpa using same
  | cons id ids induction =>
    cases lefts with
    | nil =>
      obtain rfl : [] = rights := same
      cases arity <;> rfl
    | cons left lefts =>
      cases rights with
      | nil => cases (same : left :: lefts = [])
      | cons right rights =>
        cases arity with
        | zero => cases fits
        | succ arity =>
          exact ⟨same.1, induction (Nat.le_of_succ_le_succ fits) same.2⟩

/-- The ids of the columns have these secrets. -/
def HasSecrets (resolver : String → Option Secret) (ids : List (Option String))
    (secrets : List (Option Secret)) : Prop :=
  (secrets = [] ∧ ∀ id ∈ ids, id = none) ∨ List.Forall₂ (ResolvesTo resolver) ids secrets

theorem literal_of_hashable {expr : Expr}
    (resolved : ResolvesTo resolver id secret) (hashable : Hashable secret expr)
    (pseudonymized : id ≠ none) :
    isPlaintext expr ∨ expr = .value .null := by
  cases id with
  | none => exact absurd rfl pseudonymized
  | some id =>
    obtain ⟨known, -, rfl⟩ := resolved
    cases expr with
    | value literal =>
      cases literal with
      | null => exact .inr rfl
      | placeholder => exact hashable.elim
      | _ => exact .inl rfl
    | _ => exact hashable.elim

/-- The secrets of a write are those of its columns' ids, if any column has one. -/
theorem hasSecrets_of_writeSecrets {α : Type} {anonymized : AnonymizedColumns}
    {targets : List α} {secretOf : α → Except String (Option String)}
    {pseudonym : α → Option String}
    (agrees : ∀ target id, secretOf target = .ok id → pseudonym target = id)
    (without : anonymized = [] → ∀ target, pseudonym target = none)
    (known : writeSecrets resolver anonymized (targets.mapM secretOf) = .ok secrets) :
    HasSecrets resolver (targets.map pseudonym) secrets := by
  unfold writeSecrets at known
  split at known
  · rename_i empty
    refine .inl ⟨(ok.inj known).symm, forall_mem_map.mpr ?_⟩
    exact fun target _ => without (isEmpty_iff.mp empty) target
  · split at known
    · cases known
    rename_i ids found
    have each := Lib.Traverse.forall₂_of_mapM_ok found
    split at known
    · rename_i allNone
      refine .inl ⟨(ok.inj known).symm, forall_mem_map.mpr ?_⟩
      intro target member
      obtain ⟨position, there⟩ := getElem?_of_mem member
      obtain ⟨id, here, secret⟩ :=
        Lib.Traverse.getElem?_of_forall₂ each there
      have absent := all_eq_true.mp allNone id (mem_of_getElem? here)
      rw [agrees target id secret]
      simpa using absent
    · rename_i someHashed
      refine .inr ?_
      rw [forall₂_map_left_iff]
      replace known := Lib.Traverse.forall₂_of_mapM_ok known
      clear found someHashed
      induction each generalizing secrets with
      | nil =>
        cases known
        exact .nil
      | @cons _ id _ _ head _ induction =>
        cases known with
        | cons here rest =>
          refine .cons ?_ (induction rest)
          rw [agrees _ _ head]
          cases id with
          | none => exact (ok.inj here).symm
          | some secretId =>
            obtain ⟨secret, resolved, same⟩ := Lib.map_eq_ok_iff.mp here
            exact ⟨secret, resolver_of_resolveSecret resolved, same.symm⟩

theorem HasSecrets.digestRow (known : HasSecrets resolver ids secrets)
    (same : SameRow display resolver first second ids lefts rights)
    (hashable : HashableRow secrets lefts) :
    HashableRow secrets rights ∧ Anonymization.digestRow display first secrets lefts =
        Anonymization.digestRow display second secrets rights := by
  rcases known with ⟨rfl, plain⟩ | resolved
  · obtain rfl := sameRow_eq plain same
    rw [digestRow_nil, digestRow_nil]
    exact ⟨hashable, rfl⟩
  · induction resolved generalizing lefts rights with
    | nil =>
      obtain rfl : lefts = rights := by cases lefts <;> exact same
      rw [digestRow_nil, digestRow_nil]
      exact ⟨hashable, rfl⟩
    | cons head _ induction =>
      cases lefts with
      | nil =>
        obtain rfl : [] = rights := same
        exact ⟨hashable, rfl⟩
      | cons left lefts =>
        cases rights with
        | nil => cases (same : left :: lefts = [])
        | cons right rights =>
          simp only [HashableRow, zip_cons_cons, forall_mem_cons] at hashable ⊢
          have cell := digestCell_same head same.1 hashable.1
          have row := induction same.2 hashable.2
          refine ⟨⟨cell.1, row.1⟩, ?_⟩
          rw [digestRow, digestRow, cell.2, row.2]

/-- A value of a pseudonymized column that is not refused is a plaintext or
`NULL`. -/
theorem HasSecrets.literal (known : HasSecrets resolver ids secrets)
    (hashable : HashableRow secrets row) :
    ∀ entry ∈ ids.zip row, entry.1 ≠ none → isPlaintext entry.2 ∨ entry.2 = .value .null := by
  rcases known with ⟨-, plain⟩ | resolved
  · intro entry member pseudonymized
    exact absurd (plain entry.1 (of_mem_zip member).1) pseudonymized
  · induction resolved generalizing row with
    | nil => intro entry member; cases member
    | cons head _ induction =>
      cases row with
      | nil => intro entry member; cases member
      | cons expr exprs =>
        simp only [HashableRow, zip_cons_cons, forall_mem_cons] at hashable ⊢
        refine ⟨fun pseudonymized => ?_, induction hashable.2⟩
        exact literal_of_hashable head hashable.1 pseudonymized

end Rows

section Prepared

variable {display : SqlDisplay} {resolver : String → Option Secret}
  {first second : String → String → String} {schema : TableSchema} {anonymized : AnonymizedColumns}

variable {id : Option String} {name : ObjectName}

theorem pseudonymOf_columnSecret (done : columnSecret display anonymized name = .ok id) :
    pseudonymOf anonymized name = id := by
  unfold columnSecret at done
  split at done
  · cases done
  rename_i ident single
  have shape : name = [ident] := by
    unfold insertColumnIdent at single
    split at single
    · rw [Option.some.inj single]
    · cases single
  rw [shape]
  exact ok.inj done

theorem targetPseudonym_targetSecret {target : AssignmentTarget}
    (done : targetSecret display anonymized target = .ok id) :
    targetPseudonym anonymized target = id := by
  cases target with
  | columnName name => exact pseudonymOf_columnSecret done
  | tuple names =>
    simp only [targetSecret, bind, Except.bind] at done
    split at done
    · cases done
    · exact Except.ok.inj done

theorem pseudonymOf_nil : pseudonymOf [] name = none := by
  unfold pseudonymOf
  cases loweredLastPart name <;> rfl

theorem materializeInsertColumns_same {left right named : Insert Expr}
    {tableColumns : List String} {lefts rights : List (List Expr)}
    (leftSource : left.source = .values lefts) (rightSource : right.source = .values rights)
    (columns : left.columns = right.columns)
    (lengths : Forall₂ (fun row other => row.length = other.length) lefts rights)
    (done : materializeInsertColumns left tableColumns = .ok named) :
    materializeInsertColumns right tableColumns = .ok { right with columns := named.columns } := by
  suffices filled : ∀ result,
      { right with columns := named.columns } = result →
        materializeInsertColumns right tableColumns = .ok result from filled _ rfl
  intro result expected
  have kept (same : ok left = (.ok named : Except String (Insert Expr))) :
      right = result := by
    cases same
    rw [← expected, columns]
  unfold materializeInsertColumns at done ⊢
  rw [leftSource] at done
  rw [rightSource]
  cases lengths with
  | nil => exact congrArg ok (kept done)
  | @cons row other rows others head tail =>
    have alike : (rows.any fun next => next.length ≠ row.length) =
        others.any fun next => next.length ≠ row.length := by
      clear done leftSource rightSource head
      induction tail with
      | nil => rfl
      | cons same _ induction => rw [any_cons, any_cons, same, induction]
    simp only [← columns, ← head, ← alike] at done ⊢
    unfold materializeInsertColumnsForArity at done ⊢
    rw [← columns]
    split at done
    · next written => rw [if_pos written, kept done]
    · rename_i positional
      rw [if_neg positional]
      split at done
      · cases done
      rename_i even
      rw [if_neg even]
      split at done
      · next skip => rw [if_pos skip, kept done]
      · rename_i filled
        rw [if_neg filled]
        split at done <;> cases done
        rename_i fits
        rw [if_neg fits, ← expected]

variable {rows : List (List Expr)}

/-- The columns a row is hashed by are those of the statement or the leading ones of
the table. -/
theorem namedPseudonyms_eq {insert named : Insert Expr} (source : insert.source = .values rows)
    (done : materializeInsertColumns insert schema.columns = .ok named) (member : row ∈ rows) :
    ∃ arity, row.length ≤ arity ∧ named.columns.map (pseudonymOf schema.anonymized) =
        (insertPseudonyms schema insert).take arity := by
  unfold materializeInsertColumns at done
  rw [source] at done
  cases rows with
  | nil => cases member
  | cons head tail =>
    unfold insertPseudonyms writtenColumns
    simp only at done
    split at done
    · rename_i written
      cases done
      rw [if_neg (by simpa using written)]
      refine ⟨max row.length insert.columns.length, le_max_left _ _, ?_⟩
      rw [List.take_of_length_le (by simp)]
    · rename_i positional
      rw [if_pos (by simpa using positional)]
      split at done
      · cases done
      rename_i even
      have arity : row.length = head.length := by
        rcases List.mem_cons.mp member with rfl | later
        · rfl
        · by_contra different
          exact even (List.any_eq_true.mpr ⟨row, later, by simpa using different⟩)
      refine ⟨row.length, le_rfl, ?_⟩
      unfold materializeInsertColumnsForArity at done
      split at done
      · rename_i skip
        cases done
        have none : insert.columns = [] := by simpa using positional
        simp only [none, List.isEmpty_nil, Bool.not_true, Bool.false_or,
          Bool.or_eq_true, List.isEmpty_iff, decide_eq_true_eq] at skip
        rw [none]
        rcases skip with noColumns | noValues
        · rw [noColumns]
          exact List.take_nil.symm
        · rw [arity, noValues]
          rfl
      · split at done <;> cases done
        rw [← List.map_take, quotedColumnNames, quotedColumnNames, ← List.map_take, arity]

variable {secrets : List (Option Secret)}

theorem hasSecrets_insert {names : List ObjectName}
    (known : insertSecrets display resolver schema.anonymized names = .ok secrets) :
    HasSecrets resolver (names.map (pseudonymOf schema.anonymized)) secrets :=
  hasSecrets_of_writeSecrets (fun _ _ => pseudonymOf_columnSecret)
    (fun empty name => by rw [empty, pseudonymOf_nil]) known

variable {stmt : Statement Expr}

theorem prepareDml_insert_same {left right : Insert Expr} {lefts : List (List Expr)}
    (same : SameInsert display resolver first second schema left right)
    (conflict : left.onConflict = right.onConflict) (source : left.source = .values lefts)
    (done : prepareDml display first resolver schema (.insert left) = .ok stmt) :
    prepareDml display second resolver schema (.insert right) = .ok stmt := by
  obtain ⟨named, secrets, columns, known, hashable, rfl⟩ :=
    (prepareDml_insert display first resolver source).mp done
  obtain ⟨rights, rightSource, rows⟩ : ∃ rights, right.source = .values rights ∧
      Forall₂ (SameRow display resolver first second
        (insertPseudonyms schema left)) lefts rights := by
    have related := same.source
    rw [source] at related
    cases other : right.source with
    | values rights => exact ⟨rights, rfl, by rwa [other] at related⟩
    | _ => rw [other] at related; cases related
  have rightNamed := materializeInsertColumns_same source rightSource same.columns
    (rows.imp fun _ _ => sameRow_length) columns
  have hashed : (∀ row ∈ rights, HashableRow secrets row) ∧
      lefts.map (digestRow display first secrets) =
        rights.map (digestRow display second secrets) := by
    have named : Forall₂ (fun row other => row ∈ lefts ∧ SameRow display resolver first second
          (insertPseudonyms schema left) row other) lefts rights :=
      forall₂_iff_zip.mpr ⟨rows.length_eq, fun pair =>
        ⟨(of_mem_zip pair).1, forall₂_zip rows pair⟩⟩
    have each := named.imp fun row other entry =>
      let ⟨_, fits, leading⟩ := namedPseudonyms_eq source columns entry.1
      (hasSecrets_insert known).digestRow (leading ▸ sameRow_take fits entry.2)
        (hashable row entry.1)
    clear named rows source rightSource rightNamed done hashable
    induction each with
    | nil => simp
    | cons head _ induction =>
      simp only [map_cons, forall_mem_cons, head.2, induction.2]
      exact ⟨⟨head.1, induction.1⟩, trivial⟩
  refine (prepareDml_insert display second resolver rightSource).mpr
    ⟨_, secrets, rightNamed, known, hashed.1, ?_⟩
  rw [← hashed.2, materializeInsertColumns_eq columns]
  simp only [same.table, conflict, same.conflictTarget]

theorem targetPseudonym_nil (target : AssignmentTarget) :
    targetPseudonym [] target = none := by
  cases target with
  | columnName name => exact pseudonymOf_nil
  | tuple names => rfl

theorem hasSecrets_update {assignments : List (Assignment Expr)}
    (known : updateSecrets display resolver schema.anonymized assignments = .ok secrets) :
    HasSecrets resolver (assignments.map fun assignment =>
        targetPseudonym schema.anonymized assignment.target) secrets :=
  hasSecrets_of_writeSecrets (fun _ _ => targetPseudonym_targetSecret)
    (fun empty assignment => by rw [empty, targetPseudonym_nil]) known

variable {lefts rights : List (Assignment Expr)}

theorem sameAssignments_targets (each : Forall₂
      (SameAssignment display resolver first second anonymized) lefts rights) :
    lefts.map Assignment.target = rights.map Assignment.target := by
  induction each with
  | nil => rfl
  | cons head _ induction => rw [map_cons, map_cons, head.1, induction]

theorem sameAssignments_values (each : Forall₂
      (SameAssignment display resolver first second anonymized) lefts rights) :
    SameRow display resolver first second
      (lefts.map fun assignment => targetPseudonym anonymized assignment.target)
      (lefts.map Assignment.value) (rights.map Assignment.value) := by
  induction each with
  | nil => rfl
  | cons head _ induction => exact ⟨head.2, induction⟩

theorem withValues_congr {values : List Expr}
    (targets : lefts.map Assignment.target = rights.map Assignment.target) :
    withValues lefts values = withValues rights values := by
  induction lefts generalizing rights values with
  | nil =>
    rw [map_nil, eq_comm, map_eq_nil_iff] at targets
    rw [targets]
  | cons left lefts induction =>
    cases rights with
    | nil => cases targets
    | cons right rights =>
      obtain ⟨head, tail⟩ := cons.inj targets
      cases values with
      | nil => rfl
      | cons value values =>
        have rest : withValues lefts values = withValues rights values :=
          induction tail
        unfold withValues at rest ⊢
        rw [zipWith_cons_cons, zipWith_cons_cons, head, rest]

theorem prepareDml_update_same {left right : Update Expr}
    (same : SameUpdate display resolver first second schema left right)
    (done : prepareDml display first resolver schema (.update left) = .ok stmt) :
    prepareDml display second resolver schema (.update right) = .ok stmt := by
  obtain ⟨secrets, known, hashable, rfl⟩ :=
    (prepareDml_update display first resolver).mp done
  have sameSecrets : updateSecrets display resolver schema.anonymized
      right.assignments = .ok secrets := by
    rw [← known]
    have byTarget (assignments : List (Assignment Expr)) :
        (assignments.mapM fun assignment =>
          targetSecret display schema.anonymized assignment.target) =
            (assignments.map Assignment.target).mapM (targetSecret display schema.anonymized) := by
      rw [mapM_map]
      rfl
    rw [updateSecrets, updateSecrets, byTarget, byTarget, sameAssignments_targets same.assignments]
  have hashed := (hasSecrets_update known).digestRow
    (sameAssignments_values same.assignments) hashable
  refine (prepareDml_update display second resolver).mpr ⟨secrets, sameSecrets, hashed.1, ?_⟩
  rw [hashed.2, withValues_congr (sameAssignments_targets same.assignments)]
  simp only [same.table, same.fromTables, same.selection]

end Prepared

end VaireDb.Anonymization
