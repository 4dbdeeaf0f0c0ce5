import VaireDb.Lib.Traverse
import VaireDb.Routing.ShardRouting

/-!
# Hashing the values of pseudonymized columns

Before a write is routed, each literal it sets a pseudonymized column to is
replaced by its digest.  The rewriter walks the rows of an `INSERT ... VALUES` and
the assignments of an `UPDATE`.  A value it cannot hash is refused.

The digest is a function of a key and a text.
-/

namespace VaireDb.Anonymization

open Routing Sql

structure Secret where
  algo : String
  secretKey : String
  deriving DecidableEq, Repr

def hmacSha256Algo : String := "HMAC-SHA256"

/-- What the catalog holds of a table's pseudonymized columns: the id of each
column's secret, by its lowercased name. -/
abbrev AnonymizedColumns := List (String × String)

section Rewrite

variable (display : SqlDisplay) (hmac : String → String → String)
  (resolver : String → Option Secret) (anonymized : AnonymizedColumns)

def columnSecret (column : ObjectName) : Except String (Option String) :=
  match insertColumnIdent column with
  | none =>
    .error ("unsupported column reference '" ++ display.expr (.compoundIdentifier column) ++
      "' on a table with anonymized columns")
  | some ident => .ok (anonymized.lookup (asciiLowercase ident.value))

def resolveSecret (secretId : String) : Except String Secret :=
  match resolver secretId with
  | none =>
    .error ("anonymization secret '" ++ secretId ++
      "' not found in vairedb_catalog.anonymization_secret")
  | some secret =>
    if secret.algo = hmacSha256Algo then
      .ok secret
    else
      .error ("anonymization secret '" ++ secretId ++
        "' declares unsupported algorithm '" ++ secret.algo ++ "'; only " ++
        hmacSha256Algo ++ " is supported")

def resolveSecrets (ids : List (Option String)) : Except String (List (Option Secret)) :=
  ids.mapM fun id =>
    match id with
    | none => .ok none
    | some secretId => (resolveSecret resolver secretId).map some

/-- The text of a literal that is hashed: its content for a plain string, and the
literal as it is rendered for the other spellings of one. -/
def hashedText : Value → String
  | .singleQuotedString content | .doubleQuotedString content => content
  | .number text => text
  | .boolean true => "true"
  | .boolean false => "false"
  | literal => displayValue display literal

/-- Replace a literal by its digest; `NULL` stays. -/
def anonymizeExpr (secret : Secret) (expr : Expr) : Except String Expr :=
  match expr with
  | .value .null => .ok expr
  | .value (.placeholder _) =>
    .error ("anonymized columns cannot be set from a bind parameter; use a " ++ "literal value")
  | .value literal =>
    .ok (.value (.singleQuotedString (hmac secret.secretKey (hashedText display literal))))
  | _ =>
    .error "anonymized columns must be set to a literal value, not an expression"

/-- A value, hashed if its column has a secret. -/
def anonymizeCell : Option Secret → Expr → Except String Expr
  | none, expr => .ok expr
  | some secret, expr => anonymizeExpr display hmac secret expr

/-- The values of a row; those beyond the column list are left as they are. -/
def anonymizeRow : List (Option Secret) → List Expr → Except String (List Expr)
  | secret :: secrets, expr :: exprs => do
      let cell ← anonymizeCell display hmac secret expr
      let cells ← anonymizeRow secrets exprs
      return cell :: cells
  | _, exprs => .ok exprs

def anonymizeInsert (insert : Insert Expr) :
    Except String (Insert Expr) := do
  let ids ← insert.columns.mapM (columnSecret display anonymized)
  if ids.all Option.isNone then
    return insert
  let secrets ← resolveSecrets resolver ids
  match insert.source with
  | .defaultValues => return insert
  | .query _ =>
    .error "anonymized columns require an INSERT ... VALUES statement"
  | .values rows =>
    let hashed ← rows.mapM (anonymizeRow display hmac secrets)
    return { insert with source := .values hashed }

/-- The secret id of an assignment's target.  A tuple that names a pseudonymized
column is refused. -/
def targetSecret : AssignmentTarget → Except String (Option String)
  | .columnName name => columnSecret display anonymized name
  | .tuple names => do
      names.forM fun name => do
        match ← columnSecret display anonymized name with
        | none => return ()
        | some _ =>
          .error ("anonymized column '" ++ display.expr (.compoundIdentifier name) ++
            "' cannot be assigned by a multi-column SET (…) = (…); assign it " ++
            "in a SET clause of its own")
      return none

def anonymizeAssignments (assignments : List (Assignment Expr)) :
    Except String (List (Assignment Expr)) := do
  let ids ← assignments.mapM fun assignment =>
    targetSecret display anonymized assignment.target
  if ids.all Option.isNone then
    return assignments
  let secrets ← resolveSecrets resolver ids
  let values ← anonymizeRow display hmac secrets (assignments.map Assignment.value)
  return List.zipWith (fun assignment value => { assignment with value := value })
    assignments values

/-- Hash every value a statement writes to a pseudonymized column. -/
def anonymizeStatement (stmt : Statement Expr) : Except String (Statement Expr) :=
  if anonymized.isEmpty then
    .ok stmt
  else
    match stmt with
    | .insert insert =>
      (anonymizeInsert display hmac resolver anonymized insert).map .insert
    | .update update =>
      (anonymizeAssignments display hmac resolver anonymized
        update.assignments).map fun assignments =>
          .update { update with assignments := assignments }
    | stmt => .ok stmt

/-! ## What the rewrite does

The values of a row or of a `SET` list are rewritten one by one, by the secrets of
their columns.  Which values are refused does not depend on the digest.
-/

/-- The secrets of the columns a statement writes, from their ids; none if no column
has one. -/
def writeSecrets (ids : Except String (List (Option String))) :
    Except String (List (Option Secret)) :=
  if anonymized.isEmpty then
    .ok []
  else
    match ids with
    | .error message => .error message
    | .ok ids =>
      if ids.all Option.isNone then .ok [] else resolveSecrets resolver ids

def insertSecrets (columns : List ObjectName) : Except String (List (Option Secret)) :=
  writeSecrets resolver anonymized (columns.mapM (columnSecret display anonymized))

def updateSecrets (assignments : List (Assignment Expr)) : Except String (List (Option Secret)) :=
  writeSecrets resolver anonymized
    (assignments.mapM fun assignment =>
      targetSecret display anonymized assignment.target)

theorem resolver_of_resolveSecret {resolver : String → Option Secret}
    {secretId : String} {secret : Secret}
    (resolved : resolveSecret resolver secretId = .ok secret) :
    resolver secretId = some secret := by
  unfold resolveSecret at resolved
  split at resolved
  · cases resolved
  rename_i known
  split at resolved
  · rw [known, Except.ok.inj resolved]
  · cases resolved

/-- A value that is not refused. -/
def Hashable : Option Secret → Expr → Prop
  | some _, .value (.placeholder _) => False
  | some _, .value _ => True
  | some _, _ => False
  | none, _ => True

/-- What a value becomes. -/
def digestCell : Option Secret → Expr → Expr
  | some _, .value .null => .value .null
  | some secret, .value literal =>
    .value (.singleQuotedString (hmac secret.secretKey (hashedText display literal)))
  | _, expr => expr

def digestRow : List (Option Secret) → List Expr → List Expr
  | secret :: secrets, expr :: exprs =>
    digestCell display hmac secret expr :: digestRow secrets exprs
  | _, exprs => exprs

variable {secret : Option Secret}

theorem anonymizeCell_eq_ok_iff {expr result : Expr} :
    anonymizeCell display hmac secret expr = .ok result ↔
      Hashable secret expr ∧ digestCell display hmac secret expr = result := by
  cases secret with
  | none => simp [anonymizeCell, Hashable, digestCell]
  | some secret =>
    cases expr with
    | value literal =>
      cases literal <;> simp [anonymizeCell, anonymizeExpr, Hashable, digestCell]
    | _ => simp [anonymizeCell, anonymizeExpr, Hashable]

variable {secrets : List (Option Secret)}

theorem anonymizeRow_eq_ok_iff {row result : List Expr} :
    anonymizeRow display hmac secrets row = .ok result ↔
      (∀ entry ∈ secrets.zip row, Hashable entry.1 entry.2) ∧
        digestRow display hmac secrets row = result := by
  induction secrets generalizing row result with
  | nil => cases row <;> simp [anonymizeRow, digestRow]
  | cons secret secrets induction =>
    cases row with
    | nil => simp [anonymizeRow, digestRow]
    | cons expr exprs =>
      simp only [List.zip_cons_cons, List.forall_mem_cons, digestRow]
      constructor
      · intro done
        simp only [anonymizeRow] at done
        cases head : anonymizeCell display hmac secret expr with
        | error message => rw [head] at done; cases done
        | ok cell =>
          cases tail : anonymizeRow display hmac secrets exprs with rw [head, tail] at done
          | error message => cases done
          | ok cells =>
            cases done
            obtain ⟨hashable, rfl⟩ :=
              (anonymizeCell_eq_ok_iff display hmac).mp head
            obtain ⟨others, rfl⟩ := induction.mp tail
            exact ⟨⟨hashable, others⟩, rfl⟩
      · rintro ⟨⟨hashable, others⟩, rfl⟩
        have head := (anonymizeCell_eq_ok_iff display hmac).mpr ⟨hashable, rfl⟩
        have tail := induction.mpr ⟨others, rfl⟩
        simp only [anonymizeRow, head, tail]
        rfl

theorem digestRow_nil (row : List Expr) :
    digestRow display hmac [] row = row := by
  cases row <;> rfl

theorem digestRow_length (secrets : List (Option Secret)) (row : List Expr) :
    (digestRow display hmac secrets row).length = row.length := by
  induction secrets generalizing row with
  | nil => rw [digestRow_nil]
  | cons secret secrets induction =>
    cases row with
    | nil => rfl
    | cons expr exprs => simp [digestRow, induction]

theorem digestRow_getElem? {row : List Expr} {position : Nat}
    {expr : Expr} (known : secrets[position]? = some secret) (there : row[position]? = some expr) :
    (digestRow display hmac secrets row)[position]? =
      some (digestCell display hmac secret expr) := by
  induction secrets generalizing row position with
  | nil => simp at known
  | cons first secrets induction =>
    cases row with
    | nil => simp at there
    | cons head tail =>
      cases position with
      | zero =>
        cases known
        cases there
        rfl
      | succ position => exact induction known there

def HashableRow (secrets : List (Option Secret)) (row : List Expr) : Prop :=
  ∀ entry ∈ secrets.zip row, Hashable entry.1 entry.2

theorem hashableRow_nil (row : List Expr) : HashableRow [] row := by simp [HashableRow]

theorem mapM_anonymizeRow {rows results : List (List Expr)} :
    rows.mapM (anonymizeRow display hmac secrets) = .ok results ↔
      (∀ row ∈ rows, HashableRow secrets row) ∧
        rows.map (digestRow display hmac secrets) = results :=
  Lib.Traverse.mapM_eq_ok_iff fun _ _ => anonymizeRow_eq_ok_iff display hmac

variable {anonymized : AnonymizedColumns}

variable {stmt : Statement Expr}

theorem anonymizeStatement_insert {insert : Insert Expr} {rows : List (List Expr)}
    (source : insert.source = .values rows) :
    anonymizeStatement display hmac resolver anonymized (.insert insert) = .ok stmt ↔
      ∃ secrets, insertSecrets display resolver anonymized insert.columns = .ok secrets ∧
        (∀ row ∈ rows, HashableRow secrets row) ∧ .insert { insert with
          source := .values (rows.map (digestRow display hmac secrets)) } =
            stmt := by
  have same : { insert with source := .values rows } = insert := by rw [← source]
  have unchanged : rows.map (digestRow display hmac []) = rows := by
    rw [List.map_congr_left fun row _ => digestRow_nil display hmac row, List.map_id']
  unfold anonymizeStatement insertSecrets writeSecrets
  split
  · simp [hashableRow_nil, unchanged, same]
  · simp only [anonymizeInsert]
    cases known : insert.columns.mapM (columnSecret display anonymized) with
    | error message => simp [bind, Except.bind, Except.map]
    | ok ids =>
      simp only [bind, Except.bind]
      split
      · simp [Except.map, pure, Except.pure, hashableRow_nil, unchanged, same]
      · cases resolveSecrets resolver ids with
        | error message => simp [Except.map]
        | ok secrets =>
          simp only [source, Except.ok.injEq, exists_eq_left']
          cases done : rows.mapM (anonymizeRow display hmac secrets) with
          | error message =>
            simp only [Except.map, reduceCtorEq, false_iff, not_and]
            intro hashable
            rw [(mapM_anonymizeRow display hmac).mpr ⟨hashable, rfl⟩] at done
            cases done
          | ok results =>
            obtain ⟨hashable, rfl⟩ := (mapM_anonymizeRow display hmac).mp done
            simp only [Except.map, pure, Except.pure, Except.ok.injEq]
            exact (and_iff_right hashable).symm

/-- A `SET` list with new values. -/
def withValues (assignments : List (Assignment Expr)) (values : List Expr) :
    List (Assignment Expr) :=
  List.zipWith (fun assignment value => { assignment with value := value })
    assignments values

theorem withValues_self (assignments : List (Assignment Expr)) :
    withValues assignments (assignments.map Assignment.value) = assignments := by
  induction assignments with
  | nil => rfl
  | cons assignment assignments induction =>
    rw [withValues, List.map_cons, List.zipWith_cons_cons]
    exact congrArg _ induction

/-- The values of an `UPDATE` are rewritten one by one. -/
theorem anonymizeStatement_update {update : Update Expr} :
    anonymizeStatement display hmac resolver anonymized (.update update) = .ok stmt ↔
      ∃ secrets, updateSecrets display resolver anonymized update.assignments = .ok secrets ∧
        HashableRow secrets (update.assignments.map Assignment.value) ∧ .update { update with
          assignments := withValues update.assignments (digestRow display hmac secrets
              (update.assignments.map Assignment.value)) } = stmt := by
  unfold anonymizeStatement updateSecrets writeSecrets
  split
  · simp [hashableRow_nil, digestRow_nil, withValues_self]
  · simp only [anonymizeAssignments]
    cases known : update.assignments.mapM fun assignment =>
        targetSecret display anonymized assignment.target with
    | error message => simp [bind, Except.bind, Except.map]
    | ok ids =>
      simp only [bind, Except.bind]
      split
      · simp [Except.map, pure, Except.pure, hashableRow_nil, digestRow_nil, withValues_self]
      · cases resolveSecrets resolver ids with
        | error message => simp [Except.map]
        | ok secrets =>
          simp only [Except.ok.injEq, exists_eq_left']
          cases done : anonymizeRow display hmac secrets
              (update.assignments.map Assignment.value) with
          | error message =>
            simp only [Except.map, reduceCtorEq, false_iff, not_and]
            intro hashable
            rw [(anonymizeRow_eq_ok_iff display hmac).mpr ⟨hashable, rfl⟩] at done
            cases done
          | ok results =>
            obtain ⟨hashable, rfl⟩ :=
              (anonymizeRow_eq_ok_iff display hmac).mp done
            simp only [Except.map, pure, Except.pure, Except.ok.injEq]
            exact (and_iff_right hashable).symm

end Rewrite

end VaireDb.Anonymization
