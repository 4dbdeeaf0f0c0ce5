import VaireDb.Coordinator.PlanStatement
import VaireDb.Routing.Narrowing
import VaireDb.Rows.Literals
import VaireDb.Sql.Determinism

/-!
# The digests of equal strings

A pseudonymized column stores the digest of a text.  For a plain literal, and for a
string that came as a row of a query or a file, the text is the string.  For the
other spellings of a string it is the literal as it is rendered, prefix and quotes
included.  So two writes of one string store one digest exactly if the literals are
spelled alike.
-/

namespace VaireDb.Anonymization

open Coordinator Routing Rows Sql List Lib.Traverse Option

/-- How a string literal is spelled. -/
inductive Spelling where
  | plain
  | escape
  | unicode
  | national
  | dollar (tag : String)
  deriving DecidableEq, Repr

def stringLiteral : Value → Option (Spelling × String)
  | .singleQuotedString content | .doubleQuotedString content =>
    some (.plain, content)
  | .escapedStringLiteral content => some (.escape, content)
  | .unicodeStringLiteral content => some (.unicode, content)
  | .nationalStringLiteral content => some (.national, content)
  | .dollarQuotedString content tag => some (.dollar (tag.getD ""), content)
  | _ => none

/-- A write, by the lane that carries its values: `VALUES`, `UPDATE`, or the rows of
a query or a file. -/
inductive Write where
  | values (insert : Insert Expr)
  | update (update : Update Expr)
  | rows (template : Insert Expr) (batches : List RecordBatch)

variable {literal : Value}

section Writes

variable (display : SqlDisplay) (hmac : String → String → String)
  (resolver : String → Option Secret) (schema : TableSchema)

def Write.prepared : Write → Except PlanError (List (Statement Expr))
  | .values insert =>
    (prepareDml display hmac resolver schema (.insert insert)).map ([·])
  | .update assigned =>
    (prepareDml display hmac resolver schema (.update assigned)).map ([·])
  | .rows template batches =>
    match insertStatementsFromBatches template batches rowsPerStatement with
    | .error message => .error (.featureNotSupported message)
    | .ok statements =>
      statements.mapM fun insert =>
        prepareDml display hmac resolver schema (.insert insert)

/-- The value a write stores in a column of a row. -/
def Write.stored (write : Write) (row position : Nat) : Option Expr :=
  match write.prepared display hmac resolver schema with
  | .ok statements => ((statements.flatMap writtenRows)[row]?).bind (·[position]?)
  | .error _ => none

/-- The name is the column's, in any case. -/
def NamesColumn (name : ObjectName) (column : String) : Prop :=
  ∃ ident, insertColumnIdent name = some ident ∧ asciiLowercase ident.value = column

variable (column : String) (spelling : Spelling) (text : String)

inductive Write.Sets : Write → Nat → Nat → Prop
  | values {insert named : Insert Expr} {rows : List (List Expr)}
      {cells : List Expr} {row position : Nat} {name : ObjectName} {literal : Value}
      (columns : materializeInsertColumns insert schema.columns = .ok named)
      (source : insert.source = .values rows)
      (target : named.columns[position]? = some name)
      (named : NamesColumn name column)
      (there : rows[row]? = some cells)
      (cell : cells[position]? = some (.value literal))
      (spelled : stringLiteral literal = some (spelling, text)) :
      Write.Sets (.values insert) row position
  | update {update : Update Expr} {position : Nat} {name : ObjectName}
      {literal : Value}
      (there : update.assignments[position]? =
        some { target := .columnName name, value := .value literal })
      (named : NamesColumn name column)
      (spelled : stringLiteral literal = some (spelling, text)) :
      Write.Sets (.update update) 0 position
  | rows {template : Insert Expr} {batches : List RecordBatch} {cells : List Cell}
      {row position : Nat} {name : ObjectName}
      (target : template.columns[position]? = some name)
      (named : NamesColumn name column)
      (there : (batches.flatMap RecordBatch.rows)[row]? = some cells)
      (cell : cells[position]? = some (.text text))
      (plain : spelling = .plain) :
      Write.Sets (.rows template batches) row position

end Writes

section Digests

variable (display : SqlDisplay)

/-- The text whose digest is stored for a string that is spelled in a way. -/
def spelledText (spelling : Spelling) (text : String) : String :=
  match spelling with
  | .plain => text
  | .escape => "E'" ++ display.escapeEscaped text ++ "'"
  | .unicode => "U&'" ++ display.escapeUnicode text ++ "'"
  | .national => "N'" ++ text ++ "'"
  | .dollar tag => "$" ++ tag ++ "$" ++ text ++ "$" ++ tag ++ "$"

/-- What escaping a text adds. -/
structure EscapesGrow : Prop where
  escaped : ∀ text, text.length ≤ (display.escapeEscaped text).length
  unicode : ∀ text, text.length ≤ (display.escapeUnicode text).length

variable {spelling : Spelling} {text : String}

theorem hashedText_of_stringLiteral (spelled : stringLiteral literal = some (spelling, text)) :
    hashedText display literal = spelledText display spelling text := by
  cases literal with
  | number | hexStringLiteral | boolean | null | placeholder =>
    simp [stringLiteral] at spelled
  | _ =>
    simp only [stringLiteral, some.injEq, Prod.mk.injEq] at spelled
    obtain ⟨rfl, rfl⟩ := spelled
    rfl

theorem digestCell_of_stringLiteral {hmac : String → String → String}
    {secret : Secret} (spelled : stringLiteral literal = some (spelling, text)) :
    digestCell display hmac (some secret) (.value literal) = .value (.singleQuotedString
        (hmac secret.secretKey (spelledText display spelling text))) := by
  have hashed := hashedText_of_stringLiteral display spelled
  cases literal with
  | null => cases spelled
  | _ => rw [digestCell, hashed]; simp

theorem dollar_inj {left right text : String} (same : spelledText display (.dollar left) text =
      spelledText display (.dollar right) text) : left = right := by
  have lists := congrArg String.toList same
  have lengths := congrArg length lists
  simp only [spelledText, String.toList_append, length_append] at lists lengths
  have sameLength : left.toList.length = right.toList.length := by omega
  simp only [append_assoc] at lists
  have rest := append_cancel_left lists
  exact String.toList_injective (append_inj_left rest sameLength)

/-- The first character of a literal that is not plain. -/
private def Spelling.mark : Spelling → Char
  | plain => '\x27'
  | escape => 'E'
  | unicode => 'U'
  | national => 'N'
  | dollar _ => '$'

theorem length_lt_spelledText (grows : EscapesGrow display) (text : String)
    (marked : spelling ≠ .plain) :
    text.length < (spelledText display spelling text).length := by
  have escaped := grows.escaped text
  have unicode := grows.unicode text
  cases spelling with
  | plain => exact absurd rfl marked
  | escape | unicode | national | dollar =>
    simp only [spelledText, String.length_append]
    have quote : "'".length = 1 := rfl
    have sign : "$".length = 1 := rfl
    omega

theorem head_spelledText (text : String) (marked : spelling ≠ .plain) :
    (spelledText display spelling text).toList.head? = some spelling.mark := by
  cases spelling with
  | plain => exact absurd rfl marked
  | escape | unicode | national | dollar =>
    simp [spelledText, Spelling.mark]

theorem spelledText_inj (grows : EscapesGrow display) {left right : Spelling}
    (same : spelledText display left text = spelledText display right text) :
    left = right := by
  by_cases leftPlain : left = .plain
  · by_contra different
    have longer := length_lt_spelledText display grows text
      (fun plain => different (leftPlain.trans plain.symm))
    rw [← same, leftPlain] at longer
    exact lt_irrefl _ longer
  · by_cases rightPlain : right = .plain
    · have longer := length_lt_spelledText display grows text leftPlain
      rw [same, rightPlain] at longer
      exact absurd longer (lt_irrefl _)
    · have marks : left.mark = right.mark := by
        have heads := congrArg (fun spelled => spelled.toList.head?) same
        simp only [head_spelledText display text leftPlain,
          head_spelledText display text rightPlain] at heads
        exact some.inj heads
      cases left with
      | dollar tag =>
        cases right with
        | dollar other => rw [dollar_inj display same]
        | _ => simp [Spelling.mark] at marks
      | plain => exact absurd rfl leftPlain
      | escape | unicode | national =>
        cases right with
        | plain => exact absurd rfl rightPlain
        | _ => simp [Spelling.mark] at marks ⊢

end Digests

section Lanes

variable {display : SqlDisplay} {resolver : String → Option Secret} {schema : TableSchema}
  {column secretId : String} {secrets : List (Option Secret)}

theorem writeSecrets_at {α : Type} {targets : List α}
    {secretOf : α → Except String (Option String)} {position : Nat} {target : α}
    (pseudonymized : schema.anonymized.lookup column = some secretId)
    (known : writeSecrets resolver schema.anonymized (targets.mapM secretOf) = .ok secrets)
    (there : targets[position]? = some target)
    (secretOfTarget : secretOf target = .ok (some secretId)) :
    ∃ secret, resolver secretId = some secret ∧ secrets[position]? = some (some secret) := by
  unfold writeSecrets at known
  split at known
  · next empty => simp [isEmpty_iff.mp empty] at pseudonymized
  · split at known
    · cases known
    rename_i ids done
    obtain ⟨id, found, here⟩ := getElem?_of_mapM_ok done there
    cases secretOfTarget.symm.trans found
    split at known
    · rename_i none
      have absent := all_eq_true.mp none _ (mem_of_getElem? here)
      simp at absent
    · obtain ⟨result, resolved, known⟩ :=
        getElem?_of_mapM_ok known here
      obtain ⟨secret, same, rfl⟩ := Lib.map_eq_ok_iff.mp resolved
      exact ⟨secret, resolver_of_resolveSecret same, known⟩

variable {name : ObjectName}

theorem columnSecret_of_names (pseudonymized : schema.anonymized.lookup column = some secretId)
    (named : NamesColumn name column) :
    columnSecret display schema.anonymized name = .ok (some secretId) := by
  obtain ⟨ident, known, rfl⟩ := named
  simp only [columnSecret, known, pseudonymized]

/-- The text a write hashes is that of the literal's spelling, whatever the
digest. -/
private def Write.Hashes (write : Write) (display : SqlDisplay)
    (resolver : String → Option Secret) (schema : TableSchema) (row position : Nat)
    (secret : Secret) (text : String) : Prop :=
  ∀ hmac, write.stored display hmac resolver schema row position =
    some (.value (.singleQuotedString (hmac secret.secretKey text)))

variable {row position : Nat} {spelling : Spelling} {text : String}
  {hmac : String → String → String} {statements : List (Statement Expr)}

theorem hashes_values {insert named : Insert Expr} {rows : List (List Expr)}
    {cells : List Expr} (pseudonymized : schema.anonymized.lookup column = some secretId)
    (columns : materializeInsertColumns insert schema.columns = .ok named)
    (source : insert.source = .values rows)
    (target : named.columns[position]? = some name) (isColumn : NamesColumn name column)
    (there : rows[row]? = some cells) (cell : cells[position]? = some (.value literal))
    (spelled : stringLiteral literal = some (spelling, text))
    (accepted : (Write.values insert).prepared display hmac resolver schema = .ok statements) :
    ∃ secret, resolver secretId = some secret ∧
      (Write.values insert).Hashes display resolver schema row position secret
        (spelledText display spelling text) := by
  obtain ⟨stmt, prepared, _⟩ := Lib.map_eq_ok_iff.mp accepted
  obtain ⟨other, secrets, sameColumns, found, hashable, -⟩ :=
    (prepareDml_insert display hmac resolver source).mp prepared
  cases columns.symm.trans sameColumns
  obtain ⟨secret, resolved, known⟩ := writeSecrets_at pseudonymized found target
    (columnSecret_of_names pseudonymized isColumn)
  refine ⟨secret, resolved, fun digest => ?_⟩
  have sent := (prepareDml_insert display digest resolver source).mpr
    ⟨named, secrets, columns, found, hashable, rfl⟩
  simp only [Write.stored, Write.prepared, sent, Except.map, writtenRows, flatMap_singleton,
    getElem?_map, there, map_some, bind_some]
  rw [digestRow_getElem? display digest known cell, digestCell_of_stringLiteral display spelled]

theorem withValues_values {assignments : List (Assignment Expr)}
    {values : List Expr} (lengths : values.length = assignments.length) :
    (withValues assignments values).map Assignment.value = values := by
  induction assignments generalizing values with
  | nil => rw [eq_nil_of_length_eq_zero lengths]; rfl
  | cons assignment assignments induction =>
    cases values with
    | nil => cases lengths
    | cons value values =>
      have tail := induction (Nat.succ.inj lengths)
      rw [withValues, zipWith_cons_cons, map_cons]
      exact congrArg _ tail

theorem hashes_update {update : Update Expr} {position : Nat}
    (pseudonymized : schema.anonymized.lookup column = some secretId)
    (there : update.assignments[position]? =
      some { target := .columnName name, value := .value literal })
    (isColumn : NamesColumn name column) (spelled : stringLiteral literal = some (spelling, text))
    (accepted : (Write.update update).prepared display hmac resolver schema = .ok statements) :
    ∃ secret, resolver secretId = some secret ∧
      (Write.update update).Hashes display resolver schema 0 position secret
        (spelledText display spelling text) := by
  obtain ⟨stmt, prepared, _⟩ := Lib.map_eq_ok_iff.mp accepted
  obtain ⟨secrets, found, hashable, -⟩ :=
    (prepareDml_update display hmac resolver).mp prepared
  obtain ⟨secret, resolved, known⟩ := writeSecrets_at pseudonymized found there
    (columnSecret_of_names pseudonymized isColumn)
  refine ⟨secret, resolved, fun digest => ?_⟩
  have sent := (prepareDml_update display digest resolver).mpr ⟨secrets, found, hashable, rfl⟩
  have cell : (update.assignments.map Assignment.value)[position]? =
      some (.value literal) := by rw [getElem?_map, there, map_some]
  have values := withValues_values ((digestRow_length display digest secrets
      (update.assignments.map Assignment.value)).trans (length_map _))
  simp only [Write.stored, Write.prepared, sent, Except.map, writtenRows,
    flatMap_singleton, values, getElem?_cons_zero, bind_some]
  rw [digestRow_getElem? display digest known cell, digestCell_of_stringLiteral display spelled]

variable {template : Insert Expr}

theorem prepareDml_chunk (named : template.columns ≠ [])
    (found : insertSecrets display resolver schema.anonymized template.columns = .ok secrets)
    (hmac : String → String → String) (chunk : List (List Expr)) (stmt : Statement Expr) :
    prepareDml display hmac resolver schema (.insert (insertWithValues template chunk)) = .ok stmt ↔
      (∀ row ∈ chunk, HashableRow secrets row) ∧ .insert (insertWithValues template
          (chunk.map (digestRow display hmac secrets))) = stmt := by
  rw [prepareDml_insert display hmac resolver rfl]
  have columns : materializeInsertColumns (insertWithValues template chunk)
      schema.columns = .ok (insertWithValues template chunk) :=
    materializeInsertColumns_of_columns named
  constructor
  · rintro ⟨other, others, same, known, hashable, rfl⟩
    cases columns.symm.trans same
    cases found.symm.trans known
    exact ⟨hashable, rfl⟩
  · rintro ⟨hashable, rfl⟩
    exact ⟨_, secrets, columns, found, hashable, rfl⟩

theorem cellLiteral_of_text {literal : Expr} (stores : StoresCell (.text text) literal) :
    literal = .value (.singleQuotedString text) := by
  obtain ⟨dataType, kind, typed, known, rfl⟩ := stores
  have quoted : kind = .quoted := by
    induction dataType with
    | text => exact (Except.ok.inj known).symm
    | dictionary values induction => exact induction typed known
    | _ => cases typed
  rw [quoted]
  rfl

theorem insertSecrets_of_prepared {chunks : List (List (List Expr))}
    (named : template.columns ≠ []) (filled : chunks.flatten ≠ [])
    (prepared : (chunks.map (insertWithValues template)).mapM (fun insert =>
      prepareDml display hmac resolver schema (.insert insert)) = .ok statements) :
    ∃ secrets, insertSecrets display resolver schema.anonymized template.columns = .ok secrets := by
  cases chunks with
  | nil => exact absurd rfl filled
  | cons chunk chunks =>
    obtain ⟨stmt, done, -⟩ := getElem?_of_mapM_ok prepared
      (show ((chunk :: chunks).map (insertWithValues template))[0]? = _ from rfl)
    obtain ⟨same, secrets, columns, found, -, -⟩ :=
      (prepareDml_insert display hmac resolver rfl).mp done
    have kept : materializeInsertColumns (insertWithValues template chunk)
        schema.columns = .ok (insertWithValues template chunk) :=
      materializeInsertColumns_of_columns named
    cases kept.symm.trans columns
    exact ⟨secrets, found⟩

theorem hashes_rows {batches : List RecordBatch} {cells : List Cell}
    (pseudonymized : schema.anonymized.lookup column = some secretId)
    (target : template.columns[position]? = some name) (isColumn : NamesColumn name column)
    (there : (batches.flatMap RecordBatch.rows)[row]? = some cells)
    (cell : cells[position]? = some (.text text))
    (accepted : (Write.rows template batches).prepared display hmac resolver schema =
      .ok statements) :
    ∃ secret, resolver secretId = some secret ∧
      (Write.rows template batches).Hashes display resolver schema row position secret text := by
  simp only [Write.prepared] at accepted
  split at accepted
  · cases accepted
  rename_i inserts emitted
  obtain ⟨named, rows, related, rfl⟩ := insertStatementsFromBatches_rows emitted
  obtain ⟨literals, rowHere, stores⟩ :=
    getElem?_of_forall₂ related there
  obtain ⟨literal, literalHere, stored⟩ :=
    getElem?_of_forall₂ stores cell
  rw [cellLiteral_of_text stored] at literalHere
  have flat := chunkRows_flatten (max rowsPerStatement 1) [] rows
  rw [nil_append] at flat
  have filled : (chunkRows (max rowsPerStatement 1) [] rows).flatten ≠ [] := by
    rw [flat]
    exact ne_nil_of_mem (mem_of_getElem? rowHere)
  obtain ⟨secrets, found⟩ := insertSecrets_of_prepared named filled accepted
  obtain ⟨secret, resolved, known⟩ := writeSecrets_at pseudonymized found target
    (columnSecret_of_names pseudonymized isColumn)
  refine ⟨secret, resolved, fun digest => ?_⟩
  simp only [mapM_map, Function.comp_def] at accepted
  have checked := (mapM_eq_ok_iff (prepareDml_chunk named found hmac)).mp accepted
  have sent := (mapM_eq_ok_iff (prepareDml_chunk named found digest)).mpr ⟨checked.1, rfl⟩
  rw [Write.stored, Write.prepared, emitted]
  simp only [mapM_map, Function.comp_def, sent]
  have whole : (((chunkRows (max rowsPerStatement 1) [] rows).map fun chunk =>
      Statement.insert (insertWithValues template
        (chunk.map (digestRow display digest secrets)))).flatMap writtenRows) =
          rows.map (digestRow display digest secrets) := by
    rw [flatMap_map]
    simp only [writtenRows, insertWithValues]
    rw [flatMap_def, ← map_flatten, flat]
  rw [whole, getElem?_map, rowHere, map_some, bind_some,
    digestRow_getElem? display digest known literalHere]
  rfl

theorem hashes_of_sets {write : Write}
    (pseudonymized : schema.anonymized.lookup column = some secretId)
    (sets : write.Sets schema column spelling text row position)
    (accepted : write.prepared display hmac resolver schema = .ok statements) :
    ∃ secret, resolver secretId = some secret ∧
      write.Hashes display resolver schema row position secret
        (spelledText display spelling text) := by
  cases sets with
  | values columns source target isColumn there cell spelled =>
    exact hashes_values pseudonymized columns source target isColumn there cell spelled accepted
  | update there isColumn spelled =>
    exact hashes_update pseudonymized there isColumn spelled accepted
  | rows target isColumn there cell plain =>
    subst plain
    exact hashes_rows pseudonymized target isColumn there cell accepted

end Lanes

/-- Two accepted writes of one string store one digest, whatever the function,
exactly if the string is spelled alike. -/
theorem same_digest_iff_spelled_alike {display : SqlDisplay}
    {hmac : String → String → String} {resolver : String → Option Secret}
    {schema : TableSchema} {column secretId text : String} {left right : Write}
    {leftRow leftPosition rightRow rightPosition : Nat}
    {leftSpelling rightSpelling : Spelling}
    {leftStatements rightStatements : List (Statement Expr)} (grows : EscapesGrow display)
    (pseudonymized : schema.anonymized.lookup column = some secretId)
    (leftSets : left.Sets schema column leftSpelling text leftRow leftPosition)
    (rightSets : right.Sets schema column rightSpelling text rightRow rightPosition)
    (leftAccepted : left.prepared display hmac resolver schema = .ok leftStatements)
    (rightAccepted : right.prepared display hmac resolver schema = .ok rightStatements) :
    ∃ secret, resolver secretId = some secret ∧
      (∀ digest, left.stored display digest resolver schema leftRow leftPosition =
        some (.value (.singleQuotedString (digest secret.secretKey
          (spelledText display leftSpelling text))))) ∧
      (∀ digest, right.stored display digest resolver schema rightRow rightPosition =
        some (.value (.singleQuotedString (digest secret.secretKey
          (spelledText display rightSpelling text))))) ∧ ((∀ digest,
          left.stored display digest resolver schema leftRow leftPosition =
            right.stored display digest resolver schema rightRow rightPosition) ↔
        leftSpelling = rightSpelling) := by
  obtain ⟨secret, resolved, leftHashes⟩ :=
    hashes_of_sets pseudonymized leftSets leftAccepted
  obtain ⟨other, sameResolved, rightHashes⟩ :=
    hashes_of_sets pseudonymized rightSets rightAccepted
  cases resolved.symm.trans sameResolved
  refine ⟨secret, resolved, leftHashes, rightHashes, ?_, ?_⟩
  · intro same
    have texts := same fun _ hashed => hashed
    rw [leftHashes, rightHashes] at texts
    simp only [some.injEq, Expr.value.injEq, Value.singleQuotedString.injEq] at texts
    exact spelledText_inj display grows texts
  · rintro rfl digest
    rw [leftHashes, rightHashes]

/-- A table whose addresses are pseudonymized. -/
def contacts : TableSchema where
  columns := ["id", "email"]
  anonymized := [("email", "contacts-secret")]

def contactsTable : TableMeta where
  tableName := "contacts"
  shardKey := "id"
  shards :=
    [{ shardId := "contacts:shard0"
       tableName := "contacts"
       primaryNodeId := "n1"
       replicaNodeIds := []
       hashBucket := 0 }]

def contactsSecret : Secret where
  algo := hmacSha256Algo
  secretKey := "key"

def contactsResolver (id : String) : Option Secret :=
  if id = "contacts-secret" then some contactsSecret else none

/-- `INSERT INTO contacts (id, email) VALUES (1, email)`. -/
def insertContact (email : Value) : Insert Expr where
  table := [Ident.new "contacts"]
  columns := [[Ident.new "id"], [Ident.new "email"]]
  source := .values [[.value (.number "1"), .value email]]
  onConflict := none

/-- `UPDATE contacts SET email = email`. -/
def updateContacts (email : Value) : Update Expr where
  table := { name := [Ident.new "contacts"], tableAlias := none }
  assignments :=
    [{ target := .columnName [Ident.new "email"], value := .value email }]
  fromTables := []
  selection := none

theorem insertContact_sets {email : Value} {spelling : Spelling}
    (spelled : stringLiteral email = some (spelling, "a")) :
    (Write.values (insertContact email)).Sets contacts "email" spelling "a" 0 1 :=
  .values rfl rfl rfl ⟨Ident.new "email", rfl, by decide⟩ rfl rfl spelled

theorem escapesGrow_plainDisplay : EscapesGrow plainDisplay :=
  ⟨fun _ => le_refl _, fun _ => le_refl _⟩

theorem plain_insert_and_update_store_one_digest : EscapesGrow plainDisplay ∧
    ∀ digest, (Write.values (insertContact (.singleQuotedString "a"))).stored
        plainDisplay digest contactsResolver contacts 0 1 =
      (Write.update (updateContacts (.singleQuotedString "a"))).stored
        plainDisplay digest contactsResolver contacts 0 0 := by
  have inserted := insertContact_sets
    (show stringLiteral (.singleQuotedString "a") = some (.plain, "a") from rfl)
  have updated : (Write.update (updateContacts (.singleQuotedString "a"))).Sets contacts "email"
      .plain "a" 0 0 := .update rfl ⟨Ident.new "email", rfl, by decide⟩ rfl
  obtain ⟨_, insertAccepted⟩ : ∃ statements,
      (Write.values (insertContact (.singleQuotedString "a"))).prepared plainDisplay
        (fun key text => key ++ text) contactsResolver contacts = .ok statements :=
    ⟨_, rfl⟩
  obtain ⟨_, updateAccepted⟩ : ∃ statements,
      (Write.update (updateContacts (.singleQuotedString "a"))).prepared plainDisplay
        (fun key text => key ++ text) contactsResolver contacts = .ok statements :=
    ⟨_, rfl⟩
  obtain ⟨-, -, -, -, alike⟩ := same_digest_iff_spelled_alike
    escapesGrow_plainDisplay rfl inserted updated insertAccepted updateAccepted
  exact ⟨escapesGrow_plainDisplay, alike.mpr rfl⟩

/-- `E'a'` is accepted, as `'a'` is, and stores another digest. -/
theorem escape_literal_stores_another_digest :
    (∃ writes, planClientDml plainDisplay (fun key text => key ++ text)
      contactsResolver (fun _ => 0) plainConversions (fun _ _ => .error (.internal ""))
      contactsTable contacts (.insert (insertContact (.singleQuotedString "a"))) [] = .ok writes) ∧
    (∃ writes, planClientDml plainDisplay (fun key text => key ++ text)
      contactsResolver (fun _ => 0) plainConversions (fun _ _ => .error (.internal ""))
      contactsTable contacts (.insert (insertContact (.escapedStringLiteral "a"))) []
        = .ok writes) ∧
    (Write.values (insertContact (.singleQuotedString "a"))).Sets contacts "email" .plain "a" 0 1 ∧
    (Write.values (insertContact (.escapedStringLiteral "a"))).Sets contacts "email"
      .escape "a" 0 1 ∧ (Write.values (insertContact (.singleQuotedString "a"))).stored plainDisplay
        (fun key text => key ++ text) contactsResolver contacts 0 1 =
      some (.value (.singleQuotedString "keya")) ∧
    (Write.values (insertContact (.escapedStringLiteral "a"))).stored plainDisplay
        (fun key text => key ++ text) contactsResolver contacts 0 1 =
      some (.value (.singleQuotedString "keyE'a'")) :=
  ⟨⟨_, rfl⟩, ⟨_, rfl⟩, insertContact_sets rfl, insertContact_sets rfl, rfl, rfl⟩

end VaireDb.Anonymization
