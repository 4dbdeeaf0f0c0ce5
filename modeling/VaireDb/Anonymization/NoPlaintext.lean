import VaireDb.Anonymization.Digests
import VaireDb.Anonymization.TwoRuns

/-!
# What the shards are told of a plaintext

The statements that are shipped depend on the digests of the values written to
pseudonymized columns, and not on the values.  The one exception is the `DO UPDATE`
of `ON CONFLICT`: its assignments are shipped as the client wrote them.
-/

namespace VaireDb.Anonymization

open Coordinator Routing Rows Sql List Lib.Traverse Option

/-! ## Materialized rows in two runs -/

variable {id : Option String}

section Batches

variable {display : SqlDisplay} {resolver : String → Option Secret}
  {first second : String → String → String}

theorem plaintext_cellLiteral (display : SqlDisplay) {cell : Cell} {dataType : ArrowType}
    {kind : LiteralKind} (typed : cell.HasType dataType)
    (known : literalKind dataType = .ok kind) (filled : cell ≠ .null) :
    isPlaintext (cellLiteral kind cell) = true ∧
      plaintext display (cellLiteral kind cell) = arrowArrayValueToString cell := by
  induction dataType with
  | dictionary values induction => exact induction typed known
  | other => cases known
  | _ =>
    cases known
    cases cell with
    | null => exact absurd rfl filled
    | boolean value => cases value <;> exact ⟨rfl, rfl⟩
    | _ => first | exact ⟨rfl, rfl⟩ | exact typed.elim

variable {ids : List (Option String)}

theorem sameColumns_eq_nil {columns : List Column}
    (same : SameColumns resolver first second ids [] columns) : columns = [] := by
  cases ids <;> exact same.symm

variable {lefts rights : List Column}

theorem sameColumns_described (same : SameColumns resolver first second ids lefts rights) :
    Forall₂ (fun left right => left.name = right.name ∧ left.dataType = right.dataType)
      lefts rights := by
  induction ids generalizing lefts rights with
  | nil =>
    obtain rfl : lefts = rights := by cases lefts <;> exact same
    exact forall₂_same.mpr fun _ _ => ⟨rfl, rfl⟩
  | cons id ids induction =>
    cases lefts with
    | nil =>
      rw [sameColumns_eq_nil same]
      exact .nil
    | cons left lefts =>
      cases rights with
      | nil => cases (same : left :: lefts = [])
      | cons right rights => exact .cons ⟨same.1.name, same.1.dataType⟩ (induction same.2)

theorem columnKinds_sameBatch {left right : RecordBatch}
    (same : SameBatch resolver first second ids left right) :
    columnKinds left = columnKinds right := by
  have described := sameColumns_described same.columns
  unfold columnKinds
  generalize left.columns = lefts, right.columns = rights at described
  induction described with
  | nil => rfl
  | cons head _ induction => rw [mapM_cons, mapM_cons, induction, head.1, head.2]

theorem sameRow_rowLiterals {kinds : List LiteralKind} {row : Nat}
    (known : Forall₂ (fun column kind => literalKind column.dataType = .ok kind) lefts kinds)
    (within : ∀ column ∈ lefts, row < column.cells.length)
    (same : SameColumns resolver first second ids lefts rights) :
    SameRow display resolver first second ids (rowLiterals lefts kinds row)
      (rowLiterals rights kinds row) := by
  induction ids generalizing lefts rights kinds with
  | nil =>
    obtain rfl : lefts = rights := by cases lefts <;> exact same
    cases rowLiterals lefts kinds row <;> rfl
  | cons id ids induction =>
    cases known with
    | nil =>
      rw [sameColumns_eq_nil same]
      rfl
    | @cons left kind lefts kinds head tail =>
      cases rights with
      | nil => cases (same : left :: lefts = [])
      | cons right rights =>
        rw [forall_mem_cons] at within
        refine ⟨?_, induction tail within.2 same.2⟩
        have here := getElem?_eq_getElem within.1
        obtain ⟨cell, there, cells⟩ :=
          getElem?_of_forall₂ same.1.cells here
        show SameValue display resolver first second id
          (cellLiteral kind (left.cells.getD row .null))
          (cellLiteral kind (right.cells.getD row .null))
        rw [getD_eq_getElem?_getD, getD_eq_getElem?_getD, here, there, getD_some, getD_some]
        cases id with
        | none =>
          rw [(cells : left.cells.get ⟨row, within.1⟩ = cell)]
          rfl
        | some id =>
          simp only [SameCell] at cells
          split at cells
          · rename_i null
            rw [null, cells]
            rfl
          · rename_i filled
            have leftText := plaintext_cellLiteral display
              (left.typed _ (mem_of_getElem? here)) head filled
            have rightText := plaintext_cellLiteral display
              (right.typed _ (mem_of_getElem? there)) (same.1.dataType ▸ head) cells.1
            simp only [SameValue, leftText, rightText, if_true, true_and]
            exact cells.2

theorem batchRows_same {arity : Nat} {left right : RecordBatch}
    {lefts : List (List Expr)} (same : SameBatch resolver first second ids left right)
    (done : batchRows arity left = .ok lefts) :
    ∃ rights, batchRows arity right = .ok rights ∧ Forall₂ (fun row other => row.length = arity ∧
        SameRow display resolver first second ids row other) lefts rights := by
  unfold batchRows at done ⊢
  rw [← (sameColumns_described same.columns).length_eq, ← columnKinds_sameBatch same,
    ← same.numRows]
  split at done
  · cases done
  rename_i width
  rw [if_neg width]
  split at done <;> cases done
  rename_i kinds known
  have each := columnKinds_forall₂ known
  refine ⟨_, rfl, ?_⟩
  rw [forall₂_map_left_iff, forall₂_map_right_iff, forall₂_same]
  intro row member
  have within : ∀ column ∈ left.columns, row < column.cells.length := by
    intro column inside
    rw [left.aligned column inside]
    exact mem_range.mp member
  refine ⟨?_, sameRow_rowLiterals each within same.columns⟩
  have lengths := each.length_eq
  simp only [rowLiterals, length_zipWith]
  omega

theorem chunkRows_related {α β : Type} {R : α → β → Prop} {size : Nat}
    {chunk lefts : List α} {other rights : List β}
    (started : Forall₂ R chunk other) (related : Forall₂ R lefts rights) :
    Forall₂ (Forall₂ R) (chunkRows size chunk lefts) (chunkRows size other rights) := by
  induction related generalizing chunk other with
  | nil =>
    cases started with
    | nil => exact .nil
    | cons head tail => exact .cons (.cons head tail) .nil
  | @cons left right lefts rights head tail induction =>
    have grown : Forall₂ R (chunk ++ [left]) (other ++ [right]) :=
      rel_append started (.cons head .nil)
    unfold chunkRows
    rw [← grown.length_eq]
    split
    · exact .cons grown (induction .nil)
    · exact induction grown

/-- Two inserts that differ at most in their rows and in plaintexts. -/
private structure SameTemplate (display : SqlDisplay)
    (resolver : String → Option Secret) (first second : String → String → String)
    (schema : TableSchema) (left right : Insert Expr) : Prop where
  table : left.table = right.table
  columns : left.columns = right.columns
  conflictTarget : left.conflictTarget = right.conflictTarget
  conflict : SameConflict display resolver first second schema.anonymized
    left.onConflict right.onConflict

theorem insertStatements_same {schema : TableSchema} {left right : Insert Expr}
    {lefts rights : List RecordBatch} {size : Nat} {statements : List (Insert Expr)}
    (same : SameTemplate display resolver first second schema left right)
    (batches : Forall₂ (SameBatch resolver first second ids) lefts rights)
    (adapted : ∀ row other, row.length = left.columns.length →
      SameRow display resolver first second ids row other → SameRow display resolver first second
          (left.columns.map (pseudonymOf schema.anonymized)) row other)
    (done : insertStatementsFromBatches left lefts size = .ok statements) :
    ∃ others, insertStatementsFromBatches right rights size = .ok others ∧
      Forall₂ (fun statement other =>
        SameInsert display resolver first second schema statement other ∧
          (∃ rows, statement = insertWithValues left rows) ∧
          (∃ rows, other = insertWithValues right rows)) statements others := by
  unfold insertStatementsFromBatches at done ⊢
  rw [← same.columns]
  split at done
  · cases done
  rename_i named
  rw [if_neg named]
  split at done
  · cases done
  rename_i rows known
  obtain rfl := Except.ok.inj done
  have each := forall₂_of_mapM_ok known
  obtain ⟨others, alsoKnown, related⟩ : ∃ others,
      rights.mapM (batchRows left.columns.length) = .ok others ∧ Forall₂ (Forall₂ fun row other =>
        row.length = left.columns.length ∧ SameRow display resolver first second ids row other)
        rows others := by
    clear known done
    induction batches generalizing rows with
    | nil =>
      cases each
      exact ⟨[], rfl, .nil⟩
    | cons head _ induction =>
      cases each with
      | cons here rest =>
        obtain ⟨others, found, tail⟩ := induction _ rest
        obtain ⟨other, read, rowsRelated⟩ := batchRows_same head here
        refine ⟨other :: others, ?_, .cons rowsRelated tail⟩
        rw [mapM_cons, read, found]
        rfl
  rw [alsoKnown]
  refine ⟨_, rfl, ?_⟩
  rw [forall₂_map_left_iff, forall₂_map_right_iff]
  refine (chunkRows_related .nil (rel_flatten related)).imp fun chunk other rowsRelated => ?_
  refine ⟨⟨same.table, same.columns, ?_, same.conflictTarget, same.conflict⟩,
    ⟨chunk, rfl⟩, ⟨other, rfl⟩⟩
  have written : insertPseudonyms schema (insertWithValues left chunk) =
      left.columns.map (pseudonymOf schema.anonymized) := by
    unfold insertPseudonyms writtenColumns insertWithValues
    rw [if_neg named]
  show Forall₂ (SameRow display resolver first second _) chunk other
  rw [written]
  exact rowsRelated.imp fun row next entry => adapted row next entry.1 entry.2

end Batches

/-! ## The `ON CONFLICT` clause of a shipped statement -/

def shippedConflict (write : ShardWrite) : Option (ConflictAction Expr) :=
  match write.statement with
  | .insert insert => insert.onConflict
  | _ => none

/-- A rewrite that leaves plaintexts alone. -/
private def KeepsPlaintexts (rewrite : Expr → Expr) : Prop :=
  ∀ expr, isPlaintext expr → rewrite expr = expr

theorem keepsPlaintexts_of_value {rewrite : Expr → Expr} (fixed : ∀ literal,
      isPlaintext (.value literal) → rewrite (.value literal) = .value literal) :
    KeepsPlaintexts rewrite := by
  intro expr plain
  cases expr with
  | value literal => exact fixed literal plain
  | _ => cases plain

theorem keepsPlaintexts_renumberExpr (order : List Nat) :
    KeepsPlaintexts (Expr.mapExpressions (renumberExpr order)) := by
  refine keepsPlaintexts_of_value fun literal plain => ?_
  cases literal with
  | placeholder => cases plain
  | _ => rfl

theorem KeepsPlaintexts.comp {inner outer : Expr → Expr}
    (keepsInner : KeepsPlaintexts inner) (keepsOuter : KeepsPlaintexts outer) :
    KeepsPlaintexts (outer ∘ inner) := by
  intro expr plain
  rw [Function.comp_apply, keepsInner expr plain, keepsOuter expr plain]

theorem shippedConflict_planWrite {texts : Conversions}
    {toWriteParam : Option ScalarValue → Nat → Except CoordinatorError WriteParam}
    {insert : Insert Expr} {params : List ScalarValue} {shard : ShardMeta}
    {write : ShardWrite}
    (sent : planWrite texts toWriteParam (.insert insert) params shard = .ok write) :
    ∃ rewrite, KeepsPlaintexts rewrite ∧ shippedConflict write =
        insert.onConflict.map (ConflictAction.map rewrite) := by
  have shardLocal : KeepsPlaintexts (Expr.mapExpressions (transformExpr texts) ∘
      Expr.mapRelations fun relation =>
        (shardLocalName (logicalShardId shard.hashBucket) relation).getD relation) :=
    keepsPlaintexts_of_value fun _ _ => rfl
  unfold planWrite at sent
  split at sent <;> cases sent
  rename_i statement writeParams generated
  rcases generateShardLocalSql_ok generated with ⟨_, rfl, _⟩ | ⟨_, _, rfl, _⟩
  · refine ⟨_, shardLocal, ?_⟩
    rw [← ConflictAction.map_comp, ← Option.map_map]
    rfl
  · refine ⟨_, shardLocal.comp (keepsPlaintexts_renumberExpr (placeholderOrder
      (shardLocalStatement texts shard.hashBucket (.insert insert)))), ?_⟩
    rw [← ConflictAction.map_comp, ← Option.map_map, ← ConflictAction.map_comp, ← Option.map_map]
    rfl

/-! ## What the shards learn -/

def onConflictOf : ClientWrite → Option (ConflictAction Expr)
  | .statement (.insert insert) _ => insert.onConflict
  | .insertFromQuery insert _ _ _ _ => insert.onConflict
  | _ => none

def conflictAssignments : Option (ConflictAction Expr) → List (Assignment Expr)
  | some (.doUpdate assignments _) => assignments
  | _ => []

/-- A value that is a digest already: `NULL`, or the stored or the proposed value of
a pseudonymized column. -/
def carriesDigest (anonymized : AnonymizedColumns) : Expr → Bool
  | .value .null => true
  | .identifier ident => (pseudonymOf anonymized [ident]).isSome
  | .compoundIdentifier [qualifier, ident] =>
    asciiLowercase qualifier.value = "excluded" && (pseudonymOf anonymized [ident]).isSome
  | _ => false

/-- A value that the rewriter hashes, or that is a digest already. -/
def IsHashed (anonymized : AnonymizedColumns) (value : Expr) : Prop :=
  isPlaintext value ∨ carriesDigest anonymized value

/-- An assignment sets a pseudonymized column to an allowed value, and alone. -/
def SetsOnly (anonymized : AnonymizedColumns) (allowed : Expr → Prop)
    (assignment : Assignment Expr) : Prop :=
  match assignment.target with
  | .columnName name => pseudonymOf anonymized name ≠ none → allowed assignment.value
  | .tuple names => ∀ name ∈ names, pseudonymOf anonymized name = none

/-- The rows and the `SET` list of a write have hashed values only.  A `MERGE` hashes
none. -/
def ValuesHashed (schema : TableSchema) : ClientWrite → Prop
  | .statement (.insert insert) _ =>
    ∀ rows, insert.source = .values rows → ∀ row ∈ rows,
      ∀ entry ∈ (insertPseudonyms schema insert).zip row, entry.1 ≠ none →
        IsHashed schema.anonymized entry.2
  | .statement (.update update) _ =>
    ∀ assignment ∈ update.assignments,
      SetsOnly schema.anonymized (IsHashed schema.anonymized) assignment
  | .merge _ _ => False
  | _ => True

/-- A write has rows: those of a query or of a file may be none. -/
def HasRows : ClientWrite → Prop
  | .insertFromQuery _ _ _ batches _ => ∃ batch ∈ batches, batch.numRows ≠ 0
  | .copyBatch _ batch => batch.numRows ≠ 0
  | _ => True

/-- A write sets pseudonymized columns to hashed values only. -/
def OnlyHashed (schema : TableSchema) (write : ClientWrite) : Prop :=
  ValuesHashed schema write ∧ ∀ assignment ∈ conflictAssignments (onConflictOf write),
      SetsOnly schema.anonymized (IsHashed schema.anonymized) assignment

section NoPlaintext

variable (display : SqlDisplay) (hmac : String → String → String)
  (resolver : String → Option Secret) (hash : String → UInt64)
  (encodedSize memorySize : List (List NodeValue) → Nat) (texts : Conversions)
  (toWriteParam : Option ScalarValue → Nat → Except CoordinatorError WriteParam)

/-- No plaintext reaches a shard: what is shipped is a function of the digests, and
a write that has rows writes no other value to a pseudonymized column. -/
structure NoPlaintext (catalog : Catalog) (schema : TableSchema)
    (write : ClientWrite) (plan : WritePlan) : Prop where
  digestsOnly : ∀ other run, SameWrite display resolver hmac other schema write run →
      handleWrite display other resolver hash encodedSize memorySize texts
        toWriteParam catalog run = .ok plan
  othersRefused : HasRows write → OnlyHashed schema write

/-! ## One `INSERT` -/

variable {display hmac resolver hash encodedSize memorySize texts toWriteParam}
  {other : String → String → String} {schema : TableSchema} {table : TableMeta}
  {params : List ScalarValue} {writes : List ShardWrite} {insert : Insert Expr}
  {stmt : Statement Expr}

theorem prepareDml_keeps
    (done : prepareDml display hmac resolver schema (.insert insert) = .ok stmt) :
    ∃ prepared, stmt = .insert prepared ∧ prepared.onConflict = insert.onConflict ∧
      ∀ rows, prepared.source = .values rows → ∃ written, insert.source = .values written := by
  cases source : insert.source with
  | values written =>
    obtain ⟨named, secrets, columns, -, -, rfl⟩ :=
      (prepareDml_insert display hmac resolver source).mp done
    refine ⟨_, rfl, ?_, fun _ _ => ⟨written, rfl⟩⟩
    rw [materializeInsertColumns_eq columns]
  | query | defaultValues =>
    have named : materializeInsertColumns insert schema.columns = .ok insert := by
      unfold materializeInsertColumns
      rw [source]
    refine ⟨insert, ?_, rfl, fun rows values => ?_⟩
    · simp only [prepareDml, named, Except.map, anonymizeStatement, anonymizeInsert] at done
      split at done <;> cases done
      rename_i hashed found
      split at found
      · exact (Except.ok.inj found).symm
      · split at found <;> cases found
        rename_i result anonymized
        simp only [bind, Except.bind, source] at anonymized
        split at anonymized
        · cases anonymized
        split at anonymized
        · rw [← Except.ok.inj anonymized]
        · split at anonymized
          · cases anonymized
          · cases anonymized <;> rfl
    · cases source.symm.trans values

theorem planPrepared_of_planClientDml
    (planned : planClientDml display hmac resolver hash texts toWriteParam table
      schema stmt params = .ok writes) :
    ∃ prepared, prepareDml display hmac resolver schema stmt = .ok prepared ∧
      planPrepared display hash texts toWriteParam table prepared params = .ok writes := by
  unfold planClientDml at planned
  split at planned
  · cases planned
  · next prepared done => exact ⟨prepared, done, planned⟩

theorem exists_prepared (planned : planClientDml display hmac resolver hash texts toWriteParam table
      schema (.insert insert) params = .ok writes) :
    ∃ prepared rows, insert.source = .values rows ∧ prepared.onConflict = insert.onConflict ∧
      prepareDml display hmac resolver schema (.insert insert) = .ok (.insert prepared) ∧
      planPrepared display hash texts toWriteParam table (.insert prepared) params =
        .ok writes := by
  obtain ⟨stmt, done, sent⟩ := planPrepared_of_planClientDml planned
  obtain ⟨prepared, rfl, conflict, written⟩ := prepareDml_keeps done
  obtain ⟨write, member⟩ :=
    exists_mem_of_ne_nil writes (planPrepared_insert_ne_nil sent)
  obtain ⟨rows, -, -, source, -⟩ := insertOf_of_planPrepared sent member
  obtain ⟨given, known⟩ := written rows source
  exact ⟨prepared, given, known, conflict, done, sent⟩

variable {left right : Insert Expr}

theorem planClientDml_insert_same (same : SameInsert display resolver hmac other schema left right)
    (conflict : left.onConflict = right.onConflict)
    (planned : planClientDml display hmac resolver hash texts toWriteParam table
      schema (.insert left) params = .ok writes) :
    planClientDml display other resolver hash texts toWriteParam table schema
      (.insert right) params = .ok writes := by
  obtain ⟨prepared, rows, source, -, done, sent⟩ := exists_prepared planned
  unfold planClientDml
  rwa [prepareDml_insert_same same conflict source done]

theorem shippedConflict_planClientDml {write : ShardWrite}
    (planned : planClientDml display hmac resolver hash texts toWriteParam table
      schema (.insert insert) params = .ok writes) (member : write ∈ writes) :
    ∃ rewrite, KeepsPlaintexts rewrite ∧ shippedConflict write =
        insert.onConflict.map (ConflictAction.map rewrite) := by
  obtain ⟨prepared, -, -, conflict, -, sent⟩ := exists_prepared planned
  obtain ⟨rows, positions, shard, -, shipped⟩ := insertOf_of_planPrepared sent member
  obtain ⟨rewrite, keeps, action⟩ := shippedConflict_planWrite shipped
  exact ⟨rewrite, keeps, by rw [action, ← conflict]; rfl⟩

variable {anonymized : AnonymizedColumns} {value : Expr}

theorem not_isPlaintext_of_carriesDigest (digest : carriesDigest anonymized value) :
    ¬ isPlaintext value := by
  intro plain
  cases value with
  | value literal =>
    cases literal with
    | null => cases plain
    | _ => cases digest
  | _ => cases plain

theorem sameConflict_eq {left right : Option (ConflictAction Expr)}
    (calm : ∀ assignment ∈ conflictAssignments left,
      SetsOnly anonymized (carriesDigest anonymized ·) assignment)
    (same : SameConflict display resolver hmac other anonymized left right) :
    left = right := by
  have equal : ∀ first second : Assignment Expr,
      SetsOnly anonymized (carriesDigest anonymized ·) first →
      SameAssignment display resolver hmac other anonymized first second →
        first = second := by
    rintro ⟨target, value⟩ ⟨otherTarget, otherValue⟩ allowed ⟨rfl, values⟩
    have equalValues : value = otherValue := by
      cases target with
      | tuple names => exact values
      | columnName name =>
        simp only [targetPseudonym] at values
        cases id : pseudonymOf anonymized name with
        | none => rwa [id] at values
        | some id' =>
          have digest : carriesDigest anonymized value :=
            allowed (by simp [id])
          have notPlain := not_isPlaintext_of_carriesDigest digest
          rw [id] at values
          simpa [SameValue, notPlain] using values
    rw [equalValues]
  unfold SameConflict at same
  split at same
  · rename_i lefts selection rights otherSelection
    obtain ⟨each, rfl⟩ := same
    have lists : lefts = rights := by
      simp only [conflictAssignments] at calm
      induction each with
      | nil => rfl
      | cons head _ induction =>
        rw [forall_mem_cons] at calm
        rw [equal _ _ calm.1 head, induction calm.2]
    rw [lists]
  · exact same

/-! ## Statements made of rows -/

variable {arity : Nat}

theorem template_same {left right template : Insert Expr}
    (same : SameInsert display resolver hmac other schema left right)
    (done : materializeInsertColumnsForArity left schema.columns arity = .ok template) :
    materializeInsertColumnsForArity right schema.columns arity =
        .ok { right with columns := template.columns } ∧
      ∀ row next, row.length = template.columns.length →
        SameRow display resolver hmac other (insertPseudonyms schema left) row next →
          SameRow display resolver hmac other
            (template.columns.map (pseudonymOf schema.anonymized)) row next := by
  unfold materializeInsertColumnsForArity at done ⊢
  rw [← same.columns]
  split at done
  · rename_i skip
    cases done
    rw [if_pos skip, same.columns]
    refine ⟨rfl, fun row next width related => ?_⟩
    unfold insertPseudonyms writtenColumns at related
    split at related
    · rename_i positional
      rw [List.isEmpty_iff, same.columns] at positional
      rw [positional, List.length_nil, List.length_eq_zero_iff] at width
      subst width
      have nothing : [] = next := by
        revert related
        cases quotedColumnNames schema.columns <;> exact id
      subst nothing
      rw [positional]
      rfl
    · rwa [same.columns] at related
  · rename_i positional
    rw [if_neg positional]
    split at done <;> cases done
    rename_i fits
    rw [if_neg fits]
    refine ⟨rfl, fun row next width related => ?_⟩
    have short : row.length ≤ arity := by
      rw [width]
      simp [quotedColumnNames]
    have empty : left.columns.isEmpty := by
      simp only [Bool.or_eq_true, Bool.not_eq_true', not_or] at positional
      simpa using positional.1.1
    unfold insertPseudonyms writtenColumns at related
    rw [if_pos empty] at related
    have kept := sameRow_take short related
    rwa [← List.map_take, quotedColumnNames, ← List.map_take] at kept

theorem planRowStatements_ne_nil_iff {statements : List (Insert Expr)}
    (planned : planRowStatements display hash hmac resolver texts toWriteParam table
      schema statements params = .ok writes) : writes ≠ [] ↔ statements ≠ [] := by
  obtain ⟨plans, known, rfl⟩ := Lib.map_eq_ok_iff.mp planned
  cases forall₂_of_mapM_ok known with
  | nil => simp
  | cons head _ =>
    obtain ⟨prepared, -, -, -, -, sent⟩ := exists_prepared head
    simp [planPrepared_insert_ne_nil sent]

theorem planRowStatements_same {lefts rights : List (Insert Expr)}
    (each : Forall₂ (fun statement next =>
      SameInsert display resolver hmac other schema statement next ∧
        (∃ rows, statement = insertWithValues left rows) ∧
        (∃ rows, next = insertWithValues right rows)) lefts rights)
    (conflict : writes ≠ [] → left.onConflict = right.onConflict)
    (planned : planRowStatements display hash hmac resolver texts toWriteParam table
      schema lefts params = .ok writes) :
    planRowStatements display hash other resolver texts toWriteParam table schema
      rights params = .ok writes := by
  unfold planRowStatements at planned ⊢
  obtain ⟨plans, known, rfl⟩ := Lib.map_eq_ok_iff.mp planned
  cases plans with
  | nil =>
    have none := forall₂_of_mapM_ok known
    cases none
    cases each
    rfl
  | cons plan plans =>
    have filled : (plan :: plans).flatten ≠ [] := by
      refine (planRowStatements_ne_nil_iff planned).mpr ?_
      rintro rfl
      cases forall₂_of_mapM_ok known
    have done := mapM_eq_ok_of_related each (g := fun insert => planClientDml display
      other resolver hash texts toWriteParam table schema (.insert insert) params) (fun statement
      next result entry sent => ?_) known
    · rw [done]
      rfl
    · obtain ⟨same, ⟨rows, rfl⟩, nextRows, rfl⟩ := entry
      exact planClientDml_insert_same same (conflict filled) sent

variable {target : CatalogTable} {lefts rights : List RecordBatch} {statements : List (Insert Expr)}

theorem queryStatements_ne_nil_iff {arity : Nat}
    (known : queryStatements target insert arity lefts = .ok statements) :
    statements ≠ [] ↔ ∃ batch ∈ lefts, batch.numRows ≠ 0 := by
  unfold queryStatements at known
  split at known
  · cases known
  split at known
  · cases known
  split at known
  · cases known
  split at known <;> cases known
  next spelled => exact insertStatementsFromBatches_ne_nil_iff spelled

theorem queryStatements_same
    (same : SameInsert display resolver hmac other target.toTableSchema left right)
    (batches : Forall₂ (SameBatch resolver hmac other
      (insertPseudonyms target.toTableSchema left)) lefts rights)
    (done : queryStatements target left arity lefts = .ok statements) :
    ∃ columns others, queryStatements target right arity rights = .ok others ∧
      Forall₂ (fun statement next =>
        SameInsert display resolver hmac other target.toTableSchema statement next ∧
          (∃ rows, statement = insertWithValues { left with columns := columns } rows) ∧
          (∃ rows, next = insertWithValues { right with columns := columns } rows))
        statements others := by
  unfold queryStatements at done ⊢
  split at done
  · cases done
  rename_i template known
  obtain ⟨alsoKnown, adapted⟩ := template_same same known
  have shape := materializeInsertColumnsForArity_eq known
  rw [alsoKnown]
  split at done
  · cases done
  rename_i named
  simp only [named, if_false]
  split at done
  · cases done
  rename_i width
  rw [if_neg width]
  split at done <;> cases done
  rename_i found spelled
  rw [shape] at spelled
  have templates : SameTemplate display resolver hmac other
      target.toTableSchema { left with columns := template.columns }
      { right with columns := template.columns } :=
    ⟨same.table, rfl, same.conflictTarget, same.conflict⟩
  obtain ⟨others, read, related⟩ :=
    insertStatements_same templates batches adapted spelled
  rw [read]
  exact ⟨template.columns, others, rfl, related⟩

/-! ## Every form of a write -/

theorem tableName_same {write run : ClientWrite}
    (same : SameWrite display resolver hmac other schema write run) :
    run.tableName = write.tableName := by
  unfold SameWrite at same
  split at same
  · rename_i left _ right _
    replace same := same.1
    unfold SameStatement at same
    split at same
    · simp only [ClientWrite.tableName, extractTableName, Statement.ownRelations, same.table]
    · simp only [ClientWrite.tableName, extractTableName, Statement.ownRelations,
        same.table, head?_cons]
    · rw [same]
      rfl
  · simp only [ClientWrite.tableName, extractTableName, Statement.ownRelations, same.1.table]
  · rw [same.1]
    rfl
  · rw [same]

theorem planClientDml_same {left right : Statement Expr}
    (same : SameStatement display resolver hmac other schema left right) (calm : writes ≠ [] →
      ∀ assignment ∈ conflictAssignments (onConflictOf (.statement left params)),
        SetsOnly schema.anonymized (carriesDigest schema.anonymized ·) assignment)
    (planned : planClientDml display hmac resolver hash texts toWriteParam table
      schema left params = .ok writes) :
    planClientDml display other resolver hash texts toWriteParam table schema right
      params = .ok writes := by
  unfold SameStatement at same
  split at same
  · rename_i left right
    obtain ⟨prepared, -, -, -, -, sent⟩ := exists_prepared planned
    have filled := planPrepared_insert_ne_nil sent
    exact planClientDml_insert_same same (sameConflict_eq (calm filled) same.conflict) planned
  · obtain ⟨prepared, done, sent⟩ := planPrepared_of_planClientDml planned
    unfold planClientDml
    rwa [prepareDml_update_same same done]
  · rename_i notInsert notUpdate
    subst same
    cases left with
    | insert insert => exact (notInsert insert insert rfl rfl).elim
    | update update => exact (notUpdate update update rfl rfl).elim
    | _ =>
      unfold planClientDml prepareDml anonymizeStatement at planned ⊢
      exact planned

variable {catalog : Catalog} {name : String}

theorem planBulkInsert_pseudonymized {rowTarget : RowTarget}
    {batch : RecordBatch} (pseudonymized : target.anonymized ≠ []) :
    planBulkInsert display hash encodedSize memorySize target.toTableMeta
        target.toTableSchema rowTarget batch =
      match columnKinds batch with
      | .error reason => .error (.featureNotSupported reason)
      | .ok _ => .ok none := by
  unfold planBulkInsert bulkWireRows
  cases columnKinds batch with
  | error reason => rfl
  | ok kinds => simp [pseudonymized]

variable {plan : WritePlan}

theorem writeRowBatch_same {rowTarget : RowTarget} {left right : RecordBatch}
    (pseudonymized : target.anonymized ≠ []) (same : SameBatch resolver hmac other
      (insertPseudonyms target.toTableSchema rowTarget.template) left right)
    (accepted : writeRowBatch display hmac resolver hash encodedSize memorySize texts
      toWriteParam target rowTarget left = .ok plan) :
    writeRowBatch display other resolver hash encodedSize memorySize texts
      toWriteParam target rowTarget right = .ok plan := by
  unfold writeRowBatch at accepted ⊢
  rw [planBulkInsert_pseudonymized pseudonymized] at accepted ⊢
  rw [← columnKinds_sameBatch same, ← same.numRows]
  split at accepted
  · next empty => rwa [if_pos empty]
  · rename_i filled
    rw [if_neg filled]
    cases kinds : columnKinds left with
    | error reason => rw [kinds] at accepted; cases accepted
    | ok kinds' =>
      simp only [kinds, planLiteralRows, Except.map] at accepted ⊢
      split at accepted
      · cases accepted
      rename_i writes planned
      split at planned
      · cases planned
      rename_i statements spelled
      obtain ⟨columns, named, unconflicted⟩ := rowTarget.template_eq
      have templates : SameTemplate display resolver hmac other
          target.toTableSchema rowTarget.template rowTarget.template :=
        ⟨rfl, rfl, rfl, by rw [unconflicted]; rfl⟩
      have written : insertPseudonyms target.toTableSchema
          rowTarget.template = rowTarget.template.columns.map (pseudonymOf target.anonymized) := by
        unfold insertPseudonyms writtenColumns
        rw [columns, if_neg (by simpa [quotedColumnNames] using named)]
      obtain ⟨others, read, each⟩ := insertStatements_same templates
        (.cons same .nil) (fun _ _ _ related => written ▸ related) spelled
      rw [read]
      simp only [planRowStatements_same each (fun _ => rfl) planned]
      exact accepted

theorem shipWrite_same {write run : ClientWrite} (pseudonymized : target.anonymized ≠ [])
    (same : SameWrite display resolver hmac other target.toTableSchema write run)
    (calm : plan.statements ≠ [] → ∀ assignment ∈ conflictAssignments (onConflictOf write),
        SetsOnly target.anonymized (carriesDigest target.anonymized ·) assignment)
    (accepted : shipWrite display hmac resolver hash encodedSize memorySize texts
      toWriteParam catalog name target write = .ok plan) :
    shipWrite display other resolver hash encodedSize memorySize texts toWriteParam
      catalog name target run = .ok plan := by
  unfold SameWrite at same
  split at same
  · obtain ⟨related, rfl⟩ := same
    obtain ⟨writes, planned, rfl⟩ := Lib.map_eq_ok_iff.mp accepted
    rw [shipWrite, planClientDml_same related calm planned]
    rfl
  · obtain ⟨related, rfl, rfl, batches, rfl⟩ := same
    obtain ⟨writes, planned, rfl⟩ := Lib.map_eq_ok_iff.mp accepted
    unfold handleInsertFromQuery at planned
    simp only [bind, Except.bind] at planned
    split at planned
    · cases planned
    rename_i routed
    split at planned
    · cases planned
    rename_i statements known
    obtain ⟨columns, others, alsoKnown, each⟩ := queryStatements_same related batches known
    simp only [shipWrite, handleInsertFromQuery, bind, Except.bind, routed, alsoKnown,
      planRowStatements_same each (fun filled => sameConflict_eq (calm filled) related.conflict)
        planned]
    rfl
  · obtain ⟨rfl, batches⟩ := same
    exact writeRowBatch_same pseudonymized batches accepted
  · rename_i notStatement notQuery notCopy
    subst same
    cases write with
    | statement stmt params => exact (notStatement stmt params _ _ rfl rfl).elim
    | insertFromQuery insert tables arity batches params =>
      exact (notQuery _ _ _ _ _ _ _ _ _ _ rfl rfl).elim
    | copyBatch rowTarget batch => exact (notCopy _ _ _ _ rfl rfl).elim
    | merge merge params => exact accepted

/-! ## Other values are refused -/

theorem isHashed_of_literal (literal : isPlaintext value ∨ value = .value .null) :
    IsHashed anonymized value := by
  rcases literal with plain | rfl
  · exact .inl plain
  · exact .inr rfl

theorem take_zip {α β : Type} {items : List α} {others : List β} (fits : others.length ≤ arity) :
    (items.take arity).zip others = items.zip others := by
  conv_lhs => rw [← take_of_length_le fits]
  rw [zip, ← take_zipWith, take_of_length_le]
  simp only [length_zipWith]
  omega

theorem hashed_rows {rows : List (List Expr)} {row : List Expr}
    (planned : planClientDml display hmac resolver hash texts toWriteParam table
      schema (.insert insert) params = .ok writes)
    (source : insert.source = .values rows) (member : row ∈ rows) :
    ∀ entry ∈ (insertPseudonyms schema insert).zip row, entry.1 ≠ none →
      IsHashed schema.anonymized entry.2 := by
  obtain ⟨prepared, -, -, -, done, -⟩ := exists_prepared planned
  obtain ⟨named, secrets, columns, known, hashable, -⟩ :=
    (prepareDml_insert display hmac resolver source).mp done
  obtain ⟨arity, fits, leading⟩ := namedPseudonyms_eq source columns member
  intro entry inside pseudonymized
  have leadingEntry : entry ∈
      (named.columns.map (pseudonymOf schema.anonymized)).zip row := by rwa [leading, take_zip fits]
  exact isHashed_of_literal ((hasSecrets_insert known).literal (hashable row member)
    entry leadingEntry pseudonymized)

theorem targetSecret_tuple {names : List ObjectName}
    (done : targetSecret display anonymized (.tuple names) = .ok id) :
    ∀ name ∈ names, pseudonymOf anonymized name = none := by
  intro name member
  simp only [targetSecret, bind, Except.bind] at done
  split at done
  · cases done
  rename_i checked
  have alone := ok_of_forM_ok checked member
  split at alone
  · cases alone
  rename_i id known
  rw [pseudonymOf_columnSecret known]
  cases id with
  | none => rfl
  | some id => cases alone

theorem hashed_assignments {update : Update Expr} (pseudonymized : schema.anonymized ≠ [])
    (planned : planClientDml display hmac resolver hash texts toWriteParam table
      schema (.update update) params = .ok writes) :
    ∀ assignment ∈ update.assignments,
      SetsOnly schema.anonymized (IsHashed schema.anonymized) assignment := by
  obtain ⟨prepared, done, -⟩ := planPrepared_of_planClientDml planned
  obtain ⟨secrets, known, hashable, -⟩ :=
    (prepareDml_update display hmac resolver).mp done
  have literals := (hasSecrets_update known).literal hashable
  intro assignment member
  unfold SetsOnly
  split
  · rename_i name target
    intro hasSecret
    refine isHashed_of_literal (literals
      (targetPseudonym schema.anonymized assignment.target, assignment.value) ?_ ?_)
    · rw [zip_map']
      exact mem_map_of_mem member
    · rwa [target]
  · rename_i names target
    unfold updateSecrets writeSecrets at known
    rw [if_neg (by simpa using pseudonymized)] at known
    split at known
    · cases known
    rename_i ids found
    obtain ⟨position, there⟩ := getElem?_of_mem member
    obtain ⟨id, secret, -⟩ := getElem?_of_mapM_ok found there
    rw [target] at secret
    exact targetSecret_tuple secret

/-- Another spelling of a plaintext with the same text. -/
private def respelled (display : SqlDisplay) : Expr → Expr
  | .value (.singleQuotedString content) => .value (.doubleQuotedString content)
  | .value literal => .value (.singleQuotedString (hashedText display literal))
  | expr => expr

theorem respelled_spec (display : SqlDisplay) (plain : isPlaintext value) :
    isPlaintext (respelled display value) ∧
      plaintext display (respelled display value) = plaintext display value ∧
      respelled display value ≠ value := by
  cases value with
  | value literal =>
    cases literal with
    | null | placeholder => cases plain
    | _ => exact ⟨rfl, rfl, by simp [respelled]⟩
  | _ => cases plain

/-! ## A plaintext that is shipped -/

theorem queryStatements_template {insert statement : Insert Expr} {batches : List RecordBatch}
    (done : queryStatements target insert arity batches = .ok statements)
    (member : statement ∈ statements) :
    statement.onConflict = insert.onConflict := by
  unfold queryStatements at done
  split at done
  · cases done
  rename_i template known
  split at done
  · cases done
  split at done
  · cases done
  split at done <;> cases done
  rename_i found spelled
  obtain ⟨-, rows, -, rfl⟩ := insertStatementsFromBatches_rows spelled
  obtain ⟨chunk, -, rfl⟩ := mem_map.mp member
  rw [insertWithValues, materializeInsertColumnsForArity_eq known]

variable {write : ClientWrite} {action : ConflictAction Expr}

theorem shippedConflict_shipWrite {sent : ShardWrite}
    (conflicted : onConflictOf write = some action)
    (accepted : shipWrite display hmac resolver hash encodedSize memorySize texts
      toWriteParam catalog name target write = .ok plan) (member : sent ∈ plan.statements) :
    ∃ rewrite, KeepsPlaintexts rewrite ∧ shippedConflict sent = some (action.map rewrite) := by
  have mapped {insert : Insert Expr} {rewrite : Expr → Expr} (same : insert.onConflict = some
      action) (shipped : shippedConflict sent = insert.onConflict.map (ConflictAction.map rewrite))
      : shippedConflict sent = some (action.map rewrite) := by rw [shipped, same, map_some]
  unfold onConflictOf at conflicted
  split at conflicted
  · obtain ⟨writes, planned, rfl⟩ := Lib.map_eq_ok_iff.mp accepted
    obtain ⟨rewrite, keeps, shipped⟩ :=
      shippedConflict_planClientDml planned member
    exact ⟨rewrite, keeps, mapped conflicted shipped⟩
  · obtain ⟨writes, planned, rfl⟩ := Lib.map_eq_ok_iff.mp accepted
    obtain ⟨_, _, planned⟩ := Lib.bind_eq_ok_iff.mp planned
    obtain ⟨statements, known, planned⟩ := Lib.bind_eq_ok_iff.mp planned
    obtain ⟨plans, done, rfl⟩ := Lib.map_eq_ok_iff.mp planned
    obtain ⟨each, inPlans, inside⟩ := mem_flatten.mp member
    obtain ⟨position, there⟩ := getElem?_of_mem inPlans
    obtain ⟨statement, here, chunk⟩ :=
      getElem?_of_forall₂ (forall₂_of_mapM_ok done).flip there
    obtain ⟨rewrite, keeps, shipped⟩ :=
      shippedConflict_planClientDml chunk inside
    have same := queryStatements_template known (mem_of_getElem? here)
    exact ⟨rewrite, keeps, mapped (same.trans conflicted) shipped⟩
  · cases conflicted

variable {assignments : List (Assignment Expr)} {selection : Option Expr}

theorem sameValue_refl :
    SameValue display resolver hmac hmac id value value := by
  cases id with
  | none => rfl
  | some id =>
    simp only [SameValue]
    split
    · next plain => exact ⟨plain, fun _ _ => rfl⟩
    · trivial

theorem sameRow_refl (ids : List (Option String)) (row : List Expr) :
    SameRow display resolver hmac hmac ids row row := by
  induction ids generalizing row with
  | nil => cases row <;> rfl
  | cons id ids induction =>
    cases row with
    | nil => rfl
    | cons value values => exact ⟨sameValue_refl, induction values⟩

theorem sameSource_refl {ids : List (Option String)} {source : InsertSource Expr} :
    SameSource display resolver hmac hmac ids source source := by
  cases source with
  | values rows => exact forall₂_same.mpr fun row _ => sameRow_refl ids row
  | _ => rfl

theorem sameColumns_refl (ids : List (Option String))
    (columns : List Column) : SameColumns resolver hmac hmac ids columns columns := by
  have cells (id : Option String) (cell : Cell) :
      SameCell resolver hmac hmac id cell cell := by
    cases id with
    | none => rfl
    | some id =>
      simp only [SameCell]
      split
      · assumption
      · next filled => exact ⟨filled, fun _ _ => rfl⟩
  induction ids generalizing columns with
  | nil => cases columns <;> rfl
  | cons id ids induction =>
    cases columns with
    | nil => rfl
    | cons column columns =>
      exact ⟨⟨rfl, rfl, forall₂_same.mpr fun cell _ => cells id cell⟩, induction columns⟩

variable {assignment : Assignment Expr}

theorem sameConflict_set
    {position : Nat} (there : assignments[position]? = some assignment)
    (plain : isPlaintext assignment.value) {name : ObjectName} {id : String}
    (target : assignment.target = .columnName name)
    (pseudonym : pseudonymOf anonymized name = some id) :
    SameConflict display resolver hmac hmac anonymized (some (.doUpdate assignments selection))
      (some (.doUpdate (assignments.set position
        { assignment with value := respelled display assignment.value }) selection)) := by
  refine ⟨?_, rfl⟩
  obtain ⟨alsoPlain, text, -⟩ := respelled_spec display plain
  induction assignments generalizing position with
  | nil => cases there
  | cons head tail induction =>
    cases position with
    | zero =>
      cases there
      refine .cons ⟨rfl, ?_⟩ (forall₂_same.mpr fun next _ => ⟨rfl, sameValue_refl⟩)
      rw [target, targetPseudonym, pseudonym]
      simp only [SameValue, plain, if_true]
      refine ⟨alsoPlain, fun secret _ => ?_⟩
      rw [text]
    | succ position =>
      exact .cons ⟨rfl, sameValue_refl⟩ (induction there)

private def withConflict (action : Option (ConflictAction Expr)) : ClientWrite → ClientWrite
  | .statement (.insert insert) params =>
    .statement (.insert { insert with onConflict := action }) params
  | .insertFromQuery insert tables arity batches params =>
    .insertFromQuery { insert with onConflict := action } tables arity batches params
  | write => write

variable {next : Option (ConflictAction Expr)}

theorem sameWrite_withConflict (conflicted : onConflictOf write = some action)
    (same : SameConflict display resolver hmac hmac schema.anonymized (some action)
      next) :
    SameWrite display resolver hmac hmac schema write (withConflict next write) := by
  rw [← conflicted] at same
  unfold onConflictOf at same conflicted
  split at conflicted
  · exact ⟨⟨rfl, rfl, sameSource_refl, rfl, same⟩, rfl⟩
  · refine ⟨⟨rfl, rfl, sameSource_refl, rfl, same⟩, rfl, rfl, ?_, rfl⟩
    exact forall₂_same.mpr fun batch _ => ⟨rfl, sameColumns_refl _ _⟩
  · cases conflicted

/-! ## When no plaintext is shipped -/

variable {catalog : Catalog} {name : String} {target : CatalogTable}
  {write : ClientWrite} {plan : WritePlan}

theorem shipWrite_of_handleWrite
    (known : catalog name = some target) (targets : write.tableName = some name) :
    handleWrite display hmac resolver hash encodedSize memorySize texts toWriteParam catalog write =
      shipWrite display hmac resolver hash encodedSize memorySize texts toWriteParam
        catalog name target write := by
  unfold handleWrite
  rw [targets]
  simp only [requireTable, known]

/-- An `INSERT` with an `ON CONFLICT` clause ships a statement if it has a row. -/
theorem statements_ne_nil_iff {action : ConflictAction Expr}
    (conflicted : onConflictOf write = some action)
    (shipped : shipWrite display hmac resolver hash encodedSize memorySize texts toWriteParam
      catalog name target write = .ok plan) : plan.statements ≠ [] ↔ HasRows write := by
  unfold onConflictOf at conflicted
  split at conflicted
  · obtain ⟨writes, planned, rfl⟩ := Lib.map_eq_ok_iff.mp shipped
    obtain ⟨prepared, -, -, -, -, sent⟩ := exists_prepared planned
    exact iff_of_true (planPrepared_insert_ne_nil sent) trivial
  · obtain ⟨writes, planned, rfl⟩ := Lib.map_eq_ok_iff.mp shipped
    obtain ⟨_, _, planned⟩ := Lib.bind_eq_ok_iff.mp planned
    obtain ⟨statements, known, planned⟩ := Lib.bind_eq_ok_iff.mp planned
    rw [planRowStatements_ne_nil_iff planned]
    exact queryStatements_ne_nil_iff known
  · cases conflicted

theorem not_digestsOnly {column : ObjectName}
    (known : catalog name = some target) (targets : write.tableName = some name)
    (accepted : handleWrite display hmac resolver hash encodedSize memorySize texts
      toWriteParam catalog write = .ok plan) (filled : plan.statements ≠ [])
    (member : assignment ∈ conflictAssignments (onConflictOf write))
    (sets : assignment.target = .columnName column)
    (pseudonymized : pseudonymOf target.anonymized column ≠ none)
    (plain : isPlaintext assignment.value) (digestsOnly : ∀ other run,
      SameWrite display resolver hmac other target.toTableSchema write run →
        handleWrite display other resolver hash encodedSize memorySize texts
          toWriteParam catalog run = .ok plan) : False := by
  obtain ⟨assignments, selection, conflicted⟩ : ∃ assignments selection,
        onConflictOf write = some (.doUpdate assignments selection) := by
    unfold conflictAssignments at member
    split at member
    · rename_i assignments selection conflicted
      exact ⟨assignments, selection, conflicted⟩
    · cases member
  rw [conflicted] at member
  obtain ⟨position, there⟩ := List.getElem?_of_mem member
  obtain ⟨id, pseudonym⟩ := ne_none_iff_exists'.mp pseudonymized
  obtain ⟨alsoPlain, -, different⟩ := respelled_spec display plain
  let changed := assignments.set position
    { assignment with value := respelled display assignment.value }
  have related : SameWrite display resolver hmac hmac target.toTableSchema write
      (withConflict (some (.doUpdate changed selection)) write) :=
    sameWrite_withConflict conflicted (sameConflict_set there plain sets pseudonym)
  have rerun := digestsOnly hmac _ related
  rw [shipWrite_of_handleWrite known targets] at accepted
  rw [shipWrite_of_handleWrite known ((tableName_same related).trans targets)] at rerun
  obtain ⟨sent, inPlan⟩ := List.exists_mem_of_ne_nil _ filled
  obtain ⟨rewrite, keeps, shipped⟩ :=
    shippedConflict_shipWrite conflicted accepted inPlan
  have replaced {next : Option (ConflictAction Expr)} :
      onConflictOf (withConflict next write) = next := by
    unfold onConflictOf at conflicted
    split at conflicted <;> first | rfl | cases conflicted
  obtain ⟨next, keepsNext, reshipped⟩ := shippedConflict_shipWrite replaced rerun inPlan
  have same := some.inj (shipped.symm.trans reshipped)
  have within : position < assignments.length := (List.getElem?_eq_some_iff.mp there).1
  have here := congrArg (·[position]?) (ConflictAction.doUpdate.inj same).1
  change assignments[position]? = _ at there
  simp only [changed, getElem?_map, there, List.getElem?_set_self within, map_some,
    some.injEq] at here
  have values := congrArg Assignment.value here
  simp only [Assignment.map, keeps _ plain, keepsNext _ alsoPlain] at values
  exact different values.symm

/-- No plaintext is shipped by an accepted write to a table with pseudonymized columns,
exactly if it has no rows or its `ON CONFLICT` clause sets those columns to digests. -/
theorem no_plaintext_iff_conflicts_carry_digests (known : catalog name = some target)
    (pseudonymized : target.anonymized ≠ []) (targets : write.tableName = some name)
    (accepted : handleWrite display hmac resolver hash encodedSize memorySize texts
      toWriteParam catalog write = .ok plan) :
    NoPlaintext display hmac resolver hash encodedSize memorySize texts toWriteParam
        catalog target.toTableSchema write plan ↔
      (HasRows write → ∀ assignment ∈ conflictAssignments (onConflictOf write),
          SetsOnly target.anonymized (carriesDigest target.anonymized ·) assignment) := by
  have shipped := accepted
  rw [shipWrite_of_handleWrite known targets] at shipped
  have filled_iff : ∀ assignment ∈ conflictAssignments (onConflictOf write),
      (plan.statements ≠ [] ↔ HasRows write) := by
    intro assignment member
    unfold conflictAssignments at member
    split at member
    · next conflicted => exact statements_ne_nil_iff conflicted shipped
    · cases member
  constructor
  · intro safe hasRows assignment member
    have filled := (filled_iff assignment member).mpr hasRows
    have hashed := (safe.othersRefused hasRows).2 assignment member
    unfold SetsOnly at hashed ⊢
    split at hashed
    · rename_i column sets
      intro hasSecret
      rcases hashed hasSecret with plain | digest
      · exact (not_digestsOnly known targets accepted filled member sets hasSecret
          plain safe.digestsOnly).elim
      · exact digest
    · exact hashed
  · intro calm
    refine ⟨fun other run same => ?_, fun hasRows => ⟨?_, fun assignment member => ?_⟩⟩
    · rw [shipWrite_of_handleWrite known ((tableName_same same).trans targets)]
      refine shipWrite_same pseudonymized same (fun filled assignment member => ?_) shipped
      exact calm ((filled_iff assignment member).mp filled) assignment member
    · cases write with
      | statement stmt params =>
        obtain ⟨writes, planned, _⟩ := Lib.map_eq_ok_iff.mp shipped
        cases stmt with
        | insert insert =>
          exact fun rows source row member => hashed_rows planned source member
        | update update => exact hashed_assignments pseudonymized planned
        | _ => trivial
      | merge merge params =>
        obtain ⟨writes, planned, _⟩ := Lib.map_eq_ok_iff.mp shipped
        simp only [handleMerge, bind, Except.bind] at planned
        split at planned
        · cases planned
        rename_i accepted done
        obtain ⟨named, canonical, found, plain⟩ := acceptMerge_target done
        cases canonical.symm.trans targets
        cases known.symm.trans found
        exact pseudonymized plain
      | _ => trivial
    · have digest := calm hasRows assignment member
      unfold SetsOnly at digest ⊢
      split at digest
      · exact fun hasSecret => .inr (digest hasSecret)
      · exact digest

end NoPlaintext

/-! ## An address that is updated on conflict -/

def contactsCatalog (name : String) : Option CatalogTable :=
  if name = "contacts" then
    some { toTableMeta := contactsTable, toTableSchema := contacts, shardCount := 1 }
  else
    none

/-- `INSERT INTO contacts (id, email) VALUES (1, 'a') ON CONFLICT (id) DO UPDATE SET
email = value`. -/
def upsertContact (value : Expr) : ClientWrite :=
  .statement (.insert
    { insertContact (.singleQuotedString "a") with
      conflictTarget := .columns [Ident.new "id"]
      onConflict := some (.doUpdate
        [{ target := .columnName [Ident.new "email"], value := value }] none) }) []

theorem proposed_digest_is_no_plaintext :
    ∃ plan, NoPlaintext plainDisplay (fun key text => key ++ text) contactsResolver
      (fun _ => 0) List.length List.length plainConversions
      (fun _ _ => .error (.internal "")) contactsCatalog contacts
      (upsertContact (.compoundIdentifier [Ident.new "EXCLUDED", Ident.new "email"]))
      plan := by
  obtain ⟨plan, accepted⟩ : ∃ plan, handleWrite plainDisplay
      (fun key text => key ++ text) contactsResolver (fun _ => 0) length
      length plainConversions (fun _ _ => .error (.internal "")) contactsCatalog
      (upsertContact (.compoundIdentifier [Ident.new "EXCLUDED", Ident.new "email"])) =
        .ok plan := ⟨_, rfl⟩
  refine ⟨plan, (no_plaintext_iff_conflicts_carry_digests
    (show contactsCatalog "contacts" = some _ from rfl) (by decide) rfl
    accepted).mpr fun _ assignment member => ?_⟩
  obtain rfl := mem_singleton.mp member
  exact fun _ => rfl

/-- The address a `DO UPDATE` sets is shipped as it is written.  A run whose address
has the same digest ships another text. -/
theorem conflict_update_ships_plaintext : ∃ plan rerun other,
      handleWrite plainDisplay (fun key text => key ++ text) contactsResolver
        (fun _ => 0) List.length List.length plainConversions
        (fun _ _ => .error (.internal "")) contactsCatalog
        (upsertContact (.value (.singleQuotedString "b"))) = .ok plan ∧
      plan.statements.map shippedConflict =
        [some (.doUpdate [{ target := .columnName [Ident.new "email"]
                            value := .value (.singleQuotedString "b") }] none)] ∧
      SameWrite plainDisplay contactsResolver (fun key text => key ++ text) other
        contacts (upsertContact (.value (.singleQuotedString "b")))
        (upsertContact (.value (.singleQuotedString "c"))) ∧
      handleWrite plainDisplay other contactsResolver (fun _ => 0) List.length
        List.length plainConversions (fun _ _ => .error (.internal ""))
        contactsCatalog (upsertContact (.value (.singleQuotedString "c"))) = .ok rerun ∧
      rerun.statements.map shippedConflict =
        [some (.doUpdate [{ target := .columnName [Ident.new "email"]
                            value := .value (.singleQuotedString "c") }] none)] := by
  refine ⟨_, _, fun key text => key ++ if text = "c" then "b" else text, rfl, rfl, ?_,
    rfl, rfl⟩
  have digests (left right : String) (same : left = if right = "c" then "b" else right) :
      SameDigest contactsResolver (fun key text => key ++ text)
        (fun key text => key ++ if text = "c" then "b" else text) "contacts-secret"
        left right := by
    intro secret _
    rw [same]
  refine ⟨⟨rfl, rfl, ?_, rfl, ⟨.cons ⟨rfl, rfl, digests _ _ rfl⟩ .nil, rfl⟩⟩, rfl⟩
  exact .cons ⟨rfl, ⟨rfl, digests _ _ rfl⟩, rfl⟩ .nil

end VaireDb.Anonymization
