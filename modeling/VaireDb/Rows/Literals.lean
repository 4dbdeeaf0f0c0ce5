import VaireDb.Lib.Traverse
import VaireDb.Routing.RoutingValue

/-!
# Materialized rows as literals

A write whose rows the client did not spell out runs its source first and re-emits
the rows as `INSERT ... VALUES` statements of literals.  A batch is a list of
columns; a cell is its logical value, that is, looked up in the dictionary if the
column has one.
-/

namespace VaireDb.Rows

open Routing Sql List

/-- The type of a column.  The types that have no literal form are `other`. -/
inductive ArrowType where
  | null
  | boolean
  | integer (type : IntegerType)
  | float (bits : Nat)
  | decimal (type : DecimalType)
  | text (type : TextType)
  | temporal (name : String)
  | dictionary (values : ArrowType)
  | other (name : String)
  deriving DecidableEq, Repr

/-- A logical value.  A float, a decimal, a date or a time stands for the text the
renderer gives it. -/
inductive Cell where
  | null
  | boolean (value : Bool)
  | integer (value : Int)
  | text (content : String)
  | rendered (display : String)
  deriving DecidableEq, Repr

/-- The cell is a value of the type. -/
def Cell.HasType : Cell → ArrowType → Prop
  | cell, .dictionary values => cell.HasType values
  | null, _ => True
  | boolean _, .boolean => True
  | integer _, .integer _ => True
  | text _, .text _ => True
  | rendered _, .float _ | rendered _, .decimal _ | rendered _, .temporal _
  | rendered _, .other _ => True
  | _, _ => False

structure Column where
  name : String
  dataType : ArrowType
  cells : List Cell
  typed : ∀ cell ∈ cells, cell.HasType dataType

structure RecordBatch where
  columns : List Column
  numRows : Nat
  aligned : ∀ column ∈ columns, column.cells.length = numRows

/-- The text the shared renderer gives a cell. -/
def arrowArrayValueToString : Cell → String
  | .null => ""
  | .boolean true => "true"
  | .boolean false => "false"
  | .integer value => toString value
  | .text content => content
  | .rendered display => display

/-- How a rendered cell is spelled as a literal. -/
inductive LiteralKind where
  | number
  | boolean
  | quoted
  deriving DecidableEq, Repr

/-- The spelling of a column's values, or why it has none. -/
def literalKind : ArrowType → Except String LiteralKind
  | .boolean => .ok .boolean
  | .integer _ => .ok .number
  | .float _ | .decimal _ | .text _ | .temporal _ | .null => .ok .quoted
  | .dictionary values => literalKind values
  | .other name =>
    .error ("a value of type " ++ name ++ " cannot be re-emitted as a SQL " ++
      "literal: the coordinator materializes the source rows and writes them " ++
      "back as literal values, and this type has no literal form that stores " ++
      "the same value")

def cellLiteral (kind : LiteralKind) (cell : Cell) : Expr :=
  if cell = .null then
    .value .null
  else
    let text := arrowArrayValueToString cell
    match kind with
    | .number => .value (.number text)
    | .boolean => .value (.boolean (text = "true"))
    | .quoted => .value (.singleQuotedString text)

/-- The kind of every column, with the column named in a refusal. -/
def columnKinds (batch : RecordBatch) : Except String (List LiteralKind) :=
  batch.columns.mapM fun column =>
    match literalKind column.dataType with
    | .ok kind => .ok kind
    | .error reason => .error ("column \"" ++ column.name ++ "\": " ++ reason)

def rowLiterals (columns : List Column) (kinds : List LiteralKind) (row : Nat) : List Expr :=
  List.zipWith (fun column kind => cellLiteral kind (column.cells.getD row .null))
    columns kinds

def batchRows (arity : Nat) (batch : RecordBatch) : Except String (List (List Expr)) :=
  if batch.columns.length ≠ arity then
    .error ("INSERT has " ++ toString arity ++ " target column(s) but the source " ++
      "query produces " ++ toString batch.columns.length)
  else
    match columnKinds batch with
    | .error reason => .error reason
    | .ok kinds =>
      .ok ((List.range batch.numRows).map (rowLiterals batch.columns kinds))

def chunkRows {α : Type} (size : Nat) (chunk : List α) : List α → List (List α)
  | [] => if chunk.isEmpty then [] else [chunk]
  | row :: rows =>
    if size ≤ (chunk ++ [row]).length then
      (chunk ++ [row]) :: chunkRows size [] rows
    else
      chunkRows size (chunk ++ [row]) rows

def insertWithValues (insert : Insert Expr) (rows : List (List Expr)) : Insert Expr :=
  { insert with source := .values rows }

/-- The statements that write the batches into the target of a template. -/
def insertStatementsFromBatches (template : Insert Expr)
    (batches : List RecordBatch) (rowsPerStatement : Nat) :
    Except String (List (Insert Expr)) :=
  if template.columns.isEmpty then
    .error "INSERT must specify an explicit column list"
  else
    match batches.mapM (batchRows template.columns.length) with
    | .error reason => .error reason
    | .ok rows =>
      .ok ((chunkRows (max rowsPerStatement 1) [] rows.flatten).map (insertWithValues template))

def rowsPerStatement : Nat := 1000

/-- The `INSERT` of rows that come with no statement of their own. -/
def insertTemplate (table : String) (columns : List String) : Except String (Insert Expr) :=
  if columns.isEmpty then
    .error "INSERT must specify an explicit column list"
  else
    .ok
      { table := [{ value := table, quoted := true }]
        columns := columns.map fun column => [{ value := column, quoted := true }]
        source := .values [columns.map fun _ => .value .null]
        onConflict := none }

def RecordBatch.rows (batch : RecordBatch) : List (List Cell) :=
  (List.range batch.numRows).map fun row =>
    batch.columns.map fun column => column.cells.getD row .null

def StoresCell (cell : Cell) (literal : Expr) : Prop :=
  ∃ dataType kind, cell.HasType dataType ∧ literalKind dataType = .ok kind ∧
    literal = cellLiteral kind cell

variable {α : Type}

theorem chunkRows_flatten (size : Nat) (chunk rows : List α) :
    (chunkRows size chunk rows).flatten = chunk ++ rows := by
  induction rows generalizing chunk with unfold chunkRows
  | nil =>
    split
    · next empty => simp [isEmpty_iff.mp empty]
    · simp
  | cons row rows induction =>
    split
    · simp [induction]
    · simp [induction]

variable {size : Nat}

theorem mem_chunkRows {chunk rows part : List α}
    (short : chunk.length < size) (member : part ∈ chunkRows size chunk rows) :
    part ≠ [] ∧ part.length ≤ size := by
  induction rows generalizing chunk with unfold chunkRows at member
  | nil =>
    split at member
    · cases member
    rename_i filled
    rw [mem_singleton.mp member]
    exact ⟨by simpa using filled, short.le⟩
  | cons row rows induction =>
    split at member
    · rcases mem_cons.mp member with rfl | later
      · simpa using short
      · exact @induction [] (Nat.zero_lt_of_lt short) later
    · next more => exact induction (not_le.mp more) member

variable {batch : RecordBatch}

theorem columnKinds_forall₂ {kinds : List LiteralKind} (known : columnKinds batch = .ok kinds) :
    Forall₂ (fun column kind => literalKind column.dataType = .ok kind) batch.columns kinds := by
  refine (Lib.Traverse.forall₂_of_mapM_ok known).imp fun column kind done => ?_
  split at done
  · next found => rw [found, Except.ok.inj done]
  · cases done

def Spells (row : Nat) (column : Column) (literal : Expr) : Prop :=
  column.cells.getD row .null ∈ column.cells ∧ ∃ kind, literalKind column.dataType = .ok kind ∧
    literal = cellLiteral kind (column.cells.getD row .null)

theorem batchRows_spells {arity : Nat} {rows : List (List Expr)}
    (done : batchRows arity batch = .ok rows) : batch.columns.length = arity ∧
    Forall₂ (fun row => Forall₂ (Spells row) batch.columns) (range batch.numRows) rows := by
  unfold batchRows at done
  split at done
  · cases done
  rename_i width
  split at done <;> cases done
  rename_i kinds known
  refine ⟨not_not.mp width, forall₂_map_right_iff.mpr (forall₂_same.mpr fun row member => ?_)⟩
  have within : ∀ column ∈ batch.columns, row < column.cells.length := by
    intro column here
    rw [batch.aligned column here]
    exact mem_range.mp member
  have each := columnKinds_forall₂ known
  unfold rowLiterals
  clear known width
  generalize batch.columns = columns at each within
  induction each with
  | nil => exact .nil
  | @cons column kind _ _ head _ induction =>
    rw [forall_mem_cons] at within
    refine .cons ⟨?_, kind, head, rfl⟩ (induction within.2)
    rw [getD_eq_getElem?_getD, getElem?_eq_getElem within.1]
    exact getElem_mem _

variable {statements : List (Insert Expr)} {batches : List RecordBatch} {template : Insert Expr}

theorem insertStatementsFromBatches_ok
    (done : insertStatementsFromBatches template batches size = .ok statements) :
    template.columns ≠ [] ∧ ∃ rows,
      Forall₂ (fun batch rows => batchRows template.columns.length batch = .ok rows) batches rows ∧
      statements = (chunkRows (max size 1) [] rows.flatten).map (insertWithValues template) := by
  unfold insertStatementsFromBatches at done
  split at done
  · cases done
  rename_i named
  split at done
  · cases done
  rename_i rows known
  exact ⟨by simpa using named, rows, Lib.Traverse.forall₂_of_mapM_ok known,
    (Except.ok.inj done).symm⟩

theorem insertStatementsFromBatches_rows
    (done : insertStatementsFromBatches template batches size = .ok statements) :
    template.columns ≠ [] ∧ ∃ rows,
      Forall₂ (Forall₂ StoresCell) (batches.flatMap RecordBatch.rows) rows ∧
      statements = (chunkRows (max size 1) [] rows).map (insertWithValues template) := by
  obtain ⟨named, rows, each, chunks⟩ := insertStatementsFromBatches_ok done
  refine ⟨named, rows.flatten, rel_flatten ?_, chunks⟩
  refine forall₂_map_left_iff.mpr (each.imp fun batch rows done => ?_)
  refine forall₂_map_left_iff.mpr ((batchRows_spells done).2.imp fun row literals spells => ?_)
  refine forall₂_map_left_iff.mpr (spells.imp fun column literal ⟨member, kind, known, same⟩ => ?_)
  exact ⟨column.dataType, kind, column.typed _ member, known, same⟩

/-- There is a statement if there is a row. -/
theorem insertStatementsFromBatches_ne_nil_iff
    (done : insertStatementsFromBatches template batches size = .ok statements) :
    statements ≠ [] ↔ ∃ batch ∈ batches, batch.numRows ≠ 0 := by
  obtain ⟨-, rows, related, rfl⟩ := insertStatementsFromBatches_rows done
  have given : rows = [] ↔ ∀ batch ∈ batches, batch.numRows = 0 := by
    rw [← length_eq_zero_iff, ← related.length_eq, length_eq_zero_iff, flatMap_eq_nil_iff]
    simp [RecordBatch.rows]
  have chunked : chunkRows (max size 1) [] rows = [] ↔ rows = [] := by
    constructor
    · intro none
      simpa [none] using (chunkRows_flatten (max size 1) [] rows).symm
    · rintro rfl
      rfl
  rw [ne_eq, map_eq_nil_iff, chunked, given]
  simp

end VaireDb.Rows
