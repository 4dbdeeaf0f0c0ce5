import Mathlib
import VaireDb.Coordinator.PlanStatement
import VaireDb.Rows.Literals

/-!
# Materialized rows read back

A shard reads the literals of a materialized row under the types of its columns.
Integers, booleans and texts are spelled by the coordinator.  Floats, decimals, dates and
times are spelled by a library, which writes an error message for a value it cannot
spell; a timestamp with a time zone loses the minutes of a whole-hour offset.
-/

namespace VaireDb.Rows

open Coordinator Sql List

/-- A value of a column.  Floats, decimals, dates and times are values of `V`. -/
inductive Scalar (V : Type) where
  | null
  | boolean (value : Bool)
  | integer (value : Int)
  | text (content : String)
  | other (value : V)

def isSign (c : Char) : Bool := c = '+' || c = '-'

/-- A text, from its end, whose last three bytes start with a sign. -/
def endsInHours : List Char → Bool
  | last :: second :: rest =>
    if last.utf8Size = 2 then isSign second
    else last.utf8Size = 1 && second.utf8Size = 1 && rest.head?.any isSign
  | _ => false

def trimWholeHourOffset (rendered : String) : String :=
  match rendered.toList.reverse with
  | '0' :: '0' :: ':' :: head =>
    if endsInHours head then String.ofList head.reverse else rendered
  | _ => rendered

/-- What reads an offset supplies its minutes. -/
def restoreOffset (text : String) : String :=
  if endsInHours text.toList.reverse then text ++ ":00" else text

theorem restoreOffset_trim {rendered : String}
    (minutes : endsInHours rendered.toList.reverse = false) :
    restoreOffset (trimWholeHourOffset rendered) = rendered := by
  unfold trimWholeHourOffset
  split
  · rename_i head shape
    split
    · rename_i whole
      rw [restoreOffset, String.toList_ofList, reverse_reverse, if_pos whole, ← String.toList_inj,
        String.toList_append, String.toList_ofList, ← rendered.toList.reverse_reverse, shape]
      simp
    · simp [restoreOffset, minutes]
  · simp [restoreOffset, minutes]

/-- How the library spells a value and how its text is read.  The types with a time zone
are known by name, and an offset is spelled with its minutes. -/
structure Renderer (V : Type) where
  zoned : String → Bool
  display : ArrowType → V → String
  parse : ArrowType → String → Option V
  minutes : ∀ name value, zoned name →
    endsInHours (display (.temporal name) value).toList.reverse = false

/-- The type of the values of a column. -/
def ArrowType.base : ArrowType → ArrowType
  | .dictionary values => values.base
  | dataType => dataType

theorem literalKind_base (dataType : ArrowType) :
    literalKind dataType.base = literalKind dataType := by
  induction dataType with
  | dictionary values induction => exact induction
  | _ => rfl

theorem hasType_base (cell : Cell) (dataType : ArrowType) :
    cell.HasType dataType.base ↔ cell.HasType dataType := by
  induction dataType with
  | dictionary values induction => exact induction
  | _ => rfl

theorem base_ne_dictionary {dataType values : ArrowType} :
    dataType.base ≠ .dictionary values := by
  induction dataType with
  | dictionary inner induction => exact induction
  | _ => exact fun same => by cases same

namespace Renderer

variable {V : Type} (renderer : Renderer V)

def isZoned : ArrowType → Bool
  | .temporal name => renderer.zoned name
  | _ => false

/-- The text a value is spelled by. -/
def text (dataType : ArrowType) (value : V) : String :=
  if renderer.isZoned dataType then trimWholeHourOffset (renderer.display dataType value)
  else renderer.display dataType value

def restored (dataType : ArrowType) (text : String) : String :=
  if renderer.isZoned dataType then restoreOffset text else text

theorem restored_text {dataType : ArrowType} {value : V} :
    renderer.restored dataType (renderer.text dataType value) =
      renderer.display dataType value := by
  unfold restored text
  split
  · rename_i zoned
    cases dataType with
    | temporal name => exact restoreOffset_trim (renderer.minutes name value zoned)
    | _ => cases zoned
  · rfl

def cell (dataType : ArrowType) : Scalar V → Cell
  | .null => .null
  | .boolean value => .boolean value
  | .integer value => .integer value
  | .text content => .text content
  | .other value => .rendered (renderer.text dataType value)

/-- The value a literal has under the type of its column. -/
def read (dataType : ArrowType) (literal : Expr) : Option (Scalar V) :=
  match dataType.base, literal with
  | _, .value .null => some .null
  | .boolean, .value (.boolean value) => some (.boolean value)
  | .integer _, .value (.number text) => text.toInt?.map .integer
  | .text _, .value (.singleQuotedString text) => some (.text text)
  | .float _, .value (.singleQuotedString text)
  | .decimal _, .value (.singleQuotedString text)
  | .temporal _, .value (.singleQuotedString text) =>
    (renderer.parse dataType (renderer.restored dataType text)).map .other
  | _, _ => none

/-- The library reads its own text of the value. -/
def ReadsBack (dataType : ArrowType) : Scalar V → Prop
  | .other value => renderer.parse dataType (renderer.display dataType value) = some value
  | _ => True

theorem read_cellLiteral {dataType : ArrowType} {kind : LiteralKind} {value : Scalar V}
    (known : literalKind dataType = .ok kind)
    (typed : (renderer.cell dataType value).HasType dataType) :
    renderer.read dataType (cellLiteral kind (renderer.cell dataType value)) = some value ↔
      renderer.ReadsBack dataType value := by
  rw [← literalKind_base] at known
  rw [← hasType_base] at typed
  unfold read
  cases base : dataType.base with
  | dictionary values => exact (base_ne_dictionary base).elim
  | other name =>
    rw [base] at known
    cases known
  | _ =>
    rw [base] at known typed
    cases known
    cases value with
    | boolean value =>
      first | exact typed.elim | cases value <;> simp [cell, cellLiteral, ReadsBack,
        arrowArrayValueToString]
    | _ =>
      first | exact typed.elim | simp [cell, cellLiteral, ReadsBack, arrowArrayValueToString,
        restored_text, Int.toInt?_repr]

end Renderer

structure ValueColumn {V : Type} (renderer : Renderer V) where
  name : String
  dataType : ArrowType
  values : List (Scalar V)
  typed : ∀ value ∈ values, (renderer.cell dataType value).HasType dataType

structure ValueBatch {V : Type} (renderer : Renderer V) where
  columns : List (ValueColumn renderer)
  numRows : Nat
  aligned : ∀ column ∈ columns, column.values.length = numRows

variable {V : Type} {renderer : Renderer V}

def ValueColumn.column (column : ValueColumn renderer) : Column where
  name := column.name
  dataType := column.dataType
  cells := column.values.map (renderer.cell column.dataType)
  typed := forall_mem_map.mpr column.typed

/-- The batch whose cells spell the values. -/
def ValueBatch.batch (batch : ValueBatch renderer) : RecordBatch where
  columns := batch.columns.map ValueColumn.column
  numRows := batch.numRows
  aligned := forall_mem_map.mpr fun column member =>
    (length_map _).trans (batch.aligned column member)

def ValueBatch.rows (batch : ValueBatch renderer) : List (List (ArrowType × Scalar V)) :=
  (range batch.numRows).map fun row =>
    batch.columns.map fun column => (column.dataType, column.values.getD row .null)

/-- The rows a statement writes. -/
def valuesOf (insert : Insert Expr) : List (List Expr) :=
  match insert.source with
  | .values rows => rows
  | _ => []

/-- The columns that rows of a width are written to. -/
def targetColumns (insert : Insert Expr) (tableColumns : List String) (arity : Nat) :
    List ObjectName :=
  if insert.columns.isEmpty then quotedColumnNames (tableColumns.take arity) else insert.columns

/-- The statements have few rows each, one value for each column, and read back as the rows
of the batches. -/
structure ArriveUnchanged (batches : List (ValueBatch renderer)) (columns : List ObjectName)
    (size : Nat) (statements : List (Insert Expr)) : Prop where
  chunks : ∀ statement ∈ statements, statement.columns = columns ∧ valuesOf statement ≠ [] ∧
    (valuesOf statement).length ≤ size ∧ ∀ row ∈ valuesOf statement, row.length = columns.length
  readBack : Forall₂ (Forall₂ fun value literal => renderer.read value.1 literal = some value.2)
    (batches.flatMap ValueBatch.rows) (statements.flatMap valuesOf)

theorem forall₂_iff_forall {α β : Type} {R : α → β → Prop} {P : α → Prop} {items : List α}
    {results : List β}
    (related : Forall₂ (fun item result => R item result ↔ P item) items results) :
    Forall₂ R items results ↔ ∀ item ∈ items, P item := by
  induction related with
  | nil => simp
  | cons head _ induction => rw [forall₂_cons, forall_mem_cons, head, induction]

theorem batchRows_values {arity : Nat} {batch : ValueBatch renderer} {rows : List (List Expr)}
    (done : batchRows arity batch.batch = .ok rows) :
    Forall₂ (Forall₂ fun value literal => renderer.read value.1 literal = some value.2 ↔
      renderer.ReadsBack value.1 value.2) batch.rows rows := by
  refine forall₂_map_left_iff.mpr ((batchRows_spells done).2.imp fun row literals spells => ?_)
  refine forall₂_map_left_iff.mpr ((forall₂_map_left_iff.mp spells).imp ?_)
  rintro column literal ⟨member, kind, known, rfl⟩
  have same : column.column.cells.getD row .null =
      renderer.cell column.dataType (column.values.getD row .null) :=
    getD_map column.values .null (renderer.cell column.dataType)
  have typed := column.column.typed _ member
  rw [same] at typed ⊢
  exact renderer.read_cellLiteral known typed

/-- The rows of a query arrive unchanged exactly if the library reads its own text of every
value. -/
theorem rows_arrive_unchanged_iff (insert : Insert Expr) (tableColumns : List String) (arity : Nat)
    {template : Insert Expr} {size : Nat} (positive : 0 < size)
    {batches : List (ValueBatch renderer)} {statements : List (Insert Expr)}
    (named : materializeInsertColumnsForArity insert tableColumns arity = .ok template)
    (done : insertStatementsFromBatches template (batches.map ValueBatch.batch) size =
      .ok statements) :
    ArriveUnchanged batches (targetColumns insert tableColumns arity) size statements ↔
      ∀ row ∈ batches.flatMap ValueBatch.rows, ∀ value ∈ row,
        renderer.ReadsBack value.1 value.2 := by
  obtain ⟨filled, rows, each, rfl⟩ := insertStatementsFromBatches_ok done
  rw [forall₂_map_left_iff] at each
  have columns : template.columns = targetColumns insert tableColumns arity := by
    unfold materializeInsertColumnsForArity at named
    unfold targetColumns
    split at named
    · cases named
      rw [if_neg (by simpa using filled)]
    · rename_i implicit
      split at named <;> cases named
      simp only [Bool.or_eq_true, not_or] at implicit
      rw [if_pos (by simpa using implicit.1.1)]
  have written : ((chunkRows (max size 1) [] rows.flatten).map
      (insertWithValues template)).flatMap valuesOf = rows.flatten := by
    rw [flatMap_map]
    exact flatMap_id.trans (chunkRows_flatten ..)
  have related : Forall₂ (Forall₂ fun value literal =>
      renderer.read value.1 literal = some value.2 ↔ renderer.ReadsBack value.1 value.2)
      (batches.flatMap ValueBatch.rows) rows.flatten :=
    rel_flatten (forall₂_map_left_iff.mpr (each.imp fun _ _ => batchRows_values))
  have readBack := forall₂_iff_forall (related.imp fun _ _ => forall₂_iff_forall)
  rw [← written] at readBack
  refine ⟨fun unchanged => readBack.mp unchanged.readBack, fun readsBack =>
    ⟨forall_mem_map.mpr fun part member => ⟨columns, ?_⟩, readBack.mpr readsBack⟩⟩
  have short := mem_chunkRows (Nat.lt_of_lt_of_le Nat.zero_lt_one (le_max_right ..)) member
  rw [max_eq_left positive] at short
  refine ⟨short.1, short.2, fun row inside => ?_⟩
  have among := mem_flatten.mpr ⟨part, member, inside⟩
  rw [chunkRows_flatten, nil_append] at among
  obtain ⟨batchRows, inRows, inBatch⟩ := mem_flatten.mp among
  obtain ⟨batch, _, filled⟩ := Lib.Traverse.exists_of_mem_forall₂ each inRows
  obtain ⟨width, spelled⟩ := batchRows_spells filled
  obtain ⟨_, _, spells⟩ := Lib.Traverse.exists_of_mem_forall₂ spelled inBatch
  exact spells.length_eq.symm.trans (width.trans (congrArg length columns))

/-- The year, month and day of a number of days since 1970-01-01. -/
def civil (days : Int) : Int × Int × Int :=
  let era := (days + 719468) / 146097
  let day := (days + 719468) % 146097
  let year := (day - day / 1460 + day / 36524 - day / 146096) / 365
  let day := day - (365 * year + year / 4 - year / 100)
  let month := (5 * day + 2) / 153
  let day := day - (153 * month + 2) / 5 + 1
  if month < 10 then (era * 400 + year, month + 3, day)
  else (era * 400 + year + 1, month - 9, day)

/-- The number of days since 1970-01-01 of a year, month and day. -/
def daysOf (year month day : Int) : Int :=
  let year := if month ≤ 2 then year - 1 else year
  let ofYear := (153 * ((month + 9) % 12) + 2) / 5 + day - 1
  year / 400 * 146097 + year % 400 * 365 + year % 400 / 4 - year % 400 / 100 + ofYear - 719468

def padded (width : Nat) (value : Int) : List Char :=
  let digits := Nat.toDigits 10 value.natAbs
  replicate (width - digits.length) '0' ++ digits

def dateText (days : Int) : List Char :=
  let (year, month, day) := civil days
  let sign := if year < 0 then ['-'] else if 9999 < year then ['+'] else []
  sign ++ padded 4 year ++ '-' :: padded 2 month ++ '-' :: padded 2 day

def digitsOf (text : List Char) : Option Int :=
  if text ≠ [] ∧ text.all Char.isDigit then some (Nat.ofDigitChars 10 text 0) else none

def readDate (text : List Char) : Option Int :=
  match text.splitOn '-' with
  | [year, month, day] => do return daysOf (← digitsOf year) (← digitsOf month) (← digitsOf day)
  | _ => none

/-- Dates by the days since 1970-01-01.  The library has no text for a day beyond its
calendar, and reports that as the text. -/
def dayRenderer : Renderer Int where
  zoned _ := false
  display _ day :=
    if -96465292 ≤ day ∧ day ≤ 95026236 then String.ofList (dateText day)
    else "ERROR: Cast error: Failed to convert " ++ toString day ++ " to temporal for Date32"
  parse _ text := readDate text.toList
  minutes _ _ zoned := nomatch zoned

def dayBatch (day : Int) : ValueBatch dayRenderer where
  columns :=
    [⟨"day", .temporal "Date32", [.null, .other day], by simp [Renderer.cell, Cell.HasType]⟩]
  numRows := 2
  aligned := by simp

def dayInsert : Insert Expr where
  table := [{ value := "events", quoted := false }]
  columns := []
  source := .defaultValues
  onConflict := none

def dayRows (text : String) : Insert Expr :=
  { dayInsert with
    columns := quotedColumnNames ["day"]
    source := .values [[.value .null], [.value (.singleQuotedString text)]] }

theorem days_arrive_unchanged :
    ArriveUnchanged [dayBatch 20000] (quotedColumnNames ["day"]) 1000 [dayRows "2024-10-04"] :=
  (rows_arrive_unchanged_iff dayInsert ["day"] 1 (by decide) rfl rfl).mpr (by
    have read : readDate (dateText 20000) = some 20000 := by decide
    simp [dayBatch, ValueBatch.rows, Renderer.ReadsBack, dayRenderer, range_succ, read])

theorem day_beyond_calendar_lost :
    insertStatementsFromBatches (dayRows "") [(dayBatch 1000000000).batch] 1000 = .ok [dayRows
      "ERROR: Cast error: Failed to convert 1000000000 to temporal for Date32"] ∧
    ¬ ArriveUnchanged [dayBatch 1000000000] (quotedColumnNames ["day"]) 1000 [dayRows
      "ERROR: Cast error: Failed to convert 1000000000 to temporal for Date32"] := by
  refine ⟨rfl, fun unchanged => ?_⟩
  have read := unchanged.readBack
  simp [dayBatch, ValueBatch.rows, range_succ, valuesOf, dayRows, Renderer.read, ArrowType.base,
    Renderer.restored, Renderer.isZoned, dayRenderer] at read
  exact absurd read (by decide)

end VaireDb.Rows
