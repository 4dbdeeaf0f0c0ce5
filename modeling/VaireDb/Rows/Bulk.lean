import VaireDb.Rows.Literals

/-!
# Materialized rows as data

The other way to write the rows of a batch: ship them as columns.  A value the
literal lane writes as a number, a boolean or a copy of its own string travels as
itself, every other one as the text of its literal.  What a node receives is an
integer, a boolean, a text or null; the cast to the column's declared type is the
node's.
-/

namespace VaireDb.Rows

open Routing Sql List

/-- A value a node is given for a column. -/
inductive NodeValue where
  | null
  | boolean (value : Bool)
  | integer (value : Int)
  | text (content : String)
  deriving DecidableEq, Repr

def travelsAsItself : ArrowType → Bool
  | .boolean | .integer _ | .text .utf8 => true
  | _ => false

def Cell.itself : Cell → NodeValue
  | .null => .null
  | .boolean value => .boolean value
  | .integer value => .integer value
  | .text content => .text content
  | .rendered display => .text display

def Cell.literalText (cell : Cell) : NodeValue :=
  if cell = .null then .null else .text (arrowArrayValueToString cell)

def wireCell (dataType : ArrowType) (cell : Cell) : NodeValue :=
  if travelsAsItself dataType then
    cell.itself
  else
    match dataType with
    | .text .largeUtf8 => cell.itself
    | .dictionary values =>
      if travelsAsItself values then cell.itself else cell.literalText
    | _ => cell.literalText

def wireRow (batch : RecordBatch) (row : Nat) : List NodeValue :=
  batch.columns.map fun column =>
    wireCell column.dataType (column.cells.getD row .null)

def bulkWireRows (batch : RecordBatch) : Except String (List (List NodeValue)) :=
  match columnKinds batch with
  | .error reason => .error reason
  | .ok _ => .ok ((List.range batch.numRows).map (wireRow batch))

/-- The routing value of every row's key, or nothing if some row has none.  A batch
without the key's column is not one the planner can index. -/
def bulkRoutingValues (display : SqlDisplay) (batch : RecordBatch)
    (keyColumn : Nat) : Except String (Option (List String)) :=
  match batch.columns[keyColumn]? with
  | none => .error "index out of bounds"
  | some column =>
    match literalKind column.dataType with
    | .error reason => .error ("column \"" ++ column.name ++ "\": " ++ reason)
    | .ok kind =>
      .ok ((List.range batch.numRows).mapM fun row =>
        match exprRoutingValue display [] (cellLiteral kind (column.cells.getD row .null)) with
        | .value routing => some routing
        | _ => none)

section Payloads

variable {α : Type} (encodedSize : List α → Nat) (maxBytes : Nat)

/-- Halve rows until each half fits.  A single row goes alone. -/
def encodeWithin (rows : List α) : List (List α) :=
  if encodedSize rows ≤ maxBytes ∨ rows.length ≤ 1 then
    [rows]
  else
    encodeWithin (rows.take (rows.length / 2)) ++ encodeWithin (rows.drop (rows.length / 2))
termination_by rows.length
decreasing_by
  all_goals simp only [List.length_take, List.length_drop]; omega

/-- Cut rows into pieces of a size and encode each. -/
def encodePieces (size : Nat) (rows : List α) : List (List α) :=
  if rows.length = 0 ∨ size = 0 then
    []
  else
    encodeWithin encodedSize maxBytes (rows.take size) ++ encodePieces size (rows.drop size)
termination_by rows.length
decreasing_by simp only [List.length_drop]; omega

variable (memorySize : List α → Nat)

/-- The payloads of rows.  The pieces are first cut by the size the rows have in
memory. -/
def bulkPayloads (rows : List α) : List (List α) :=
  if rows.length = 0 then
    []
  else
    let perRow := max (memorySize rows / rows.length) 1
    encodePieces encodedSize maxBytes (min (max (maxBytes / perRow) 1) rows.length) rows

theorem encodeWithin_flatten (rows : List α) :
    (encodeWithin encodedSize maxBytes rows).flatten = rows := by
  fun_induction encodeWithin encodedSize maxBytes rows with
  | case1 rows small => simp
  | case2 rows large first second =>
    rw [flatten_append, first, second, take_append_drop]

theorem encodePieces_flatten {size : Nat} (positive : 0 < size) {rows : List α} :
    (encodePieces encodedSize maxBytes size rows).flatten = rows := by
  fun_induction encodePieces encodedSize maxBytes size rows with
  | case1 rows done =>
    have empty : rows = [] := eq_nil_of_length_eq_zero (by omega)
    simp [empty]
  | case2 rows more induction =>
    rw [flatten_append, induction, encodeWithin_flatten, take_append_drop]

/-- The payloads have the rows, in order. -/
theorem bulkPayloads_flatten (rows : List α) :
    (bulkPayloads encodedSize maxBytes memorySize rows).flatten = rows := by
  unfold bulkPayloads
  split
  · next empty => simp [eq_nil_of_length_eq_zero empty]
  · rename_i filled
    refine encodePieces_flatten encodedSize maxBytes ?_
    omega

theorem bulkPayloads_singleton (row : α) :
    bulkPayloads encodedSize maxBytes memorySize [row] = [[row]] := by
  have one : min (max (maxBytes / max (memorySize [row] / [row].length) 1) 1) [row].length = 1 := by
    simp only [length_singleton]
    omega
  rw [bulkPayloads, if_neg (by simp)]
  simp only [one]
  rw [encodePieces, if_neg (by simp), take_one, head?_cons,
    Option.toList_some, encodeWithin, if_pos (.inr (by simp)), encodePieces,
    if_pos (.inl (by simp))]
  rfl

variable {encodedSize maxBytes} {rows part : List α}

theorem mem_encodeWithin (filled : rows ≠ [])
    (member : part ∈ encodeWithin encodedSize maxBytes rows) :
    part ≠ [] ∧ (encodedSize part ≤ maxBytes ∨ part.length = 1) := by
  fun_induction encodeWithin encodedSize maxBytes rows with
  | case1 rows small =>
    obtain rfl := mem_singleton.mp member
    refine ⟨filled, small.imp_right fun short => ?_⟩
    have := length_pos_iff.mpr filled
    omega
  | case2 rows large first second =>
    rcases mem_append.mp member with before | after
    · exact first (ne_nil_of_length_pos (by rw [length_take]; omega)) before
    · exact second (ne_nil_of_length_pos (by rw [length_drop]; omega)) after

theorem mem_encodePieces {size : Nat}
    (member : part ∈ encodePieces encodedSize maxBytes size rows) :
    part ≠ [] ∧ (encodedSize part ≤ maxBytes ∨ part.length = 1) := by
  fun_induction encodePieces encodedSize maxBytes size rows with
  | case1 rows done => cases member
  | case2 rows more induction =>
    rcases mem_append.mp member with before | after
    · exact mem_encodeWithin (ne_nil_of_length_pos (by rw [length_take]; omega)) before
    · exact induction after

end Payloads

/-! ## Encoded payloads -/

/-- The writer of Arrow IPC streams, which may fail, and the reader of what it wrote. -/
structure Ipc (α : Type) where
  encode : List α → Except String (List UInt8)
  decode : List UInt8 → List α
  decode_encode : ∀ {rows encoded}, encode rows = .ok encoded → decode encoded = rows

structure BulkPayload where
  rows : Nat
  arrowIpc : List UInt8

namespace Ipc

variable {α : Type} (ipc : Ipc α)

/-- The size of encoded rows.  Rows that cannot be encoded are not halved. -/
def encodedSize (rows : List α) : Nat :=
  match ipc.encode rows with
  | .ok encoded => encoded.length
  | .error _ => 0

def payload (rows : List α) : Except String BulkPayload :=
  (ipc.encode rows).map fun encoded => { rows := rows.length, arrowIpc := encoded }

def payloads (maxBytes : Nat) (memorySize : List α → Nat) (rows : List α) :
    Except String (List BulkPayload) :=
  (bulkPayloads ipc.encodedSize maxBytes memorySize rows).mapM ipc.payload

/-- The payloads have the rows in order, each its own count of them and at least one, and
none is larger than allowed unless it is one row.  Only the writer's errors are reported. -/
def Carries (maxBytes : Nat) (rows : List α) : Except String (List BulkPayload) → Prop
  | .ok payloads => (payloads.map fun payload => ipc.decode payload.arrowIpc).flatten = rows ∧
      ∀ payload ∈ payloads, payload.rows = (ipc.decode payload.arrowIpc).length ∧
        0 < payload.rows ∧ (payload.arrowIpc.length ≤ maxBytes ∨ payload.rows = 1)
  | .error reason => ∃ part, ipc.encode part = .error reason

theorem payloads_carry (maxBytes : Nat) (memorySize : List α → Nat) (rows : List α) :
    ipc.Carries maxBytes rows (ipc.payloads maxBytes memorySize rows) := by
  cases done : ipc.payloads maxBytes memorySize rows with
  | error reason =>
    obtain ⟨part, -, failed⟩ := Lib.Traverse.exists_of_mapM_error done
    refine ⟨part, ?_⟩
    unfold payload at failed
    cases encoded : ipc.encode part with rw [encoded] at failed
    | error other =>
      cases failed
      rfl
    | ok bytes => cases failed
  | ok payloads =>
    have each : List.Forall₂ (fun part payload => ipc.decode payload.arrowIpc = part ∧
        payload.rows = part.length ∧ ipc.encodedSize part = payload.arrowIpc.length)
        (bulkPayloads ipc.encodedSize maxBytes memorySize rows) payloads := by
      refine (Lib.Traverse.forall₂_of_mapM_ok done).imp fun part payload sent => ?_
      obtain ⟨encoded, known, rfl⟩ := Lib.map_eq_ok_iff.mp sent
      exact ⟨ipc.decode_encode known, rfl, by simp only [encodedSize, known]⟩
    constructor
    · have decoded : payloads.map (fun payload => ipc.decode payload.arrowIpc) =
          bulkPayloads ipc.encodedSize maxBytes memorySize rows := by
        have same := forall₂_map_right_iff.mpr (each.imp fun _ _ sent => sent.1.symm)
        rw [forall₂_eq_eq_eq] at same
        exact same.symm
      rw [decoded, bulkPayloads_flatten]
    · intro payload member
      obtain ⟨part, inside, rfl, counted, sized⟩ := Lib.Traverse.exists_of_mem_forall₂ each member
      unfold bulkPayloads at inside
      split at inside
      · cases inside
      obtain ⟨filled, fits⟩ := mem_encodePieces inside
      rw [counted, ← sized]
      exact ⟨rfl, length_pos_iff.mpr filled, fits⟩

/-- Rows of one byte each, after a byte with their number. -/
def counted : Ipc UInt8 where
  encode := fun rows =>
    if rows.length < 256 then .ok (.ofNat rows.length :: rows) else .error "too many rows"
  decode := List.tail
  decode_encode := by
    intro rows encoded written
    split at written <;> cases written
    rfl

/-- A piece of three rows does not fit and is halved. -/
theorem counted_carries : counted.payloads 3 List.length [1, 2, 3, 4, 5] =
      .ok [⟨1, [1, 1]⟩, ⟨2, [2, 2, 3]⟩, ⟨2, [2, 4, 5]⟩] ∧
    counted.Carries 3 [1, 2, 3, 4, 5] (counted.payloads 3 List.length [1, 2, 3, 4, 5]) := by
  refine ⟨?_, counted.payloads_carry 3 List.length [1, 2, 3, 4, 5]⟩
  simp [payloads, bulkPayloads, encodePieces, encodeWithin, encodedSize, counted, payload]
  rfl

end Ipc

end VaireDb.Rows
