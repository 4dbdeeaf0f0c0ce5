import VaireDb.Routing.Numeric
import Mathlib

/-!
# The text of an interval

An interval is sent to the client in the words of PostgreSQL and to a shard as a literal.
Both are read back field by field.  Every field has a sign of its own.
-/

namespace VaireDb.Wire

open Routing List

/-- The three layouts of an interval column. -/
inductive IntervalCell where
  | yearMonth (months : Int32)
  | dayTime (days milliseconds : Int32)
  | monthDayNano (months days : Int32) (nanoseconds : Int64)

/-- The months, days and nanoseconds of a cell, in 32, 32 and 64 bits. -/
def intervalParts : IntervalCell → Int32 × Int32 × Int64
  | .yearMonth months => (months, 0, 0)
  | .dayTime days milliseconds => (0, days, milliseconds.toInt64 * 1000000)
  | .monthDayNano months days nanoseconds => (months, days, nanoseconds)

/-- A number with zeros in front up to a width. -/
def padded (width number : Nat) : List Char := leftpad width '0' (Nat.toDigits 10 number)

def spellInt (value : Int) : List Char :=
  (if value < 0 then Sign.minus else .absent).chars ++ padded 0 value.natAbs

def intervalSqlLiteral (months days : Int32) (nanos : Int64) : List Char :=
  [' '].intercalate [spellInt months.toInt, "months".toList, spellInt days.toInt, "days".toList,
    spellInt (nanos / 1000).toInt, "microseconds".toList]

/-- A field of the text, as the words it consists of.  The flag says whether the last
field was negative. -/
def appendPart (parts : List (List Char) × Bool) (value : Int32) (unit : String) :
    List (List Char) × Bool :=
  if value = 0 then
    parts
  else
    let sign : Sign := if parts.2 ∧ 0 < value then .plus else .absent
    let plural := if value ≠ 1 then ['s'] else []
    (parts.1 ++ [sign.chars ++ spellInt value.toInt, unit.toList ++ plural], value < 0)

/-- Microseconds, without the zeros at the end. -/
def decimalsOf (micros : Nat) : List Char :=
  (padded 6 micros).rdropWhile (· = '0')

def clockText (afterNegative : Bool) (nanos : Int64) : List Char :=
  let magnitude := nanos.toInt.natAbs
  let seconds := magnitude / 1000000000
  let sign : Sign := if nanos < 0 then .minus else if afterNegative then .plus else .absent
  let micros := magnitude % 1000000000 / 1000
  sign.chars ++ [':'].intercalate [padded 2 (seconds / 3600), padded 2 (seconds % 3600 / 60),
    padded 2 (seconds % 60) ++ if micros ≠ 0 then '.' :: decimalsOf micros else []]

def postgresIntervalText (months days : Int32) (nanos : Int64) : List Char :=
  let parts := appendPart (appendPart (appendPart ([], false) (months / 12) "year")
    (months % 12) "mon") days "day"
  [' '].intercalate
    (if nanos ≠ 0 then parts.1 ++ [clockText parts.2 nanos]
    else if parts.1 = [] then ["00:00:00".toList]
    else parts.1)

/-! ## Reading -/

/-- What one of a unit adds to the months, days and microseconds. -/
def unitOf : String → Option (Int × Int × Int)
  | "year" | "years" => some (12, 0, 0)
  | "mon" | "mons" | "months" => some (1, 0, 0)
  | "day" | "days" => some (0, 1, 0)
  | "microseconds" => some (0, 0, 1)
  | _ => none

def readDigits (text : List Char) : Option Nat :=
  if text = [] ∨ text.all Char.isDigit = false then none else some (Nat.ofDigitChars 10 text 0)

def readSigned (read : List Char → Option Nat) (text : List Char) : Option Int :=
  let (neg, body) := stripSign text
  (read body).map fun magnitude : Nat => if neg then -(magnitude : Int) else magnitude

/-- Seconds with at most six decimals, in microseconds. -/
def readSeconds (text : List Char) : Option Nat :=
  match splitAtPoint text with
  | (whole, none) => (readDigits whole).map (· * 1000000)
  | (whole, some decimals) => do
    let fraction ← readDigits decimals
    if 6 < decimals.length then none
    else return (← readDigits whole) * 1000000 + fraction * 10 ^ (6 - decimals.length)

def readClock (text : List Char) : Option Nat :=
  match text.splitOn ':' with
  | [hours, minutes, seconds] => do
    let minutes ← readDigits minutes
    let seconds ← readSeconds seconds
    if 60 ≤ minutes ∨ 60000000 ≤ seconds then none
    else return ((← readDigits hours) * 60 + minutes) * 60000000 + seconds
  | _ => none

/-- Numbers with their units, and a clock behind them. -/
def readFields : List (List Char) → Option (Int × Int × Int)
  | [] => some 0
  | [clock] => (readSigned readClock clock).map fun micros => (0, 0, micros)
  | number :: unit :: rest => do
    return (← readSigned readDigits number) • (← unitOf (String.ofList unit)) + (← readFields rest)

/-- The reader of intervals, with the ranges of its three fields. -/
def readInterval (text : List Char) : Option (Int × Int × Int) :=
  (readFields (text.splitOn ' ')).filter fun (months, days, micros) =>
    -2 ^ 31 ≤ months ∧ months < 2 ^ 31 ∧ -2 ^ 31 ≤ days ∧ days < 2 ^ 31 ∧
      -2 ^ 63 ≤ micros ∧ micros < 2 ^ 63

/-! ## Round trip -/

theorem ofDigitChars_zeros (count number : Nat) :
    Nat.ofDigitChars 10 (replicate count '0') number = 10 ^ count * number := by
  induction count generalizing number with
  | zero => simp
  | succ count induction =>
    rw [replicate_succ, Nat.ofDigitChars_cons, induction, Nat.pow_succ]
    simp [Nat.mul_assoc]

variable {width number : Nat} {c : Char}

theorem ofDigitChars_padded : Nat.ofDigitChars 10 (padded width number) 0 = number := by
  rw [padded, leftpad, Nat.ofDigitChars_append, ofDigitChars_zeros, Nat.mul_zero,
    Nat.ofDigitChars_ten_toDigits]

theorem isDigit_of_mem_padded (member : c ∈ padded width number) : c.isDigit = true := by
  rcases mem_append.mp member with zero | digit
  · rw [eq_of_mem_replicate zero]
    rfl
  · exact Nat.isDigit_of_mem_toDigits (by decide) (by decide) digit

theorem not_mem_padded (other : c.isDigit = false) : c ∉ padded width number :=
  fun member => Bool.false_ne_true (other.symm.trans (isDigit_of_mem_padded member))

theorem not_mem_decimalsOf (other : c.isDigit = false) : c ∉ decimalsOf number :=
  fun member => not_mem_padded other (IsPrefix.subset ( rdropWhile_prefix _ _) member)

theorem padded_ne_nil : padded width number ≠ [] := by
  simp [padded]

theorem readDigits_padded : readDigits (padded width number) = some number := by
  rw [readDigits, ofDigitChars_padded, if_neg]
  simp only [padded_ne_nil, false_or, Bool.not_eq_false, all_eq_true]
  exact fun c => isDigit_of_mem_padded

/-- A sign in front of a number is taken off. -/
theorem readSigned_padded (read : List Char → Option Nat) (sign : Sign) (width number : Nat)
    (rest : List Char) :
    readSigned read (sign.chars ++ (padded width number ++ rest)) =
      (read (padded width number ++ rest)).map fun magnitude : Nat =>
        if sign = .minus then -(magnitude : Int) else magnitude := by
  cases sign with
  | plus | minus => rfl
  | absent =>
    cases spelled : padded width number with
    | nil => exact absurd spelled padded_ne_nil
    | cons first digits =>
      have digit : first.isDigit = true := isDigit_of_mem_padded (spelled ▸ mem_cons_self)
      have kept : stripSign (first :: (digits ++ rest)) = (false, first :: (digits ++ rest)) := by
        unfold stripSign
        split <;> simp_all
      simp [readSigned, Sign.chars, kept]

theorem readSigned_spellInt {value : Int} {plus : Prop} [Decidable plus]
    (positive : plus → 0 < value) :
    readSigned readDigits ((if plus then Sign.plus else .absent).chars ++ spellInt value) =
      some value := by
  have read := fun sign => readSigned_padded readDigits sign 0 value.natAbs []
  simp only [append_nil, readDigits_padded, Option.map_some] at read
  unfold spellInt
  by_cases negative : value < 0
  · have kept : -(value.natAbs : Int) = value := by omega
    rw [if_pos negative, if_neg fun marked => absurd (positive marked) (by omega)]
    exact (read .minus).trans (congrArg some kept)
  · have kept : (value.natAbs : Int) = value := by omega
    rw [if_neg negative]
    split
    · exact (read .plus).trans (congrArg some kept)
    · exact (read .absent).trans (congrArg some kept)

variable {micros : Nat}

theorem decimalsOf_spec (positive : micros ≠ 0) (small : micros < 10 ^ 6) :
    (decimalsOf micros).length ≤ 6 ∧ ∃ fraction, readDigits (decimalsOf micros) = some fraction ∧
      fraction * 10 ^ (6 - (decimalsOf micros).length) = micros := by
  obtain ⟨count, parts⟩ : ∃ count, decimalsOf micros ++ replicate count '0' = padded 6 micros := by
    refine ⟨_, (congrArg _ (eq_replicate_of_mem ?_).symm).trans rdropWhile_append_rtakeWhile⟩
    exact fun c member => by simpa using mem_rtakeWhile_imp member
  have lengths := congrArg length parts
  have short := (Nat.length_toDigits_le_iff (by decide : 1 < 10) (by decide)).mpr small
  simp only [padded, leftpad, length_append, length_replicate] at lengths
  have value := congrArg (Nat.ofDigitChars 10 · 0) parts
  simp only [Nat.ofDigitChars_append, ofDigitChars_zeros, ofDigitChars_padded] at value
  refine ⟨by omega, Nat.ofDigitChars 10 (decimalsOf micros) 0, ?_, ?_⟩
  · rw [readDigits, if_neg]
    rintro (none | other)
    · rw [none] at value
      exact positive (by simpa using value.symm)
    · obtain ⟨c, member, absurd⟩ := all_eq_false.mp other
      exact absurd (isDigit_of_mem_padded (parts ▸ mem_append_left _ member))
  · rw [show 6 - (decimalsOf micros).length = count by omega, Nat.mul_comm, value]

theorem readSeconds_seconds (seconds : Nat) (small : micros < 10 ^ 6) :
    readSeconds (padded 2 seconds ++ if micros ≠ 0 then '.' :: decimalsOf micros else []) =
      some (seconds * 1000000 + micros) := by
  have absent : '.' ∉ padded 2 seconds := not_mem_padded not_isDigit_point
  unfold readSeconds
  split_ifs with positive
  · obtain ⟨short, fraction, read, value⟩ := decimalsOf_spec positive small
    rw [splitAtPoint_append absent]
    simp [readDigits_padded, read, short, value]
  · rw [append_nil, splitAtPoint_of_no_point absent]
    simp [readDigits_padded, not_not.mp positive]

theorem readClock_clock (magnitude : Nat) :
    readClock ([':'].intercalate [padded 2 (magnitude / 1000000000 / 3600),
      padded 2 (magnitude / 1000000000 % 3600 / 60), padded 2 (magnitude / 1000000000 % 60) ++
        if magnitude % 1000000000 / 1000 ≠ 0 then
          '.' :: decimalsOf (magnitude % 1000000000 / 1000) else []]) =
      some (magnitude / 1000) := by
  have small : magnitude % 1000000000 / 1000 < 10 ^ 6 := by omega
  rw [readClock, splitOn_intercalate]
  · simp only [readDigits_padded, readSeconds_seconds _ small, Option.bind_eq_bind,
      Option.bind_some]
    rw [if_neg (by omega)]
    exact congrArg some (by omega)
  · have colon : Char.isDigit ':' = false := by decide
    simp only [forall_mem_cons, mem_append, not_mem_padded colon, false_or]
    split_ifs <;> simp [not_mem_decimalsOf colon]
  · simp

variable {afterNegative : Bool}

/-- The clock is read to the microsecond. -/
theorem readSigned_clockText {nanos : Int64} :
    readSigned readClock (clockText afterNegative nanos) = some (nanos / 1000).toInt := by
  have exact : (nanos / 1000).toInt = nanos.toInt.tdiv 1000 :=
    Int64.toInt_div_of_ne_right _ _ (by decide)
  have below : nanos < 0 ↔ nanos.toInt < 0 := Int64.lt_iff_toInt_lt
  refine (readSigned_padded readClock _ _ _ _).trans ?_
  refine (congrArg (Option.map _) (readClock_clock _)).trans ?_
  rw [Option.map_some, exact]
  by_cases negative : nanos < 0
  · rw [if_pos negative, if_pos rfl, ← Int.neg_neg nanos.toInt, Int.natAbs_neg, Int.neg_tdiv]
    obtain ⟨magnitude, same⟩ := Int.eq_ofNat_of_zero_le
      (Int.neg_nonneg_of_nonpos (below.mp negative).le)
    rw [same]
    rfl
  · rw [if_neg negative, if_neg (by split <;> simp)]
    obtain ⟨magnitude, same⟩ := Int.eq_ofNat_of_zero_le (Int.not_lt.mp (mt below.mpr negative))
    rw [same]
    rfl

theorem blank_not_mem_chars {sign : Sign} : ' ' ∉ sign.chars := by cases sign <;> decide

theorem blank_not_mem_spellInt {value : Int} : ' ' ∉ spellInt value := by
  rw [spellInt, mem_append, not_or]
  exact ⟨blank_not_mem_chars, not_mem_padded (by decide)⟩

theorem blank_not_mem_clockText {nanos : Int64} :
    ' ' ∉ clockText afterNegative nanos := by
  have blank : Char.isDigit ' ' = false := by decide
  simp only [clockText, intercalate, intersperse, flatten_cons, flatten_nil, mem_append,
    not_mem_padded blank, blank_not_mem_chars]
  split <;> simp [not_mem_decimalsOf blank]

/-- Words that are read as a total, whatever follows them. -/
structure ReadAs (words : List (List Char)) (total : Int × Int × Int) : Prop where
  apart : ∀ word ∈ words, ' ' ∉ word
  read : ∀ rest, readFields (words ++ rest) = (readFields rest).map (total + ·)

theorem ReadAs.appendPart {parts : List (List Char) × Bool} {total : Int × Int × Int}
    (before : ReadAs parts.1 total) (value : Int32) (unit : String) (one : Int × Int × Int)
    (known : ' ' ∉ unit.toList ∧
      ∀ plural ∈ [[], ['s']], unitOf (String.ofList (unit.toList ++ plural)) = some one) :
    ReadAs (appendPart parts value unit).1 (total + value.toInt • one) := by
  unfold Wire.appendPart
  split
  · rename_i zero
    simpa [zero] using before
  have number := readSigned_spellInt fun plus : parts.2 ∧ 0 < value =>
    Int32.lt_iff_toInt_lt.mp plus.2
  have unitRead := known.2 (if value ≠ 1 then ['s'] else []) (by split <;> simp)
  constructor
  · simp only [mem_append, or_imp, forall_and, forall_mem_cons, not_or]
    refine ⟨before.apart, ⟨blank_not_mem_chars, blank_not_mem_spellInt⟩, ⟨known.1, ?_⟩, nofun⟩
    split <;> simp
  · intro rest
    simp only [append_assoc, before.read, cons_append, nil_append, readFields, number, unitRead,
      Option.bind_eq_bind, Option.bind_some]
    cases readFields rest with
    | none => rfl
    | some others => exact congrArg some (add_assoc ..).symm

theorem readInterval_words {words : List (List Char)} {months days : Int32} {micros : Int64}
    (apart : ∀ word ∈ words, ' ' ∉ word) (filled : words ≠ [])
    (read : readFields words = some (months.toInt, days.toInt, micros.toInt)) :
    readInterval ([' '].intercalate words) = some (months.toInt, days.toInt, micros.toInt) := by
  rw [readInterval, splitOn_intercalate _ apart filled, read]
  exact Option.filter_some_pos (decide_eq_true ⟨months.le_toInt, months.toInt_lt, days.le_toInt,
    days.toInt_lt, micros.le_toInt, micros.toInt_lt⟩)

theorem readInterval_postgresIntervalText (months days : Int32) (nanos : Int64) :
    readInterval (postgresIntervalText months days nanos) =
      some (months.toInt, days.toInt, (nanos / 1000).toInt) := by
  have start : ReadAs (Prod.fst ([], false)) 0 := ⟨by simp, by simp⟩
  have parts := ((start.appendPart (months / 12) "year" (12, 0, 0) (by decide)).appendPart
    (months % 12) "mon" (1, 0, 0) (by decide)).appendPart days "day" (0, 1, 0) (by decide)
  have total : (0 : Int × Int × Int) + (months / 12).toInt • (12, 0, 0) +
      (months % 12).toInt • (1, 0, 0) + days.toInt • (0, 1, 0) =
        (months.toInt, days.toInt, 0) := by
    have split : months.toInt.tdiv 12 * 12 + months.toInt.tmod 12 = months.toInt :=
      Int.tdiv_mul_add_tmod ..
    rw [Int32.toInt_div_of_ne_right _ _ (by decide), Int32.toInt_mod]
    simpa using split
  rw [total] at parts
  unfold postgresIntervalText
  refine readInterval_words ?_ ?_ ?_
  · split_ifs
    · simpa [or_imp, forall_and, blank_not_mem_clockText] using parts.apart
    · decide
    · exact parts.apart
  · split_ifs <;> simp_all
  · have alone := parts.read []
    rw [append_nil, readFields, Option.map_some, add_zero] at alone
    split_ifs with timed none
    · rw [parts.read]
      simp [readFields, readSigned_clockText]
    · rw [none] at alone
      rw [not_not.mp timed]
      exact (by decide : readFields ["00:00:00".toList] = some 0).trans alone
    · rw [alone, not_not.mp timed]
      rfl

theorem readInterval_intervalSqlLiteral (months days : Int32) (nanos : Int64) :
    readInterval (intervalSqlLiteral months days nanos) =
      some (months.toInt, days.toInt, (nanos / 1000).toInt) := by
  have number {value : Int} : readSigned readDigits (spellInt value) = some value :=
    readSigned_spellInt (False.elim : False → 0 < value)
  refine readInterval_words ?_ (by simp) ?_
  · simp [blank_not_mem_spellInt]
  · simp [readFields, number, unitOf, -zsmul_eq_mul]

def IntervalCell.value : IntervalCell → Int × Int × Int
  | yearMonth months => (months.toInt, 0, 0)
  | dayTime days milliseconds => (0, days.toInt, milliseconds.toInt * 1000000)
  | monthDayNano months days nanoseconds => (months.toInt, days.toInt, nanoseconds.toInt)

theorem intervalParts_exact (cell : IntervalCell) :
    let (months, days, nanos) := intervalParts cell
    (months.toInt, days.toInt, nanos.toInt) = cell.value := by
  cases cell with
  | yearMonth | monthDayNano => rfl
  | dayTime days milliseconds =>
    have low := milliseconds.le_toInt
    have high := milliseconds.toInt_lt
    have fits : (milliseconds.toInt64 * 1000000).toInt = milliseconds.toInt * 1000000 := by
      have unit : Int64.toInt 1000000 = 1000000 := by decide
      rw [Int64.toInt_mul, Int32.toInt_toInt64, unit]
      exact Int.bmod_eq_of_le (by omega) (by omega)
    exact congrArg (fun nanos => (0, days.toInt, nanos)) fits

/-- The text and the literal of an interval are read back to the microsecond.  A value of
whole microseconds is read back as it is. -/
theorem interval_read_back (cell : IntervalCell) :
    let (months, days, nanos) := intervalParts cell
    let kept := cell.value.map id (.map id (·.tdiv 1000))
    readInterval (postgresIntervalText months days nanos) = some kept ∧
    readInterval (intervalSqlLiteral months days nanos) = some kept ∧
    (1000 ∣ cell.value.2.2 → kept.map id (.map id (· * 1000)) = cell.value) := by
  have exact := intervalParts_exact cell
  generalize intervalParts cell = parts at exact ⊢
  obtain ⟨months, days, nanos⟩ := parts
  have micros : (nanos / 1000).toInt = nanos.toInt.tdiv 1000 :=
    Int64.toInt_div_of_ne_right _ _ (by decide)
  simp only at exact
  simp only [readInterval_postgresIntervalText, readInterval_intervalSqlLiteral, ← exact, micros,
    Prod.map, id, true_and]
  exact fun whole => by rw [Int.tdiv_mul_cancel whole]

end VaireDb.Wire
