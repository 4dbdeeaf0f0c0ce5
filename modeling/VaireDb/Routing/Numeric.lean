import VaireDb.Lib.Decimal

/-!
# Canonical numeric tokens

The routing string of a number is computed by string operations on its token:
scientific notation is expanded by shifting the point, then leading and trailing
zeros and the sign of zero are dropped.  `canonicalizeNumeric_eq` and
`canonicalText_eq_iff` say what this comes to: two tokens get the same string
exactly if they denote the same number.
-/

namespace VaireDb.Routing

open Lib List Digits
open Char (isDigit)
open Decimal (shift value_normalize)

/-- `char::is_whitespace`. -/
def isWhitespace (c : Char) : Bool :=
  (0x9 ≤ c.toNat ∧ c.toNat ≤ 0xD) ∨ c.toNat = 0x20 ∨ c.toNat = 0x85 ∨
    c.toNat = 0xA0 ∨ c.toNat = 0x1680 ∨
    (0x2000 ≤ c.toNat ∧ c.toNat ≤ 0x200A) ∨ c.toNat = 0x2028 ∨
    c.toNat = 0x2029 ∨ c.toNat = 0x202F ∨ c.toNat = 0x205F ∨ c.toNat = 0x3000

def trim (text : List Char) : List Char :=
  (text.dropWhile isWhitespace).rdropWhile isWhitespace

def isExponentMark (c : Char) : Bool := c = 'e' ∨ c = 'E'

/-- `splitn(2, '.')`. -/
def splitAtPoint (text : List Char) : List Char × Option (List Char) :=
  match text.dropWhile (· ≠ '.') with
  | [] => (text, none)
  | _ :: rest => (text.takeWhile (· ≠ '.'), some rest)

/-- `strip_prefix('-')`, with whether it was there. -/
def stripMinus : List Char → Bool × List Char
  | '-' :: rest => (true, rest)
  | text => (false, text)

def stripSign : List Char → Bool × List Char
  | '-' :: rest => (true, rest)
  | '+' :: rest => (false, rest)
  | text => (false, text)

/-- The number that ASCII digits spell. -/
def digitsToNat (digits : List Char) : Nat :=
  digits.foldl (fun n c => 10 * n + (c.toNat - 48)) 0

/-- `str::parse::<i32>`. -/
def parseI32 (text : List Char) : Option Int :=
  let (neg, digits) := stripSign text
  if digits = [] ∨ digits.all isDigit = false then
    none
  else
    let magnitude : Int := digitsToNat digits
    let value := if neg then -magnitude else magnitude
    if -2 ^ 31 ≤ value ∧ value < 2 ^ 31 then some value else none

/-- `exp.abs() > 1000`; the absolute value of the least `i32` wraps around to
itself in a release build. -/
def exponentTooLarge (exponent : Int) : Bool :=
  exponent ≠ -2 ^ 31 ∧ 1000 < exponent.natAbs

/-- Digits with the decimal point after the first `point` of them. -/
def placePoint (digits : List Char) (point : Int) : List Char :=
  if point ≤ 0 then
    ['0', '.'] ++ List.replicate (-point).toNat '0' ++ digits
  else if (digits.length : Int) ≤ point then
    digits ++ List.replicate (point - digits.length).toNat '0'
  else
    digits.take point.toNat ++ '.' :: digits.drop point.toNat

def exponentText (text : List Char) : List Char :=
  (text.dropWhile fun c => !isExponentMark c).drop 1

def mantissaText (text : List Char) : List Char :=
  text.takeWhile fun c => !isExponentMark c

/-- Expand a token with an exponent mark to plain decimal form. -/
def expandScientificNotation (text : List Char) : Option (List Char) :=
  match parseI32 (exponentText text) with
  | none => none
  | some exponent =>
    if exponentTooLarge exponent then
      none
    else
      let (neg, mantissa) := stripSign (mantissaText text)
      let (intDigits, fracDigits) := splitAtPoint mantissa
      let digits := intDigits ++ fracDigits.getD []
      if 1 < mantissa.count '.' then
        none
      else if digits = [] ∨ digits.all isDigit = false then
        none
      else
        some ((if neg then ['-'] else []) ++ placePoint digits (intDigits.length + exponent))

def canonicalizePlain (text : List Char) : Option (List Char) :=
  let (neg, digits) := stripMinus text
  if digits = [] ∨ (digits.all fun c => c.isDigit || c = '.') = false then
    none
  else
    let (intPart, fracPart) := splitAtPoint digits
    if 1 < digits.count '.' then
      none
    else
      let intTrimmed := intPart.dropWhile (· = '0')
      let intNorm := if intTrimmed = [] then ['0'] else intTrimmed
      let fracNorm := (fracPart.getD []).rdropWhile (· = '0')
      let isZero := intNorm = ['0'] ∧ fracNorm = []
      some ((if neg ∧ ¬ isZero then ['-'] else []) ++ intNorm ++
        (if fracNorm = [] then [] else '.' :: fracNorm))

def canonicalizeNumeric (text : List Char) : Option (List Char) :=
  let trimmed := trim text
  if trimmed.any isExponentMark then
    (expandScientificNotation trimmed).bind canonicalizePlain
  else
    canonicalizePlain trimmed

def digitOf (c : Char) : Fin 10 := Fin.ofNat 10 (c.toNat - 48)

def digitChar (digit : Fin 10) : Char := Nat.digitChar digit

/-- A sign-free token: digits with at most one point, not all of them missing. -/
def decimalOf (neg : Bool) (body : List Char) : Option Decimal :=
  let (intPart, fracPart) := splitAtPoint body
  if (intPart ++ fracPart.getD []).all isDigit then
    some
      { neg := neg
        whole := intPart.map digitOf
        frac := (fracPart.getD []).map digitOf }
  else
    none

/-- The numeral of a token without an exponent.  A lone point counts as zero, and
a plus sign is not read. -/
def plainDecimal (text : List Char) : Option Decimal :=
  let (neg, body) := stripMinus text
  if body = [] then none else decimalOf neg body

/-- The numeral and the exponent of a token in scientific notation. -/
def scientificParts (text : List Char) : Option (Decimal × Int) :=
  match parseI32 (exponentText text) with
  | none => none
  | some exponent =>
    let (neg, body) := stripSign (mantissaText text)
    match decimalOf neg body with
    | none => none
    | some decimal =>
      if exponentTooLarge exponent ∨ decimal.whole ++ decimal.frac = [] then
        none
      else
        some (decimal, exponent)

def numericValue (text : List Char) : Option ℚ :=
  let trimmed := trim text
  if trimmed.any isExponentMark then
    (scientificParts trimmed).map fun parts => parts.1.value * 10 ^ parts.2
  else
    (plainDecimal trimmed).map Decimal.value

theorem digitChar_digitOf {c : Char} (digit : c.isDigit = true) :
    digitChar (digitOf c) = c := by
  have bounds : 48 ≤ c.toNat ∧ c.toNat ≤ 57 := by
    simpa [isDigit, UInt32.le_iff_toNat_le] using digit
  rw [← Char.ofNat_toNat c]
  obtain ⟨least, most⟩ := bounds
  generalize c.toNat = code at least most ⊢
  interval_cases code <;> rfl

@[simp] private theorem digitOf_digitChar (digit : Fin 10) :
    digitOf (digitChar digit) = digit := by
  revert digit
  decide

theorem digitChar_isDigit {digit : Fin 10} :
    (digitChar digit).isDigit = true := by
  revert digit
  decide

theorem digitChar_eq_zero_iff {digit : Fin 10} :
    digitChar digit = '0' ↔ digit = 0 := by
  revert digit
  decide

variable {text : List Char}

theorem map_digitChar_digitOf (digits : text.all isDigit = true) :
    (text.map digitOf).map digitChar = text := by
  rw [map_map]
  conv_rhs => rw [← map_id text]
  refine map_congr_left fun c member => ?_
  exact digitChar_digitOf (all_eq_true.mp digits c member)

theorem not_isDigit_point : isDigit '.' = false := by decide

theorem splitAtPoint_cases : ('.' ∉ text ∧ splitAtPoint text = (text, none)) ∨
      ∃ before after, '.' ∉ before ∧ text = before ++ '.' :: after ∧
        splitAtPoint text = (before, some after) := by
  unfold splitAtPoint
  cases rest : text.dropWhile (· ≠ '.') with
  | nil =>
    left
    refine ⟨fun member => ?_, rfl⟩
    have all := dropWhile_eq_nil_iff.mp rest '.' member
    simp at all
  | cons head after =>
    right
    have point : head = '.' := by
      have kept := head?_dropWhile_not (fun c => decide (c ≠ '.')) text
      rw [rest] at kept
      simpa using kept
    subst point
    refine ⟨text.takeWhile (· ≠ '.'), after, fun member => ?_, ?_, rfl⟩
    · have stays := mem_takeWhile_imp member
      simp at stays
    · rw [← rest, takeWhile_append_dropWhile]

theorem point_not_mem (digits : text.all isDigit = true) : '.' ∉ text := by
  intro member
  have digit := all_eq_true.mp digits '.' member
  simp [not_isDigit_point] at digit

theorem all_of_no_point (absent : '.' ∉ text) :
    (text.all fun c => c.isDigit || c = '.') = text.all isDigit := by
  rw [Bool.eq_iff_iff, all_eq_true, all_eq_true]
  refine forall₂_congr fun c member => ?_
  have different : c ≠ '.' := fun same => absent (same ▸ member)
  simp [different]

theorem digits_and_point_iff (body : List Char) :
    ((body.all fun c => c.isDigit || c = '.') = true ∧ body.count '.' ≤ 1) ↔
      ((splitAtPoint body).1 ++ (splitAtPoint body).2.getD []).all isDigit = true := by
  rcases splitAtPoint_cases with ⟨absent, split⟩ | ⟨before, after, absent, known, split⟩
  · rw [split, all_of_no_point absent, count_eq_zero_of_not_mem absent]
    simp
  · rw [split, known]
    simp only [all_append, all_cons, Bool.and_eq_true, count_append, count_cons_self,
      Option.getD_some, all_of_no_point absent, count_eq_zero_of_not_mem absent]
    constructor
    · rintro ⟨⟨digitsBefore, _, digitsAfter⟩, few⟩
      have pointless : '.' ∉ after := by
        rw [← count_eq_zero]
        omega
      rw [all_of_no_point pointless] at digitsAfter
      exact ⟨digitsBefore, digitsAfter⟩
    · rintro ⟨digitsBefore, digitsAfter⟩
      have pointless := point_not_mem digitsAfter
      rw [count_eq_zero_of_not_mem pointless, all_of_no_point pointless]
      exact ⟨⟨digitsBefore, by simp, digitsAfter⟩, by omega⟩

/-- The spelling of a numeral, digit by digit. -/
def plainText (decimal : Decimal) : List Char :=
  (if decimal.neg then ['-'] else []) ++ decimal.whole.map digitChar ++
    (if decimal.frac = [] then [] else '.' :: decimal.frac.map digitChar)

/-- The numeral with a zero for an empty whole part. -/
def padWhole (decimal : Decimal) : Decimal :=
  { decimal with whole := if decimal.whole = [] then [0] else decimal.whole }

theorem value_padWhole {decimal : Decimal} :
    (padWhole decimal).value = decimal.value := by
  have digits : (padWhole decimal).mantissa = decimal.mantissa := by
    unfold padWhole Decimal.mantissa
    split
    · next empty => simp [empty, toNat_cons]
    · rfl
  unfold Decimal.value Decimal.magnitude
  rw [digits]
  rfl

theorem dropWhile_zero_map (digits : Digits) : (digits.map digitChar).dropWhile (· = '0') =
      (digits.dropWhile (· = 0)).map digitChar := by
  rw [dropWhile_map]
  congr 2
  funext digit
  simp [digitChar_eq_zero_iff]

theorem rdropWhile_zero_map (digits : Digits) : (digits.map digitChar).rdropWhile (· = '0') =
      (digits.rdropWhile (· = 0)).map digitChar := by
  simp only [rdropWhile, ← map_reverse, dropWhile_zero_map]

theorem canonical_text (neg : Bool) {whole : Digits} (frac : Digits) (trimmed : Trimmed whole) :
    let intTrimmed := whole.map digitChar
    let intNorm := if intTrimmed = [] then ['0'] else intTrimmed
    let fracNorm := frac.map digitChar
    (if neg = true ∧ ¬ (intNorm = ['0'] ∧ fracNorm = []) then ['-'] else []) ++
        intNorm ++ (if fracNorm = [] then [] else '.' :: fracNorm) = plainText (padWhole
        { neg := neg && !(whole.isEmpty && frac.isEmpty)
          whole := whole
          frac := frac }) := by
  cases whole with
  | nil => cases neg <;> cases frac <;> simp [plainText, padWhole, digitChar]
  | cons digit digits =>
    have nonzero : digit ≠ 0 := fun zero => trimmed (by simp [zero])
    have shown : digitChar digit ≠ '0' :=
      fun same => nonzero ((digitChar_eq_zero_iff).mp same)
    cases neg <;> simp [plainText, padWhole, shown]

theorem canonicalizePlain_eq (text : List Char) :
    canonicalizePlain text = (plainDecimal text).map fun decimal =>
      plainText (padWhole decimal.normalize) := by
  unfold canonicalizePlain plainDecimal decimalOf
  obtain ⟨neg, body⟩ := stripMinus text
  by_cases empty : body = []
  · simp [empty]
  · have wellFormed := digits_and_point_iff body
    simp only [empty, false_or, if_false]
    by_cases digits : ((splitAtPoint body).1 ++
        (splitAtPoint body).2.getD []).all isDigit = true
    · obtain ⟨all, few⟩ := wellFormed.mpr digits
      have parts := digits
      rw [all_append, Bool.and_eq_true] at parts
      have text := canonical_text neg (((splitAtPoint body).2.getD []).map digitOf |>.rdropWhile (·
        = 0)) (trimmed_dropWhile_zero ((splitAtPoint body).1.map digitOf))
      simp only [← dropWhile_zero_map, ← rdropWhile_zero_map,
        map_digitChar_digitOf parts.1, map_digitChar_digitOf parts.2] at text
      rw [if_neg (by simp [all]), if_neg (by omega), if_pos digits, Option.map_some, text]
      rfl
    · rw [if_neg digits, Option.map_none]
      by_cases all : (body.all fun c => c.isDigit || c = '.') = true
      · have many : 1 < body.count '.' := by
          by_contra few
          exact digits (wellFormed.mp ⟨all, by omega⟩)
        rw [if_neg (by simp [all]), if_pos many]
      · rw [if_pos (by simpa using all)]

@[simp] private theorem digitChar_zero : digitChar 0 = '0' := rfl

theorem placePoint_eq (neg : Bool) (whole frac : Digits)
    (nonempty : whole ++ frac ≠ []) (exponent : Int) :
    (if neg then ['-'] else []) ++
        placePoint ((whole ++ frac).map digitChar) (whole.length + exponent) =
      plainText (shift ⟨neg, whole, frac⟩ exponent) := by
  by_cases before : (whole.length : Int) + exponent ≤ 0
  · simp [placePoint, shift, before, plainText]
    intro _
    simpa using nonempty
  · by_cases behind : ((whole ++ frac).length : Int) ≤ whole.length + exponent
    · simp only [placePoint, shift, before, behind, if_true, if_false,
        length_map, plainText]
      simp
    · simp only [placePoint, shift, before, behind, if_false, length_map, plainText]
      rw [length_append] at behind
      simp [map_take, map_drop]
      omega

theorem expandScientificNotation_eq (text : List Char) :
    expandScientificNotation text = (scientificParts text).map fun parts =>
      plainText (parts.1.shift parts.2) := by
  unfold expandScientificNotation scientificParts decimalOf
  cases parseI32 (exponentText text) with
  | none => rfl
  | some exponent =>
    obtain ⟨neg, body⟩ := stripSign (mantissaText text)
    have wellFormed := digits_and_point_iff body
    by_cases digits : ((splitAtPoint body).1 ++
        (splitAtPoint body).2.getD []).all isDigit = true
    · have few := (wellFormed.mpr digits).2
      have parts := digits
      rw [all_append, Bool.and_eq_true] at parts
      by_cases large : exponentTooLarge exponent = true
      · simp [digits, large]
      · by_cases empty : (splitAtPoint body).1 ++ (splitAtPoint body).2.getD [] = []
        · simp_all
        · have nonempty : (splitAtPoint body).1.map digitOf ++
              ((splitAtPoint body).2.getD []).map digitOf ≠ [] := by
            rw [← map_append]
            simpa using empty
          have placed := placePoint_eq neg _ _ nonempty exponent
          rw [map_append, map_digitChar_digitOf parts.1,
            map_digitChar_digitOf parts.2, length_map] at placed
          simp only [digits, if_true, Nat.not_lt.mpr few, if_false, large, empty, nonempty, placed]
          rfl
    · simp [digits]

theorem all_map_digitChar (digits : Digits) :
    (digits.map digitChar).all isDigit = true := by
  rw [all_map, all_eq_true]
  exact fun digit _ => digitChar_isDigit

theorem splitAtPoint_of_no_point (absent : '.' ∉ text) :
    splitAtPoint text = (text, none) := by
  rcases splitAtPoint_cases with ⟨_, split⟩ | ⟨before, after, _, known, _⟩
  · exact split
  · exact (absent (by simp [known])).elim

theorem splitAtPoint_append {before : List Char} (absent : '.' ∉ before) (after : List Char) :
    splitAtPoint (before ++ '.' :: after) = (before, some after) := by
  have stays : ∀ c ∈ before, decide (c ≠ '.') = true := by
    intro c member
    exact decide_eq_true fun same => absent (same ▸ member)
  unfold splitAtPoint
  rw [dropWhile_append_of_pos stays, takeWhile_append_of_pos stays]
  simp

/-- Digits with a point among them, or without. -/
def spelled (whole : Digits) (frac : Option Digits) : List Char :=
  whole.map digitChar ++ frac.elim [] fun frac => '.' :: frac.map digitChar

theorem spelled_plain {whole : Digits} {frac : Option Digits} :
    ∀ c ∈ spelled whole frac, c.isDigit = true ∨ c = '.' := by
  intro c member
  cases frac with
  | none =>
    rw [spelled, Option.elim_none, append_nil] at member
    exact .inl (all_eq_true.mp (all_map_digitChar whole) c member)
  | some frac =>
    rcases mem_append.mp member with digit | rest
    · exact .inl (all_eq_true.mp (all_map_digitChar whole) c digit)
    · exact (mem_cons.mp rest).symm.imp_left (all_eq_true.mp (all_map_digitChar frac) c)

theorem decimalOf_spelled (neg : Bool) (whole : Digits) (frac : Option Digits) :
    decimalOf neg (spelled whole frac) = some ⟨neg, whole, frac.getD []⟩ := by
  have absent := point_not_mem (all_map_digitChar whole)
  unfold spelled decimalOf
  cases frac with
  | none => simp [splitAtPoint_of_no_point, absent, digitChar_isDigit, Function.comp_def]
  | some frac => simp [splitAtPoint_append absent, digitChar_isDigit, Function.comp_def]

inductive Sign where
  | absent
  | plus
  | minus
  deriving DecidableEq

def Sign.chars : Sign → List Char
  | absent => []
  | plus => ['+']
  | minus => ['-']

theorem stripSign_text (sign : Sign) (plain : ∀ c ∈ text, c.isDigit = true ∨ c = '.') :
    stripSign (sign.chars ++ text) = (decide (sign = .minus), text) ∧
      (sign ≠ .plus → stripMinus (sign.chars ++ text) = (decide (sign = .minus), text)) := by
  cases sign with
  | absent =>
    cases text with
    | nil => exact ⟨rfl, fun _ => rfl⟩
    | cons first rest =>
      have shown := plain first (by simp)
      constructor
      · unfold stripSign
        split <;> simp_all [Sign.chars]
      · unfold stripMinus
        split <;> simp_all [Sign.chars]
  | plus => exact ⟨rfl, fun absurd => (absurd rfl).elim⟩
  | minus => exact ⟨rfl, fun _ => rfl⟩

theorem plainText_eq (decimal : Decimal) :
    plainText decimal = (if decimal.neg then Sign.minus else .absent).chars ++
      spelled decimal.whole (if decimal.frac = [] then none else some decimal.frac) := by
  unfold plainText spelled
  cases decimal.neg <;> by_cases empty : decimal.frac = [] <;> simp [Sign.chars, empty]

theorem plainDecimal_plainText {decimal : Decimal} (nonempty : decimal.whole ≠ []) :
    plainDecimal (plainText decimal) = some decimal := by
  obtain ⟨neg, whole, frac⟩ := decimal
  rw [plainText_eq, plainDecimal, (stripSign_text _ spelled_plain).2 (by cases neg <;> simp)]
  simp only
  rw [if_neg (by simpa [spelled] using fun empty => absurd empty nonempty), decimalOf_spelled]
  cases neg <;> by_cases empty : frac = [] <;> simp [empty]

def canonicalText (decimal : Decimal) : List Char :=
  plainText (padWhole decimal.normalize)

theorem plainDecimal_canonicalText (decimal : Decimal) :
    plainDecimal (canonicalText decimal) = some (padWhole decimal.normalize) := by
  apply plainDecimal_plainText
  unfold padWhole
  simp only
  split
  · simp
  · next nonempty => exact nonempty

/-- Two numerals have the same canonical text exactly if they have the same
value. -/
theorem canonicalText_eq_iff (left right : Decimal) :
    canonicalText left = canonicalText right ↔ left.value = right.value := by
  constructor
  · intro same
    have read := congrArg plainDecimal same
    rw [plainDecimal_canonicalText, plainDecimal_canonicalText, Option.some.injEq] at read
    have values := congrArg Decimal.value read
    simpa only [value_padWhole, value_normalize] using values
  · intro same
    unfold canonicalText
    rw [(Decimal.normalize_eq_iff left right).mpr same]

def numericDecimal (text : List Char) : Option Decimal :=
  if (trim text).any isExponentMark then
    (scientificParts (trim text)).map fun parts => parts.1.shift parts.2
  else
    plainDecimal (trim text)

theorem numericValue_eq (text : List Char) :
    numericValue text = (numericDecimal text).map Decimal.value := by
  simp only [numericValue, numericDecimal]
  split
  · rw [Option.map_map]
    congr 1
    funext parts
    exact (Decimal.value_shift parts.1 parts.2).symm
  · rfl

theorem shift_whole_ne_nil {decimal : Decimal}
    (nonempty : decimal.whole ++ decimal.frac ≠ []) {exponent : Int} :
    (decimal.shift exponent).whole ≠ [] := by
  unfold shift
  simp only
  split
  · simp
  · rename_i positive
    split
    · exact fun empty => nonempty (append_eq_nil_iff.mp empty).1
    · rw [ne_eq, take_eq_nil_iff, not_or]
      exact ⟨by omega, nonempty⟩

theorem canonicalizeNumeric_eq (text : List Char) :
    canonicalizeNumeric text = (numericDecimal text).map canonicalText := by
  unfold canonicalizeNumeric numericDecimal
  simp only
  split
  · rw [expandScientificNotation_eq]
    cases known : scientificParts (trim text) with
    | none => rfl
    | some parts =>
      have nonempty : parts.1.whole ++ parts.1.frac ≠ [] := by
        unfold scientificParts at known
        split at known
        · cases known
        simp only at known
        split at known
        · cases known
        split at known <;> cases known
        rename_i kept
        exact (not_or.mp kept).2
      simp only [Option.map_some, Option.bind_some]
      rw [canonicalizePlain_eq, plainDecimal_plainText (shift_whole_ne_nil nonempty)]
      rfl
  · exact canonicalizePlain_eq _

theorem plainText_chars {decimal : Decimal} :
    ∀ c ∈ plainText decimal, c.isDigit = true ∨ c = '-' ∨ c = '.' := by
  intro c member
  rw [plainText_eq] at member
  rcases mem_append.mp member with sign | body
  · split at sign
    · exact .inr (.inl (mem_singleton.mp sign))
    · cases sign
  · exact (spelled_plain c body).imp_right .inr

theorem digit_not_special {c : Char} (plain : c.isDigit = true ∨ c = '-' ∨ c = '.') :
    isWhitespace c = false ∧ isExponentMark c = false ∧ c ≠ '\x27' := by
  rcases plain with digit | rfl | rfl
  · have shown := digitChar_digitOf digit
    rw [← shown]
    generalize digitOf c = value
    revert value
    decide
  · decide
  · decide

theorem trim_eq_self (clean : ∀ c ∈ text, isWhitespace c = false) : trim text = text := by
  have front : text.dropWhile isWhitespace = text := by
    cases text with
    | nil => rfl
    | cons c rest => simp [clean c (by simp)]
  unfold trim
  rw [front, rdropWhile_eq_self_iff]
  intro nonempty
  simp [clean _ (getLast_mem nonempty)]

theorem canonicalText_clean (decimal : Decimal) : ∀ c ∈ canonicalText decimal,
      isWhitespace c = false ∧ isExponentMark c = false ∧ c ≠ '\x27' :=
  fun c member => digit_not_special (plainText_chars c member)

theorem numericDecimal_canonicalText (decimal : Decimal) :
    numericDecimal (canonicalText decimal) = some (padWhole decimal.normalize) := by
  have clean := canonicalText_clean decimal
  have unmarked : (canonicalText decimal).any isExponentMark = false := by
    rw [any_eq_false]
    intro c member
    simp [(clean c member).2.1]
  rw [numericDecimal, trim_eq_self fun c member => (clean c member).1, unmarked,
    if_neg (by simp), plainDecimal_canonicalText]

theorem numericValue_canonicalText (decimal : Decimal) :
    numericValue (canonicalText decimal) = some decimal.value := by
  rw [numericValue_eq, numericDecimal_canonicalText, Option.map_some, value_padWhole,
    value_normalize]

/-! ## Tokens of every form -/

structure Exponent where
  mark : Char
  isMark : isExponentMark mark = true
  sign : Sign
  digits : Digits
  nonempty : digits ≠ []

def Exponent.value (exponent : Exponent) : Int :=
  if exponent.sign = .minus then -exponent.digits.toNat else exponent.digits.toNat

/-- A token: a sign, digits with at most one point, and an exponent. -/
structure Token where
  sign : Sign
  whole : Digits
  frac : Option Digits
  nonempty : whole ++ frac.getD [] ≠ []
  exponent : Option Exponent

namespace Token

variable (token : Token)

def chars : List Char :=
  token.sign.chars ++ spelled token.whole token.frac ++ token.exponent.elim [] fun exponent =>
    exponent.mark :: (exponent.sign.chars ++ exponent.digits.map digitChar)

def decimal : Decimal := ⟨token.sign = .minus, token.whole, token.frac.getD []⟩

def value : ℚ := token.decimal.value * 10 ^ token.exponent.elim 0 Exponent.value

/-- The token has a canonical text, which denotes its number and is its own canonical
text, and its exponent is not the one whose absolute value overflows. -/
structure Canonical : Prop where
  found : ∃ result, canonicalizeNumeric token.chars = some result ∧
    numericValue result = some token.value ∧ canonicalizeNumeric result = some result
  bounded : ∀ exponent, token.exponent = some exponent → exponent.value ≠ -2 ^ 31

/-- No plus sign without an exponent, and no exponent beyond a thousand. -/
def Readable : Prop :=
  match token.exponent with
  | none => token.sign ≠ .plus
  | some exponent => exponent.value.natAbs ≤ 1000

end Token

theorem digitsToNat_map (digits : Digits) :
    digitsToNat (digits.map digitChar) = digits.toNat := by
  induction digits using reverseRecOn with
  | nil => rfl
  | append_singleton digits digit induction =>
    have shown : (digitChar digit).toNat - 48 = digit := by
      revert digit
      decide
    rw [toNat_append, ← induction]
    simp [digitsToNat, shown, Digits.toNat, Nat.mul_comm]

theorem Sign.clean (sign : Sign) : ∀ c ∈ sign.chars,
    isWhitespace c = false ∧ isExponentMark c = false := by
  cases sign <;> simp [chars] <;> decide

theorem parseI32_exponent (exponent : Exponent) :
    parseI32 (exponent.sign.chars ++ exponent.digits.map digitChar) =
      if -2 ^ 31 ≤ exponent.value ∧ exponent.value < 2 ^ 31 then some exponent.value
      else none := by
  have digits := all_map_digitChar exponent.digits
  have stripped := (stripSign_text exponent.sign fun c member =>
    .inl (all_eq_true.mp digits c member)).1
  unfold parseI32
  rw [stripped]
  simp [exponent.nonempty, digitChar_isDigit, digitsToNat_map, Exponent.value]
  rfl

namespace Token

variable (token : Token)

theorem clean : ∀ c ∈ token.sign.chars ++ spelled token.whole token.frac,
    isWhitespace c = false ∧ isExponentMark c = false := by
  intro c member
  rcases mem_append.mp member with sign | body
  · exact token.sign.clean c sign
  · have special := digit_not_special ((spelled_plain c body).imp_right .inr)
    exact ⟨special.1, special.2.1⟩

theorem spelled_ne_nil : spelled token.whole token.frac ≠ [] := by
  have digits := token.nonempty
  unfold spelled
  cases known : token.frac <;> simp_all

theorem numericDecimal_of_plain (plain : token.exponent = none) :
    numericDecimal token.chars =
      if token.sign = .plus then none else some token.decimal := by
  have text : token.chars = token.sign.chars ++ spelled token.whole token.frac := by
    simp [Token.chars, plain]
  have unmarked : token.chars.any isExponentMark = false := by
    rw [text, any_eq_false]
    exact fun c member => by simp [(token.clean c member).2]
  rw [numericDecimal, trim_eq_self fun c member => (token.clean c (text ▸ member)).1, unmarked,
    if_neg (by simp), plainDecimal, text]
  by_cases plus : token.sign = .plus
  · simp [plus, Sign.chars, stripMinus, decimalOf, splitAtPoint]
    split <;> simp
  · rw [(stripSign_text token.sign spelled_plain).2 plus]
    simp [plus, token.spelled_ne_nil, decimalOf_spelled, decimal]

theorem numericDecimal_of_exponent {exponent : Exponent} (given : token.exponent = some exponent) :
    parseI32 (exponentText token.chars) =
      (if -2 ^ 31 ≤ exponent.value ∧ exponent.value < 2 ^ 31 then some exponent.value
      else none) ∧
    numericDecimal token.chars = (parseI32 (exponentText token.chars)).bind fun places =>
      if exponentTooLarge places then none else some (token.decimal.shift places) := by
  have text : token.chars = token.sign.chars ++ spelled token.whole token.frac ++
      exponent.mark :: (exponent.sign.chars ++ exponent.digits.map digitChar) := by
    simp [Token.chars, given]
  have before : ∀ c ∈ token.sign.chars ++ spelled token.whole token.frac,
      (!isExponentMark c) = true := fun c member => by simp [(token.clean c member).2]
  have mantissa : mantissaText token.chars =
      token.sign.chars ++ spelled token.whole token.frac := by
    rw [mantissaText, text, takeWhile_append_of_pos before]
    simp [exponent.isMark]
  have trimmed : trim token.chars = token.chars := by
    refine trim_eq_self fun c member => ?_
    simp only [text, mem_append, mem_cons] at member
    rcases member with front | same | sign | digit
    · exact (token.clean c (mem_append.mpr front)).1
    · rcases of_decide_eq_true exponent.isMark with mark | mark <;> rw [same, mark] <;> decide
    · exact (exponent.sign.clean c sign).1
    · exact (digit_not_special (.inl
        (all_eq_true.mp (all_map_digitChar exponent.digits) c digit))).1
  constructor
  · rw [exponentText, text, dropWhile_append_of_pos before, ← parseI32_exponent]
    simp [exponent.isMark]
  · rw [numericDecimal, trimmed, if_pos (by simp [text, exponent.isMark]), scientificParts,
      mantissa, (stripSign_text token.sign spelled_plain).1]
    have digits := token.nonempty
    cases parseI32 (exponentText token.chars) with
    | none => rfl
    | some places =>
      cases large : exponentTooLarge places <;> simp [large, decimalOf_spelled, digits, decimal]

/-- A token has its canonical form exactly if it is readable. -/
theorem canonical_iff : token.Canonical ↔ token.Readable := by
  have ofDecimal : ∀ decimal, numericDecimal token.chars = some decimal →
      decimal.value = token.value → ∃ result, canonicalizeNumeric token.chars = some result ∧
        numericValue result = some token.value ∧ canonicalizeNumeric result = some result := by
    intro decimal known same
    refine ⟨canonicalText decimal, ?_, ?_, ?_⟩
    · rw [canonicalizeNumeric_eq, known]
      rfl
    · rw [numericValue_canonicalText, same]
    · rw [canonicalizeNumeric_eq, numericDecimal_canonicalText, Option.map_some,
        (canonicalText_eq_iff _ _).mpr ((value_padWhole).trans (value_normalize _))]
  unfold Readable
  cases given : token.exponent with
  | none =>
    have read := token.numericDecimal_of_plain given
    constructor
    · rintro ⟨⟨result, found, _⟩, _⟩ plus
      rw [canonicalizeNumeric_eq, read, if_pos plus] at found
      cases found
    · intro plain
      refine ⟨ofDecimal token.decimal (by rw [read, if_neg plain]) (by simp [value, given]), ?_⟩
      simp [given]
  | some exponent =>
    obtain ⟨parsed, read⟩ := token.numericDecimal_of_exponent given
    rw [parsed] at read
    constructor
    · rintro ⟨⟨result, found, _⟩, bounded⟩
      have least := bounded exponent given
      by_contra far
      have large : exponentTooLarge exponent.value = true := by
        simp only [exponentTooLarge, decide_eq_true_eq]
        omega
      rw [canonicalizeNumeric_eq, read] at found
      split at found <;> simp [large] at found
    · intro near
      simp only at near
      have small : exponentTooLarge exponent.value = false := by
        simp only [exponentTooLarge, decide_eq_false_iff_not]
        omega
      rw [if_pos (by omega)] at read
      refine ⟨ofDecimal (token.decimal.shift exponent.value) (by simp [read, small]) ?_, ?_⟩
      · simp [Decimal.value_shift, value, given]
      · rintro other same
        cases given.symm.trans same
        omega

end Token

/-- Two tokens have canonical forms, equal ones exactly if they denote one number,
exactly if both are readable. -/
theorem canonical_form_iff_readable (left right : Token) :
    (left.Canonical ∧ right.Canonical ∧
        (canonicalizeNumeric left.chars = canonicalizeNumeric right.chars ↔
          left.value = right.value)) ↔
      left.Readable ∧ right.Readable := by
  rw [← left.canonical_iff, ← right.canonical_iff, ← and_assoc]
  refine and_iff_left_of_imp fun ⟨ofLeft, ofRight⟩ => ?_
  have text : ∀ token : Token, token.Canonical → ∃ decimal,
      canonicalizeNumeric token.chars = some (canonicalText decimal) ∧
        decimal.value = token.value := by
    rintro token ⟨⟨result, found, denotes, _⟩, _⟩
    rw [canonicalizeNumeric_eq] at found ⊢
    obtain ⟨decimal, known, rfl⟩ := Option.map_eq_some_iff.mp found
    rw [numericValue_canonicalText] at denotes
    exact ⟨decimal, by rw [known]; rfl, Option.some.inj denotes⟩
  obtain ⟨first, foundLeft, sameLeft⟩ := text left ofLeft
  obtain ⟨second, foundRight, sameRight⟩ := text right ofRight
  rw [foundLeft, foundRight, Option.some.injEq, canonicalText_eq_iff, sameLeft, sameRight]

/-- The number five, with a sign. -/
def signedFive (sign : Sign) : Token where
  sign := sign
  whole := [5]
  frac := none
  nonempty := by simp
  exponent := none

/-- A plus sign and a large exponent are not read. -/
theorem plus_sign_is_not_read :
    canonicalizeNumeric (signedFive .plus).chars = none ∧
      canonicalizeNumeric (signedFive .absent).chars = some ['5'] ∧
      (signedFive .plus).value = (signedFive .absent).value ∧
      canonicalizeNumeric "1e1001".toList = none := by
  refine ⟨by decide, by decide, rfl, by decide⟩

end VaireDb.Routing
