import Mathlib.Algebra.Order.Field.Basic
import Mathlib.Data.List.DropRight
import Mathlib.Data.Nat.Digits.Lemmas
import Mathlib.Tactic.FieldSimp

/-!
# Decimal numerals

A numeral is a sign and two digit sequences around a decimal point.  Many
numerals have one value; `normalize` picks one of them: no zeros before the whole
part, none after the fraction, and no sign on zero.

`normalize_eq_iff` is the law a canonical spelling rests on: two numerals have the
same normal form exactly if they have the same value.
-/

namespace VaireDb.Lib

open List

/-- Digits, the most significant first. -/
abbrev Digits := List (Fin 10)

namespace Digits

instance : NeZero 10 := ⟨by decide⟩

def toNat (digits : Digits) : Nat :=
  Nat.ofDigits 10 (digits.reverse.map Fin.val)

@[simp] theorem toNat_nil : toNat [] = 0 := rfl

theorem vals_lt (digits : Digits) :
    ∀ digit ∈ digits.reverse.map Fin.val, digit < 10 := by
  intro digit member
  obtain ⟨source, _, rfl⟩ := mem_map.mp member
  exact source.isLt

theorem toNat_append (left right : Digits) :
    toNat (left ++ right) = toNat left * 10 ^ right.length + toNat right := by
  unfold toNat
  rw [reverse_append, map_append, Nat.ofDigits_append, length_map, length_reverse]
  ring

theorem toNat_cons (digit : Fin 10) (digits : Digits) :
    toNat (digit :: digits) = digit * 10 ^ digits.length + toNat digits := by
  have split := toNat_append [digit] digits
  simpa [toNat] using split

theorem toNat_lt (digits : Digits) : toNat digits < 10 ^ digits.length := by
  have bound := Nat.ofDigits_lt_base_pow_length (by decide) (vals_lt digits)
  simpa [toNat] using bound

@[simp] theorem toNat_replicate_zero (count : Nat) :
    toNat (replicate count 0) = 0 := by simp [toNat]

theorem toNat_eq_zero_iff {digits : Digits} :
    toNat digits = 0 ↔ ∀ digit ∈ digits, digit = 0 := by
  induction digits with
  | nil => simp
  | cons digit digits induction =>
    have positive : (10 : Nat) ^ digits.length ≠ 0 := by positivity
    rw [toNat_cons, Nat.add_eq_zero_iff, induction, forall_mem_cons,
      Nat.mul_eq_zero, or_iff_left positive, Fin.val_eq_zero_iff]

theorem eq_of_toNat_eq {left right : Digits} (sameLength : left.length = right.length)
    (sameValue : toNat left = toNat right) : left = right := by
  have vals := Nat.ofDigits_inj_of_len_eq (by decide) (by simpa using sameLength)
    (vals_lt left) (vals_lt right) sameValue
  have reversed := map_injective_iff.mpr Fin.val_injective vals
  exact reverse_injective reversed

/-- No zero before the first significant digit. -/
def Trimmed (digits : Digits) : Prop := digits.head? ≠ some 0

theorem eq_of_trimmed {left right : Digits} (leftTrimmed : Trimmed left)
    (rightTrimmed : Trimmed right) (sameValue : toNat left = toNat right) :
    left = right := by
  have restored : ∀ digits : Digits, Trimmed digits →
      Nat.digits 10 (toNat digits) = digits.reverse.map Fin.val := by
    intro digits trimmed
    refine Nat.digits_ofDigits 10 (by decide) _ (vals_lt digits) ?_
    intro nonempty last
    cases digits with
    | nil => exact nonempty rfl
    | cons digit digits =>
      simp only [reverse_cons, map_append, map_cons, map_nil, getLast_append_singleton] at last
      exact trimmed (by simp [Fin.ext_iff, last])
  have vals : left.reverse.map Fin.val = right.reverse.map Fin.val := by
    rw [← restored left leftTrimmed, ← restored right rightTrimmed, sameValue]
  exact reverse_injective (map_injective_iff.mpr Fin.val_injective vals)

theorem toNat_dropWhile_zero {digits : Digits} :
    toNat (digits.dropWhile (· = 0)) = toNat digits := by
  induction digits with
  | nil => rfl
  | cons digit digits induction =>
    by_cases zero : digit = 0
    · simp [zero, toNat_cons, induction]
    · simp [zero]

theorem trimmed_dropWhile_zero (digits : Digits) :
    Trimmed (digits.dropWhile (· = 0)) := by
  intro head
  have kept := head?_dropWhile_not (fun digit : Fin 10 => decide (digit = 0)) digits
  rw [head] at kept
  simp at kept

end Digits

/-- A numeral with a decimal point. -/
structure Decimal where
  neg : Bool
  whole : Digits
  frac : Digits
  deriving DecidableEq

namespace Decimal

def mantissa (decimal : Decimal) : Nat :=
  Digits.toNat (decimal.whole ++ decimal.frac)

def magnitude (decimal : Decimal) : ℚ :=
  decimal.mantissa / 10 ^ decimal.frac.length

def value (decimal : Decimal) : ℚ :=
  if decimal.neg then -decimal.magnitude else decimal.magnitude

/-- The numeral without superfluous zeros and signs. -/
def normalize (decimal : Decimal) : Decimal :=
  let whole := decimal.whole.dropWhile (· = 0)
  let frac := decimal.frac.rdropWhile (· = 0)
  { neg := decimal.neg && !(whole.isEmpty && frac.isEmpty)
    whole := whole
    frac := frac }

/-- No superfluous zeros and signs. -/
structure Normal (decimal : Decimal) : Prop where
  whole : Digits.Trimmed decimal.whole
  frac : decimal.frac.getLast? ≠ some 0
  sign : decimal.neg = true → decimal.whole ≠ [] ∨ decimal.frac ≠ []

theorem frac_eq_append (frac : Digits) :
    ∃ count, frac = frac.rdropWhile (· = 0) ++ replicate count 0 := by
  induction frac using reverseRecOn with
  | nil => exact ⟨0, rfl⟩
  | append_singleton digits digit induction =>
    obtain ⟨count, known⟩ := induction
    by_cases zero : digit = 0
    · refine ⟨count + 1, ?_⟩
      rw [rdropWhile_concat_pos _ _ _ (by simpa using zero), zero,
        replicate_succ', ← append_assoc, ← known]
    · refine ⟨0, ?_⟩
      rw [rdropWhile_concat_neg _ _ _ (by simpa using zero)]
      simp

theorem normal_normalize {decimal : Decimal} : decimal.normalize.Normal where
  whole := Digits.trimmed_dropWhile_zero decimal.whole
  frac := by
    intro last
    by_cases empty : decimal.normalize.frac = []
    · rw [empty] at last
      cases last
    · rw [getLast?_eq_some_getLast empty, Option.some.injEq] at last
      have kept := rdropWhile_last_not (fun digit : Fin 10 => decide (digit = 0)) decimal.frac empty
      exact kept (decide_eq_true last)
  sign := by
    intro negative
    by_contra zero
    simp only [not_or, not_not] at zero
    simp only [normalize] at negative zero
    simp [zero] at negative

theorem magnitude_normalize (decimal : Decimal) :
    decimal.normalize.magnitude = decimal.magnitude := by
  obtain ⟨count, known⟩ := frac_eq_append decimal.frac
  have zeros : decimal.mantissa = decimal.normalize.mantissa * 10 ^ count := by
    unfold mantissa
    rw [Digits.toNat_append, Digits.toNat_append]
    conv_lhs => rw [known]
    rw [Digits.toNat_append, length_append, length_replicate,
      Digits.toNat_replicate_zero, ← Digits.toNat_dropWhile_zero]
    simp only [normalize]
    ring
  have lengths : decimal.frac.length =
      decimal.normalize.frac.length + count := by
    conv_lhs => rw [known]
    simp [normalize]
  unfold magnitude
  rw [zeros, lengths, pow_add]
  push_cast
  field_simp

variable {decimal : Decimal}

/-- The digits of a numeral are zero only if its normal form has none. -/
theorem Normal.empty_of_mantissa_eq_zero (normal : decimal.Normal) (zero : decimal.mantissa = 0) :
    decimal.whole = [] ∧ decimal.frac = [] := by
  have zeros := (Digits.toNat_eq_zero_iff).mp zero
  rw [forall_mem_append] at zeros
  constructor
  · cases known : decimal.whole with
    | nil => rfl
    | cons digit digits =>
      refine (normal.whole ?_).elim
      rw [known, zeros.1 digit (by simp [known])]
      rfl
  · by_contra nonempty
    apply normal.frac
    rw [getLast?_eq_some_getLast nonempty, zeros.2 _ (getLast_mem nonempty)]

theorem magnitude_eq_zero_iff :
    decimal.magnitude = 0 ↔ decimal.mantissa = 0 := by
  unfold magnitude
  simp

theorem magnitude_nonneg (decimal : Decimal) : 0 ≤ decimal.magnitude := by
  unfold magnitude
  positivity

theorem value_normalize (decimal : Decimal) :
    decimal.normalize.value = decimal.value := by
  unfold value
  rw [magnitude_normalize]
  by_cases zero : decimal.normalize.whole = [] ∧ decimal.normalize.frac = []
  · have nothing : decimal.magnitude = 0 := by
      rw [← magnitude_normalize, magnitude_eq_zero_iff]
      simp [mantissa, zero]
    simp [nothing]
  · have sign : decimal.normalize.neg = decimal.neg := by
      simp only [normalize] at zero ⊢
      cases decimal.neg with
      | false => rfl
      | true =>
        simp only [Bool.true_and, Bool.not_eq_true', Bool.and_eq_false_imp, List.isEmpty_iff]
        intro whole
        simpa [whole] using zero
    rw [sign]

theorem Normal.neg_eq_false (normal : decimal.Normal)
    (whole : decimal.whole = []) (frac : decimal.frac = []) :
    decimal.neg = false := by
  cases sign : decimal.neg with
  | false => rfl
  | true => exact ((normal.sign sign).elim (· whole) (· frac)).elim

variable {left right : Decimal}

theorem Normal.frac_length_le (normal : right.Normal)
    (cross : left.mantissa * 10 ^ right.frac.length =
      right.mantissa * 10 ^ left.frac.length) :
    right.frac.length ≤ left.frac.length := by
  by_contra longer
  obtain ⟨extra, lengths⟩ : ∃ extra,
      right.frac.length = left.frac.length + (extra + 1) :=
    ⟨right.frac.length - left.frac.length - 1, by omega⟩
  have scaled : left.mantissa * 10 ^ (extra + 1) = right.mantissa := by
    rw [lengths, pow_add, mul_comm (10 ^ left.frac.length), ← mul_assoc] at cross
    exact Nat.eq_of_mul_eq_mul_right (by positivity) cross
  have nonempty : right.frac ≠ [] := by
    intro empty
    rw [empty] at lengths
    simp at lengths
  have split := dropLast_append_getLast nonempty
  have digits : right.mantissa = Digits.toNat (right.whole ++ right.frac.dropLast) * 10 +
        right.frac.getLast nonempty := by
    have whole : right.whole ++ right.frac =
        (right.whole ++ right.frac.dropLast) ++ [right.frac.getLast nonempty] := by
      rw [append_assoc, split]
    rw [mantissa, whole, Digits.toNat_append]
    simp [Digits.toNat]
  have small := (right.frac.getLast nonempty).isLt
  have zero : (right.frac.getLast nonempty).val = 0 := by
    rw [pow_succ, ← mul_assoc] at scaled
    omega
  apply normal.frac
  rw [getLast?_eq_some_getLast nonempty]
  exact congrArg some (Fin.ext zero)

theorem Normal.digits_eq (leftNormal : left.Normal) (rightNormal : right.Normal)
    (same : left.magnitude = right.magnitude) :
    left.whole = right.whole ∧ left.frac = right.frac := by
  have cross : left.mantissa * 10 ^ right.frac.length =
      right.mantissa * 10 ^ left.frac.length := by
    unfold magnitude at same
    rw [div_eq_div_iff (by positivity) (by positivity)] at same
    exact_mod_cast same
  have lengths : left.frac.length = right.frac.length :=
    Nat.le_antisymm (leftNormal.frac_length_le cross.symm) (rightNormal.frac_length_le cross)
  rw [lengths] at cross
  have mantissas := Nat.eq_of_mul_eq_mul_right (by positivity) cross
  unfold mantissa at mantissas
  rw [Digits.toNat_append, Digits.toNat_append, lengths] at mantissas
  have leftBound := Digits.toNat_lt left.frac
  have rightBound := Digits.toNat_lt right.frac
  rw [lengths] at leftBound
  have fracs : Digits.toNat left.frac = Digits.toNat right.frac := by
    have remainders := congrArg (· % 10 ^ right.frac.length) mantissas
    simpa [Nat.mul_add_mod_of_lt leftBound, Nat.mul_add_mod_of_lt rightBound,
      Nat.mod_eq_of_lt leftBound, Nat.mod_eq_of_lt rightBound] using remainders
  have wholes : Digits.toNat left.whole = Digits.toNat right.whole := by
    rw [fracs] at mantissas
    exact Nat.eq_of_mul_eq_mul_right (by positivity)
      (Nat.add_right_cancel mantissas)
  exact ⟨Digits.eq_of_trimmed leftNormal.whole rightNormal.whole wholes,
    Digits.eq_of_toNat_eq lengths fracs⟩

theorem Normal.eq_of_value_eq (leftNormal : left.Normal) (rightNormal : right.Normal)
    (same : left.value = right.value) :
    left = right := by
  have unsigned : left.magnitude = right.magnitude := by
    have leftNonneg := left.magnitude_nonneg
    have rightNonneg := right.magnitude_nonneg
    unfold value at same
    split at same <;> split at same <;> linarith
  obtain ⟨wholes, fracs⟩ := leftNormal.digits_eq rightNormal unsigned
  have signs : left.neg = right.neg := by
    by_contra different
    have zero : left.magnitude = 0 := by
      unfold value at same
      rw [← unsigned, Bool.eq_not_of_ne different] at same
      cases sign : right.neg with
      | false =>
        simp only [sign, Bool.not_false, if_true, Bool.false_eq_true, if_false] at same
        linarith
      | true =>
        simp only [sign, Bool.not_true, if_true, Bool.false_eq_true, if_false] at same
        linarith
    have empty := leftNormal.empty_of_mantissa_eq_zero (magnitude_eq_zero_iff.mp zero)
    apply different
    rw [leftNormal.neg_eq_false empty.1 empty.2,
      rightNormal.neg_eq_false (wholes ▸ empty.1) (fracs ▸ empty.2)]
  obtain ⟨leftNeg, leftWhole, leftFrac⟩ := left
  simp only at signs wholes fracs
  rw [signs, wholes, fracs]

/-- Two numerals have the same normal form exactly if they have the same value. -/
theorem normalize_eq_iff (left right : Decimal) :
    left.normalize = right.normalize ↔ left.value = right.value := by
  constructor
  · intro same
    rw [← value_normalize left, ← value_normalize right, same]
  · intro same
    apply (normal_normalize).eq_of_value_eq (normal_normalize)
    rw [value_normalize, value_normalize, same]

/-- Move the point by `exponent` places to the right. -/
def shift (decimal : Decimal) (exponent : Int) : Decimal :=
  let digits := decimal.whole ++ decimal.frac
  let point : Int := decimal.whole.length + exponent
  if point ≤ 0 then
    { neg := decimal.neg
      whole := [0]
      frac := List.replicate (-point).toNat 0 ++ digits }
  else if (digits.length : Int) ≤ point then
    { neg := decimal.neg
      whole := digits ++ List.replicate (point - digits.length).toNat 0
      frac := [] }
  else
    { neg := decimal.neg
      whole := digits.take point.toNat
      frac := digits.drop point.toNat }

theorem magnitude_of_scaled {decimal moved : Decimal} {exponent : Int}
    (zeros : Nat) (scaled : moved.mantissa = decimal.mantissa * 10 ^ zeros)
    (places : (zeros : Int) - moved.frac.length = exponent - decimal.frac.length) :
    moved.magnitude = decimal.magnitude * 10 ^ exponent := by
  have ten : (10 : ℚ) ≠ 0 := by norm_num
  have asPower : ∀ other : Decimal, other.magnitude =
      other.mantissa * (10 : ℚ) ^ (-(other.frac.length : Int)) := by
    intro other
    rw [magnitude, zpow_neg, zpow_natCast, div_eq_mul_inv]
  rw [asPower moved, asPower decimal, scaled]
  push_cast
  rw [mul_assoc, mul_assoc, ← zpow_natCast (10 : ℚ) zeros, ← zpow_add₀ ten, ← zpow_add₀ ten]
  congr 2
  omega

theorem magnitude_shift (decimal : Decimal) (exponent : Int) :
    (decimal.shift exponent).magnitude = decimal.magnitude * 10 ^ exponent := by
  have digitCount : (decimal.whole ++ decimal.frac).length =
      decimal.whole.length + decimal.frac.length := length_append
  unfold shift
  simp only
  split
  · rename_i before
    refine magnitude_of_scaled 0 ?_ ?_
    · simp only [mantissa]
      rw [Digits.toNat_append, Digits.toNat_append, Digits.toNat_replicate_zero]
      simp [Digits.toNat]
    · simp only [length_append, length_replicate]
      omega
  · split
    · rename_i behind
      refine magnitude_of_scaled (decimal.whole.length + exponent -
          (decimal.whole ++ decimal.frac).length).toNat ?_ ?_
      · simp only [mantissa, append_nil]
        rw [Digits.toNat_append, Digits.toNat_replicate_zero, length_replicate, Nat.add_zero]
      · simp only [length_nil]
        omega
    · rename_i inside
      refine magnitude_of_scaled 0 ?_ ?_
      · simp only [mantissa, take_append_drop]
        ring
      · rw [length_drop]
        omega

theorem value_shift (decimal : Decimal) (exponent : Int) :
    (decimal.shift exponent).value = decimal.value * 10 ^ exponent := by
  have sign : (decimal.shift exponent).neg = decimal.neg := by
    unfold shift
    simp only
    split
    · rfl
    · split <;> rfl
  unfold value
  rw [sign, magnitude_shift]
  split
  · ring
  · rfl

end Decimal

end VaireDb.Lib
