import WasmLowering.Decimal.FloatBits
import WasmLowering.Proofs.Constants.DecimalRounding

/-! The numbers that floating-point bit patterns stand for, and how far apart they are.

A finite pattern is an integer significand times a power of two. Two different numbers are
therefore at least one unit of the smaller of their last places apart, and a significand has
only so many units. So the distance of a number to any other one is large in comparison with the
number itself, and a decimal with enough digits is nearest to the number that it was written for. -/

namespace WasmLowering.Decimal.FloatFormat

section

variable (format : FloatFormat) (bits : Nat)

def bias : Nat := 2 ^ (format.exponentBits - 1) - 1

def width : Nat := 1 + format.exponentBits + format.fractionBits

def IsFinite : Prop := format.biased bits ≠ format.topBiased

instance : Decidable (format.IsFinite bits) := inferInstanceAs (Decidable (_ ≠ _))

def sign : ℚ := if format.isNegative bits then -1 else 1

/-- The exact number that a finite bit pattern stands for. The fraction follows a one, but in
the subnormal numbers a zero. -/
def value : ℚ :=
  format.sign bits *
    if format.biased bits = 0 then
      (format.fraction bits / 2 ^ format.fractionBits : ℚ) * 2 ^ (1 - format.bias : Int)
    else
      (1 + format.fraction bits / 2 ^ format.fractionBits : ℚ) *
        2 ^ (format.biased bits - format.bias : Int)

/-- The finite number of the format that is strictly nearest to a number. -/
def IsNearest (number : ℚ) : Prop :=
  ∀ other < 2 ^ format.width, format.IsFinite other →
    format.value other ≠ format.value bits →
      |number - format.value bits| < |number - format.value other|

/-! ## Fields -/

theorem fraction_lt : format.fraction bits < 2 ^ format.fractionBits :=
  Nat.mod_lt _ (Nat.two_pow_pos _)

theorem significand_lt : format.significand bits < 2 ^ (format.fractionBits + 1) := by
  have small := format.fraction_lt bits
  rw [significand, Nat.pow_eq, Nat.pow_succ]
  split <;> omega

theorem le_significand (normal : format.biased bits ≠ 0) :
    2 ^ format.fractionBits ≤ format.significand bits := by
  rw [significand, if_neg normal]
  exact Nat.le_add_right _ _

theorem significand_eq_zero_iff :
    format.significand bits = 0 ↔ format.biased bits = 0 ∧ format.fraction bits = 0 := by
  have power := Nat.two_pow_pos format.fractionBits
  rw [significand, Nat.pow_eq]
  split <;> omega

end

section

variable {format : FloatFormat} {bits other : Nat}

theorem eq_of_fields (bound : bits < 2 ^ format.width) (otherBound : other < 2 ^ format.width)
    (sameSign : format.isNegative bits = format.isNegative other)
    (sameBiased : format.biased bits = format.biased other)
    (sameFraction : format.fraction bits = format.fraction other) : bits = other := by
  have split : ∀ pattern < 2 ^ format.width,
      pattern = 2 ^ format.fractionBits * (2 ^ format.exponentBits *
        (format.isNegative pattern).toNat + format.biased pattern) + format.fraction pattern := by
    intro pattern isPattern
    have isSign : (format.isNegative pattern).toNat =
        pattern / 2 ^ format.fractionBits / 2 ^ format.exponentBits := by
      rw [width, Nat.add_assoc, Nat.add_comm, Nat.pow_succ, Nat.add_comm] at isPattern
      have atMostOne := Nat.div_lt_of_lt_mul isPattern
      rw [isNegative, Nat.pow_eq, Nat.div_div_eq_div_mul, ← Nat.pow_add]
      generalize pattern / 2 ^ (format.fractionBits + format.exponentBits) = sign at *
      rcases Nat.le_one_iff_eq_zero_or_eq_one.mp (Nat.le_of_lt_succ atMostOne) with rfl | rfl <;>
        rfl
    rw [isSign, biased, fraction, Nat.pow_eq, Nat.pow_eq, Nat.div_add_mod, Nat.div_add_mod]
  rw [split bits bound, split other otherBound, sameSign, sameBiased, sameFraction]

end

/-! ## Values -/

section

variable (format : FloatFormat) (bits : Nat)

def signedSignificand : Int :=
  if format.isNegative bits then -(format.significand bits : Int) else format.significand bits

theorem abs_signedSignificand :
    |format.signedSignificand bits| = (format.significand bits : Int) := by
  rw [signedSignificand]
  split <;> simp

theorem value_eq :
    format.value bits = format.signedSignificand bits * 2 ^ format.scaleExponent bits := by
  have isPower : (2 : ℚ) ^ format.fractionBits ≠ 0 := by positivity
  have isScale : (2 : ℚ) ^ format.scaleExponent bits =
      2 ^ ((max (format.biased bits) 1 : Nat) - format.bias : Int) / 2 ^ format.fractionBits := by
    rw [← zpow_natCast, ← zpow_sub₀ (by norm_num)]
    rfl
  have isSigned : (format.signedSignificand bits : ℚ) =
      format.sign bits * format.significand bits := by
    rw [signedSignificand, sign]
    split <;> simp
  rw [isSigned, isScale, value, significand, mul_assoc]
  congr 1
  split
  · next subnormal =>
      rw [subnormal, Nat.max_eq_right (Nat.zero_le 1), Nat.cast_one]
      ring
  · next normal =>
      have isBiased : max (format.biased bits) 1 = format.biased bits :=
        Nat.max_eq_left (Nat.pos_of_ne_zero normal)
      rw [isBiased, Nat.pow_eq]
      push_cast
      field_simp

theorem abs_value :
    |format.value bits| = format.significand bits * 2 ^ format.scaleExponent bits := by
  have isScale : (0 : ℚ) < 2 ^ format.scaleExponent bits := by positivity
  rw [value_eq, abs_mul, abs_of_pos isScale, ← Int.cast_abs, abs_signedSignificand]
  rfl

theorem abs_sign : |format.sign bits| = 1 := by
  rw [sign]
  split <;> simp

theorem value_eq_sign_mul_abs :
    format.value bits = format.sign bits * |format.value bits| := by
  rw [abs_value, value_eq, signedSignificand, sign]
  split <;> simp

theorem magnitude_div :
    ((format.magnitude bits).1 : ℚ) / (format.magnitude bits).2 = |format.value bits| := by
  have power := pow_toNat_div (show 0 < 2 by decide) (format.scaleExponent bits)
  rw [Nat.cast_ofNat] at power
  rw [abs_value, magnitude, binaryFraction, ← power, Nat.pow_eq, Nat.pow_eq, Nat.cast_mul,
    mul_div_assoc]

theorem magnitude_pos : 0 < (format.magnitude bits).2 := Nat.two_pow_pos _

theorem magnitude_eq_zero_iff :
    (format.magnitude bits).1 = 0 ↔ format.significand bits = 0 := by
  rw [magnitude, binaryFraction, Nat.mul_eq_zero]
  have power := Nat.two_pow_pos (format.scaleExponent bits).toNat
  exact or_iff_left power.ne'

theorem value_eq_zero_iff : format.value bits = 0 ↔ format.significand bits = 0 := by
  rw [← abs_eq_zero, abs_value, mul_eq_zero, Nat.cast_eq_zero]
  exact or_iff_left (by positivity)

end

/-! ## Distances -/

section

variable {format : FloatFormat} {bits other : Nat}

/-- Integers are one apart at least. So only a large one can be far away from zero in comparison
with its distance to a small one. -/
theorem abs_le_mul_abs_sub {units left right : Int} (different : right ≠ left)
    (small : |left| < units ∨ |right| < units) : |left| ≤ units * |right - left| := by
  have apart : 1 ≤ |right - left| := Int.one_le_abs (sub_ne_zero.mpr different)
  have positive : 0 < units := by
    rcases small with isSmall | isSmall <;> exact lt_of_le_of_lt (abs_nonneg _) isSmall
  rcases lt_or_ge |left| units with leftSmall | leftLarge
  · calc |left| ≤ units * 1 := by rw [mul_one]; exact leftSmall.le
      _ ≤ units * |right - left| := mul_le_mul_of_nonneg_left apart positive.le
  · have rightSmall : |right| < units := small.resolve_left (not_lt.mpr leftLarge)
    have distance : |left| - |right| ≤ |right - left| := by
      rw [abs_sub_comm]
      exact abs_sub_abs_le_abs_sub left right
    have beyond : |left| - units + 1 ≤ |right - left| := by linarith
    have product : 0 ≤ (units - 1) * (|left| - units) :=
      mul_nonneg (by linarith) (by linarith)
    calc |left| ≤ units * (|left| - units + 1) := by linarith
      _ ≤ units * |right - left| := mul_le_mul_of_nonneg_left beyond positive.le

theorem abs_value_le (different : format.value other ≠ format.value bits) :
    |format.value bits| ≤
      2 ^ (format.fractionBits + 1) * |format.value other - format.value bits| := by
  -- Both numbers in units of the smaller last place.
  have inUnits : ∀ pattern, ∀ unit ≤ format.scaleExponent pattern, format.value pattern =
      (format.signedSignificand pattern * 2 ^ (format.scaleExponent pattern - unit).toNat : Int) *
        2 ^ unit := by
    intro pattern unit least
    have isScale : format.scaleExponent pattern =
        (format.scaleExponent pattern - unit).toNat + unit := by omega
    rw [value_eq]
    conv_lhs => rw [isScale, zpow_add₀ (by norm_num), zpow_natCast, ← mul_assoc]
    push_cast
    rfl
  have isSmall : ∀ pattern, ∀ unit, format.scaleExponent pattern = unit →
      |format.signedSignificand pattern * 2 ^ (format.scaleExponent pattern - unit).toNat| <
        2 ^ (format.fractionBits + 1) := by
    intro pattern unit isUnit
    rw [isUnit, sub_self, Int.toNat_zero, pow_zero, mul_one, abs_signedSignificand]
    exact_mod_cast format.significand_lt pattern
  have small := (Int.le_total (format.scaleExponent bits) (format.scaleExponent other)).imp
    (fun less => isSmall bits _ (min_eq_left less).symm)
    (fun less => isSmall other _ (min_eq_right less).symm)
  have inThis := inUnits bits _ (min_le_left _ (format.scaleExponent other))
  have inOther := inUnits other _ (min_le_right (format.scaleExponent bits) _)
  generalize min (format.scaleExponent bits) (format.scaleExponent other) = unit at *
  have isUnit : (0 : ℚ) < 2 ^ unit := by positivity
  generalize format.signedSignificand bits * _ = left at *
  generalize format.signedSignificand other * _ = right at *
  rw [inThis, inOther] at different ⊢
  have apart : right ≠ left := by
    rintro rfl
    exact different rfl
  have integers := abs_le_mul_abs_sub apart small
  have integral : |(left : ℚ)| ≤ 2 ^ (format.fractionBits + 1) * |(right : ℚ) - left| := by
    exact_mod_cast integers
  rw [← sub_mul, abs_mul, abs_mul, abs_of_pos isUnit, ← mul_assoc]
  exact mul_le_mul_of_nonneg_right integral isUnit.le

/-- A decimal that is near a number in proportion to it is nearest to that one. -/
theorem isNearest_of_abs_sub_le {number : ℚ} {less : Nat}
    (enough : 2 ^ (format.fractionBits + 1) < 10 ^ less)
    (near : |number - format.value bits| ≤ |format.value bits| / (2 * 10 ^ less)) :
    format.IsNearest bits number := by
  intro other _ _ different
  have spaced := abs_value_le different
  have isPower : (2 : ℚ) ^ (format.fractionBits + 1) < 10 ^ less := by exact_mod_cast enough
  have apart : 0 < |format.value other - format.value bits| :=
    abs_pos.mpr (sub_ne_zero.mpr different)
  have half : 2 * |number - format.value bits| < |format.value other - format.value bits| := by
    have positive : (0 : ℚ) < 2 * 10 ^ less := by positivity
    rw [le_div_iff₀ positive] at near
    refine lt_of_mul_lt_mul_right ?_ (show (0 : ℚ) ≤ 10 ^ less by positivity)
    calc 2 * |number - format.value bits| * 10 ^ less
        = |number - format.value bits| * (2 * 10 ^ less) := by ring
      _ ≤ |format.value bits| := near
      _ ≤ 2 ^ (format.fractionBits + 1) * |format.value other - format.value bits| := spaced
      _ < 10 ^ less * |format.value other - format.value bits| :=
          mul_lt_mul_of_pos_right isPower apart
      _ = |format.value other - format.value bits| * 10 ^ less := mul_comm _ _
  have triangle := abs_sub_le (format.value other) number (format.value bits)
  rw [abs_sub_comm (format.value other) number] at triangle
  linarith

/-- A number has only one place for its last digit: with a larger one its significand would be
too long elsewhere. -/
theorem scaleExponent_le (same : format.value bits = format.value other) :
    format.scaleExponent other ≤ format.scaleExponent bits := by
  by_contra less
  have larger : format.scaleExponent bits < format.scaleExponent other := lt_of_not_ge less
  have normal : format.biased other ≠ 0 := by
    intro subnormal
    rw [scaleExponent, scaleExponent, subnormal] at larger
    omega
  have isScale : format.scaleExponent other =
      (format.scaleExponent other - format.scaleExponent bits).toNat +
        format.scaleExponent bits := by omega
  have isUnit : (2 : ℚ) ^ format.scaleExponent bits ≠ 0 := by positivity
  have values : (format.significand bits : ℚ) * 2 ^ format.scaleExponent bits =
      format.significand other * 2 ^ format.scaleExponent other := by
    rw [← abs_value, ← abs_value, same]
  rw [isScale, zpow_add₀ (by norm_num), zpow_natCast, ← mul_assoc] at values
  have significands : format.significand bits = format.significand other *
      2 ^ (format.scaleExponent other - format.scaleExponent bits).toNat := by
    exact_mod_cast mul_right_cancel₀ isUnit values
  have isPositive : 1 ≤ (format.scaleExponent other - format.scaleExponent bits).toNat := by omega
  have tooLong : 2 ^ format.fractionBits * 2 ^ 1 ≤ format.significand bits := by
    rw [significands]
    exact Nat.mul_le_mul (format.le_significand other normal)
      (Nat.pow_le_pow_right (by decide) isPositive)
  exact absurd (format.significand_lt bits) (Nat.not_lt.mpr tooLong)

theorem isNegative_iff (nonzero : format.value bits ≠ 0) :
    format.isNegative bits = true ↔ format.value bits < 0 := by
  have positive := abs_pos.mpr nonzero
  rw [value_eq_sign_mul_abs, sign]
  split
  · next negative => exact iff_of_true negative (by linarith)
  · next nonnegative => exact iff_of_false nonnegative (by linarith)

theorem eq_of_value_eq (bound : bits < 2 ^ format.width) (otherBound : other < 2 ^ format.width)
    (same : format.value bits = format.value other)
    (zeroSigns : format.value bits = 0 → format.isNegative bits = format.isNegative other) :
    bits = other := by
  have isScale := Int.le_antisymm (scaleExponent_le same.symm) (scaleExponent_le same)
  have isUnit : (2 : ℚ) ^ format.scaleExponent other ≠ 0 := by positivity
  have significands : format.significand bits = format.significand other := by
    have values := congrArg abs same
    rw [abs_value, abs_value, isScale] at values
    exact_mod_cast mul_right_cancel₀ isUnit values
  have fields : format.biased bits = format.biased other ∧
      format.fraction bits = format.fraction other := by
    have small := format.fraction_lt bits
    have otherSmall := format.fraction_lt other
    rw [scaleExponent, scaleExponent] at isScale
    rw [significand, significand, Nat.pow_eq] at significands
    split at significands <;> split at significands <;> omega
  have signs : format.isNegative bits = format.isNegative other := by
    rcases eq_or_ne (format.value bits) 0 with isZero | nonzero
    · exact zeroSigns isZero
    · rw [Bool.eq_iff_iff, isNegative_iff nonzero, isNegative_iff (same ▸ nonzero), same]
  exact eq_of_fields bound otherBound signs fields.1 fields.2

/-- A number that is nearest to two bit patterns shows that both have the same value. -/
theorem IsNearest.value_eq {number : ℚ} (nearest : format.IsNearest bits number)
    (otherNearest : format.IsNearest other number) (bound : bits < 2 ^ format.width)
    (otherBound : other < 2 ^ format.width) (finite : format.IsFinite bits)
    (otherFinite : format.IsFinite other) : format.value bits = format.value other := by
  by_contra different
  have nearer := nearest other otherBound otherFinite (Ne.symm different)
  have further := otherNearest bits bound finite different
  exact lt_asymm nearer further

end

end WasmLowering.Decimal.FloatFormat
