import Mathlib.Algebra.Order.Field.Power
import Mathlib.Data.List.TakeWhile
import Mathlib.Tactic.Linarith
import Mathlib.Tactic.Positivity
import WasmLowering.Proofs.Constants.DecimalReading

/-! How far a rounded number is from the fraction that it stands for.

The leading exponent brings a fraction between two powers of ten, so rounding to whole units
of the last digit leaves a coefficient with just the digits asked for, or the power of ten above
them. Either way the error is half a unit at most, which is small in comparison with the
fraction. -/

namespace WasmLowering.Decimal

/-! ## Numbers of digits -/

theorem lt_pow_digitCount (value : Nat) : value < 10 ^ digitCount value :=
  (Nat.length_toDigits_le_iff (by decide) Nat.length_toDigits_pos).mp (Nat.le_refl _)

theorem digitCount_eq {value less : Nat} (least : 10 ^ less ≤ value)
    (bound : value < 10 ^ (less + 1)) : digitCount value = less + 1 := by
  have atMost : digitCount value ≤ less + 1 :=
    (Nat.length_toDigits_le_iff (by decide) (Nat.succ_pos less)).mpr bound
  have moreThan : 10 ^ less < 10 ^ digitCount value :=
    Nat.lt_of_le_of_lt least (lt_pow_digitCount value)
  have atLeast := (Nat.pow_lt_pow_iff_right (by decide)).mp moreThan
  exact Nat.le_antisymm atMost atLeast

theorem pow_digitCount_le {value : Nat} (positive : 0 < value) :
    10 ^ (digitCount value - 1) ≤ value := by
  by_contra small
  cases isCount : digitCount value - 1 with
  | zero =>
      rw [isCount] at small
      omega
  | succ less =>
      rw [isCount] at small
      have shorter : digitCount value ≤ less + 1 :=
        (Nat.length_toDigits_le_iff (by decide) (Nat.succ_pos less)).mpr (Nat.lt_of_not_le small)
      omega

/-! ## Fractions -/

section

variable {numerator denominator : Nat}

theorem pow_toNat_div {base : Nat} (positive : 0 < base) (exponent : Int) :
    ((base ^ exponent.toNat : Nat) : ℚ) / (base ^ (-exponent).toNat : Nat) = base ^ exponent := by
  have nonzero : (base : ℚ) ≠ 0 := by positivity
  rcases Int.le_total 0 exponent with nonnegative | negative
  · have noDivisor : (-exponent).toNat = 0 := Int.toNat_of_nonpos (by omega)
    rw [noDivisor, Nat.pow_zero, Nat.cast_one, div_one, Nat.cast_pow, ← zpow_natCast,
      Int.toNat_of_nonneg nonnegative]
  · rw [Int.toNat_of_nonpos negative, Nat.pow_zero, Nat.cast_one, one_div, Nat.cast_pow,
      ← zpow_natCast, Int.toNat_of_nonneg (by omega), zpow_neg, inv_inv]

theorem scale_div (numerator denominator : Nat) (exponent : Int) :
    ((scale numerator denominator exponent).1 : ℚ) / (scale numerator denominator exponent).2 =
      numerator / denominator * 10 ^ exponent := by
  have power := pow_toNat_div (show 0 < 10 by decide) exponent
  rw [Nat.cast_ofNat] at power
  rw [scale, ← power, Nat.pow_eq, Nat.pow_eq, Nat.cast_mul, Nat.cast_mul, mul_div_mul_comm]

theorem scale_pos (numerator : Nat) (positive : 0 < denominator) (exponent : Int) :
    0 < (scale numerator denominator exponent).2 :=
  Nat.mul_pos positive (Nat.pow_pos (by decide))

theorem fraction_bounds (isNumerator : 0 < numerator) (isDenominator : 0 < denominator) :
    (10 : ℚ) ^ ((digitCount numerator : Int) - digitCount denominator - 1) ≤
        numerator / denominator ∧
      (numerator : ℚ) / denominator <
        10 ^ ((digitCount numerator : Int) - digitCount denominator + 1) := by
  have numeratorDigits : 0 < digitCount numerator := Nat.length_toDigits_pos
  have denominatorDigits : 0 < digitCount denominator := Nat.length_toDigits_pos
  have numeratorLeast : (10 : ℚ) ^ (digitCount numerator - 1) ≤ numerator := by
    exact_mod_cast pow_digitCount_le isNumerator
  have numeratorBound : (numerator : ℚ) < 10 ^ digitCount numerator := by
    exact_mod_cast lt_pow_digitCount numerator
  have denominatorLeast : (10 : ℚ) ^ (digitCount denominator - 1) ≤ denominator := by
    exact_mod_cast pow_digitCount_le isDenominator
  have denominatorBound : (denominator : ℚ) < 10 ^ digitCount denominator := by
    exact_mod_cast lt_pow_digitCount denominator
  have positive : (0 : ℚ) < denominator := by exact_mod_cast isDenominator
  have least : (10 : ℚ) ^ ((digitCount numerator : Int) - digitCount denominator - 1) =
      10 ^ (digitCount numerator - 1) / 10 ^ digitCount denominator := by
    rw [← zpow_natCast, ← zpow_natCast, ← zpow_sub₀ (by norm_num)]
    congr 1
    omega
  have bound : (10 : ℚ) ^ ((digitCount numerator : Int) - digitCount denominator + 1) =
      10 ^ digitCount numerator / 10 ^ (digitCount denominator - 1) := by
    rw [← zpow_natCast, ← zpow_natCast, ← zpow_sub₀ (by norm_num)]
    congr 1
    omega
  rw [least, bound]
  constructor
  · exact div_le_div₀ numerator.cast_nonneg numeratorLeast positive denominatorBound.le
  · exact div_lt_div₀ numeratorBound denominatorLeast (by positivity) (by positivity)

theorem leadingExponent_spec (isNumerator : 0 < numerator) (isDenominator : 0 < denominator) :
    (10 : ℚ) ^ leadingExponent numerator denominator ≤ numerator / denominator ∧
      (numerator : ℚ) / denominator < 10 ^ (leadingExponent numerator denominator + 1) := by
  rcases fraction_bounds isNumerator isDenominator with ⟨least, bound⟩
  unfold leadingExponent
  dsimp only
  generalize ((digitCount numerator : Int) - digitCount denominator) = estimate at *
  have unitPositive : 0 < (scale numerator denominator (-estimate)).2 :=
    scale_pos numerator isDenominator _
  have isUnit : (0 : ℚ) < (scale numerator denominator (-estimate)).2 := by
    exact_mod_cast unitPositive
  have isPower : (0 : ℚ) < 10 ^ estimate := by positivity
  have enough : (scale numerator denominator (-estimate)).2 ≤
      (scale numerator denominator (-estimate)).1 ↔
        (10 : ℚ) ^ estimate ≤ numerator / denominator := by
    rw [← Nat.cast_le (α := ℚ), ← one_le_div isUnit, scale_div, zpow_neg,
      ← div_eq_mul_inv, one_le_div isPower]
  split
  · next isEnough => exact ⟨enough.mp isEnough, bound⟩
  · next tooFew =>
      rw [Int.sub_add_cancel]
      exact ⟨least, lt_of_not_ge (enough.not.mp tooFew)⟩

/-- The remainder tells which of the two neighbours is at most half a unit away. -/
theorem abs_roundQuotient_sub_le (numerator : Nat) (positive : 0 < denominator) :
    |(roundQuotient numerator denominator : ℚ) - numerator / denominator| ≤ 1 / 2 := by
  have isPositive : (0 : ℚ) < denominator := by exact_mod_cast positive
  have small : ((numerator % denominator : Nat) : ℚ) < denominator := by
    exact_mod_cast Nat.mod_lt _ positive
  have isFraction : (numerator : ℚ) / denominator =
      (numerator / denominator : Nat) + (numerator % denominator : Nat) / denominator := by
    rw [div_eq_iff isPositive.ne', add_mul, div_mul_cancel₀ _ isPositive.ne', mul_comm]
    exact_mod_cast (Nat.div_add_mod numerator denominator).symm
  have below : 2 * (numerator % denominator) ≤ denominator →
      |((numerator / denominator : Nat) : ℚ) - numerator / denominator| ≤ 1 / 2 := by
    intro atMost
    have half : (2 : ℚ) * (numerator % denominator : Nat) ≤ denominator := by exact_mod_cast atMost
    have near : ((numerator % denominator : Nat) : ℚ) / denominator ≤ 1 / 2 := by
      rw [div_le_iff₀ isPositive]
      linarith
    have nonnegative : (0 : ℚ) ≤ (numerator % denominator : Nat) / denominator := by positivity
    rw [isFraction, abs_le]
    constructor <;> linarith
  have above : denominator ≤ 2 * (numerator % denominator) →
      |((numerator / denominator + 1 : Nat) : ℚ) - numerator / denominator| ≤ 1 / 2 := by
    intro atLeast
    have half : (denominator : ℚ) ≤ 2 * (numerator % denominator : Nat) := by exact_mod_cast atLeast
    have near : (1 : ℚ) / 2 ≤ (numerator % denominator : Nat) / denominator := by
      rw [le_div_iff₀ isPositive]
      linarith
    have lessThanOne : ((numerator % denominator : Nat) : ℚ) / denominator < 1 := by
      rwa [div_lt_one isPositive]
    rw [isFraction, abs_le, Nat.cast_add, Nat.cast_one]
    constructor <;> linarith
  unfold roundQuotient
  dsimp only
  split
  · next less => exact below less.le
  · next notLess =>
      split
      · next more => exact above more.le
      · next notMore =>
          split
          · exact below (Nat.le_of_not_lt notMore)
          · exact above (Nat.le_of_not_lt notLess)

end

/-! ## Rounding -/

def Scientific.value (number : Scientific) : ℚ :=
  number.coefficient * 10 ^ (number.exponent + 1 - digitCount number.coefficient)

theorem Scientific.toDigits_eq (number : Scientific) :
    ∃ zeros, Nat.toDigits 10 number.coefficient = number.digits ++ List.replicate zeros '0' := by
  unfold digits
  generalize Nat.toDigits 10 number.coefficient = all
  have zeros : ∀ char ∈ all.reverse.takeWhile (· = '0'), char = '0' := by
    intro char member
    simpa using List.mem_takeWhile_imp member
  refine ⟨(all.reverse.takeWhile (· = '0')).length, ?_⟩
  rw [← List.reverse_replicate, ← List.eq_replicate_of_mem zeros, ← List.reverse_append,
    List.takeWhile_append_dropWhile, List.reverse_reverse]

/-- The digits that are written stand for the number, at the place of its first one. -/
theorem Scientific.digits_spec {number : Scientific} (positive : 0 < number.coefficient) :
    number.digits ≠ [] ∧ number.digits.all Char.isDigit = true ∧
      (digitsNumber number.digits : ℚ) * 10 ^ (number.exponent + 1 - number.digits.length) =
        number.value := by
  rcases number.toDigits_eq with ⟨zeros, isDigits⟩
  have isCoefficient : number.coefficient = digitsNumber number.digits * 10 ^ zeros := by
    rw [← digitsNumber_append_zeros, ← isDigits, digitsNumber_toDigits]
  have isCount : digitCount number.coefficient = number.digits.length + zeros := by
    rw [digitCount, isDigits, List.length_append, List.length_replicate]
  refine ⟨fun none => ?_, ?_, ?_⟩
  · rw [isCoefficient, none] at positive
    simp [digitsNumber] at positive
  · have all := all_toDigits number.coefficient
    rw [isDigits, List.all_append, Bool.and_eq_true] at all
    exact all.1
  · have isPlace : number.exponent + 1 - number.digits.length =
        zeros + (number.exponent + 1 - digitCount number.coefficient) := by
      rw [isCount]
      push_cast
      ring
    rw [value, isPlace, zpow_add₀ (by norm_num), zpow_natCast, ← mul_assoc]
    congr 1
    exact_mod_cast isCoefficient.symm

section

variable {less numerator denominator : Nat}

/-- A coefficient of as many digits as asked for, or the power of ten above all of these. -/
theorem settled_value {coefficient : Nat} (least : 10 ^ less ≤ coefficient)
    (atMost : coefficient ≤ 10 ^ (less + 1)) (exponent : Int) :
    let number : Scientific :=
      if coefficient = 10 ^ (less + 1) then ⟨10 ^ less, exponent + 1⟩ else ⟨coefficient, exponent⟩
    0 < number.coefficient ∧ number.value = coefficient * 10 ^ (exponent - less) := by
  have power : 0 < 10 ^ less := Nat.pow_pos (by decide)
  have step : 10 ^ (less + 1) = 10 * 10 ^ less := Nat.pow_succ'
  dsimp only
  split
  · next isPower =>
      refine ⟨power, ?_⟩
      rw [Scientific.value, digitCount_eq (Nat.le_refl _) (by omega), isPower, step]
      have isPlace : exponent + 1 + 1 - ((less + 1 : Nat) : Int) = exponent - less + 1 := by
        push_cast
        ring
      rw [isPlace, zpow_add_one₀ (by norm_num)]
      push_cast
      ring
  · next notPower =>
      refine ⟨Nat.lt_of_lt_of_le power least, ?_⟩
      rw [Scientific.value, digitCount_eq least (by omega)]
      have isPlace : exponent + 1 - ((less + 1 : Nat) : Int) = exponent - less := by
        push_cast
        ring
      rw [isPlace]

/-- A fraction that is brought between two powers of ten is rounded to a coefficient between
them. -/
theorem coefficient_bounds {coefficient : Nat} {scaled : ℚ}
    (near : |(coefficient : ℚ) - scaled| ≤ 1 / 2) (least : 10 ^ less ≤ scaled)
    (bound : scaled < 10 ^ (less + 1)) :
    10 ^ less ≤ coefficient ∧ coefficient ≤ 10 ^ (less + 1) := by
  rcases abs_le.mp near with ⟨above, below⟩
  constructor
  · have atLeast : ((10 ^ less : Nat) : ℚ) < (coefficient + 1 : Nat) := by
      push_cast
      linarith
    exact Nat.le_of_lt_succ (Nat.cast_lt.mp atLeast)
  · have atMost : (coefficient : ℚ) < (10 ^ (less + 1) + 1 : Nat) := by
      push_cast
      linarith
    exact Nat.le_of_lt_succ (Nat.cast_lt.mp atMost)

theorem round_spec (isNumerator : 0 < numerator) (isDenominator : 0 < denominator) :
    0 < (round (less + 1) numerator denominator).coefficient ∧
      |(round (less + 1) numerator denominator).value - numerator / denominator| ≤
        (numerator : ℚ) / denominator / (2 * 10 ^ less) := by
  rcases leadingExponent_spec isNumerator isDenominator with ⟨least, bound⟩
  unfold round
  dsimp only
  have isShift : ((less + 1 : Nat) : Int) - 1 - leadingExponent numerator denominator =
      less - leadingExponent numerator denominator := by
    push_cast
    ring
  rw [isShift]
  generalize leadingExponent numerator denominator = exponent at *
  have near := abs_roundQuotient_sub_le (scale numerator denominator (less - exponent)).1
    (scale_pos numerator isDenominator (less - exponent))
  rw [scale_div] at near
  generalize roundQuotient _ _ = coefficient at *
  generalize (numerator : ℚ) / denominator = fraction at *
  -- One unit of the last digit, and how many of them there are.
  have isUnit : (0 : ℚ) < 10 ^ (exponent - less) := by positivity
  have inverse : fraction = fraction * 10 ^ ((less : Int) - exponent) * 10 ^ (exponent - less) := by
    rw [mul_assoc, ← zpow_add₀ (by norm_num), sub_add_sub_cancel, sub_self, zpow_zero, mul_one]
  have firstDigit : (10 : ℚ) ^ exponent = 10 ^ less * 10 ^ (exponent - less) := by
    rw [← zpow_natCast, ← zpow_add₀ (by norm_num), add_sub_cancel]
  have beyondFirst : (10 : ℚ) ^ (exponent + 1) = 10 ^ (less + 1) * 10 ^ (exponent - less) := by
    rw [zpow_add_one₀ (by norm_num), firstDigit]
    ring
  rw [firstDigit, inverse] at least
  rw [beyondFirst, inverse] at bound
  have bounds := coefficient_bounds near (le_of_mul_le_mul_right least isUnit)
    (lt_of_mul_lt_mul_right bound isUnit.le)
  rcases settled_value bounds.1 bounds.2 exponent with ⟨positive, isValue⟩
  refine ⟨positive, (congrArg (fun value => |value - fraction|) isValue).trans_le ?_⟩
  rw [← inverse] at least
  have power : (0 : ℚ) < 2 * 10 ^ less := by positivity
  calc |(coefficient : ℚ) * 10 ^ (exponent - less) - fraction|
      = |(coefficient : ℚ) - fraction * 10 ^ ((less : Int) - exponent)| *
          10 ^ (exponent - less) := by
        rw [← abs_of_pos isUnit, ← abs_mul, abs_of_pos isUnit, sub_mul, ← inverse]
    _ ≤ 1 / 2 * 10 ^ (exponent - less) := mul_le_mul_of_nonneg_right near isUnit.le
    _ ≤ fraction / (2 * 10 ^ less) := by
        rw [le_div_iff₀ power]
        linarith

end

end WasmLowering.Decimal
