import WasmLowering.C.Literal
import WasmLowering.Proofs.Constants.FloatValues
import WasmLowering.Proofs.Text.Hexadecimal

/-! The spellings of constants determine the constants.

An integer is written by its digits. A finite floating-point number is written with so many
digits that it is the nearest one to what it is written as. All else has a spelling that no decimal
has, and so has negative zero: a NaN by its bits, an infinity by its sign. -/

namespace WasmLowering.Decimal

/-! ## Rounded numbers -/

theorem number?_signText (format : FloatFormat) (bits : Nat) {text : String} {number : ℚ}
    (read : unsigned? text.toList = some number) :
    number? (signText format bits ++ text) = some (format.sign bits * number) := by
  rw [signText, FloatFormat.sign]
  split
  · have minus : ("-" ++ text).toList = '-' :: text.toList := by simp
    rw [number?, minus]
    show (unsigned? text.toList).map _ = _
    rw [read, Option.map_some, neg_one_mul]
  · rw [String.empty_append, one_mul]
    exact number?_eq_unsigned? read

theorem signText_injective {format : FloatFormat} {bits other : Nat}
    (same : signText format bits = signText format other) :
    format.isNegative bits = format.isNegative other := by
  unfold signText at same
  split at same <;> split at same <;> simp_all

/-- A rounded number is read as one that no other number of the format is nearer to. -/
theorem number?_roundedText {format : FloatFormat} {less : Nat}
    (enough : 2 ^ (format.fractionBits + 1) < 10 ^ less) (bits : Nat) :
    ∃ number, number? (roundedText format (less + 1) bits) = some number ∧
      format.IsNearest bits number := by
  unfold roundedText
  dsimp only
  split
  · next isZero =>
      have noValue : format.value bits = 0 := (format.value_eq_zero_iff bits).mpr
        ((format.magnitude_eq_zero_iff bits).mp isZero)
      have read : unsigned? "0".toList = some ((0 : Nat) * (10 : ℚ) ^ (0 : Int)) := rfl
      refine ⟨_, number?_signText format bits read, FloatFormat.isNearest_of_abs_sub_le enough ?_⟩
      simp [noValue]
  · next nonzero =>
      rcases round_spec (Nat.pos_of_ne_zero nonzero) (format.magnitude_pos bits) with
        ⟨positive, near⟩
      rcases Scientific.digits_spec positive with ⟨given, all, isValue⟩
      have read := unsigned?_text (less + 1) given all
        (round (less + 1) (format.magnitude bits).1 (format.magnitude bits).2).exponent
      rw [isValue] at read
      refine ⟨_, number?_signText format bits read, FloatFormat.isNearest_of_abs_sub_le enough ?_⟩
      rw [format.magnitude_div] at near
      generalize Scientific.value _ = number at near ⊢
      calc |format.sign bits * number - format.value bits|
          = |format.sign bits * (number - |format.value bits|)| := by
            rw [mul_sub, ← format.value_eq_sign_mul_abs]
        _ = |number - (|format.value bits|)| := by rw [abs_mul, format.abs_sign, one_mul]
        _ ≤ |format.value bits| / (2 * 10 ^ less) := near

end WasmLowering.Decimal

namespace WasmLowering.C

open Decimal

namespace FloatSpelling

/-! ## Kinds of spellings -/

structure Distinguishes (spelling : FloatSpelling) : Prop where
  digits : 2 ^ (spelling.format.fractionBits + 1) < 10 ^ (spelling.digits - 1)
  patterns : 2 ^ spelling.format.width = 16 ^ spelling.bitDigits
  letter : spelling.reinterpret.toList.head? = some 'f'
  zeroFinite : spelling.format.IsFinite 0
  zeroText : ∀ text ∈ ["0", "INFINITY", "-INFINITY"], text ≠ spelling.negativeZero
  zeroHead : spelling.negativeZero.toList.head? ≠ some 'f'
  zeroNumber : ∀ number ∈ number? spelling.negativeZero, number = 0

theorem singleSpelling_distinguishes : singleSpelling.Distinguishes where
  digits := by decide
  patterns := by decide
  letter := by decide
  zeroFinite := by decide
  zeroText := by decide
  zeroHead := by decide
  zeroNumber := by
    have noNumber : number? "-0.f" = none := rfl
    simp [singleSpelling, noNumber]

theorem doubleSpelling_distinguishes : doubleSpelling.Distinguishes where
  digits := by decide
  patterns := by decide
  letter := by decide
  zeroFinite := by decide
  zeroText := by decide
  zeroHead := by decide
  zeroNumber := by
    have isNumber : number? "-0.0" = some (-((0 : Nat) * (10 : ℚ) ^ ((0 : Int) - 1))) := rfl
    simp [doubleSpelling, isNumber]

inductive Kind where
  | infinite
  | nan
  | negativeZero
  | number
  deriving DecidableEq

def kind (spelling : FloatSpelling) (bits : Nat) : Kind :=
  if spelling.format.isInfinite bits then .infinite
  else if spelling.format.isNaN bits then .nan
  else if spelling.format.isNegative bits && spelling.format.significand bits = 0 then
    .negativeZero
  else .number

def kindOf (spelling : FloatSpelling) (text : String) : Kind :=
  if text = spelling.negativeZero then .negativeZero
  else if text.toList.head? = some 'f' then .nan
  else if (number? text).isSome then .number
  else .infinite

section

variable {spelling : FloatSpelling} {bits other : Nat}

theorem text_eq (spelling : FloatSpelling) (bits : Nat) :
    spelling.text bits =
      match spelling.kind bits with
      | .infinite => signText spelling.format bits ++ "INFINITY"
      | .nan => spelling.nanText bits
      | .negativeZero => spelling.negativeZero
      | .number => roundedText spelling.format spelling.digits bits := by
  unfold text kind
  dsimp only
  split
  · rfl
  · split
    · rfl
    · split <;> rfl

theorem text_infinite (isKind : spelling.kind bits = .infinite) :
    spelling.text bits = signText spelling.format bits ++ "INFINITY" := by
  rw [text_eq, isKind]

theorem text_nan (isKind : spelling.kind bits = .nan) :
    spelling.text bits = spelling.nanText bits := by
  rw [text_eq, isKind]

theorem text_negativeZero (isKind : spelling.kind bits = .negativeZero) :
    spelling.text bits = spelling.negativeZero := by
  rw [text_eq, isKind]

theorem text_number (isKind : spelling.kind bits = .number) :
    spelling.text bits = roundedText spelling.format spelling.digits bits := by
  rw [text_eq, isKind]

theorem kind_eq_infinite_iff :
    spelling.kind bits = .infinite ↔ spelling.format.biased bits = spelling.format.topBiased ∧
      spelling.format.fraction bits = 0 := by
  grind [kind, FloatFormat.isInfinite]

theorem kind_eq_negativeZero_iff :
    spelling.kind bits = .negativeZero ↔ spelling.format.IsFinite bits ∧
      spelling.format.isNegative bits = true ∧ spelling.format.significand bits = 0 := by
  grind [kind, FloatFormat.isInfinite, FloatFormat.isNaN, FloatFormat.IsFinite]

theorem kind_eq_number_iff :
    spelling.kind bits = .number ↔ spelling.format.IsFinite bits ∧
      (spelling.format.significand bits = 0 → spelling.format.isNegative bits = false) := by
  grind [kind, FloatFormat.isInfinite, FloatFormat.isNaN, FloatFormat.IsFinite]

theorem number?_text (distinguishes : spelling.Distinguishes)
    (isKind : spelling.kind bits = .number) :
    ∃ number, number? (spelling.text bits) = some number ∧
      spelling.format.IsNearest bits number := by
  have someDigits : spelling.digits ≠ 0 := by
    intro none
    have enough := distinguishes.digits
    rw [none] at enough
    exact absurd enough (Nat.not_lt.mpr (Nat.one_le_two_pow))
  rw [text_number isKind, ← Nat.succ_pred_eq_of_ne_zero someDigits]
  exact number?_roundedText distinguishes.digits bits

theorem text_ne_negativeZero (distinguishes : spelling.Distinguishes)
    (isKind : spelling.kind bits = .number) : spelling.text bits ≠ spelling.negativeZero := by
  intro same
  rcases number?_text distinguishes isKind with ⟨number, read, nearest⟩
  have unsigned := (kind_eq_number_iff.mp isKind).2
  rw [same] at read
  rw [distinguishes.zeroNumber number read] at nearest
  have isZero : spelling.format.value bits = 0 := by
    by_contra nonzero
    have noValue : spelling.format.value 0 = 0 :=
      (spelling.format.value_eq_zero_iff 0).mpr (by simp [FloatFormat.significand_eq_zero_iff,
        FloatFormat.biased, FloatFormat.fraction])
    have nearer := nearest 0 (Nat.two_pow_pos _) distinguishes.zeroFinite
      (by rw [noValue]; exact Ne.symm nonzero)
    rw [noValue, sub_zero, abs_zero] at nearer
    exact absurd nearer (not_lt.mpr (abs_nonneg _))
  have noSignificand := (spelling.format.value_eq_zero_iff bits).mp isZero
  have noMagnitude := (spelling.format.magnitude_eq_zero_iff bits).mpr noSignificand
  have isShort : spelling.text bits = "0" := by
    rw [text_number isKind, roundedText, signText, unsigned noSignificand]
    simp [noMagnitude]
  exact distinguishes.zeroText "0" (by simp) (isShort.symm.trans same)

theorem head?_nanText (distinguishes : spelling.Distinguishes) (bits : Nat) :
    (spelling.nanText bits).toList.head? = some 'f' := by
  rcases List.head?_eq_some_iff.mp distinguishes.letter with ⟨rest, isName⟩
  simp [nanText, isName]

theorem number?_letter {text : String} (letter : text.toList.head? = some 'f') :
    number? text = none := by
  rcases List.head?_eq_some_iff.mp letter with ⟨rest, isText⟩
  rw [number?, isText]
  exact unsigned?_eq_none (by simp [Stops]) (by simp)

theorem kindOf_text (distinguishes : spelling.Distinguishes) (bits : Nat) :
    spelling.kindOf (spelling.text bits) = spelling.kind bits := by
  cases isKind : spelling.kind bits with
  | infinite =>
      have isOther : ∀ text ∈ ["INFINITY", "-INFINITY"], spelling.kindOf text = .infinite := by
        intro text member
        have notZero := distinguishes.zeroText text (List.mem_cons_of_mem _ member)
        rw [kindOf, if_neg notZero]
        rcases List.mem_pair.mp member with rfl | rfl <;> rfl
      rw [text_infinite isKind, signText]
      split
      · exact isOther "-INFINITY" (by simp)
      · exact isOther "INFINITY" (by simp)
  | nan =>
      have letter := head?_nanText distinguishes bits
      have notZero : spelling.nanText bits ≠ spelling.negativeZero := by
        intro same
        exact distinguishes.zeroHead (same ▸ letter)
      rw [text_nan isKind, kindOf, if_neg notZero, if_pos letter]
  | negativeZero => rw [text_negativeZero isKind, kindOf, if_pos rfl]
  | number =>
      rcases number?_text distinguishes isKind with ⟨number, read, -⟩
      have noLetter : (spelling.text bits).toList.head? ≠ some 'f' := by
        intro letter
        rw [number?_letter letter] at read
        contradiction
      rw [kindOf, if_neg (text_ne_negativeZero distinguishes isKind), if_neg noLetter, read]
      rfl

theorem nanText_injective (distinguishes : spelling.Distinguishes)
    (bound : bits < 2 ^ spelling.format.width) (otherBound : other < 2 ^ spelling.format.width)
    (same : spelling.nanText bits = spelling.nanText other) : bits = other := by
  rw [distinguishes.patterns] at bound otherBound
  have positive : 0 < spelling.bitDigits := by
    rcases Nat.eq_zero_or_pos spelling.bitDigits with none | positive
    · have small := distinguishes.patterns
      rw [none, FloatFormat.width] at small
      have large : 1 < 2 ^ (1 + spelling.format.exponentBits + spelling.format.fractionBits) :=
        Nat.one_lt_two_pow (by omega)
      omega
    · exact positive
  have lists := congrArg String.toList same
  simp only [nanText, String.toList_append, List.append_assoc] at lists
  have digits := List.append_cancel_left (List.append_cancel_left lists)
  have isHex := List.append_inj_left digits
    ((Text.length_hex positive bound).trans (Text.length_hex positive otherBound).symm)
  rw [← Text.hexValue_hex spelling.bitDigits bits, isHex, Text.hexValue_hex]

theorem text_injective (distinguishes : spelling.Distinguishes)
    (bound : bits < 2 ^ spelling.format.width) (otherBound : other < 2 ^ spelling.format.width)
    (same : spelling.text bits = spelling.text other) : bits = other := by
  have sameKind : spelling.kind bits = spelling.kind other := by
    rw [← kindOf_text distinguishes bits, same, kindOf_text distinguishes other]
  cases isKind : spelling.kind other with
  | infinite =>
      rw [isKind] at sameKind
      rcases kind_eq_infinite_iff.mp sameKind with ⟨top, noFraction⟩
      rcases kind_eq_infinite_iff.mp isKind with ⟨otherTop, otherNoFraction⟩
      rw [text_infinite sameKind, text_infinite isKind] at same
      exact FloatFormat.eq_of_fields bound otherBound
        (signText_injective ((String.append_left_inj _).mp same)) (top.trans otherTop.symm)
        (noFraction.trans otherNoFraction.symm)
  | nan =>
      rw [isKind] at sameKind
      rw [text_nan sameKind, text_nan isKind] at same
      exact nanText_injective distinguishes bound otherBound same
  | negativeZero =>
      rw [isKind] at sameKind
      rcases kind_eq_negativeZero_iff.mp sameKind with ⟨-, negative, isZero⟩
      rcases kind_eq_negativeZero_iff.mp isKind with ⟨-, otherNegative, otherIsZero⟩
      refine FloatFormat.eq_of_value_eq bound otherBound ?_
        (fun _ => negative.trans otherNegative.symm)
      rw [(spelling.format.value_eq_zero_iff bits).mpr isZero,
        (spelling.format.value_eq_zero_iff other).mpr otherIsZero]
  | number =>
      rw [isKind] at sameKind
      rcases kind_eq_number_iff.mp sameKind with ⟨finite, unsigned⟩
      rcases kind_eq_number_iff.mp isKind with ⟨otherFinite, otherUnsigned⟩
      rcases number?_text distinguishes sameKind with ⟨number, read, nearest⟩
      rcases number?_text distinguishes isKind with ⟨otherNumber, otherRead, otherNearest⟩
      rw [same, otherRead, Option.some.injEq] at read
      rw [read] at otherNearest
      have sameValue := nearest.value_eq otherNearest bound otherBound finite otherFinite
      refine FloatFormat.eq_of_value_eq bound otherBound sameValue fun isZero => ?_
      rw [unsigned ((spelling.format.value_eq_zero_iff bits).mp isZero),
        otherUnsigned ((spelling.format.value_eq_zero_iff other).mp (sameValue ▸ isZero))]

end

end FloatSpelling

/-! ## Constants -/

theorem literal_injective {first second : Number} (sameType : first.scalar = second.scalar)
    (same : literal first = literal second) : first = second := by
  have plain : ∀ {number other : Nat} (behind : String),
      toString number ++ behind = toString other ++ behind → number = other := by
    intro number other behind sameText
    have read := number?_toString number
    rw [(String.append_left_inj behind).mp sameText, number?_toString other,
      Option.some.injEq] at read
    exact (Nat.cast_injective read).symm
  cases first <;> cases second <;> first | contradiction | skip
  case i32 bits other => exact congrArg Number.i32 (UInt32.toNat_inj.mp (plain "u" same))
  case i64 bits other => exact congrArg Number.i64 (UInt64.toNat_inj.mp (plain "ull" same))
  case f32 bits other =>
    have isBits := FloatSpelling.text_injective FloatSpelling.singleSpelling_distinguishes
      bits.toNat_lt other.toNat_lt same
    exact congrArg Number.f32 (UInt32.toNat_inj.mp isBits)
  case f64 bits other =>
    have isBits := FloatSpelling.text_injective FloatSpelling.doubleSpelling_distinguishes
      bits.toNat_lt other.toNat_lt same
    exact congrArg Number.f64 (UInt64.toNat_inj.mp isBits)

theorem kind_number_of_finite {spelling : FloatSpelling} {bits signedZero : Nat}
    (bound : bits < 2 ^ spelling.format.width) (zeroBound : signedZero < 2 ^ spelling.format.width)
    (isZero : spelling.kind signedZero = .negativeZero) (finite : spelling.format.IsFinite bits)
    (different : bits ≠ signedZero) : spelling.kind bits = .number := by
  refine FloatSpelling.kind_eq_number_iff.mpr ⟨finite, fun noSignificand => ?_⟩
  rcases FloatSpelling.kind_eq_negativeZero_iff.mp isZero with ⟨-, negative, zeroSignificand⟩
  by_contra signed
  refine different (FloatFormat.eq_of_value_eq bound zeroBound ?_ fun _ => ?_)
  · rw [(spelling.format.value_eq_zero_iff bits).mpr noSignificand,
      (spelling.format.value_eq_zero_iff signedZero).mpr zeroSignificand]
  · rw [negative]
    simpa using signed

/-- The literal of a constant carries its value. An integer is written as an unsigned decimal of
its type, and a finite floating-point number other than negative zero as a decimal that no other
number of the format is as near to. On each type, different bits give different literals. -/
theorem literals_carry_values :
    (∀ bits : UInt32, ∃ digits, literal (.i32 bits) = digits ++ "u" ∧
      IsPlainDecimal digits bits.toNat) ∧
    (∀ bits : UInt64, ∃ digits, literal (.i64 bits) = digits ++ "ull" ∧
      IsPlainDecimal digits bits.toNat) ∧
    (∀ bits : UInt32, single.IsFinite bits.toNat → bits ≠ 0x80000000 →
      ∃ number, number? (literal (.f32 bits)) = some number ∧
        single.IsNearest bits.toNat number) ∧
    (∀ bits : UInt64, double.IsFinite bits.toNat → bits ≠ 0x8000000000000000 →
      ∃ number, number? (literal (.f64 bits)) = some number ∧
        double.IsNearest bits.toNat number) ∧
    ∀ first second : Number, first.scalar = second.scalar → literal first = literal second →
      first = second := by
  refine ⟨fun bits => ?_, fun bits => ?_, fun bits finite different => ?_,
    fun bits finite different => ?_, fun _ _ => literal_injective⟩
  · exact ⟨toString bits.toNat, rfl, isPlainDecimal_toString bits.toNat⟩
  · exact ⟨toString bits.toNat, rfl, isPlainDecimal_toString bits.toNat⟩
  · have isZero : singleSpelling.kind (0x80000000 : UInt32).toNat = .negativeZero := by decide
    have isNumber := kind_number_of_finite bits.toNat_lt (UInt32.toNat_lt _) isZero finite
      (UInt32.toNat_inj.not.mpr different)
    exact FloatSpelling.number?_text FloatSpelling.singleSpelling_distinguishes isNumber
  · have isZero : doubleSpelling.kind (0x8000000000000000 : UInt64).toNat = .negativeZero := by
      decide
    have isNumber := kind_number_of_finite bits.toNat_lt (UInt64.toNat_lt _) isZero finite
      (UInt64.toNat_inj.not.mpr different)
    exact FloatSpelling.number?_text FloatSpelling.doubleSpelling_distinguishes isNumber

/-- The smallest double is written with all its digits, and two NaNs are told apart. -/
theorem literals_carry_values_extreme :
    (double.IsFinite (1 : UInt64).toNat ∧ (1 : UInt64) ≠ 0x8000000000000000 ∧
      literal (.f64 1) = "4.9406564584124654e-324" ∧
      ∃ number, number? (literal (.f64 1)) = some number ∧
        double.IsNearest (1 : UInt64).toNat number) ∧
    (single.IsFinite (0x7F7FFFFF : UInt32).toNat ∧ (0x7F7FFFFF : UInt32) ≠ 0x80000000 ∧
      ∃ number, number? (literal (.f32 0x7F7FFFFF)) = some number ∧
        single.IsNearest (0x7F7FFFFF : UInt32).toNat number) ∧
    (Number.f32 0x7FC00000).scalar = (Number.f32 0x7FC00001).scalar ∧
      literal (.f32 0x7FC00000) ≠ literal (.f32 0x7FC00001) := by
  rcases literals_carry_values with ⟨-, -, singles, doubles, injective⟩
  have leastFinite : double.IsFinite (1 : UInt64).toNat := by decide
  have leastNotZero : (1 : UInt64) ≠ 0x8000000000000000 := by decide
  have largestFinite : single.IsFinite (0x7F7FFFFF : UInt32).toNat := by decide
  have largestNotZero : (0x7F7FFFFF : UInt32) ≠ 0x80000000 := by decide
  refine ⟨⟨leastFinite, leastNotZero, by decide +kernel, doubles 1 leastFinite leastNotZero⟩,
    ⟨largestFinite, largestNotZero, singles _ largestFinite largestNotZero⟩, rfl, ?_⟩
  intro same
  have equal := injective (.f32 0x7FC00000) (.f32 0x7FC00001) rfl same
  contradiction

end WasmLowering.C
