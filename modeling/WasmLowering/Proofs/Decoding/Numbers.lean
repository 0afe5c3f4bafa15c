import Mathlib.Tactic.Linarith
import Mathlib.Tactic.Ring
import WasmLowering.Binary.Encode
import WasmLowering.Proofs.Decoding.Reading

/-! The forms of numbers, and that reading follows them.

A LEB128 number of `bits` bits has a short form, one byte, if it fits into seven bits. Any
number has long forms: the low seven bits, marked by the top bit of their byte, and
then a form of the other bits as a number of `bits - 7` bits. Long forms of small
numbers are allowed as long as these bits last. Words of fixed width have one form. -/

namespace WasmLowering.Binary

namespace Leb128

inductive Unsigned : (bits : Nat) → List UInt8 → Nat → Prop where
  | last {bits : Nat} {byte : UInt8} (ends : byte.toNat < 128) (fits : byte.toNat < 2 ^ bits) :
      Unsigned bits [byte] byte.toNat
  | more {bits : Nat} {byte : UInt8} {others : List UInt8} {high : Nat}
      (goesOn : 128 ≤ byte.toNat) (wide : 7 < bits) (later : Unsigned (bits - 7) others high) :
      Unsigned bits (byte :: others) (byte.toNat - 128 + 128 * high)

inductive Signed : (bits : Nat) → List UInt8 → Int → Prop where
  | nonnegative {bits : Nat} {byte : UInt8} (ends : byte.toNat < 64)
      (fits : (byte.toNat : Int) < 2 ^ (bits - 1)) : Signed bits [byte] byte.toNat
  | negative {bits : Nat} {byte : UInt8} (isNegative : 64 ≤ byte.toNat) (ends : byte.toNat < 128)
      (fits : -2 ^ (bits - 1) ≤ (byte.toNat : Int) - 128) : Signed bits [byte] (byte.toNat - 128)
  | more {bits : Nat} {byte : UInt8} {others : List UInt8} {high : Int}
      (goesOn : 128 ≤ byte.toNat) (wide : 7 < bits) (later : Signed (bits - 7) others high) :
      Signed bits (byte :: others) (byte.toNat - 128 + 128 * high)

theorem Unsigned.ne_nil {bits : Nat} {used : List UInt8} {value : Nat}
    (form : Unsigned bits used value) : used ≠ [] := by
  cases form <;> simp

theorem Signed.ne_nil {bits : Nat} {used : List UInt8} {value : Int}
    (form : Signed bits used value) : used ≠ [] := by
  cases form <;> simp

theorem two_pow_split {bits : Nat} (wide : 7 < bits) : 2 ^ bits = 128 * 2 ^ (bits - 7) := by
  rw [show 128 = 2 ^ 7 from rfl, ← Nat.pow_add, Nat.add_sub_cancel' wide.le]

theorem Unsigned.lt {bits : Nat} {used : List UInt8} {value : Nat}
    (form : Unsigned bits used value) : value < 2 ^ bits := by
  induction form with
  | last ends fits => exact fits
  | @more bits byte others high goesOn wide _ induction =>
      have split := two_pow_split wide
      have small := byte.toNat_lt
      omega

/-! ## Writing -/

theorem toNat_ofNat_of_lt {value : Nat} (small : value < 256) : (UInt8.ofNat value).toNat = value :=
  UInt8.toNat_ofNat_of_lt' small

theorem Unsigned.single {bits value : Nat} (fits : value < 2 ^ bits) (small : value < 128) :
    Unsigned bits [.ofNat value] value := by
  have isByte := toNat_ofNat_of_lt (Nat.lt_trans small (by decide))
  have form := Unsigned.last (isByte.trans_lt small) (isByte.trans_lt fits)
  rwa [isByte] at form

theorem writeUnsigned_unsigned {bits fuel value : Nat} (fits : value < 2 ^ bits)
    (enough : bits ≤ 7 * (fuel + 1)) : Unsigned bits (writeUnsigned fuel value) value := by
  induction fuel generalizing bits value with
  | zero =>
      have small : value < 128 := Nat.lt_of_lt_of_le fits (Nat.pow_le_pow_right Nat.two_pos enough)
      rw [writeUnsigned, Nat.mod_eq_of_lt small]
      exact .single fits small
  | succ fuel induction =>
      rw [writeUnsigned]
      split
      · next small => exact .single fits small
      · next large =>
          have wide : 7 < bits := by
            by_contra narrow
            have least := Nat.pow_le_pow_right Nat.two_pos (Nat.le_of_not_lt narrow)
            omega
          have split := two_pow_split wide
          have fitsHigh : value / 128 < 2 ^ (bits - 7) := by omega
          have isByte := toNat_ofNat_of_lt (show value % 128 + 128 < 256 by omega)
          have form := Unsigned.more (isByte.ge.trans' (Nat.le_add_left 128 _)) wide
            (induction fitsHigh (by omega))
          have isValue : value % 128 + 128 - 128 + 128 * (value / 128) = value := by omega
          rwa [isByte, isValue] at form

theorem Signed.single {bits : Nat} {value : Int} (fits : -2 ^ (bits - 1) ≤ value)
    (fitsAbove : value < 2 ^ (bits - 1)) (small : -64 ≤ value) (smallAbove : value < 64) :
    Signed bits [.ofNat (value % 128).toNat] value := by
  have isByte := toNat_ofNat_of_lt (show (value % 128).toNat < 256 by omega)
  by_cases isNegative : value < 0
  · have isValue : ((value % 128).toNat : Int) - 128 = value := by omega
    have form : Signed bits [.ofNat (value % 128).toNat] _ := .negative
      (by rw [isByte]; omega) (by rw [isByte]; omega) (by rw [isByte, isValue]; exact fits)
    rwa [isByte, isValue] at form
  · have isValue : ((value % 128).toNat : Int) = value := by omega
    have form : Signed bits [.ofNat (value % 128).toNat] _ := .nonnegative
      (by rw [isByte]; omega) (by rw [isByte, isValue]; exact fitsAbove)
    rwa [isByte, isValue] at form

theorem writeSigned_signed {bits fuel : Nat} {value : Int} (positive : 0 < bits)
    (fits : -2 ^ (bits - 1) ≤ value) (fitsAbove : value < 2 ^ (bits - 1))
    (enough : bits ≤ 7 * (fuel + 1)) : Signed bits (writeSigned fuel value) value := by
  induction fuel generalizing bits value with
  | zero =>
      have least : (2 : Int) ^ (bits - 1) ≤ 2 ^ 6 :=
        pow_le_pow_right₀ (by decide) (by omega)
      rw [writeSigned]
      exact .single fits fitsAbove (by omega) (by omega)
  | succ fuel induction =>
      rw [writeSigned]
      split
      · next small =>
          simp only [Bool.and_eq_true, decide_eq_true_eq] at small
          exact .single fits fitsAbove small.1 small.2
      · next large =>
          simp only [Bool.and_eq_true, decide_eq_true_eq, not_and] at large
          have wide : 7 < bits := by
            by_contra narrow
            have least : (2 : Int) ^ (bits - 1) ≤ 2 ^ 6 :=
              pow_le_pow_right₀ (by decide) (by omega)
            omega
          have split : (2 : Int) ^ (bits - 1) = 128 * 2 ^ (bits - 7 - 1) := by
            rw [show (128 : Int) = 2 ^ 7 from rfl, ← pow_add]
            congr 1
            omega
          have fitsHigh : -2 ^ (bits - 7 - 1) ≤ value / 128 := by omega
          have fitsHighAbove : value / 128 < 2 ^ (bits - 7 - 1) := by omega
          have isByte := toNat_ofNat_of_lt (show (value % 128).toNat + 128 < 256 by omega)
          have form := Signed.more (isByte.ge.trans' (Nat.le_add_left 128 _)) wide
            (induction (by omega) fitsHigh fitsHighAbove (by omega))
          have isValue : (((value % 128).toNat + 128 : Nat) : Int) - 128 + 128 * (value / 128) =
              value := by omega
          rwa [isByte, isValue] at form

theorem exists_unsigned {bits value : Nat} (fits : value < 2 ^ bits) :
    ∃ used, Unsigned bits used value :=
  ⟨writeUnsigned bits value, writeUnsigned_unsigned fits (by omega)⟩

theorem exists_signed {bits : Nat} {value : Int} (positive : 0 < bits)
    (fits : -2 ^ (bits - 1) ≤ value) (fitsAbove : value < 2 ^ (bits - 1)) :
    ∃ used, Signed bits used value :=
  ⟨writeSigned bits value, writeSigned_signed positive fits fitsAbove (by omega)⟩

theorem exists_signed_residue {bits value : Nat} (positive : 0 < bits) (fits : value < 2 ^ bits) :
    ∃ (used : List UInt8) (number : Int), Signed bits used number ∧
      (number % 2 ^ bits).toNat = value := by
  have double : (2 : Int) ^ bits = 2 * 2 ^ (bits - 1) := by
    rw [← pow_succ', Nat.sub_add_cancel positive]
  have fits : (value : Int) < 2 ^ bits := by exact_mod_cast fits
  have isValue : (value : Int) % 2 ^ bits = value := Int.emod_eq_of_lt (by omega) fits
  by_cases small : (value : Int) < 2 ^ (bits - 1)
  · rcases exists_signed positive (by omega) small with ⟨used, form⟩
    exact ⟨used, value, form, by omega⟩
  · have below : -2 ^ (bits - 1) ≤ (value : Int) - 2 ^ bits := by omega
    rcases exists_signed positive below (by omega) with ⟨used, form⟩
    refine ⟨used, _, form, ?_⟩
    rw [Int.sub_emod_right, isValue, Int.toNat_natCast]

/-! ## The first byte of a form -/

section FirstByte

variable {bits : Nat} {byte : UInt8} {rest : List UInt8}

theorem exists_unsigned_cons_iff {holds : List UInt8 → List UInt8 → Nat → Prop} :
    (∃ used left value, byte :: rest = used ++ left ∧ Unsigned bits used value ∧
        holds used left value) ↔
      if 128 ≤ byte.toNat then
        7 < bits ∧ ∃ used left high, rest = used ++ left ∧ Unsigned (bits - 7) used high ∧
          holds (byte :: used) left (byte.toNat - 128 + 128 * high)
      else byte.toNat < 2 ^ bits ∧ holds [byte] rest byte.toNat := by
  constructor
  · rintro ⟨used, left, value, isBytes, form, holding⟩
    cases form with
    | last ends fits =>
        cases isBytes
        rw [if_neg (by omega)]
        exact ⟨fits, holding⟩
    | more goesOn wide later =>
        cases isBytes
        rw [if_pos goesOn]
        exact ⟨wide, _, _, _, rfl, later, holding⟩
  · split
    · next goesOn =>
        rintro ⟨wide, used, left, high, rfl, later, holding⟩
        exact ⟨_, _, _, rfl, .more goesOn wide later, holding⟩
    · next stops =>
        rintro ⟨fits, holding⟩
        exact ⟨_, _, _, rfl, .last (by omega) fits, holding⟩

def lastValue (byte : UInt8) : Int := if byte.toNat < 64 then byte.toNat else byte.toNat - 128

theorem exists_signed_cons_iff {holds : List UInt8 → List UInt8 → Int → Prop} :
    (∃ used left value, byte :: rest = used ++ left ∧ Signed bits used value ∧
        holds used left value) ↔
      if 128 ≤ byte.toNat then
        7 < bits ∧ ∃ used left high, rest = used ++ left ∧ Signed (bits - 7) used high ∧
          holds (byte :: used) left (byte.toNat - 128 + 128 * high)
      else (-2 ^ (bits - 1) ≤ lastValue byte ∧ lastValue byte < 2 ^ (bits - 1)) ∧
        holds [byte] rest (lastValue byte) := by
  have positive : (0 : Int) < 2 ^ (bits - 1) := by positivity
  constructor
  · rintro ⟨used, left, value, isBytes, form, holding⟩
    cases form with
    | nonnegative ends fits =>
        cases isBytes
        rw [if_neg (by omega), lastValue, if_pos ends]
        exact ⟨⟨by omega, fits⟩, holding⟩
    | negative isNegative ends fits =>
        cases isBytes
        rw [if_neg (by omega), lastValue, if_neg (by omega)]
        exact ⟨⟨fits, by omega⟩, holding⟩
    | more goesOn wide later =>
        cases isBytes
        rw [if_pos goesOn]
        exact ⟨wide, _, _, _, rfl, later, holding⟩
  · split
    · next goesOn =>
        rintro ⟨wide, used, left, high, rfl, later, holding⟩
        exact ⟨_, _, _, rfl, .more goesOn wide later, holding⟩
    · next stops =>
        unfold lastValue
        split
        · next ends =>
            rintro ⟨fits, holding⟩
            exact ⟨_, _, _, rfl, .nonnegative ends fits.2, holding⟩
        · next isNegative =>
            rintro ⟨fits, holding⟩
            exact ⟨_, _, _, rfl, .negative (by omega) (by omega) fits.1, holding⟩

end FirstByte

/-! ## Unsigned numbers -/

theorem overflows_iff {bits shift : Nat} (byte : UInt8) :
    (bits < shift + 7 && byte.toNat >>> (bits - shift) ≠ 0) = true ↔
      bits < shift + 7 ∧ 2 ^ (bits - shift) ≤ byte.toNat := by
  have shifted : byte.toNat >>> (bits - shift) = 0 ↔ byte.toNat < 2 ^ (bits - shift) := by
    rw [Nat.shiftRight_eq_div_pow]
    exact Nat.div_eq_zero_iff_lt (Nat.two_pow_pos _)
  simp [shifted]

/-- Reading on behind the first `shift` bits. The width is no multiple of seven, so the
last group is never full. -/
theorem unsignedFrom_eq_ok_iff {bits shift : Nat} (inside : shift < bits)
    (uneven : (bits - shift) % 7 ≠ 0) (low start : Nat) (bytes : List UInt8) (value : Nat)
    (after : Reader) :
    unsignedFrom bits shift low start bytes = .ok value after ↔
      ∃ used rest high, bytes = used ++ rest ∧ Unsigned (bits - shift) used high ∧
        value = low + high * 2 ^ shift ∧ after = ⟨start + used.length, rest⟩ := by
  induction bytes generalizing shift low start with
  | nil =>
      simp only [unsignedFrom, reduceCtorEq, false_iff]
      rintro ⟨used, rest, high, isBytes, form, -⟩
      exact form.ne_nil (List.append_eq_nil_iff.mp isBytes.symm).1
  | cons byte rest induction =>
      have narrow : bits < shift + 7 → 2 ^ (bits - shift) ≤ 2 ^ 6 :=
        fun isNarrow => Nat.pow_le_pow_right Nat.two_pos (by omega)
      have roomy : ¬bits < shift + 7 → 2 ^ 7 ≤ 2 ^ (bits - shift) :=
        fun isRoomy => Nat.pow_le_pow_right Nat.two_pos (by omega)
      have small := byte.toNat_lt
      simp only [unsignedFrom, overflows_iff, exists_unsigned_cons_iff, continues, group,
        decide_eq_true_eq, Nat.pow_eq]
      by_cases goesOn : 128 ≤ byte.toNat
      · rw [if_pos goesOn, if_pos goesOn]
        split
        · next overflows =>
            simp only [reduceCtorEq, false_iff]
            omega
        · next fits =>
            have wide : 7 < bits - shift := by omega
            have width : bits - (shift + 7) = bits - shift - 7 := by omega
            rw [induction (by omega) (by omega), width]
            simp only [wide, true_and, List.length_cons]
            have low7 : byte.toNat % 128 = byte.toNat - 128 := by omega
            have value_eq : ∀ high, low + byte.toNat % 128 * 2 ^ shift + high * 2 ^ (shift + 7) =
                low + (byte.toNat - 128 + 128 * high) * 2 ^ shift := by
              intro high
              rw [low7, Nat.pow_add]
              ring
            simp only [value_eq, Nat.add_assoc, Nat.add_comm 1]
      · rw [if_neg goesOn, if_neg goesOn, Nat.mod_eq_of_lt (by omega)]
        split
        · next overflows =>
            simp only [reduceCtorEq, false_iff]
            omega
        · next fits =>
            have inWidth : byte.toNat < 2 ^ (bits - shift) := by omega
            simp [inWidth, eq_comm]

/-! ## Signed numbers -/

theorem fitsSigned_iff {bits count low : Nat} (inside : 7 * count < bits)
    (small : low < 2 ^ (7 * count)) (high : Int) :
    fitsSigned bits (low + high * 2 ^ (7 * count)) = true ↔
      -2 ^ (bits - 7 * count - 1) ≤ high ∧ high < 2 ^ (bits - 7 * count - 1) := by
  have split : (2 : Int) ^ (bits - 1) = 2 ^ (7 * count) * 2 ^ (bits - 7 * count - 1) := by
    rw [← pow_add]
    congr 1
    omega
  simp only [fitsSigned, Bool.and_eq_true, decide_eq_true_eq, Nat.pow_eq, Nat.cast_pow,
    Nat.cast_ofNat, split]
  have nonnegative : (0 : Int) ≤ low := Int.natCast_nonneg low
  have bound : (low : Int) < 2 ^ (7 * count) := by exact_mod_cast small
  generalize (2 : Int) ^ (7 * count) = unit at *
  generalize (2 : Int) ^ (bits - 7 * count - 1) = limit at *
  constructor
  · rintro ⟨above, below⟩
    constructor
    · by_contra beyond
      nlinarith
    · by_contra beyond
      nlinarith
  · rintro ⟨above, below⟩
    constructor
    · nlinarith
    · nlinarith

theorem pow_group (count : Nat) : 2 ^ (7 * (count + 1)) = 128 * 2 ^ (7 * count) := by
  rw [Nat.mul_add, Nat.pow_add, Nat.mul_comm]

theorem extended_eq (low count : Nat) {byte : UInt8} (ends : byte.toNat < 128) :
    (if 64 ≤ byte.toNat then
        ((low + group byte * Nat.pow 2 (7 * count) : Nat) : Int) - (Nat.pow 2 (7 * (count + 1)) : Nat)
      else ((low + group byte * Nat.pow 2 (7 * count) : Nat) : Int)) =
        low + lastValue byte * 2 ^ (7 * count) := by
  rw [group, Nat.mod_eq_of_lt ends, Nat.pow_eq, Nat.pow_eq, pow_group, lastValue]
  push_cast
  split
  · next isNegative =>
      rw [if_neg (by omega)]
      ring
  · next isNonnegative => rw [if_pos (by omega)]

theorem continued_eq (low count : Nat) {byte : UInt8} (goesOn : 128 ≤ byte.toNat) (high : Int) :
    ((low + group byte * Nat.pow 2 (7 * count) : Nat) : Int) + high * 2 ^ (7 * (count + 1)) =
      low + (byte.toNat - 128 + 128 * high) * 2 ^ (7 * count) := by
  have small := byte.toNat_lt
  have low7 : group byte = byte.toNat - 128 := by
    unfold group
    omega
  rw [low7, Nat.pow_eq, Nat.mul_add, pow_add]
  push_cast [goesOn]
  ring

theorem signedFrom_eq_ok_iff {bits count low : Nat} (inside : 7 * count < bits)
    (small : low < 2 ^ (7 * count)) (start : Nat) (bytes : List UInt8) (value : Int)
    (after : Reader) :
    signedFrom bits count low start bytes = .ok value after ↔
      ∃ used rest high, bytes = used ++ rest ∧ Signed (bits - 7 * count) used high ∧
        value = low + high * 2 ^ (7 * count) ∧ after = ⟨start + used.length, rest⟩ := by
  induction bytes generalizing count low start with
  | nil =>
      simp only [signedFrom, reduceCtorEq, false_iff]
      rintro ⟨used, rest, high, isBytes, form, -⟩
      exact form.ne_nil (List.append_eq_nil_iff.mp isBytes.symm).1
  | cons byte rest induction =>
      simp only [signedFrom, exists_signed_cons_iff, continues, decide_eq_true_eq]
      by_cases goesOn : 128 ≤ byte.toNat
      · rw [if_pos goesOn, if_pos goesOn]
        split
        · next tooLong =>
            have narrow : ¬7 < bits - 7 * count := by
              unfold groups at tooLong
              omega
            simp [narrow]
        · next notTooLong =>
            have wide : 7 < bits - 7 * count := by
              unfold groups at notTooLong
              omega
            have stays : low + group byte * Nat.pow 2 (7 * count) < 2 ^ (7 * (count + 1)) := by
              have least : group byte < 128 := Nat.mod_lt _ (by decide)
              rw [pow_group, Nat.pow_eq]
              nlinarith
            have width : bits - 7 * (count + 1) = bits - 7 * count - 7 := by omega
            rw [induction (by omega) stays, width]
            simp only [wide, true_and, List.length_cons, continued_eq low count goesOn,
              Nat.add_assoc, Nat.add_comm 1]
      · rw [if_neg goesOn, if_neg goesOn]
        simp only [extended_eq low count (Nat.lt_of_not_le goesOn), fitsSigned_iff inside small]
        split
        · next fits => simp [fits, eq_comm]
        · next unfit => simp [unfit]

end Leb128

namespace Decoder

open Leb128 (Unsigned Signed)

theorem unsigned_exact {bits : Nat} (uneven : bits % 7 ≠ 0) :
    (unsigned bits).Exact (Unsigned bits) := by
  intro start bytes value after
  have positive : 0 < bits := Nat.pos_of_ne_zero fun isZero => uneven (by simp [isZero])
  rw [unsigned, Leb128.unsignedFrom_eq_ok_iff positive uneven]
  constructor
  · rintro ⟨used, rest, high, isBytes, form, isValue, isAfter⟩
    have isHigh : value = high := by simpa using isValue
    exact ⟨used, rest, isBytes, isHigh ▸ form, isAfter⟩
  · rintro ⟨used, rest, isBytes, form, isAfter⟩
    exact ⟨used, rest, value, isBytes, form, by simp, isAfter⟩

theorem signed_exact {bits : Nat} (positive : 0 < bits) : (signed bits).Exact (Signed bits) := by
  intro start bytes value after
  rw [signed, Leb128.signedFrom_eq_ok_iff positive (by decide)]
  constructor
  · rintro ⟨used, rest, high, isBytes, form, isValue, isAfter⟩
    have isHigh : value = high := by simpa using isValue
    exact ⟨used, rest, isBytes, isHigh ▸ form, isAfter⟩
  · rintro ⟨used, rest, isBytes, form, isAfter⟩
    exact ⟨used, rest, value, isBytes, form, by simp, isAfter⟩

theorem u32_exact : u32.Exact fun used value => Unsigned 32 used value.toNat :=
  (unsigned_exact (by decide)).map
    (fun _ _ form => UInt32.toNat_ofNat_of_lt' form.lt) fun _ => UInt32.ofNat_toNat

theorem u64_exact : u64.Exact fun used value => Unsigned 64 used value.toNat :=
  (unsigned_exact (by decide)).map
    (fun _ _ form => UInt64.toNat_ofNat_of_lt' form.lt) fun _ => UInt64.ofNat_toNat

/-! ## Words -/

theorem littleEndian_lt (content : List UInt8) : littleEndian content < 256 ^ content.length := by
  induction content with
  | nil => decide
  | cons byte rest induction =>
      have small := byte.toNat_lt
      rw [littleEndian, List.length_cons, Nat.pow_succ]
      omega

@[simp] theorem length_encode_littleEndian (count value : Nat) :
    (Encode.littleEndian count value).length = count := by
  induction count generalizing value with
  | zero => rfl
  | succ count induction => simp [Encode.littleEndian, induction]

theorem encode_littleEndian (content : List UInt8) :
    Encode.littleEndian content.length (littleEndian content) = content := by
  induction content with
  | nil => rfl
  | cons byte rest induction =>
      have small := byte.toNat_lt
      have low : (byte.toNat + 256 * littleEndian rest) % 256 = byte.toNat := by omega
      have high : (byte.toNat + 256 * littleEndian rest) / 256 = littleEndian rest := by omega
      simp [littleEndian, Encode.littleEndian, low, high, induction]

theorem littleEndian_encode {count value : Nat} (fits : value < 256 ^ count) :
    littleEndian (Encode.littleEndian count value) = value := by
  induction count generalizing value with
  | zero => exact (Nat.lt_one_iff.mp fits).symm
  | succ count induction =>
      have fitsHigh : value / 256 < 256 ^ count := by
        rw [Nat.pow_succ] at fits
        omega
      rw [Encode.littleEndian, littleEndian, induction fitsHigh]
      simp
      omega

theorem word_exact {α : Type} {count : Nat} {ofNat : Nat → α} {toNat : α → Nat}
    (fits : ∀ word, toNat word < 256 ^ count)
    (toNat_ofNat : ∀ value, value < 256 ^ count → toNat (ofNat value) = value)
    (ofNat_toNat : ∀ word, ofNat (toNat word) = word) :
    Exact (do return ofNat (littleEndian (← bytes count)))
      fun used word => used = Encode.littleEndian count (toNat word) := by
  intro start content word after
  rw [bind_eq_ok_iff]
  constructor
  · rintro ⟨used, behind, isUsed, isWord⟩
    rcases pure_eq_ok_iff.mp isWord with ⟨rfl, rfl⟩
    rcases (bytes_exact count _ _ _ _).mp isUsed with ⟨used, rest, rfl, ⟨rfl, rfl⟩, rfl⟩
    refine ⟨used, rest, rfl, ?_, rfl⟩
    show used = Encode.littleEndian used.length (toNat (ofNat (littleEndian used)))
    rw [toNat_ofNat _ (littleEndian_lt used), encode_littleEndian]
  · rintro ⟨used, rest, rfl, rfl, rfl⟩
    refine ⟨_, _, (bytes_exact count).reads ⟨rfl, by simp⟩ start rest, ?_⟩
    rw [littleEndian_encode (fits word), ofNat_toNat]
    rfl

theorem word32_exact : word32.Exact fun used word => used = Encode.littleEndian 4 word.toNat :=
  word_exact UInt32.toNat_lt (fun _ => UInt32.toNat_ofNat_of_lt') fun _ => UInt32.ofNat_toNat

theorem word64_exact : word64.Exact fun used word => used = Encode.littleEndian 8 word.toNat :=
  word_exact UInt64.toNat_lt (fun _ => UInt64.toNat_ofNat_of_lt') fun _ => UInt64.ofNat_toNat

end Decoder

end WasmLowering.Binary
