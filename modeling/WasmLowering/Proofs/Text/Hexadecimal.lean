import Mathlib.Data.Nat.Digits.Defs
import WasmLowering.Text.Hex

/-! Hexadecimal digits read back, so a value can be told from its digits. -/

namespace WasmLowering.Text

def hexDigitValue (digit : Char) : Nat :=
  if digit.isDigit then digit.toNat - '0'.toNat else digit.toNat - 'a'.toNat + 10

def hexValue (digits : List Char) : Nat :=
  digits.foldl (fun value digit => 16 * value + hexDigitValue digit) 0

theorem hexDigitValue_digitChar {value : Nat} (small : value < 16) :
    hexDigitValue (Nat.digitChar value) = value := by
  have all : ∀ digit : Fin 16, hexDigitValue (Nat.digitChar digit) = digit := by decide
  exact all ⟨value, small⟩

theorem hexValue_append (digits : List Char) (digit : Char) :
    hexValue (digits ++ [digit]) = 16 * hexValue digits + hexDigitValue digit := by
  rw [hexValue, List.foldl_append]
  rfl

theorem hexValue_toDigits (value : Nat) : hexValue (Nat.toDigits 16 value) = value := by
  induction value using Nat.strongRecOn with
  | ind value smaller =>
      rw [Nat.toDigits_eq_if (by decide)]
      split
      · next small =>
          rw [hexValue, List.foldl_cons, List.foldl_nil, Nat.mul_zero, Nat.zero_add,
            hexDigitValue_digitChar small]
      · next large =>
          have isSmall := Nat.mod_lt value (show 0 < 16 by decide)
          rw [hexValue_append, smaller (value / 16) (by omega), hexDigitValue_digitChar isSmall,
            Nat.div_add_mod]

theorem hexValue_zeros (count : Nat) (digits : List Char) :
    hexValue (List.replicate count '0' ++ digits) = hexValue digits := by
  induction count with
  | zero => rfl
  | succ count fewer => exact fewer

theorem hexValue_hex (width value : Nat) : hexValue (hex width value).toList = value := by
  rw [hex, String.toList_ofList, hexValue_zeros, hexValue_toDigits]

theorem length_hex {width value : Nat} (positive : 0 < width) (fits : value < 16 ^ width) :
    (hex width value).toList.length = width := by
  have short := (Nat.length_toDigits_le_iff (by decide) positive).mpr fits
  rw [hex, String.toList_ofList, List.length_append, List.length_replicate,
    Nat.sub_add_cancel short]

theorem toList_hex_two {value : Nat} (isByte : value < 256) :
    (hex 2 value).toList = [Nat.digitChar (value / 16), Nat.digitChar (value % 16)] := by
  have highHalf : value / 16 < 16 := by omega
  have split : Nat.toDigits 16 (value % 16) = [Nat.digitChar (value % 16)] :=
    Nat.toDigits_of_lt_base (Nat.mod_lt _ (by decide))
  rw [hex, String.toList_ofList]
  rcases Nat.eq_zero_or_pos (value / 16) with isZero | positive
  · have small : value % 16 = value := Nat.mod_eq_of_lt (by omega)
    rw [small] at split
    rw [isZero, small, split]
    rfl
  · rw [Nat.toDigits_eq_if (by decide), if_neg (by omega), Nat.toDigits_of_lt_base highHalf]
    rfl

end WasmLowering.Text
