import WasmLowering.Constant

/-! C spellings of constants. Integers are unsigned, so that none is too large for
its type. Numbers that decimals cannot express, such as infinities, NaNs with
their payloads and negative zero, have spellings of their own. -/

namespace WasmLowering.C

structure FloatSpelling where
  format : Decimal.FloatFormat
  /-- Enough significant digits to tell all numbers of the format apart. -/
  digits : Nat
  /-- The helper that turns an integer into the number with the same bits. -/
  reinterpret : String
  bitDigits : Nat
  payloadDigits : Nat
  negativeZero : String

def singleSpelling : FloatSpelling :=
  ⟨Decimal.single, 9, "f32_reinterpret_i32", 8, 6, "-0.f"⟩

def doubleSpelling : FloatSpelling :=
  ⟨Decimal.double, 17, "f64_reinterpret_i64", 16, 13, "-0.0"⟩

namespace FloatSpelling

def nanText (spelling : FloatSpelling) (bits : Nat) : String :=
  spelling.reinterpret ++ "(0x" ++ Text.hex spelling.bitDigits bits ++ ") /* " ++
    Decimal.signText spelling.format bits ++ "nan:0x" ++
    Text.hex spelling.payloadDigits (spelling.format.fraction bits) ++ " */"

def text (spelling : FloatSpelling) (bits : Nat) : String :=
  let format := spelling.format
  if format.isInfinite bits then Decimal.signText format bits ++ "INFINITY"
  else if format.isNaN bits then spelling.nanText bits
  else if format.isNegative bits && format.significand bits = 0 then spelling.negativeZero
  else Decimal.roundedText format spelling.digits bits

end FloatSpelling

def literal : Number → String
  | .i32 bits => toString bits.toNat ++ "u"
  | .i64 bits => toString bits.toNat ++ "ull"
  | .f32 bits => singleSpelling.text bits.toNat
  | .f64 bits => doubleSpelling.text bits.toNat

example : literal (.i32 0xFFFFFFFF) = "4294967295u" := by decide
example : literal (.f32 0xFFC00001) = "f32_reinterpret_i32(0xffc00001) /* -nan:0x400001 */" := by
  decide
example : literal (.f64 0x8000000000000000) = "-0.0" := by decide
example : literal (.f64 0x3FF8000000000000) = "1.5" := by decide

end WasmLowering.C
