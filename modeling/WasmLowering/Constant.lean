import WasmLowering.ValueType
import WasmLowering.Decimal.FloatBits

/-! Constants. Floating-point numbers are kept as bit patterns, so NaN payloads
and the sign of zero survive. -/

namespace WasmLowering

inductive Number where
  | i32 (bits : UInt32)
  | i64 (bits : UInt64)
  | f32 (bits : UInt32)
  | f64 (bits : UInt64)
  deriving DecidableEq, Repr, Inhabited

/-- A constant of any type: a number, a vector given by its bytes, or bits of a
type that has no constants of its own. -/
inductive Constant where
  | number (value : Number)
  | v128 (bytes : List UInt8)
  | other (type : ValueType) (bits : UInt64)
  deriving DecidableEq, Repr, Inhabited

def Number.scalar : Number → Scalar
  | i32 _ => .i32
  | i64 _ => .i64
  | f32 _ => .f32
  | f64 _ => .f64

def Constant.type : Constant → ValueType
  | number value => value.scalar.toValueType
  | v128 _ => .v128
  | other type _ => type

def Constant.ofBits (type : ValueType) (bits : UInt64) : Constant :=
  match type with
  | .i32 => .number (.i32 bits.toUInt32)
  | .i64 => .number (.i64 bits)
  | .f32 => .number (.f32 bits.toUInt32)
  | .f64 => .number (.f64 bits)
  | type => .other type bits

/-! Floating-point text. Both writers put a minus sign in front of negative
numbers and differ in the digits they choose. -/

namespace Decimal

def signText (format : FloatFormat) (bits : Nat) : String :=
  if format.isNegative bits then "-" else ""

def roundedText (format : FloatFormat) (digits bits : Nat) : String :=
  let (numerator, denominator) := format.magnitude bits
  if numerator = 0 then signText format bits ++ "0"
  else
    let number := round digits numerator denominator
    signText format bits ++ text digits number.digits number.exponent

/-- Any number with the fewest digits that read back to it; from a million on
with an exponent. -/
def shortestText (format : FloatFormat) (bits : Nat) : String :=
  if format.isNaN bits then "NaN"
  else if format.isInfinite bits then
    if format.isNegative bits then "-Inf" else "+Inf"
  else if format.significand bits = 0 then signText format bits ++ "0"
  else
    let number := format.shortest bits
    signText format bits ++ text 6 number.digits number.exponent

example : shortestText double 0x3FB999999999999A = "0.1" := by decide
example : roundedText double 17 0x3FB999999999999A = "0.10000000000000001" := by decide
example : shortestText single 0x49742400 = "1e+06" := by decide

end Decimal

def Constant.text : Constant → String
  | number (.i32 bits) => "i32.const " ++ toString bits.toInt32.toInt
  | number (.i64 bits) => "i64.const " ++ toString bits.toInt64.toInt
  | number (.f32 bits) => "f32.const " ++ Decimal.shortestText Decimal.single bits.toNat
  | number (.f64 bits) => "f64.const " ++ Decimal.shortestText Decimal.double bits.toNat
  | v128 bytes => "v128.const " ++ Text.hexBytes bytes
  | other type _ => "const " ++ type.name

end WasmLowering
