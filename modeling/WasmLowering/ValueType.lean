import WasmLowering.Text.Hex

/-! Value types and signatures.

A value type is written as one byte in a binary module. Besides the types that
WebAssembly defines there is the placeholder `any`, for operands whose type the
instruction does not fix, and every other byte keeps its number so that it can be
reported. -/

namespace WasmLowering

inductive ValueType where
  | any
  | i32
  | i64
  | f32
  | f64
  | v128
  | funcref
  | externref
  | unknown (byte : UInt8)
  deriving DecidableEq, Repr, Inhabited

namespace ValueType

def ofByte (byte : UInt8) : ValueType :=
  match byte with
  | 0x00 => any
  | 0x7F => i32
  | 0x7E => i64
  | 0x7D => f32
  | 0x7C => f64
  | 0x7B => v128
  | 0x70 => funcref
  | 0x6F => externref
  | _ => unknown byte

def byte : ValueType → UInt8
  | any => 0x00
  | i32 => 0x7F
  | i64 => 0x7E
  | f32 => 0x7D
  | f64 => 0x7C
  | v128 => 0x7B
  | funcref => 0x70
  | externref => 0x6F
  | unknown byte => byte

def name : ValueType → String
  | any => "any"
  | i32 => "i32"
  | i64 => "i64"
  | f32 => "f32"
  | f64 => "f64"
  | v128 => "v128"
  | funcref => "funcref"
  | externref => "externref"
  | unknown byte => "type(0x" ++ Text.hex 2 byte.toNat ++ ")"

def declared? (byte : UInt8) : Option ValueType :=
  match ofByte byte with
  | any => none
  | unknown _ => none
  | type => some type

def isReference : ValueType → Bool
  | funcref => true
  | externref => true
  | _ => false

@[simp] theorem byte_ofByte (byte : UInt8) : (ofByte byte).byte = byte := by
  unfold ofByte
  split <;> rfl

example : ofByte 0x40 = unknown 0x40 := rfl
example : declared? 0x7B = some v128 := rfl

end ValueType

/-! The four number types are the ones that have a C type. -/

inductive Scalar where
  | i32
  | i64
  | f32
  | f64
  deriving DecidableEq, Repr, Inhabited

namespace Scalar

def toValueType : Scalar → ValueType
  | i32 => .i32
  | i64 => .i64
  | f32 => .f32
  | f64 => .f64

def all : List Scalar := [i32, i64, f32, f64]

end Scalar

def ValueType.scalar? : ValueType → Option Scalar
  | i32 => some .i32
  | i64 => some .i64
  | f32 => some .f32
  | f64 => some .f64
  | _ => none

@[simp] theorem Scalar.scalar?_toValueType (scalar : Scalar) :
    scalar.toValueType.scalar? = some scalar := by
  cases scalar <;> rfl

theorem ValueType.scalar?_eq_some_iff (type : ValueType) (scalar : Scalar) :
    type.scalar? = some scalar ↔ type = scalar.toValueType := by
  cases type <;> cases scalar <;> simp [ValueType.scalar?, Scalar.toValueType]

/-! Lists of types are shown in brackets, and a signature joins two of them with
an arrow. -/

def ValueType.listText (types : List ValueType) : String :=
  "[" ++ " ".intercalate (types.map name) ++ "]"

structure Signature where
  params : List ValueType := []
  results : List ValueType := []
  deriving DecidableEq, Repr, Inhabited

def Signature.text (signature : Signature) : String :=
  ValueType.listText signature.params ++ " -> " ++ ValueType.listText signature.results

example : Signature.text ⟨[.i32, .i64], []⟩ = "[i32 i64] -> []" := by decide

end WasmLowering
