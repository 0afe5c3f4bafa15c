import WasmLowering.Emission.EmitError
import WasmLowering.Text.Hex
import WasmLowering.Text.Utf8

/-! C symbols made from names of a module.

A mangled name starts with `Z_`. Letters, digits and underscores stand for
themselves, except the letter Z; every other byte is written as Z and two
digits, so that `Z_` only ever starts a component and symbols made of several
components can be taken apart again. -/

namespace WasmLowering.Symbol

def isLetter (byte : UInt8) : Bool :=
  (0x61 ≤ byte && byte ≤ 0x7A) || (0x41 ≤ byte && byte ≤ 0x5A)

def isDigit (byte : UInt8) : Bool := 0x30 ≤ byte && byte ≤ 0x39

def isAlphanumeric (byte : UInt8) : Bool := isLetter byte || isDigit byte

def isPlain (byte : UInt8) : Bool :=
  (isAlphanumeric byte && byte ≠ 0x5A) || byte = 0x5F

def escape (byte : UInt8) : List Char :=
  if isPlain byte then [Char.ofUInt8 byte] else 'Z' :: Text.capitalHexByte byte

def component (name : List UInt8) : List Char :=
  'Z' :: '_' :: name.flatMap escape

def mangle (name : List UInt8) : String := String.ofList (component name)

example : mangle (Text.bytes "a.Z_") = "Z_aZ2EZ5A_" := by decide

/-! Types are written as one letter each. -/

def letter : Scalar → Char
  | .i32 => 'i'
  | .i64 => 'j'
  | .f32 => 'f'
  | .f64 => 'd'

/-- The letters of a list of types; an empty list has a letter of its own. -/
def letters (types : List Scalar) : List Char :=
  if types.isEmpty then ['v'] else types.map letter

def mangledType (type : ValueType) : Except EmitError Scalar :=
  match type.scalar? with
  | some scalar => .ok scalar
  | none => unsupported (.mangledType type)

def ofLetters (letters : List Char) : List UInt8 := letters.map (·.toUInt8)

/-- A function's name followed by the letters of its results and parameters. -/
def mangleFunc (name : List UInt8) (params results : List Scalar) : String :=
  mangle name ++ mangle (ofLetters (letters results ++ letters params))

def mangleGlobal (name : List UInt8) (type : Scalar) : String :=
  mangle name ++ mangle (ofLetters [letter type])

example : mangleFunc (Text.bytes "add") [.i32, .i64] [.f64] = "Z_addZ_dij" := by decide
example : mangleFunc (Text.bytes "") [] [] = "Z_Z_vv" := by decide

def funcSymbol (name : List UInt8) (signature : Signature) : Except EmitError String := do
  let results ← signature.results.mapM mangledType
  let params ← signature.params.mapM mangledType
  return mangleFunc name params results

def globalSymbol (name : List UInt8) (type : ValueType) : Except EmitError String := do
  return mangleGlobal name (← mangledType type)

def prefixed (symbol : String) : String := "WASM_RT_ADD_PREFIX(" ++ symbol ++ ")"

/-! Other names only have to become identifiers. Bytes that cannot stand in one
become underscores, one for each byte. -/

def legalFirst (byte : UInt8) : Char := if isLetter byte then Char.ofUInt8 byte else '_'

def legalNext (byte : UInt8) : Char := if isAlphanumeric byte then Char.ofUInt8 byte else '_'

def legalChars : List UInt8 → List Char
  | [] => ['_']
  | first :: rest => legalFirst first :: rest.map legalNext

def legalize (name : List UInt8) : String := String.ofList (legalChars name)

example : legalize (Text.bytes "2d.f\u00fc") = "_d_f__" := by decide

end WasmLowering.Symbol
