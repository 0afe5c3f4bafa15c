import WasmLowering.Text.Hex

/-! Names inside block comments. Control characters, backslashes and a slash that
would end the comment are written as escapes. -/

namespace WasmLowering.C

def needsEscape (previous : Option Char) (char : Char) : Bool :=
  char.toNat < 0x20 || char.toNat = 0x7F || char = '\\' || (char = '/' && previous = some '*')

def commentChar (previous : Option Char) (char : Char) : List Char :=
  if needsEscape previous char then
    '\\' :: 'x' :: (Text.hex 2 char.toNat).toList
  else [char]

def commentChars : (previous : Option Char) → List Char → List Char
  | _, [] => []
  | previous, char :: rest => commentChar previous char ++ commentChars (some char) rest

def commentBytes (bytes : List UInt8) : List UInt8 :=
  (commentChars none (bytes.map Char.ofUInt8)).map Char.toUInt8

/-- A text that stays inside the comment it is put into. -/
def comment (text : String) : String :=
  String.ofList (commentChars none text.toList)

example : comment "*/*/" = "*\\x2f*\\x2f" := by decide
example : comment "a\nb" = "a\\x0ab" := by decide

end WasmLowering.C
