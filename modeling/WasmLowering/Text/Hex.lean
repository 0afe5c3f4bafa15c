/-! Hexadecimal spellings of bytes and of wider words. -/

namespace WasmLowering.Text

def hex (width value : Nat) : String :=
  let digits := Nat.toDigits 16 value
  String.ofList (List.replicate (width - digits.length) '0' ++ digits)

example : hex 2 10 = "0a" := by decide
example : hex 2 0x12C = "12c" := by decide

def capitalHexDigit (value : Nat) : Char :=
  (Nat.digitChar value).toUpper

def capitalHexByte (byte : UInt8) : List Char :=
  [capitalHexDigit (byte.toNat / 16), capitalHexDigit (byte.toNat % 16)]

example : capitalHexByte 0xF0 = ['F', '0'] := by decide

def hexBytes (bytes : List UInt8) : String :=
  String.join (bytes.map fun byte => hex 2 byte.toNat)

end WasmLowering.Text
