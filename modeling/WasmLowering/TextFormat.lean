import WasmLowering.Failure
import WasmLowering.Text.Space

/-! Modules in the text format. They are recognized, so that they can be refused
by name; there is no assembler for them. -/

namespace WasmLowering.TextFormat

def binaryMagic : List UInt8 := [0x00, 0x61, 0x73, 0x6D]

/-- Whether bytes start with an opening parenthesis once white space and at most
`lines` comment lines in front of it are skipped. -/
def opensWithParenthesis (lines : Nat) (bytes : List UInt8) : Bool :=
  match Text.dropSpaces bytes, lines with
  | 0x28 :: _, _ => true
  | 0x3B :: 0x3B :: rest, lines + 1 =>
      match rest.dropWhile (· ≠ 0x0A) with
      | [] => false
      | _ :: behind => opensWithParenthesis lines behind
  | _, _ => false

def isText (bytes : List UInt8) : Bool :=
  !binaryMagic.isPrefixOf bytes && opensWithParenthesis bytes.length bytes

inductive TextError where
  | empty
  | unavailable
  deriving DecidableEq, Repr

def TextError.toFailure : TextError → Failure
  | empty => .invalidInput .parse "empty wat source"
  | unavailable => .plain "wat: text format support requires cgo"

def refusal (bytes : List UInt8) : TextError :=
  if Text.isBlank bytes then .empty else .unavailable

end WasmLowering.TextFormat
