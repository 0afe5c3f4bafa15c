/-! White space in the sense of the Unicode property `White_Space`, on text and
on bytes that need not be well-formed UTF-8. -/

namespace WasmLowering.Text

def spaces : List Char :=
  ['\t', '\n', '\x0b', '\x0c', '\r', ' ', '\u0085', '\u00a0', '\u1680',
    '\u2000', '\u2001', '\u2002', '\u2003', '\u2004', '\u2005', '\u2006', '\u2007',
    '\u2008', '\u2009', '\u200a', '\u2028', '\u2029', '\u202f', '\u205f', '\u3000']

def isSpace (char : Char) : Bool :=
  spaces.contains char

example : spaces.length = 25 := rfl

def trim (text : String) : String :=
  let front := text.toList.dropWhile isSpace
  String.ofList (front.reverse.dropWhile isSpace).reverse

/-! On raw bytes only a complete encoding of a white-space character counts as
one, so a stray byte such as `0x85` ends the blank part. -/

def spaceEncodings : List (List UInt8) :=
  spaces.map fun char => (String.singleton char).toUTF8.toList

def dropSpacesUpTo : Nat → List UInt8 → List UInt8
  | 0, bytes => bytes
  | count + 1, bytes =>
      match spaceEncodings.find? (·.isPrefixOf bytes) with
      | some encoding => dropSpacesUpTo count (bytes.drop encoding.length)
      | none => bytes

/-- The bytes from the first one on that does not start a white-space
character. Every such character takes at least one byte, so the length of the
input bounds their number. -/
def dropSpaces (bytes : List UInt8) : List UInt8 :=
  dropSpacesUpTo bytes.length bytes

def isBlank (bytes : List UInt8) : Bool :=
  (dropSpaces bytes).isEmpty

end WasmLowering.Text
