import WasmLowering.Text.Quoted

/-! Messages from patterns with holes.

A hole is a percent sign and a letter, between which flags may stand. It takes the
next argument. Nothing about a message is worth a failure of its own, so what does
not fit is told inside the message: a hole without an argument or with a letter that
has no meaning, a sign at the end, and the arguments that no hole took. -/

namespace WasmLowering.Text

def flags : List Char := [' ', '+', '-', '#', '0']

def missing (letter : Char) : String :=
  "%!" ++ String.singleton letter ++ "(MISSING)"

def withType (argument : String) : String := "string=" ++ argument

def filled (letter : Char) (argument : String) : String :=
  if letter = 's' || letter = 'v' then argument
  else if letter = 'q' then quoted argument
  else "%!" ++ String.singleton letter ++ "(" ++ withType argument ++ ")"

def leftover (arguments : List String) : String :=
  if arguments.isEmpty then ""
  else "%!(EXTRA " ++ ", ".intercalate (arguments.map withType) ++ ")"

def fillFrom (inHole : Bool) : (pattern : List Char) → (arguments : List String) → String
  | [], arguments => (if inHole then "%!(NOVERB)" else "") ++ leftover arguments
  | char :: rest, arguments =>
      if !inHole then
        if char = '%' then fillFrom true rest arguments
        else String.singleton char ++ fillFrom false rest arguments
      else if flags.contains char then fillFrom true rest arguments
      else if char = '%' then "%" ++ fillFrom false rest arguments
      else
        match arguments with
        | [] => missing char ++ fillFrom false rest []
        | argument :: others => filled char argument ++ fillFrom false rest others

/-- A pattern with its holes filled. Two signs stand for one. -/
def fill (pattern : String) (arguments : List String) : String :=
  fillFrom false pattern.toList arguments

example : fill "%s: 5%%, %s" ["a", "b"] = "a: 5%, b" := by decide
example : fill "%s and %s" ["a"] = "a and %!s(MISSING)" := by decide
example : fill "%d" ["a", "b"] = "%!d(string=a)%!(EXTRA string=b)" := by decide
example : fill "100%" [] = "100%!(NOVERB)" := by decide

end WasmLowering.Text
