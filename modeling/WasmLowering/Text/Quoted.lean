import WasmLowering.Text.Hex
import WasmLowering.Text.Printable

/-! Names in double quotes, as error messages show them: printable characters
stand for themselves and everything else is escaped. -/

namespace WasmLowering.Text

def quotedChar (char : Char) : String :=
  match char with
  | '\x22' => "\\\""
  | '\\' => "\\\\"
  | '\x07' => "\\a"
  | '\x08' => "\\b"
  | '\x0c' => "\\f"
  | '\n' => "\\n"
  | '\r' => "\\r"
  | '\t' => "\\t"
  | '\x0b' => "\\v"
  | _ =>
      if isPrintable char then String.singleton char
      else if char.toNat < 0x80 then "\\x" ++ hex 2 char.toNat
      else if char.toNat < 0x10000 then "\\u" ++ hex 4 char.toNat
      else "\\U" ++ hex 8 char.toNat

def quoted (text : String) : String :=
  "\"" ++ String.join (text.toList.map quotedChar) ++ "\""

example : quoted "a\"b" = "\"a\\\"b\"" := by decide
example : quoted "\u200b" = "\"\\u200b\"" := by decide +kernel

end WasmLowering.Text
