/-! A printer of indented lines. Indentation is written when the first text of a
line is, so empty lines stay empty. -/

namespace WasmLowering.C

structure Printer where
  text : String := ""
  indent : Nat := 0
  atLineStart : Bool := false
  deriving Repr, Inhabited

namespace Printer

def step : Nat := 2

def margin (printer : Printer) : String :=
  if printer.atLineStart then String.ofList (List.replicate printer.indent ' ') else ""

def put (printer : Printer) (text : String) : Printer :=
  { printer with text := printer.text ++ printer.margin ++ text, atLineStart := false }

def write (printer : Printer) (text : String) : Printer :=
  if text = "" then printer else printer.put text

def writeAll (printer : Printer) (texts : List String) : Printer :=
  texts.foldl write printer

def newline (printer : Printer) : Printer :=
  { printer with text := printer.text ++ "\n", atLineStart := true }

def line (printer : Printer) (texts : List String) : Printer :=
  (printer.writeAll texts).newline

def openBrace (printer : Printer) : Printer :=
  let printer := printer.write "\x7b"
  { printer with indent := printer.indent + step }.newline

def dedent (printer : Printer) (count : Int) : Printer :=
  { printer with indent := (printer.indent - count).toNat }

def closeBrace (printer : Printer) : Printer :=
  (printer.dedent step).write "\x7d"

def verbatim (printer : Printer) (text : String) : Printer :=
  if text = "" then printer
  else { printer with text := printer.text ++ text, atLineStart := text.endsWith "\n" }

end Printer

end WasmLowering.C
