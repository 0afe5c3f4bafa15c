import WasmLowering.Compile
import WasmLowering.Text.LowerCase
import WasmLowering.Text.Space

/-! A browser of compiled functions: a list of them, narrowed by a filter, beside
the code of the selected one. -/

namespace WasmLowering

def Text.occursIn (needle : List Char) : List Char → Bool
  | [] => needle.isEmpty
  | char :: rest => needle.isPrefixOf (char :: rest) || occursIn needle rest

namespace Browser

inductive Key where
  | up
  | down
  | home
  | last
  | enter
  | escape
  | backspace
  | interrupt
  | typed (text : String)
  deriving DecidableEq, Repr

/-- How a key is called. Typed text is called as it reads, so text that reads like
the name of another key does what that key does. -/
def Key.name : Key → String
  | .up => "up"
  | .down => "down"
  | .home => "home"
  | .last => "end"
  | .enter => "enter"
  | .escape => "esc"
  | .backspace => "backspace"
  | .interrupt => "ctrl+c"
  | .typed text => text

inductive Event where
  | window (width height : Int)
  | key (key : Key)
  deriving DecidableEq, Repr

end Browser

structure Browser where
  functions : List FunctionOutput
  /-- The positions of the functions that the filter leaves. -/
  visible : List Nat
  /-- The position of the selected function among them. -/
  selected : Nat
  filter : String
  isFiltering : Bool
  /-- The rows of the list. -/
  height : Int
  codeWidth : Int
  codeHeight : Int
  /-- The text in the code pane. -/
  shown : String

namespace Browser

/-! Sizes. -/

def listWidth : Int := 36

def frameLines : Int := 5

def filterLimit : Nat := 128

/-! The selection. -/

def current (browser : Browser) : Option FunctionOutput :=
  browser.visible[browser.selected]?.bind fun position => browser.functions[position]?

def refresh (browser : Browser) : Browser :=
  { browser with
    shown :=
      match browser.current with
      | some function => function.text
      | none => "no matching functions" }

def passes (query : String) (function : FunctionOutput) : Bool :=
  let matching (name : String) := Text.occursIn query.toList (Text.lower name).toList
  query = "" || matching function.name || matching function.symbol

def query (browser : Browser) : String :=
  Text.lower (Text.trim browser.filter)

def applyFilter (browser : Browser) : Browser :=
  let visible := (browser.functions.zipIdx.filter fun (function, _) =>
    passes browser.query function).map (·.2)
  { browser with visible, selected := 0 }.refresh

def move (browser : Browser) (distance : Int) : Browser :=
  if browser.visible.isEmpty then browser
  else
    let selected := min (max (browser.selected + distance) 0) (browser.visible.length - 1)
    { browser with selected := selected.toNat }.refresh

def ofFunctions (functions : List FunctionOutput) : Browser :=
  ({ functions, visible := [], selected := 0, filter := "", isFiltering := false,
     height := 20, codeWidth := 80, codeHeight := 20, shown := "" } : Browser).applyFilter

/-! Events. Each also says whether it ends the browser. -/

def resize (browser : Browser) (width height : Int) : Browser :=
  let rows := max (height - frameLines) 3
  { browser with height := rows, codeWidth := max (width - listWidth) 20, codeHeight := rows }

def editKey (browser : Browser) (key : Key) (edited : String) : Browser × Bool :=
  match key.name with
  | "ctrl+c" => (browser, true)
  | "esc" => ({ browser with filter := "", isFiltering := false }.applyFilter, false)
  | "enter" => ({ browser with isFiltering := false }.applyFilter, false)
  | _ => ({ browser with filter := edited }.applyFilter, false)

def selectKey (browser : Browser) (key : Key) : Browser × Bool :=
  match key.name with
  | "ctrl+c" | "q" => (browser, true)
  | "/" => ({ browser with isFiltering := true }, false)
  | "esc" => ({ browser with filter := "" }.applyFilter, false)
  | "up" | "k" => (browser.move (-1), false)
  | "down" | "j" => (browser.move 1, false)
  | "home" | "g" => (browser.move (-browser.visible.length), false)
  | "end" | "G" => (browser.move browser.visible.length, false)
  | _ => (browser, false)

/-- The browser after an event, and whether the event ends it. Whatever the box of
the filter makes of the event, it holds `edited` if the event is passed on to it. -/
def updateWith (browser : Browser) (event : Event) (edited : String) : Browser × Bool :=
  match event with
  | .window width height => (browser.resize width height, false)
  | .key key =>
      if browser.isFiltering then browser.editKey key edited else browser.selectKey key

/-! The box of the filter, a component of its own. It is one line: tabs and line ends
become blanks, and other control characters are left out. -/

def lineChar (char : Char) : Option Char :=
  if char = '\t' || char = '\n' || char = '\r' then some ' '
  else if char.toNat < 0x20 || (0x7F ≤ char.toNat && char.toNat < 0xA0) then none
  else if char = '\ufffd' then none
  else some char

def extend (filter text : String) : String :=
  String.ofList (filter.toList ++
    (text.toList.filterMap lineChar).take (filterLimit - filter.length))

/-- What the box of the filter makes of an event, where the browser runs as a program.
What is proved of browsing holds for any other box as well. -/
def edit (filter : String) : Event → String
  | .key .backspace => String.ofList filter.toList.dropLast
  | .key (.typed text) => extend filter text
  | _ => filter

def update (browser : Browser) (event : Event) : Browser × Bool :=
  browser.updateWith event (edit browser.filter event)

def shownLines (browser : Browser) : Nat :=
  browser.shown.toList.count '\n' + 1

end Browser

/-- Bytes cut to a length, with an ellipsis in place of what is cut off. Too
small lengths do not cut. -/
def Text.truncate (bytes : List UInt8) (length : Int) : List UInt8 :=
  if bytes.length ≤ length || length < 2 then bytes
  else bytes.take (length - 1).toNat ++ Text.bytes "\u2026"

example : Text.truncate (Text.bytes "abcdef") 4 = Text.bytes "abc\u2026" := by decide

end WasmLowering
