import WasmLowering.C.Statement
import WasmLowering.Symbol.Choice

/-! C names of types, variables and labels. -/

namespace WasmLowering

namespace Scalar

def cName : Scalar → String
  | i32 => "u32"
  | i64 => "u64"
  | f32 => "f32"
  | f64 => "f64"

def signedName : Scalar → String
  | i32 => "s32"
  | i64 => "s64"
  | f32 => "s32"
  | f64 => "s64"

def tag : Scalar → String
  | i32 => "WASM_RT_I32"
  | i64 => "WASM_RT_I64"
  | f32 => "WASM_RT_F32"
  | f64 => "WASM_RT_F64"

def shiftMask : Scalar → String
  | i64 => "63"
  | _ => "31"

end Scalar

namespace C

def resultName : Option Scalar → String
  | none => "void"
  | some type => type.cName

def Prototype.declare (prototype : Prototype) (name : String) : String :=
  resultName prototype.result ++ " " ++ name ++ "(" ++
    (if prototype.params.isEmpty then "void"
    else ", ".intercalate (prototype.params.map Scalar.cName)) ++ ")"

example : Prototype.declare ⟨[.i32, .f64], none⟩ "f" = "void f(u32, f64)" := by decide

def Ident.wanted : Ident → String
  | .named name => Symbol.stripDollar name
  | .slot ⟨depth, type⟩ => String.ofList [Symbol.letter type] ++ toString depth
  | .label ⟨_, name⟩ => Symbol.stripDollar name

abbrev Spelling := List (Ident × String)

namespace Spelling

/-- Chooses a symbol for each of the given things, all different and none taken. -/
def choose : Symbol.SymbolSet → List Ident → Spelling
  | _, [] => []
  | taken, ident :: rest =>
      let (symbol, taken) := Symbol.define taken ident.wanted
      (ident, symbol) :: choose taken rest

/-- The symbol of something. If a parameter and a local have the same name, it
means the local, which is chosen later. -/
def symbol (spelling : Spelling) (ident : Ident) : String :=
  (spelling.reverse.lookup ident).getD ""

def slot (spelling : Spelling) (slot : Slot) : String := spelling.symbol (.slot slot)

def label (spelling : Spelling) (label : Label) : String := spelling.symbol (.label label)

def named (spelling : Spelling) (name : String) : String := spelling.symbol (.named name)

end Spelling

namespace Function

def idents (function : Function) : List Ident :=
  (function.params ++ function.locals).map (fun (_, name) => .named name) ++ function.mentioned

def spelling (taken : Symbol.SymbolSet) (function : Function) : Spelling :=
  Spelling.choose taken function.idents

def slotsOf (function : Function) (type : Scalar) : List Slot :=
  (function.mentioned.filterMap fun
    | .slot slot => if slot.type = type then some slot else none
    | _ => none).mergeSort (fun left right => left.depth ≤ right.depth)

end Function

end C

end WasmLowering
