import WasmLowering.Naming.Fresh
import WasmLowering.Symbol.Mangle
import WasmLowering.Symbol.Reserved

/-! Choosing symbols that are not taken yet. A symbol that is taken gets a number
behind it, counting from zero. -/

namespace WasmLowering.Symbol

def candidate (symbol : String) : Nat → String
  | 0 => symbol
  | number + 1 => symbol ++ "_" ++ toString number

def free (taken : SymbolSet) (symbol : String) : String :=
  candidate symbol (Naming.leastFree taken.contains (candidate symbol) taken.size 0)

def define (taken : SymbolSet) (name : String) : String × SymbolSet :=
  let symbol := free taken (legalize (Text.bytes name))
  (symbol, taken.insert symbol)

def stripDollar (name : String) : String :=
  match name.toList with
  | '$' :: rest => String.ofList rest
  | _ => name

example : stripDollar "$$a" = "$a" := by decide
example : (define (∅ : SymbolSet) "2d").1 = "_d" := by decide
example : (define ((∅ : SymbolSet).insert "int") "$int").1 = "_int" := by decide
example : (define ((∅ : SymbolSet).insert "int") "int").1 = "int_0" := by decide

end WasmLowering.Symbol
