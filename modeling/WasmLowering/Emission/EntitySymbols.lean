import WasmLowering.C.Statement
import WasmLowering.Emission.EmitError
import WasmLowering.Symbol.Choice

/-! The C symbols of the entities of a module. -/

namespace WasmLowering.Emission

abbrev EntityKey := ExternKind × String

structure EntitySymbols where
  /-- All symbols at file scope, and those that cannot be used there. -/
  taken : Symbol.SymbolSet := Symbol.reserved
  /-- The symbols of the entities, the newest first. -/
  bound : List (EntityKey × String) := []
  imported : List EntityKey := []

namespace EntitySymbols

def take (symbols : EntitySymbols) (symbol : String) : EntitySymbols :=
  { symbols with taken := symbols.taken.insert symbol }

def choose (symbols : EntitySymbols) (name : String) : String × EntitySymbols :=
  let (symbol, taken) := Symbol.define symbols.taken name
  (symbol, { symbols with taken })

def define (symbols : EntitySymbols) (kind : ExternKind) (name : String) :
    Except EmitError (String × EntitySymbols) := do
  promised (name ≠ "") (.unnamed kind)
  let (symbol, symbols) := symbols.choose (Symbol.stripDollar name)
  return (symbol, { symbols with bound := ((kind, name), symbol) :: symbols.bound })

def defineImport (symbols : EntitySymbols) (kind : ExternKind) (name symbol : String) :
    Except EmitError EntitySymbols := do
  promised (name ≠ "") (.unnamedImport kind)
  let key := (kind, name)
  return { symbols.take symbol with
    bound := (key, symbol) :: symbols.bound, imported := key :: symbols.imported }

def external (symbols : EntitySymbols) (kind : ExternKind) (name : String) :
    Except EmitError C.External := do
  let symbol ← found (symbols.bound.lookup (kind, name)) (.noSymbol kind name)
  return ⟨kind, name, symbol, symbols.imported.contains (kind, name)⟩

end EntitySymbols

/-! What a reference means. -/

def referenceName (what : String) (reference : Reference) : Except EmitError String :=
  match reference with
  | .name text => .ok text
  | .index _ => .error (.defect (.unresolved what reference))

def funcOf (module : Module) (reference : Reference) : Except EmitError Func :=
  found (module.func? reference) (.unknown "function" reference)

def globalOf (module : Module) (reference : Reference) : Except EmitError Global :=
  found (module.global? reference) (.unknown "global" reference)

def memoryOf (module : Module) (reference : Reference) : Except EmitError Memory :=
  found (module.memory? reference) (.unknown "memory" reference)

def tableOf (module : Module) (reference : Reference) : Except EmitError Table :=
  found (module.table? reference) (.unknown "table" reference)

/-! C types and constants. -/

def scalarOf (type : ValueType) : Except EmitError Scalar :=
  match type.scalar? with
  | some scalar => .ok scalar
  | none => unsupported (.valueType type)

def numberOf : Constant → Except EmitError Number
  | .number value => .ok value
  | value => unsupported (.constant value.type)

def resultOf : List ValueType → Except EmitError (Option Scalar)
  | [] => .ok none
  | [type] => do return some (← scalarOf type)
  | types => unsupported (.resultCount types.length)

def prototypeOf (signature : Signature) : Except EmitError C.Prototype := do
  let result ← resultOf signature.results
  return ⟨← signature.params.mapM scalarOf, result⟩

end WasmLowering.Emission
