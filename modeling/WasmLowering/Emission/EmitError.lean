import WasmLowering.Failure
import WasmLowering.Module

/-! Why a module cannot be written as C.

Either it uses something that C code is not written for, or it breaks a promise
that validation and naming have made. Positions on the operand stack are counted
from the bottom. -/

namespace WasmLowering

inductive Unsupported where
  | valueType (type : ValueType)
  | mangledType (type : ValueType)
  | resultCount (count : Nat)
  | constant (type : ValueType)
  | memories (count : Nat)
  | tables (count : Nat)
  | exceptionTags
  | tableOf (element : ValueType)
  | funcResults (func : String) (count : Nat)
  | importOf (entry : Import)
  | exportOf (entry : Export)
  | inConstant (opcode : Opcode)
  | localType (type : ValueType) (func : String)
  | instruction (opcode : Opcode) (func : String)
  | indirectResults (count : Nat) (func : String)
  deriving DecidableEq, Repr

namespace Unsupported

def text : Unsupported → String
  | valueType type => "value type " ++ type.name
  | mangledType type => "mangle value type " ++ type.name
  | resultCount count => toString count ++ " results"
  | constant type => type.name ++ " constant"
  | memories count => "multiple memories (" ++ toString count ++ ")"
  | tables count => "multiple tables (" ++ toString count ++ ")"
  | exceptionTags => "exception tags"
  | tableOf element => "table of " ++ element.name
  | funcResults func count => "function " ++ func ++ " returns " ++ toString count ++ " values"
  | importOf entry => entry.kind.name ++ " import " ++ entry.moduleName ++ "." ++ entry.fieldName
  | exportOf entry => entry.kind.name ++ " export " ++ Text.quoted entry.name
  | inConstant opcode => opcode.name ++ " in constant expression"
  | localType type func => "local of type " ++ type.name ++ " in " ++ func
  | instruction opcode func => "instruction " ++ opcode.name ++ " in " ++ func
  | indirectResults count func =>
      "call_indirect returning " ++ toString count ++ " values in " ++ func

end Unsupported

inductive Defect where
  | unnamed (kind : ExternKind)
  | unnamedImport (kind : ExternKind)
  | noSymbol (kind : ExternKind) (name : String)
  | unresolved (what : String) (reference : Reference)
  | unknown (what : String) (reference : Reference)
  | noSignedType (type : ValueType)
  | noInitializer (global : String)
  | constantLength (count : Nat)
  | noTypeEntry (func : String)
  | noSignatureEntry (signature : Signature)
  | unknownLocal (place : Reference) (func : String)
  | noLocalSymbol (place : Reference) (func : String)
  | unnamedParam (position : Nat) (func : String)
  | unnamedLocal (position : Nat) (func : String)
  | popBelow (func : String) (count height floor : Nat)
  | needBelow (func : String) (count height floor : Nat)
  | resetAbove (target height : Nat) (func : String)
  | unbalanced (place func : String) (height expected : Nat)
  | blockParams (label func : String) (count available : Nat)
  | unknownLabel (name func : String)
  | carriedValues (label func : String) (count available : Nat)
  deriving DecidableEq, Repr

namespace Defect

def text : Defect → String
  | unnamed kind => "unnamed " ++ kind.name
  | unnamedImport kind => "unnamed " ++ kind.name ++ " import"
  | noSymbol kind name => kind.name ++ " " ++ Text.quoted name ++ " has no C symbol"
  | unresolved what reference => "unresolved " ++ what ++ " reference " ++ reference.text
  | unknown what reference => "unknown " ++ what ++ " " ++ reference.text
  | noSignedType type => "no signed C type for " ++ type.name
  | noInitializer global => "global " ++ global ++ " has no initializer"
  | constantLength count => "constant expression of " ++ toString count ++ " instructions"
  | noTypeEntry func => "function " ++ func ++ " has no type entry"
  | noSignatureEntry signature =>
      "call_indirect signature " ++ signature.text ++ " has no type entry"
  | unknownLocal place func => "unknown local " ++ place.text ++ " in " ++ func
  | noLocalSymbol place func => "local " ++ place.text ++ " has no C symbol in " ++ func
  | unnamedParam position func => "param " ++ toString position ++ " of " ++ func ++ " is unnamed"
  | unnamedLocal position func => "local " ++ toString position ++ " of " ++ func ++ " is unnamed"
  | popBelow func count height floor =>
      "stack underflow in " ++ func ++ ": pop " ++ toString count ++ " of " ++ toString height ++
        " above floor " ++ toString floor
  | needBelow func count height floor =>
      "stack underflow in " ++ func ++ ": need " ++ toString count ++ ", height " ++
        toString height ++ " above floor " ++ toString floor
  | resetAbove target height func =>
      "stack reset to " ++ toString target ++ " above height " ++ toString height ++ " in " ++ func
  | unbalanced place func height expected =>
      "unbalanced stack at " ++ place ++ " of " ++ func ++ ": height " ++ toString height ++
        ", want " ++ toString expected
  | blockParams label func count available =>
      "block " ++ label ++ " of " ++ func ++ " takes " ++ toString count ++ " params with " ++
        toString available ++ " available"
  | unknownLabel name func => "unknown label " ++ name ++ " in " ++ func
  | carriedValues label func count available =>
      "branch to " ++ label ++ " in " ++ func ++ " carries " ++ toString count ++
        " values with " ++ toString available ++ " available"

end Defect

inductive EmitError where
  | unsupported (what : Unsupported)
  | defect (what : Defect)
  /-- An import that is tied to no entity of the module. -/
  | untied (entry : Import)
  deriving DecidableEq, Repr

namespace EmitError

def toFailure : EmitError → Failure
  | unsupported what => .unsupported .emit what.text
  | defect what => .internal .emit what.text
  | untied entry =>
      .internal .emit ("import " ++ entry.moduleName ++ "." ++ entry.fieldName ++ " has no entity")

end EmitError

/-! Both sorts are raised in the middle of computations that can raise either. -/

def unsupported {result : Type} (what : Unsupported) : Except EmitError result :=
  .error (.unsupported what)

def promised (condition : Prop) [Decidable condition] (otherwise : Defect) :
    Except EmitError Unit :=
  require condition (.defect otherwise)

def found {result : Type} (value : Option result) (otherwise : Defect) :
    Except EmitError result :=
  match value with
  | some value => .ok value
  | none => .error (.defect otherwise)

end WasmLowering
