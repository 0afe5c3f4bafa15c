import WasmLowering.Failure
import WasmLowering.Naming.Resolve

/-! Replacing positions by names. Everything has to be named already. A reference
that has a name keeps it, after a check that it means what it says. -/

namespace WasmLowering.Naming

inductive ApplyError where
  | notFound (kind : EntityKind) (reference : Reference)
  | otherName (kind : EntityKind) (name actual : String)
  | unnamed (kind : EntityKind) (position : Index)
  | localOutside (place : Reference)
  | localNotFound (name : String)
  | localOutOfRange (position : Index)
  | labelNotFound (name : String)
  | depthOutOfRange (depth labels : Nat)
  deriving DecidableEq, Repr

namespace ApplyError

def message : ApplyError → String
  | notFound kind reference => kind.name ++ " " ++ reference.text ++ " not found"
  | otherName kind name actual =>
      kind.name ++ " " ++ name ++ " resolves to " ++ Text.quoted actual
  | unnamed kind position => kind.name ++ " " ++ toString position.toNat ++ " has no name"
  | localOutside place => "local " ++ place.text ++ " outside a function"
  | localNotFound name => "local " ++ name ++ " not found"
  | localOutOfRange position => "local " ++ toString position.toNat ++ " out of range"
  | labelNotFound name => "label " ++ name ++ " not found"
  | depthOutOfRange depth labels =>
      "branch depth " ++ toString depth ++ " exceeds " ++ toString labels ++ " open labels"

def toFailure (error : ApplyError) : Failure :=
  .internal .apply error.message

end ApplyError

structure Scope where
  module : Module
  func : Option (Func × List String)

namespace Scope

def ofFunc (module : Module) (func : Func) : Scope :=
  ⟨module, some (func, func.paramNames ++ func.localNames)⟩

def ofModule (module : Module) : Scope := ⟨module, none⟩

def entity (scope : Scope) (kind : EntityKind) (reference : Reference) :
    Except ApplyError Reference :=
  match scope.module.entityIndex? kind reference with
  | none => .error (.notFound kind reference)
  | some position =>
      let name := ((scope.module.entityNames kind)[position.toNat]?).getD ""
      match reference with
      | .name text =>
          if name = text then .ok reference else .error (.otherName kind text name)
      | .index _ =>
          if name = "" then .error (.unnamed kind position) else .ok (.name name)

def slot (scope : Scope) (place : Reference) : Except ApplyError Reference :=
  match scope.func, place with
  | none, place => .error (.localOutside place)
  | some (func, _), .name text =>
      if (func.slot? (.name text)).isSome then .ok (.name text) else .error (.localNotFound text)
  | some (_, names), .index position =>
      match names[position.toNat]? with
      | some name => .ok (.name name)
      | none => .error (.localOutOfRange position)

/-- Names a branch target, given the open labels, innermost first. The depth
behind the last of them means the function. -/
def label (labels : List String) (target : Reference) : Except ApplyError Reference :=
  match target with
  | .name text =>
      if text = funcLabel || labels.contains text then .ok target
      else .error (.labelNotFound text)
  | .index position =>
      match labels[position.toNat]? with
      | some name => .ok (.name name)
      | none =>
          if position.toNat = labels.length then .ok (.name funcLabel)
          else .error (.depthOutOfRange position.toNat labels.length)

def declaration (scope : Scope) (declaration : Declaration) : Except ApplyError Declaration :=
  match declaration.typeRef with
  | some reference => do
      let named ← scope.entity .type reference
      return { declaration with typeRef := some named }
  | none => .ok declaration

def head (scope : Scope) (head : BlockHead) : Except ApplyError BlockHead := do
  return { head with declaration := ← scope.declaration head.declaration }

mutual

def instr (scope : Scope) (labels : List String) : Instr → Except ApplyError Instr
  | .block head body => do
      let head ← scope.head head
      return .block head (← scope.instrs (head.label :: labels) body)
  | .loop head body => do
      let head ← scope.head head
      return .loop head (← scope.instrs (head.label :: labels) body)
  | .ifElse head thenBody elseBody => do
      let head ← scope.head head
      let thenBody ← scope.instrs (head.label :: labels) thenBody
      let elseBody ← scope.instrs (head.label :: labels) elseBody
      return .ifElse head thenBody elseBody
  | .tryCatch head body catches => do
      let head ← scope.head head
      let body ← scope.instrs (head.label :: labels) body
      let catches ← scope.catches (head.label :: labels) catches
      return .tryCatch head body catches
  | .br target => return .br (← label labels target)
  | .brIf target => return .brIf (← label labels target)
  | .brTable targets otherwise => do
      let targets ← targets.mapM (label labels)
      return .brTable targets (← label labels otherwise)
  | .rethrow depth => return .rethrow (← label labels depth)
  | .throwTag tag => return .throwTag (← scope.entity .except tag)
  | .call callee => return .call (← scope.entity .func callee)
  | .callIndirect declaration table => do
      let declaration ← scope.declaration declaration
      return .callIndirect declaration (← scope.entity .table table)
  | .globalGet place => return .globalGet (← scope.entity .global place)
  | .globalSet place => return .globalSet (← scope.entity .global place)
  | .localGet place => return .localGet (← scope.slot place)
  | .localSet place => return .localSet (← scope.slot place)
  | .localTee place => return .localTee (← scope.slot place)
  | .load opcode memory align offset =>
      return .load opcode (← scope.entity .memory memory) align offset
  | .store opcode memory align offset =>
      return .store opcode (← scope.entity .memory memory) align offset
  | .memorySize memory => return .memorySize (← scope.entity .memory memory)
  | .memoryGrow memory => return .memoryGrow (← scope.entity .memory memory)
  | .memoryFill memory => return .memoryFill (← scope.entity .memory memory)
  | .memoryCopy target source => do
      let target ← scope.entity .memory target
      return .memoryCopy target (← scope.entity .memory source)
  | .atomic opcode memory offset =>
      if opcode = .atomicFence then return .atomic opcode memory offset
      else return .atomic opcode (← scope.entity .memory memory) offset
  | instr => return instr

def instrs (scope : Scope) (labels : List String) : List Instr → Except ApplyError (List Instr)
  | [] => return []
  | instr :: rest => do
      let instr ← scope.instr labels instr
      return instr :: (← scope.instrs labels rest)

def handler (scope : Scope) (labels : List String) : Catch → Except ApplyError Catch
  | .handler none body => return .handler none (← scope.instrs labels body)
  | .handler (some tag) body => do
      let tag ← scope.entity .except tag
      return .handler (some tag) (← scope.instrs labels body)

def catches (scope : Scope) (labels : List String) : List Catch → Except ApplyError (List Catch)
  | [] => return []
  | handler :: rest => do
      let handler ← scope.handler labels handler
      return handler :: (← scope.catches labels rest)

end

end Scope

def applyFunc (module : Module) (imported : Nat) (number : Nat) (func : Func) :
    Except ApplyError Func := do
  let declaration ← (Scope.ofModule module).declaration func.declaration
  if number < imported then return { func with declaration }
  else return { func with declaration, body := ← (Scope.ofFunc module func).instrs [] func.body }

def applyFuncs (module : Module) (imported : Nat) :
    (number : Nat) → List Func → Except ApplyError (List Func)
  | _, [] => return []
  | number, func :: rest => do
      let func ← applyFunc module imported number func
      return func :: (← applyFuncs module imported (number + 1) rest)

def applyExport (module : Module) (entry : Export) : Except ApplyError Export :=
  match EntityKind.ofExtern? entry.kind with
  | some kind => return { entry with target := ← (Scope.ofModule module).entity kind entry.target }
  | none => return entry

def applyElement (module : Module) (segment : ElementSegment) :
    Except ApplyError ElementSegment := do
  let scope := Scope.ofModule module
  let table ← scope.entity .table segment.table
  let offset ← scope.instrs [] segment.offset
  return ⟨table, offset, ← segment.functions.mapM (scope.entity .func)⟩

def applyData (module : Module) (segment : DataSegment) : Except ApplyError DataSegment := do
  if segment.isPassive then return segment
  else
    let scope := Scope.ofModule module
    let memory ← scope.entity .memory segment.memory
    return { segment with memory, offset := ← scope.instrs [] segment.offset }

end Naming

open Naming in
def Module.applyNames (module : Module) : Except ApplyError Module := do
  let funcs ← applyFuncs module (module.importCount .func) 0 module.funcs
  let globals ← module.globals.mapM fun global => do
    return { global with initial := ← (Scope.ofModule module).instrs [] global.initial }
  let exports ← module.exports.mapM (applyExport module)
  let elements ← module.elements.mapM (applyElement module)
  let datas ← module.datas.mapM (applyData module)
  let starts ← module.starts.mapM ((Scope.ofModule module).entity .func)
  return { module with funcs, globals, exports, elements, datas, starts }

end WasmLowering
