import WasmLowering.Binary.Code

/-! The contents of the sections, apart from names. Each reader takes what it
needs of the sections before it and returns the part of the module that its own
section describes. -/

namespace WasmLowering.Binary

namespace Decoder

def counted {α : Type} (item : Nat → Decoder α) : Decoder (List α) := do
  let count ← u32
  repeated item count.toNat 0

def limits (isMemory : Bool) : Decoder Limits := do
  let flags ← byte
  if flags &&& 0x04 ≠ 0 then throw .memory64
  if flags &&& ~~~0x03 ≠ 0 || (!isMemory && flags &&& 0x02 ≠ 0) then
    throw (.limitFlags flags)
  let initial ← u32
  let isShared := flags &&& 0x02 ≠ 0
  if flags &&& 0x01 ≠ 0 then
    let maximum ← u32
    return ⟨initial.toUInt64, maximum.toUInt64, true, isShared⟩
  else return ⟨initial.toUInt64, 0, false, isShared⟩

def typeEntry : Decoder FuncType := do
  let form ← byte
  if form ≠ 0x60 then throw (.typeForm form)
  let params ← valueTypes
  let results ← valueTypes
  return { signature := ⟨params, results⟩ }

def table : Decoder Table := do
  let element ← referenceType
  return { element, limits := ← limits false }

def memory : Decoder Memory := do
  return { limits := ← limits true }

def globalType : Decoder Global := do
  let type ← valueType
  let flag ← byte
  if 1 < flag then throw (.mutability flag)
  return { type, isMutable := flag = 1 }

def tag (types : List FuncType) : Decoder ExceptionTag := do
  let form ← byte
  if form ≠ 0 then throw (.tagAttribute form)
  let declaration ← declarationOf types (← u32)
  return { carried := declaration.signature.params }

def func (types : List FuncType) : Decoder Func := do
  return { declaration := ← declarationOf types (← u32) }

/-! Imports bring an entity with them. -/

inductive Imported where
  | func (func : Func)
  | table (table : Table)
  | memory (memory : Memory)
  | global (global : Global)
  | tag (tag : ExceptionTag)

def importEntry (types : List FuncType) (number : Nat) : Decoder (Import × Imported) := do
  let moduleName ← name
  let fieldName ← name
  let kind ← byte
  let imported ←
    match ExternKind.ofByte kind with
    | .func => do pure (Imported.func (← func types))
    | .table => do pure (Imported.table (← table))
    | .memory => do pure (Imported.memory (← memory))
    | .global => do pure (Imported.global (← globalType))
    | .except => do pure (Imported.tag (← tag types))
    | .unknown _ => throw (.importKind number moduleName fieldName kind)
  return (⟨moduleName, fieldName, ExternKind.ofByte kind⟩, imported)

def globalEntry (types : List FuncType) (number : Nat) : Decoder Global := do
  let global ← globalType
  let initial ← locate (.global number) (constantCode types)
  return { global with initial }

/-! Export names are distinct. -/

def exportEntry (bindings : Bindings) : Decoder Export := do
  let exportName ← name
  let kind ← byte
  if 4 < kind then throw (.exportKind exportName kind)
  let position ← u32
  if bindings.has exportName then throw (.duplicateExport exportName)
  return ⟨exportName, .ofByte kind, .index position⟩

def exportEntries : (count : Nat) → (number : Nat) → Bindings → Decoder (List Export × Bindings)
  | 0, _, bindings => pure ([], bindings)
  | count + 1, number, bindings => do
      let entry ← exportEntry bindings
      let (others, bindings) ←
        exportEntries count (number + 1) (bindings.put entry.name (.ofNat number))
      return (entry :: others, bindings)

/-! Element segments come in eight forms, told apart by three flags. Only active
segments are kept. -/

def elementFunction : List Instr → Decoder Reference
  | [.refFunc callee] => pure (.index callee)
  | _ => throw .elementExpression

def element (types : List FuncType) (usesExpressions isPassive : Bool) (number : Nat) :
    Decoder (List Reference) := do
  if usesExpressions then
    let instrs ← constantCode types
    if isPassive then return []
    return [← locate (.element number) (elementFunction instrs)]
  else return [← reference]

def elementSegment (types : List FuncType) : Decoder (Option ElementSegment) := do
  let flags ← u32
  if 7 < flags then throw (.segmentFlags flags.toNat)
  let isPassive := flags &&& 0x01 ≠ 0
  let namesTable := flags &&& 0x02 ≠ 0
  let usesExpressions := flags &&& 0x04 ≠ 0
  let table ← if !isPassive && namesTable then reference else pure (.index 0)
  let offset ← if isPassive then pure [] else constantCode types
  if isPassive || namesTable then
    if usesExpressions then
      let _ ← referenceType
    else
      let kind ← byte
      if kind ≠ 0 then throw (.elementKind kind)
  let functions ← counted (element types usesExpressions isPassive)
  return if isPassive then none else some ⟨table, offset, functions.flatten⟩

/-! Code. -/

def localGroups : (count : Nat) → (total : Nat) → Decoder (List ValueType)
  | 0, _ => pure []
  | count + 1, total => do
      let size ← u32
      let type ← valueType
      let total := total + size.toNat
      if maxLocals < total then throw (.tooManyLocals total)
      let others ← localGroups count total
      return List.replicate size.toNat type ++ others

def funcBody (types : List FuncType) : Decoder (List ValueType × List Instr) := do
  let groups ← u32
  let locals ← localGroups groups.toNat 0
  let (instrs, terminator) ← code ⟨types, false⟩
  if terminator ≠ .finish then throw (.functionEnd terminator.opcode)
  let left ← remaining
  if left ≠ 0 then throw (.bytesAfterEnd left)
  return (locals, instrs)

def sizedBody (types : List FuncType) (number : Nat) : Decoder (List ValueType × List Instr) := do
  let size ← u32
  let inner ← sub size.toNat
  let place (reader : Reader) : Place := .part ("function " ++ toString number) reader.position
  return (← inside inner (locateBy place (funcBody types))).1

/-! Data. -/

def dataTarget (number : Nat) : Decoder (Option Reference) := do
  let flags ← u32
  match flags with
  | 0 => return some (.index 0)
  | 1 => return none
  | 2 => return some (← reference)
  | _ => throw (.within (.segment number) (.segmentFlags flags.toNat))

def dataSegment (types : List FuncType) (number : Nat) : Decoder DataSegment := do
  match ← dataTarget number with
  | some memory =>
      let offset ← locate (.segment number) (constantCode types)
      let size ← u32
      return { memory, offset, bytes := ← bytes size.toNat }
  | none =>
      let size ← u32
      return { bytes := ← bytes size.toNat, isPassive := true }

end Decoder

end WasmLowering.Binary
