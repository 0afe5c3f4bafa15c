import WasmLowering.C.Program
import WasmLowering.Emission.Lowering

/-! From a module with names to a C program. Symbols at file scope are
chosen in the order in which the parts of the module come. -/

namespace WasmLowering.Emission

open C (ImportedObject ExportedObject Initial Allocation DataArray DataCopy Element ElementCopy)

def funcTitle (func : Func) (position : Nat) : String :=
  if func.name = "" then "#" ++ toString position else func.name

def checkModule (module : Module) : Except EmitError Unit := do
  if 1 < module.memories.length then unsupported (.memories module.memories.length)
  if 1 < module.tables.length then unsupported (.tables module.tables.length)
  if !module.tags.isEmpty then unsupported .exceptionTags
  module.tables.forM fun table =>
    if table.element ≠ .funcref then unsupported (.tableOf table.element) else return
  module.funcs.zipIdx.forM fun (func, position) =>
    if 1 < func.results.length then
      unsupported (.funcResults (funcTitle func position) func.results.length)
    else return

abbrev Emit := StateT EntitySymbols (Except EmitError)

def define (kind : ExternKind) (name : String) : Emit String := do
  let (symbol, symbols) ← (← get).define kind name
  set symbols
  return symbol

def external (kind : ExternKind) (name : String) : Emit C.External := do
  (← get).external kind name

/-! Imports and exports. -/

def tied {entity : Type} (entry : Import) (entities : List entity) (number : Nat) :
    Except EmitError entity :=
  match entities[number]? with
  | some entity => .ok entity
  | none => .error (.untied entry)

def importedEntity (module : Module) (entry : Import) (number : Nat) :
    Except EmitError (String × String × Except EmitError C.ObjectType) :=
  match entry.kind with
  | .func => do
      let func ← tied entry module.funcs number
      let signature := func.declaration.signature
      let field ← Symbol.funcSymbol (Text.bytes entry.fieldName) signature
      return (func.name, field, (prototypeOf signature).map .func)
  | .global => do
      let global ← tied entry module.globals number
      let field ← Symbol.globalSymbol (Text.bytes entry.fieldName) global.type
      return (global.name, field, (scalarOf global.type).map .number)
  | .memory => do
      let memory ← tied entry module.memories number
      return (memory.name, Symbol.mangle (Text.bytes entry.fieldName), .ok .memory)
  | .table => do
      let table ← tied entry module.tables number
      return (table.name, Symbol.mangle (Text.bytes entry.fieldName), .ok .table)
  | _ => unsupported (.importOf entry)

def importObject (module : Module) (entry : Import) (number : Nat) : Emit ImportedObject := do
  let (name, field, type) ← importedEntity module entry number
  let symbol := Symbol.mangle (Text.bytes entry.moduleName) ++ field
  set (← (← get).defineImport entry.kind name symbol)
  return ⟨entry, symbol, ← type⟩

def numberedImports (module : Module) : List (Import × Nat) :=
  module.imports.zipIdx.map fun (entry, position) =>
    (entry, ((module.imports.take position).filter (·.kind = entry.kind)).length)

def exportedEntity (module : Module) (entry : Export) : Except EmitError ExportedObject :=
  match entry.kind with
  | .func => do
      let func ← funcOf module entry.target
      let signature := func.declaration.signature
      let symbol ← Symbol.funcSymbol (Text.bytes entry.name) signature
      return ⟨entry.name, symbol, .func (← prototypeOf signature), .func, func.name⟩
  | .global => do
      let global ← globalOf module entry.target
      let symbol ← Symbol.globalSymbol (Text.bytes entry.name) global.type
      return ⟨entry.name, symbol, .number (← scalarOf global.type), .global, global.name⟩
  | .memory => do
      let memory ← memoryOf module entry.target
      return ⟨entry.name, Symbol.mangle (Text.bytes entry.name), .memory, .memory, memory.name⟩
  | .table => do
      let table ← tableOf module entry.target
      return ⟨entry.name, Symbol.mangle (Text.bytes entry.name), .table, .table, table.name⟩
  | _ => unsupported (.exportOf entry)

def exportObject (module : Module) (entry : Export) : Emit ExportedObject := do
  let object ← exportedEntity module entry
  modify (·.take object.symbol)
  return object

/-! Functions and globals. -/

def typeEntry (type : FuncType) : Except EmitError (List Scalar × List Scalar) := do
  let params ← type.signature.params.mapM scalarOf
  return (params, ← type.signature.results.mapM scalarOf)

def declareFunc (func : Func) : Emit (String × C.Prototype) := do
  let symbol ← define .func func.name
  return (symbol, ← prototypeOf func.declaration.signature)

def declareGlobal (global : Global) : Emit (String × Scalar) := do
  let type ← scalarOf global.type
  return (← define .global global.name, type)

def initial (instrs : List Instr) : Emit Initial := do
  match instrs with
  | [.const value] => return .literal (← numberOf value)
  | [.globalGet place] => do
      let name ← referenceName "global" place
      return .global (← external .global name)
  | [instr] => unsupported (.inConstant instr.opcode)
  | instrs => throw (.defect (.constantLength instrs.length))

def globalValue (global : Global) : Emit (String × Initial) := do
  promised (global.initial ≠ []) (.noInitializer global.name)
  let external ← external .global global.name
  return (external.symbol, ← initial global.initial)

/-! Memories and tables. -/

def pageLimit : UInt64 := 65536

def elementLimit : UInt64 := 0xFFFFFFFF

def memoryAllocation (module : Module) : Emit (Option Allocation) := do
  match module.memories with
  | [] => return none
  | memory :: _ =>
      if module.importCount .memory = 0 then
        let external ← external .memory memory.name
        return some ⟨external, memory.limits.initial, memory.limits.maximumOr pageLimit⟩
      else return none

def tableAllocation (module : Module) : Emit (Option Allocation) := do
  match module.tables with
  | [] => return none
  | table :: _ =>
      if module.importCount .table = 0 then
        let external ← external .table table.name
        return some ⟨external, table.limits.initial, table.limits.maximumOr elementLimit⟩
      else return none

def activeDatas (module : Module) : List (DataSegment × Nat) :=
  module.datas.zipIdx.filter fun (segment, _) => !segment.isPassive && !segment.bytes.isEmpty

def dataArray (segment : DataSegment) (position : Nat) : Emit DataArray := do
  let (symbol, symbols) := (← get).choose ("data_segment_data_" ++ toString position)
  set symbols
  return ⟨symbol, segment.bytes⟩

def dataCopy (module : Module) (segment : DataSegment) (source : DataArray) : Emit DataCopy := do
  let memory ← memoryOf module segment.memory
  let memory ← external .memory memory.name
  return ⟨memory, ← initial segment.offset, source⟩

def element (module : Module) (reference : Reference) : Emit Element := do
  let func ← funcOf module reference
  let typeIndex ← found (module.typeIndex? func.declaration) (.noTypeEntry func.name)
  return ⟨typeIndex, ← external .func func.name⟩

def elementCopy (module : Module) (segment : ElementSegment) : Emit ElementCopy := do
  let table ← tableOf module segment.table
  let table ← external .table table.name
  let offset ← initial segment.offset
  return ⟨table, offset, ← segment.functions.mapM (element module)⟩

def startFunc (module : Module) (reference : Reference) : Emit C.External := do
  let func ← funcOf module reference
  external .func func.name

def program (module : Module) : Emit C.Program := do
  let imports ← (numberedImports module).mapM fun (entry, number) =>
    importObject module entry number
  let exports ← module.exports.mapM (exportObject module)
  let types ← module.types.mapM fun type => typeEntry type
  let prototypes ← module.definedFuncs.mapM declareFunc
  let globals ← module.definedGlobals.mapM declareGlobal
  let globalValues ← module.definedGlobals.mapM globalValue
  let memories ← module.definedMemories.mapM fun memory => define .memory memory.name
  let tables ← module.definedTables.mapM fun table => define .table table.name
  let dataArrays ← (activeDatas module).mapM fun (segment, position) => dataArray segment position
  let memoryAllocation ← memoryAllocation module
  let dataCopies ← ((activeDatas module).zip dataArrays).mapM fun ((segment, _), array) =>
    dataCopy module segment array
  let tableAllocation ← tableAllocation module
  let elementCopies ← module.elements.mapM (elementCopy module)
  let symbols ← get
  let functions ← module.definedFuncs.mapM fun func => lowerFunc module symbols func
  let exportTargets ← exports.mapM fun object => external object.kind object.entity
  let starts ← module.starts.mapM (startFunc module)
  return {
    imports, exports, types, prototypes, globals, globalValues, memories, tables
    memoryAllocation, dataArrays, dataCopies, tableAllocation, elementCopies
    functions, exportTargets, starts, taken := symbols.taken }

end Emission

def Module.emit (module : Module) : Except EmitError C.Program := do
  Emission.checkModule module
  (Emission.program module).run' {}

end WasmLowering
