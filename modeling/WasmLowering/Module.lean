import WasmLowering.Bindings
import WasmLowering.Instr

/-! Modules: index spaces of functions, globals, tables, memories, exception tags
and types, with what is imported, exported and initialized. In every index space
the imported entities come first, in the order of their imports.

So a module neither counts its imports nor points from an import to its entity. The
number of imported entities of a kind is `Module.importCount`, and an import and its
entity have the same position, one among the imports of the kind and the other among
the entities.

Names are texts, that is, valid UTF-8. Decoding refuses all others. -/

namespace WasmLowering

/-- What an import or export can be; unknown kinds keep their byte. -/
inductive ExternKind where
  | func
  | table
  | memory
  | global
  | except
  | unknown (byte : UInt8)
  deriving DecidableEq, Repr, Inhabited

namespace ExternKind

def ofByte (byte : UInt8) : ExternKind :=
  match byte with
  | 0 => func
  | 1 => table
  | 2 => memory
  | 3 => global
  | 4 => except
  | _ => unknown byte

def name : ExternKind → String
  | func => "func"
  | table => "table"
  | memory => "memory"
  | global => "global"
  | except => "except"
  | unknown byte => "kind(" ++ toString byte.toNat ++ ")"

end ExternKind

/-- Bounds of a memory, in pages, or of a table, in elements. The maximum counts
only if the bounds have one. -/
structure Limits where
  initial : UInt64 := 0
  maximum : UInt64 := 0
  hasMaximum : Bool := false
  isShared : Bool := false
  deriving DecidableEq, Repr, Inhabited

def Limits.maximumOr (limits : Limits) (default : UInt64) : UInt64 :=
  if limits.hasMaximum then limits.maximum else default

structure FuncType where
  name : String := ""
  signature : Signature := {}
  deriving DecidableEq, Repr, Inhabited

/-- A function. Parameters are named by `paramBindings`, and the locals that the
body declares by `localBindings`, counting from the first of them. -/
structure Func where
  name : String := ""
  declaration : Declaration := {}
  locals : List ValueType := []
  paramBindings : Bindings := ∅
  localBindings : Bindings := ∅
  body : List Instr := []
  deriving Inhabited

structure Global where
  name : String := ""
  type : ValueType := .any
  isMutable : Bool := false
  initial : List Instr := []
  deriving Inhabited

structure Table where
  name : String := ""
  element : ValueType := .any
  limits : Limits := {}
  deriving DecidableEq, Repr, Inhabited

structure Memory where
  name : String := ""
  limits : Limits := {}
  deriving DecidableEq, Repr, Inhabited

structure ExceptionTag where
  name : String := ""
  carried : List ValueType := []
  deriving DecidableEq, Repr, Inhabited

structure Import where
  moduleName : String := ""
  fieldName : String := ""
  kind : ExternKind := .func
  deriving DecidableEq, Repr, Inhabited

structure Export where
  name : String := ""
  kind : ExternKind := .func
  target : Reference := .index 0
  deriving DecidableEq, Repr, Inhabited

structure ElementSegment where
  table : Reference := .index 0
  offset : List Instr := []
  functions : List Reference := []
  deriving Inhabited

structure DataSegment where
  memory : Reference := .index 0
  offset : List Instr := []
  bytes : List UInt8 := []
  isPassive : Bool := false
  deriving Inhabited

structure Module where
  name : String := ""
  types : List FuncType := []
  funcs : List Func := []
  globals : List Global := []
  tables : List Table := []
  memories : List Memory := []
  tags : List ExceptionTag := []
  imports : List Import := []
  exports : List Export := []
  elements : List ElementSegment := []
  datas : List DataSegment := []
  starts : List Reference := []
  typeBindings : Bindings := ∅
  funcBindings : Bindings := ∅
  globalBindings : Bindings := ∅
  tableBindings : Bindings := ∅
  memoryBindings : Bindings := ∅
  tagBindings : Bindings := ∅
  exportBindings : Bindings := ∅
  deriving Inhabited

namespace Func

def params (func : Func) : List ValueType := func.declaration.signature.params

def results (func : Func) : List ValueType := func.declaration.signature.results

def slotCount (func : Func) : Nat := func.params.length + func.locals.length

def slot? (func : Func) (place : Reference) : Option Index :=
  let found : Index :=
    match place with
    | .index position => position
    | .name text =>
        match func.paramBindings.find? text with
        | some position => position
        | none =>
            match func.localBindings.find? text with
            | some position => .ofNat func.params.length + position
            | none => Index.missing
  if found = Index.missing then none else some found

def slotType (func : Func) (slot : Index) : ValueType :=
  ((func.params ++ func.locals)[slot.toNat]?).getD .any

def variableType (func : Func) (place : Reference) : ValueType :=
  match func.slot? place with
  | some slot => func.slotType slot
  | none => .any

def paramNames (func : Func) : List String :=
  func.paramBindings.reverse func.params.length

def localNames (func : Func) : List String :=
  func.localBindings.reverse func.locals.length

end Func

/-! Everything that has an index space of its own is an entity of one of six
kinds. The kinds differ only in which list and which bindings of the module they
use. -/

inductive EntityKind where
  | func
  | global
  | table
  | memory
  | except
  | type
  deriving DecidableEq, Repr, Inhabited

namespace EntityKind

def name : EntityKind → String
  | func => "func"
  | global => "global"
  | table => "table"
  | memory => "memory"
  | except => "except"
  | type => "type"

def ofExtern? : ExternKind → Option EntityKind
  | .func => some func
  | .global => some global
  | .table => some table
  | .memory => some memory
  | .except => some except
  | .unknown _ => none

end EntityKind

namespace Module

def entityNames (module : Module) : EntityKind → List String
  | .func => module.funcs.map (·.name)
  | .global => module.globals.map (·.name)
  | .table => module.tables.map (·.name)
  | .memory => module.memories.map (·.name)
  | .except => module.tags.map (·.name)
  | .type => module.types.map (·.name)

def entityCount (module : Module) : EntityKind → Nat
  | .func => module.funcs.length
  | .global => module.globals.length
  | .table => module.tables.length
  | .memory => module.memories.length
  | .except => module.tags.length
  | .type => module.types.length

def entityBindings (module : Module) : EntityKind → Bindings
  | .func => module.funcBindings
  | .global => module.globalBindings
  | .table => module.tableBindings
  | .memory => module.memoryBindings
  | .except => module.tagBindings
  | .type => module.typeBindings

def importsOf (module : Module) (kind : ExternKind) : List Import :=
  module.imports.filter (·.kind = kind)

/-- The number of imported entities of a kind. The imports of a kind are tied to
its first entities; imports beyond the last entity are tied to none. -/
def importCount (module : Module) (kind : ExternKind) : Nat :=
  match EntityKind.ofExtern? kind with
  | some entity => min (module.importsOf kind).length (module.entityCount entity)
  | none => 0

def lookup (bindings : Bindings) (reference : Reference) (count : Nat) : Option Index :=
  match reference with
  | .index position => if position.toNat < count then some position else none
  | .name text =>
      match bindings.find? text with
      | some position => if position.toNat < count then some position else none
      | none => none

def entityIndex? (module : Module) (kind : EntityKind) (reference : Reference) : Option Index :=
  lookup (module.entityBindings kind) reference (module.entityCount kind)

def func? (module : Module) (reference : Reference) : Option Func :=
  (module.entityIndex? .func reference).bind fun position => module.funcs[position.toNat]?

def global? (module : Module) (reference : Reference) : Option Global :=
  (module.entityIndex? .global reference).bind fun position => module.globals[position.toNat]?

def table? (module : Module) (reference : Reference) : Option Table :=
  (module.entityIndex? .table reference).bind fun position => module.tables[position.toNat]?

def memory? (module : Module) (reference : Reference) : Option Memory :=
  (module.entityIndex? .memory reference).bind fun position => module.memories[position.toNat]?

/-- The type entry of a declaration: the one it names, or the first one with its
signature when it names none. -/
def typeIndex? (module : Module) (declaration : Declaration) : Option Index :=
  match declaration.typeRef with
  | some reference => module.entityIndex? .type reference
  | none =>
      (module.types.findIdx? (·.signature = declaration.signature)).map UInt32.ofNat

def definedFuncs (module : Module) : List Func :=
  module.funcs.drop (module.importCount .func)

def definedGlobals (module : Module) : List Global :=
  module.globals.drop (module.importCount .global)

def definedMemories (module : Module) : List Memory :=
  module.memories.drop (module.importCount .memory)

def definedTables (module : Module) : List Table :=
  module.tables.drop (module.importCount .table)

/-- The position in the import list of the function import with a given number. -/
def importPosition? (module : Module) (number : Nat) : Option Nat :=
  (module.imports.zipIdx.filter (·.1.kind = .func))[number]?.map (·.2)

end Module

end WasmLowering
