import Std.Data.ExtTreeSet
import WasmLowering.Instr.Traversal
import WasmLowering.Module
import WasmLowering.Naming.Fresh

/-! Giving everything in a module a name of its own.

Entities keep the names they have, as far as no other entity of their kind has
the same. Then imports, exports and finally positions provide names for the rest.
Kinds do not share names, so each is named on its own. -/

namespace WasmLowering.Naming

structure NameTable where
  names : List String
  bindings : Bindings

namespace NameTable

def bindExisting (bindings : Bindings) : (position : Nat) → List String → NameTable
  | _, [] => ⟨[], bindings⟩
  | position, name :: rest =>
      if name = "" then
        let table := bindExisting bindings (position + 1) rest
        { table with names := "" :: table.names }
      else
        match bindings.find? name with
        | some bound =>
            if bound = .ofNat position then
              let table := bindExisting bindings (position + 1) rest
              { table with names := name :: table.names }
            else
              let table := bindExisting bindings (position + 1) rest
              { table with names := "" :: table.names }
        | none =>
            let table := bindExisting (bindings.put name (.ofNat position)) (position + 1) rest
            { table with names := name :: table.names }

def nameAt (table : NameTable) (position : Nat) (name : String) : NameTable :=
  if table.names[position]? = some "" then
    let chosen := fresh table.bindings.has table.bindings.size name
    ⟨table.names.set position chosen, table.bindings.put chosen (.ofNat position)⟩
  else table

def nameInOrder (table : NameTable) (names : List String) : NameTable :=
  names.zipIdx.foldl (fun table (name, position) => table.nameAt position name) table

def nameExports (table : NameTable) (exports : List (Reference × String)) : NameTable :=
  exports.foldl
    (fun table (target, name) =>
      match Module.lookup table.bindings target table.names.length with
      | some position => table.nameAt position.toNat name
      | none => table)
    table

def nameRest (table : NameTable) (letter : String) : NameTable :=
  table.nameInOrder ((List.range table.names.length).map (positional letter))

end NameTable

def letter : EntityKind → String
  | .func => "$f"
  | .global => "$g"
  | .table => "$T"
  | .memory => "$M"
  | .except => "$e"
  | .type => "$t"

def importNames (module : Module) (kind : EntityKind) : List String :=
  (module.imports.filter fun entry => EntityKind.ofExtern? entry.kind = some kind).map fun entry =>
    "$" ++ entry.moduleName ++ "." ++ entry.fieldName

def exportNames (module : Module) (kind : EntityKind) : List (Reference × String) :=
  (module.exports.filter fun entry => EntityKind.ofExtern? entry.kind = some kind).map fun entry =>
    (entry.target, "$" ++ entry.name)

def nameTable (module : Module) (kind : EntityKind) : NameTable :=
  (((NameTable.bindExisting (module.entityBindings kind) 0 (module.entityNames kind)).nameInOrder
    (importNames module kind)).nameExports (exportNames module kind)).nameRest (letter kind)

def resolveEntities (module : Module) : Module :=
  let types := nameTable module .type
  let funcs := nameTable module .func
  let globals := nameTable module .global
  let tables := nameTable module .table
  let memories := nameTable module .memory
  let tags := nameTable module .except
  { module with
    types := module.types.zipWith (fun type name => { type with name }) types.names
    funcs := module.funcs.zipWith (fun func name => { func with name }) funcs.names
    globals := module.globals.zipWith (fun global name => { global with name }) globals.names
    tables := module.tables.zipWith (fun table name => { table with name }) tables.names
    memories := module.memories.zipWith (fun memory name => { memory with name }) memories.names
    tags := module.tags.zipWith (fun tag name => { tag with name }) tags.names
    typeBindings := types.bindings
    funcBindings := funcs.bindings
    globalBindings := globals.bindings
    tableBindings := tables.bindings
    memoryBindings := memories.bindings
    tagBindings := tags.bindings }

/-! Parameters, locals and labels of a function share one set of names. -/

/-- The label of the function body. Branching to it leaves the function. -/
def funcLabel : String := "$Bfunc"

abbrev NameSet := Std.ExtTreeSet String compare

def takePositional (taken : NameSet) (letter : String) (position : Nat) : String × NameSet :=
  let name := fresh taken.contains taken.size (positional letter position)
  (name, taken.insert name)

def nameSlots (letter : String) :
    (position : Nat) → List String → NameSet × Bindings → NameSet × Bindings
  | _, [], state => state
  | position, name :: rest, (taken, bindings) =>
      if name = "" then
        let (chosen, taken) := takePositional taken letter position
        nameSlots letter (position + 1) rest (taken, bindings.put chosen (.ofNat position))
      else nameSlots letter (position + 1) rest (taken, bindings)

def givenLabels (body : List Instr) : List String :=
  (Instr.visitedOfList (fun _ => true) body).filterMap fun instr =>
    match instr.head? with
    | some head => if head.label = "" || head.label = funcLabel then none else some head.label
    | none => none

structure LabelState where
  count : Nat
  taken : NameSet

/-- The label of the next structured instruction: its own, or one made from its
position among them. The label of the function is never its own. -/
def chooseLabel (letter : String) (head : BlockHead) (state : LabelState) :
    BlockHead × LabelState :=
  if head.label = "" || head.label = funcLabel then
    let (label, taken) := takePositional state.taken letter state.count
    ({ head with label }, ⟨state.count + 1, taken⟩)
  else (head, { state with count := state.count + 1 })

mutual

def labelInstr : Instr → LabelState → Instr × LabelState
  | .block head body, state =>
      let (head, state) := chooseLabel "$B" head state
      let (body, state) := labelInstrs body state
      (.block head body, state)
  | .loop head body, state =>
      let (head, state) := chooseLabel "$L" head state
      let (body, state) := labelInstrs body state
      (.loop head body, state)
  | .ifElse head thenBody elseBody, state =>
      let (head, state) := chooseLabel "$I" head state
      let (thenBody, state) := labelInstrs thenBody state
      let (elseBody, state) := labelInstrs elseBody state
      (.ifElse head thenBody elseBody, state)
  | .tryCatch head body catches, state =>
      let (head, state) := chooseLabel "$E" head state
      let (body, state) := labelInstrs body state
      let (catches, state) := labelCatches catches state
      (.tryCatch head body catches, state)
  | instr, state => (instr, state)

def labelInstrs : List Instr → LabelState → List Instr × LabelState
  | [], state => ([], state)
  | instr :: rest, state =>
      let (instr, state) := labelInstr instr state
      let (rest, state) := labelInstrs rest state
      (instr :: rest, state)

def labelCatch : Catch → LabelState → Catch × LabelState
  | .handler tag body, state =>
      let (body, state) := labelInstrs body state
      (.handler tag body, state)

def labelCatches : List Catch → LabelState → List Catch × LabelState
  | [], state => ([], state)
  | handler :: rest, state =>
      let (handler, state) := labelCatch handler state
      let (rest, state) := labelCatches rest state
      (handler :: rest, state)

end

/-- A function with every parameter, local and label named. Names that are given
are taken before any is made up. -/
def resolveFunc (func : Func) : Func :=
  let params := func.paramNames
  let locals := func.localNames
  let given := (params ++ locals).filter (· ≠ "") ++ givenLabels func.body
  let taken : NameSet := given.foldl (·.insert ·) ((∅ : NameSet).insert funcLabel)
  let (taken, paramBindings) := nameSlots "$p" 0 params (taken, func.paramBindings)
  let (taken, localBindings) := nameSlots "$l" 0 locals (taken, func.localBindings)
  let (body, _) := labelInstrs func.body ⟨0, taken⟩
  { func with paramBindings, localBindings, body }

end Naming

def Module.resolve (module : Module) : Module :=
  let named := Naming.resolveEntities module
  let imported := module.importCount .func
  { named with
    funcs := named.funcs.take imported ++ (named.funcs.drop imported).map Naming.resolveFunc }

end WasmLowering
