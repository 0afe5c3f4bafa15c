import WasmLowering.Proofs.Decoding.SectionContents

/-! Decoded modules are well formed.

Imports are tied to the entities that come with them, every declaration is an entry of
the type section, every function that is not imported has the body that the code section
has for it, code and constant expressions are grounded in the types, and names are bound
to what exists. Most of this is known of what single sections say; the module that they
describe is the decoded one up to names. -/

namespace WasmLowering

open Binary (Contents Frame)
open Binary.Decoder (Imported)
open Instr (GroundedBody ConstantBody)

/-! ## Entities and their imports -/

namespace Module

def externs (module : Module) : ExternKind → List Imported
  | .func => module.funcs.map .func
  | .table => module.tables.map .table
  | .memory => module.memories.map .memory
  | .global => module.globals.map .global
  | .except => module.tags.map .tag
  | .unknown _ => []

theorem unnamed_externs (module : Module) (kind : ExternKind) :
    module.unnamed.externs kind = (module.externs kind).map Imported.unnamed := by
  cases kind <;> simp [externs, unnamed, Imported.unnamed]

def constants (module : Module) : List (List Instr) :=
  module.globals.map (·.initial) ++ (module.elements.map (·.offset) ++ module.datas.map (·.offset))

def references (module : Module) : List Reference :=
  module.exports.map (·.target) ++ (module.starts ++
    (module.elements.flatMap (fun segment => segment.table :: segment.functions) ++
      module.datas.map (·.memory)))

theorem importCount_of_externs {module : Module} {entries : List (Import × Imported)}
    (areImports : module.imports = entries.map (·.1)) {kind : ExternKind} {others : List Imported}
    (areExterns : module.externs kind = Binary.importedOf entries kind ++ others) :
    module.importCount kind = (module.importsOf kind).length ∧
      (module.importsOf kind).length = (Binary.importedOf entries kind).length := by
  have sameCount : (module.importsOf kind).length = (Binary.importedOf entries kind).length := by
    rw [importsOf, areImports, List.filter_map, List.length_map, Binary.importedOf, List.length_map]
    rfl
  have counted := congrArg List.length areExterns
  rw [List.length_append, ← sameCount] at counted
  refine ⟨?_, sameCount⟩
  cases kind with
  | unknown byte =>
      exact (Nat.eq_zero_of_add_eq_zero_right counted.symm).symm
  | _ =>
      simp only [externs, List.length_map] at counted
      exact Nat.min_eq_left (Nat.le.intro counted.symm)

theorem importPosition?_of_lt {module : Module} {number : Nat}
    (small : number < (module.importsOf .func).length) :
    ∃ position entry, module.importPosition? number = some position ∧
      module.imports[position]? = some entry ∧ (module.importsOf .func)[number]? = some entry := by
  have isMap : module.importsOf .func =
      (module.imports.zipIdx.filter (·.1.kind = .func)).map (·.1) := by
    rw [importsOf]
    nth_rewrite 1 [← List.zipIdx_map_fst 0 module.imports]
    rw [List.filter_map]
    rfl
  rw [isMap, List.length_map] at small
  rcases found : (module.imports.zipIdx.filter (·.1.kind = .func))[number] with ⟨entry, position⟩
  have isFound := List.getElem?_eq_some_iff.mpr ⟨small, found⟩
  have member := List.mem_of_mem_filter (List.mem_of_getElem? isFound)
  refine ⟨position, entry, ?_, List.mem_zipIdx_iff_getElem?.mp member, ?_⟩
  · rw [importPosition?, isFound]
    rfl
  · rw [isMap, List.getElem?_map, isFound]
    rfl

end Module

/-! ## The module that sections describe -/

namespace Binary.Contents

theorem map_filterMap_imported {α : Type} {choose : Import × Imported → Option α}
    {build : α → Imported} {kind : ExternKind} {entries : List (Import × Imported)}
    (chosen : ∀ entry, (choose entry).map build =
      if entry.2.kind = kind then some entry.2 else none)
    (kinds : ∀ entry ∈ entries, entry.2.kind = entry.1.kind) :
    (entries.filterMap choose).map build = importedOf entries kind := by
  rw [List.map_filterMap, importedOf, ← List.filterMap_eq_map, List.filterMap_filter]
  apply List.filterMap_congr
  intro entry member
  simp [chosen, kinds entry member]

theorem externs_addImports (types : List FuncType) {entries : List (Import × Imported)}
    (kinds : ∀ entry ∈ entries, entry.2.kind = entry.1.kind) (kind : ExternKind) :
    (Module.addImports { types } entries).externs kind = importedOf entries kind := by
  cases kind with
  | unknown byte =>
      have none : entries.filter (·.1.kind = .unknown byte) = [] := by
        apply List.filter_eq_nil_iff.mpr
        rintro ⟨entry, imported⟩ member isUnknown
        rw [← kinds _ member] at isUnknown
        cases imported <;> cases isUnknown
      rw [importedOf, none]
      rfl
  | _ =>
      refine map_filterMap_imported ?_ kinds
      rintro ⟨entry, imported⟩
      cases imported <;> rfl

def defined (contents : Contents) : List Func :=
  contents.funcs.zipWith
    (fun func (locals, body) => { func with locals := func.locals ++ locals, body }) contents.bodies

variable {contents : Contents}

theorem declared_externs (known : contents.Known) (kind : ExternKind) :
    ∃ others, contents.declared.externs kind = importedOf contents.entries kind ++ others := by
  rw [← externs_addImports contents.types known.kinds]
  cases kind with
  | unknown byte => exact ⟨[], rfl⟩
  | _ => exact ⟨_, List.map_append⟩

theorem declared_importCount (known : contents.Known) :
    contents.declared.importCount .func = (importedOf contents.entries .func).length := by
  rcases declared_externs known .func with ⟨others, areExterns⟩
  have counts := Module.importCount_of_externs rfl areExterns
  exact counts.1.trans counts.2

theorem module_funcs (known : contents.Known)
    (complete : contents.bodies.length = contents.funcs.length) :
    ∃ imported, imported.map .func = importedOf contents.entries .func ∧
      contents.module.funcs = imported ++ contents.defined := by
  have isImported := externs_addImports contents.types known.kinds .func
  refine ⟨_, isImported, ?_⟩
  unfold module
  split
  -- Without a code section no function is declared either.
  · next noCode =>
      have noBodies : contents.bodies = [] := by rw [bodies, noCode]; rfl
      have noFuncs : contents.funcs = [] := by
        rw [noBodies] at complete
        exact List.eq_nil_of_length_eq_zero complete.symm
      rw [declared, defined, noFuncs]
      rfl
  · next bodies isCode =>
      have isBodies : contents.bodies = bodies := by rw [Contents.bodies, isCode]; rfl
      have isFirst : contents.declared.importCount .func =
          (Module.addImports { types := contents.types } contents.entries).funcs.length := by
        rw [declared_importCount known, ← isImported]
        exact List.length_map _
      rw [isFirst, Module.addBodies]
      simp only [declared, List.take_left, List.drop_left, defined, isBodies]

theorem module_externs (known : contents.Known)
    (complete : contents.bodies.length = contents.funcs.length) (kind : ExternKind) :
    ∃ others, contents.module.externs kind = importedOf contents.entries kind ++ others := by
  by_cases isFunc : kind = .func
  · subst isFunc
    rcases module_funcs known complete with ⟨imported, isImported, areFuncs⟩
    exact ⟨_, by rw [Module.externs, areFuncs, List.map_append, isImported]⟩
  · have kept : ∀ module first bodies,
        (Module.addBodies module first bodies).externs kind = module.externs kind := by
      intro module first bodies
      cases kind with
      | func => exact absurd rfl isFunc
      | _ => rfl
    rw [module_view (·.externs kind) kept]
    exact declared_externs known kind

theorem defined_declarations (complete : contents.bodies.length = contents.funcs.length) :
    contents.defined.map (·.declaration) = contents.funcs.map (·.declaration) := by
  have isMap := congrArg (List.map Func.declaration) (List.map_fst_zip (Nat.le_of_eq complete.symm))
  rw [List.map_map, List.map_zip_eq_zipWith] at isMap
  rw [defined, List.map_zipWith]
  exact isMap

theorem defined_bodies (known : contents.Known)
    (complete : contents.bodies.length = contents.funcs.length) :
    contents.defined.map (fun func => (func.locals, func.body)) = contents.bodies := by
  have noLocals : ∀ func ∈ contents.funcs, func.locals = [] := by
    intro func member
    rcases known.funcs func member with ⟨declaration, _, rfl⟩
    rfl
  rw [defined, List.map_zipWith]
  calc contents.funcs.zipWith (fun func body => (func.locals ++ body.1, body.2)) contents.bodies
      = (contents.funcs.zip contents.bodies).map
          (fun pair => (pair.1.locals ++ pair.2.1, pair.2.2)) := by
        rw [List.map_zip_eq_zipWith]
        rfl
    _ = (contents.funcs.zip contents.bodies).map Prod.snd := by
        apply List.map_congr_left
        rintro ⟨func, body⟩ member
        rw [noLocals func (List.of_mem_zip member).1]
        rfl
    _ = contents.bodies := List.map_snd_zip (Nat.le_of_eq complete)

theorem module_grounded (known : contents.Known)
    (complete : contents.bodies.length = contents.funcs.length) :
    ∀ code ∈ contents.module.funcs.map (fun func => (func.declaration, func.body)),
      code.1.IsEntry contents.types ∧ GroundedBody contents.types code.2 := by
  rcases module_funcs known complete with ⟨imported, isImported, areFuncs⟩
  rw [areFuncs]
  refine List.forall_mem_map.mpr (List.forall_mem_append.mpr ⟨?_, ?_⟩)
  · intro func member
    have fresh := known.fresh .func (.func func) (isImported ▸ List.mem_map_of_mem member)
    rcases fresh with ⟨declaration, isEntry, rfl⟩
    exact ⟨isEntry, nofun⟩
  · intro func member
    rcases List.mem_iff_getElem?.mp member with ⟨place, found⟩
    rcases List.getElem?_zipWith_eq_some.mp found with ⟨original, body, isFunc, isBody, rfl⟩
    rcases known.funcs original (List.mem_of_getElem? isFunc) with ⟨declaration, isEntry, rfl⟩
    exact ⟨isEntry, known.bodies body (List.mem_of_getElem? isBody)⟩

theorem declared_constants (known : contents.Known) :
    ∀ body ∈ contents.declared.constants, ConstantBody contents.types body := by
  have imported := externs_addImports contents.types known.kinds .global
  refine List.forall_mem_append.mpr ⟨?_, List.forall_mem_append.mpr ⟨?_, ?_⟩⟩
  · refine List.forall_mem_map.mpr (List.forall_mem_append.mpr ⟨?_, known.globals⟩)
    intro global member
    have fresh := known.fresh .global (.global global) (imported ▸ List.mem_map_of_mem member)
    rw [fresh.2]
    exact .nil _
  · refine List.forall_mem_map.mpr fun segment member => ?_
    rcases List.mem_filterMap.mp member with ⟨given, isGiven, isSegment⟩
    exact (known.segments given isGiven segment isSegment).offset
  · exact List.forall_mem_map.mpr fun segment member => (known.datas segment member).offset

end Binary.Contents

/-! ## The decoded module -/

theorem Declaration.IsEntry.of_signatures {types others : List FuncType} {declaration : Declaration}
    (isEntry : declaration.IsEntry types)
    (same : types.map (·.signature) = others.map (·.signature)) : declaration.IsEntry others := by
  rcases isEntry with ⟨position, type, isType, rfl⟩
  have isSignature := congrArg (·[position.toNat]?) same
  simp only [List.getElem?_map, isType, Option.map_some] at isSignature
  rcases Option.map_eq_some_iff.mp isSignature.symm with ⟨other, isOther, sameSignature⟩
  exact ⟨position, other, isOther, by rw [sameSignature]⟩

theorem Declaration.IsBlockType.of_signatures {types others : List FuncType}
    {declaration : Declaration} (isBlockType : declaration.IsBlockType types)
    (same : types.map (·.signature) = others.map (·.signature)) :
    declaration.IsBlockType others :=
  isBlockType.imp_right (Or.imp_right (·.of_signatures same))

theorem Instr.GroundedBody.of_signatures {types others : List FuncType} {body : List Instr}
    (grounded : GroundedBody types body)
    (same : types.map (·.signature) = others.map (·.signature)) : GroundedBody others body := by
  intro instr member
  have known := grounded instr member
  refine ⟨?_, ?_, known.references⟩
  · intro head isHead
    have encodable := known.heads head isHead
    exact ⟨encodable.1, encodable.2.of_signatures same⟩
  · exact fun declaration isCalled => (known.calls declaration isCalled).of_signatures same

structure Func.WellFormed (types : List FuncType) (func : Func) : Prop where
  declared : func.declaration.IsEntry types
  locals : func.locals.length ≤ 50000
  code : GroundedBody types func.body
  paramsBound : ∀ name position, func.paramBindings.find? name = some position →
    position.toNat < func.params.length
  localsBound : ∀ name position, func.localBindings.find? name = some position →
    position.toNat < func.locals.length
  apart : ∀ name, func.paramBindings.find? name = none ∨ func.localBindings.find? name = none

theorem Func.Decoded.wellFormed {types : List FuncType} {func : Func} (decoded : func.Decoded)
    (isEntry : func.declaration.IsEntry types) (grounded : GroundedBody types func.body) :
    func.WellFormed types where
  declared := isEntry
  locals := decoded.localCount
  code := grounded
  paramsBound name position isBound := (decoded.paramsBound name position isBound).2
  localsBound name position isBound := (decoded.localsBound name position isBound).2
  apart name := by
    cases isBound : func.paramBindings.find? name with
    | none => exact .inl rfl
    | some position => exact .inr (decoded.apart name position isBound)

namespace Module

structure WellFormed (contents : Contents) (module : Module) : Prop where
  /-- The imports are those of the import section. -/
  imports : module.imports = contents.entries.map (·.1)
  /-- All imports of a kind count. -/
  counts : ∀ kind, module.importCount kind = (module.importsOf kind).length
  /-- The first entities of a kind are those of its imports, in order. -/
  tied : ∀ kind, ((module.externs kind).take (module.importCount kind)).map Imported.unnamed =
    Binary.importedOf contents.entries kind
  /-- The import of an imported function can be found. -/
  found : ∀ number < module.importCount .func, ∃ position entry,
    module.importPosition? number = some position ∧ module.imports[position]? = some entry ∧
      (module.importsOf .func)[number]? = some entry
  funcs : ∀ func ∈ module.funcs, func.WellFormed module.types
  /-- The other functions are those of the function section. -/
  defined : module.definedFuncs.map (·.declaration) = contents.funcs.map (·.declaration)
  /-- Each of them has its own body of the code section. -/
  bodies : module.definedFuncs.map (fun func => (func.locals, func.body)) = contents.bodies
  constants : ∀ body ∈ module.constants, ConstantBody module.types body
  distinct : (module.exports.map (·.name)).Nodup
  /-- Each export is bound to its position. -/
  bound : ∀ name position, module.exportBindings.find? name = some position ↔
    ∃ entry, module.exports[position.toNat]? = some entry ∧ entry.name = name
  references : ∀ reference ∈ module.references, reference.isIndex

theorem references_of_indexed {module : Module} (indexed : module.Indexed)
    (datas : ∀ segment ∈ module.datas, segment.memory.isIndex) :
    ∀ reference ∈ module.references, reference.isIndex := by
  have elements : ∀ segment ∈ module.elements,
      ∀ reference ∈ segment.table :: segment.functions, reference.isIndex := by
    intro segment member
    have known := List.forall_mem_append.mp (indexed.elements segment member)
    refine List.forall_mem_cons.mpr ⟨known.1 _ List.mem_cons_self, ?_⟩
    exact fun reference isFunction => known.2 _ (List.mem_map_of_mem isFunction)
  refine List.forall_mem_append.mpr ⟨List.forall_mem_map.mpr indexed.exports, ?_⟩
  refine List.forall_mem_append.mpr ⟨indexed.starts, ?_⟩
  refine List.forall_mem_append.mpr ⟨?_, List.forall_mem_map.mpr datas⟩
  intro reference member
  rcases List.mem_flatMap.mp member with ⟨segment, isSegment, isReference⟩
  exact elements segment isSegment reference isReference

theorem funcs_map_of_unnamed {α : Type} {module other : Module}
    (same : module.unnamed = other.unnamed) {view : Func → α}
    (erased : ∀ func, view func.unnamed = view func) :
    module.funcs.map view = other.funcs.map view := by
  have funcs : module.funcs.map Func.unnamed = other.funcs.map Func.unnamed :=
    congrArg Module.funcs same
  have views := congrArg (List.map view) funcs
  simpa only [List.map_map, Function.comp_def, erased] using views

theorem unnamed_constants (module : Module) : module.unnamed.constants = module.constants := by
  simp [constants, unnamed, Function.comp_def]

end Module

namespace Binary

theorem view_eq_declared {α : Type} {contents : Contents} {module : Module}
    (same : module.unnamed = contents.module.unnamed) (view : Module → α)
    (erased : ∀ module, view module.unnamed = view module)
    (kept : ∀ module first bodies, view (Module.addBodies module first bodies) = view module) :
    view module = view contents.declared := by
  rw [← erased module, same, erased, Contents.module_view view kept]

section Described

variable {contents : Contents} {module : Module}
  (same : module.unnamed = contents.module.unnamed)
include same

theorem signatures_eq : contents.types.map (·.signature) = module.types.map (·.signature) :=
  (view_eq_declared same (·.types.map (·.signature)) Module.unnamed_signatures fun _ _ _ => rfl).symm

theorem imports_eq : module.imports = contents.entries.map (·.1) :=
  view_eq_declared same (·.imports) (fun _ => rfl) fun _ _ _ => rfl

variable (known : contents.Known)
include known

theorem constants_over_types : ∀ body ∈ module.constants, ConstantBody module.types body := by
  rw [view_eq_declared same (·.constants) Module.unnamed_constants fun _ _ _ => rfl]
  intro body member
  have constant := Contents.declared_constants known body member
  exact ⟨constant.grounded.of_signatures (signatures_eq same), constant.constant⟩

theorem exports_at_positions (name : String) (position : Index) :
    module.exportBindings.find? name = some position ↔
      ∃ entry, module.exports[position.toNat]? = some entry ∧ entry.name = name := by
  have areExports : (module.exports, module.exportBindings) = contents.exports :=
    view_eq_declared same (fun module => (module.exports, module.exportBindings)) (fun _ => rfl)
      fun _ _ _ => rfl
  have bound := known.bound name position
  rwa [← areExports] at bound

theorem references_indexed (indexed : module.Indexed) :
    ∀ reference ∈ module.references, reference.isIndex := by
  apply Module.references_of_indexed indexed
  rw [view_eq_declared same (·.datas) (fun _ => rfl) fun _ _ _ => rfl]
  exact fun segment member => (known.datas segment member).memory

variable (complete : contents.bodies.length = contents.funcs.length)
include complete

theorem funcs_wellFormed (decoded : module.Decoded) :
    ∀ func ∈ module.funcs, func.WellFormed module.types := by
  have grounded := Contents.module_grounded known complete
  rw [← Module.funcs_map_of_unnamed same fun _ => rfl] at grounded
  intro func member
  have code := grounded _ (List.mem_map_of_mem member)
  exact (decoded.funcs func member).wellFormed (code.1.of_signatures (signatures_eq same))
    (code.2.of_signatures (signatures_eq same))

theorem imports_tied (kind : ExternKind) :
    module.importCount kind = (module.importsOf kind).length ∧
      module.importCount kind = (importedOf contents.entries kind).length ∧
      ((module.externs kind).take (module.importCount kind)).map Imported.unnamed =
        importedOf contents.entries kind := by
  rcases Contents.module_externs known complete kind with ⟨others, areExterns⟩
  -- Entities have no names when they are read, so erasing names leaves what is imported.
  have fresh : (importedOf contents.entries kind).map Imported.unnamed =
      importedOf contents.entries kind :=
    (List.map_congr_left fun imported member => (known.fresh kind imported member).unnamed_eq).trans
      (List.map_id _)
  have isUnnamed : module.unnamed.externs kind =
      importedOf contents.entries kind ++ others.map Imported.unnamed := by
    rw [same, Module.unnamed_externs, areExterns, List.map_append, fresh]
  have areImports : module.unnamed.imports = contents.entries.map (·.1) :=
    show module.imports = _ from imports_eq same
  have counts := Module.importCount_of_externs areImports isUnnamed
  rw [Module.unnamed_importCount] at counts
  refine ⟨counts.1, counts.1.trans counts.2, ?_⟩
  rw [List.map_take, ← Module.unnamed_externs, isUnnamed, counts.1.trans counts.2, List.take_left]

/-- The functions that are not imported are those of the function section with the bodies of
the code section. -/
theorem definedFuncs_map {α : Type} {view : Func → α}
    (erased : ∀ func, view func.unnamed = view func) :
    module.definedFuncs.map view = contents.defined.map view := by
  rcases Contents.module_funcs known complete with ⟨imported, isImported, areFuncs⟩
  have isCount : module.importCount .func = (imported.map view).length := by
    rw [(imports_tied same known complete .func).2.1, ← isImported, List.length_map,
      List.length_map]
  rw [Module.definedFuncs, List.map_drop, Module.funcs_map_of_unnamed same erased, areFuncs,
    List.map_append, isCount, List.drop_left]

end Described

/-- The sections of a decoded module describe it, and it is well formed. -/
theorem decode_wellFormed {bytes : List UInt8} {module : Module}
    (accepted : decode bytes = .ok module) :
    ∃ (frames : List Frame) (contents : Contents),
      bytes = Encode.header ++ frames.flatMap Frame.bytes ∧ contents.Read frames ∧
        module.WellFormed contents := by
  rcases decode_assembled accepted with ⟨frames, contents, isBytes, read, complete, same⟩
  have known := read.known
  have tied := imports_tied same known complete
  refine ⟨frames, contents, isBytes, read, ?_⟩
  exact {
    imports := imports_eq same
    counts := fun kind => (tied kind).1
    tied := fun kind => (tied kind).2.2
    found := fun number small => Module.importPosition?_of_lt ((tied .func).1 ▸ small)
    funcs := funcs_wellFormed same known complete (decode_decoded accepted)
    defined := by
      rw [definedFuncs_map same known complete fun _ => rfl, Contents.defined_declarations complete]
    bodies := by
      rw [definedFuncs_map same known complete fun _ => rfl, Contents.defined_bodies known complete]
    constants := constants_over_types same known
    distinct := decode_distinctExports accepted
    bound := exports_at_positions same known
    references := references_indexed same known (decode_indexed accepted)
  }

/-- A module that imports a global and a function, and calls the function through a table.
A name section names the parameter and the local of the function that calls. -/
def callingImport : List UInt8 :=
  Encode.header ++ [1, 9, 2, 0x60, 0, 0, 0x60, 1, 0x7F, 1, 0x7F] ++
    [2, 14, 2, 1, 0x6D, 1, 0x67, 3, 0x7F, 0, 1, 0x6D, 1, 0x66, 0, 1] ++ [3, 2, 1, 1] ++
    [4, 4, 1, 0x70, 0, 1] ++ [5, 3, 1, 0, 1] ++ [6, 6, 1, 0x7F, 0, 0x23, 0, 0x0B] ++
    [7, 5, 1, 1, 0x72, 0, 1] ++ [9, 7, 1, 0, 0x41, 0, 0x0B, 1, 0] ++
    [10, 16, 1, 14, 1, 1, 0x7F, 2, 0, 0x0B, 0x20, 0, 0x41, 0, 0x11, 1, 0, 0x0B] ++
    [11, 7, 1, 0, 0x41, 0, 0x0B, 1, 0x2A] ++
    [0, 16, 4, 0x6E, 0x61, 0x6D, 0x65, 2, 9, 1, 1, 2, 0, 1, 0x61, 1, 1, 0x62]

theorem decode_wellFormed_callingImport : ∃ module frames contents,
    decode callingImport = .ok module ∧ module.importPosition? 0 = some 1 ∧
      module.funcs.map (fun func => (func.paramBindings.size, func.localBindings.size)) =
        [(0, 0), (1, 1)] ∧
      callingImport = Encode.header ++ frames.flatMap Frame.bytes ∧ Contents.Read contents frames ∧
      module.WellFormed contents := by
  let view (module : Module) := (module.importPosition? 0,
    module.funcs.map fun func => (func.paramBindings.size, func.localBindings.size))
  rcases exists_of_run (decode callingImport) view (some 1, [(0, 0), (1, 1)])
    (by decide +kernel) with ⟨module, accepted, isView⟩
  rcases Prod.mk.inj isView with ⟨isPosition, areSizes⟩
  rcases decode_wellFormed accepted with ⟨frames, contents, isBytes, read, wellFormed⟩
  exact ⟨module, frames, contents, accepted, isPosition, areSizes, isBytes, read, wellFormed⟩

end Binary

end WasmLowering
