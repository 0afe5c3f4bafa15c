import WasmLowering.Proofs.Decoding.SketchSections

/-! Decoding undoes encoding.

A sketch is readable if its types are ones, its code is code, and nothing in it is too
large. What is decoded of it is the module that it describes, whichever of its sections are
left out. The functions and slots of this module have the names that the sketch gives for
them, as far as these are different. -/

namespace WasmLowering.Binary

namespace ModuleSketch

/-! ## What a sketch describes -/

def unnamed (sketch : ModuleSketch) (bodies initials : List (List Instr)) : Module :=
  { types := sketch.describedTypes
    funcs := sketch.importedFuncs ++ sketch.definedFuncs bodies
    globals := sketch.describedGlobals initials
    tables := sketch.describedTables
    memories := sketch.describedMemories
    imports := sketch.imports.map (·.described)
    exports := sketch.exports.map (·.described)
    elements := sketch.elements.map (·.described)
    datas := sketch.datas.map (·.described)
    starts := sketch.describedStarts
    exportBindings := Bindings.empty.putAll (boundExports sketch.exports 0) }

def described (sketch : ModuleSketch) (bodies initials : List (List Instr)) : Module :=
  { sketch.unnamed bodies initials with
    funcs := (sketch.unnamed bodies initials).funcs.mapIdx sketch.named }

structure Fits (sketch : ModuleSketch) : Prop where
  types : (Encode.list Encode.type sketch.types).length < UInt32.size
  imports : (Encode.list Encode.importEntry sketch.imports).length < UInt32.size
  funcs : (Encode.list (fun func => encodeU32 func.type) sketch.funcs).length < UInt32.size
  globals : (Encode.list Encode.global sketch.globals).length < UInt32.size
  exports : (Encode.list Encode.exportEntry sketch.exports).length < UInt32.size
  elements : (Encode.list Encode.element sketch.elements).length < UInt32.size
  code : (Encode.list Encode.code sketch.funcs).length < UInt32.size
  datas : (Encode.list Encode.data sketch.datas).length < UInt32.size
  names : (Encode.name "name" ++ NameSection.sketched sketch).length < UInt32.size

/-- A sketch that can be read, with what is read of the code that it has as bytes. Initial
values are read like all constant expressions. -/
structure Readable (sketch : ModuleSketch) (bodies initials : List (List Instr)) : Prop where
  fits : sketch.Fits
  types : ∀ type ∈ sketch.types, (∀ byte ∈ type.params, IsValueType byte) ∧
    ∀ byte ∈ type.results, IsValueType byte
  locals : ∀ func ∈ sketch.funcs, ∀ byte ∈ func.locals, IsValueType byte
  globals : ∀ global ∈ sketch.globals, IsValueType global.type
  importTypes : ∀ entry ∈ sketch.imports, entry.type.toNat < sketch.types.length
  funcTypes : ∀ func ∈ sketch.funcs, func.type.toNat < sketch.types.length
  exportNames : (sketch.exports.map (·.name)).Nodup
  exportKinds : ∀ entry ∈ sketch.exports, entry.kind ≤ 4
  fewLocals : ∀ func ∈ sketch.funcs, func.locals.length ≤ maxLocals
  bodies : List.Forall₂ (fun func body =>
    ReadsAs ⟨sketch.describedTypes, false⟩ func.body body) sketch.funcs bodies
  initials : List.Forall₂ (fun global initial =>
    ReadsAs ⟨sketch.describedTypes, true⟩ global.initial initial) sketch.globals initials

/-! ## Reading a sketch -/

theorem length_importedFuncs (sketch : ModuleSketch) :
    sketch.importedFuncs.length = sketch.imports.length :=
  List.length_map _

theorem importCount_eq {sketch : ModuleSketch} {module : Module} {others : List Func}
    (areImports : module.imports = sketch.imports.map (·.described))
    (areFuncs : module.funcs = sketch.importedFuncs ++ others) :
    module.importCount .func = sketch.imports.length := by
  have allFuncs : module.importsOf .func = module.imports := by
    rw [Module.importsOf, areImports, List.filter_eq_self]
    intro entry member
    rcases List.mem_map.mp member with ⟨given, _, rfl⟩
    rfl
  have enough : sketch.imports.length ≤ module.funcs.length := by
    rw [areFuncs, List.length_append, length_importedFuncs]
    exact Nat.le_add_right _ _
  show min (module.importsOf .func).length module.funcs.length = _
  rw [allFuncs, areImports, List.length_map, Nat.min_eq_left enough]

theorem unnamed_funcs {sketch : ModuleSketch} {bodies initials : List (List Instr)} {func : Func}
    (member : func ∈ (sketch.unnamed bodies initials).funcs) : func.unnamed = func := by
  rcases List.mem_append.mp member with isImported | isDefined
  · rcases List.mem_map.mp isImported with ⟨entry, _, rfl⟩
    rfl
  · rw [definedFuncs, ← List.map_uncurry_zip_eq_zipWith] at isDefined
    rcases List.mem_map.mp isDefined with ⟨given, _, rfl⟩
    rfl

theorem withSketched_unnamed (sketch : ModuleSketch) (bodies initials : List (List Instr)) :
    NameSection.withSketched (sketch.unnamed bodies initials) sketch =
      { sketch.unnamed bodies initials with
        funcs := (sketch.unnamed bodies initials).funcs.mapIdx
          (NameSection.renamed sketch sketch.imports.length) } := by
  rw [NameSection.withSketched_eq, importCount_eq rfl rfl]

end ModuleSketch

theorem map_mapIdx_congr {α β : Type} {view : α → β} {items : List α}
    {change other : Nat → α → α}
    (same : ∀ position, ∀ item ∈ items, view (change position item) = view (other position item)) :
    (items.mapIdx change).map view = (items.mapIdx other).map view := by
  apply List.ext_getElem?
  intro position
  rw [List.getElem?_map, List.getElem?_map, List.getElem?_mapIdx, List.getElem?_mapIdx]
  cases found : items[position]? with
  | none => rfl
  | some item => exact congrArg some (same position item (List.mem_of_getElem? found))

theorem Completes.decodes {bytes : List UInt8} {module : Module}
    (given : Completes 0 {} bytes module) : decode (Encode.header ++ bytes) = .ok module := by
  rcases given 0 (Nat.le_refl 0) 8 bytes.length (Nat.le_refl _) with
    ⟨after, reader, ran, complete, isModule⟩
  have accepted := Decoder.module_eq_ok_iff.mpr ⟨bytes, after, rfl, ran, complete, isModule⟩
  rw [decode, accepted]

/-- The sections of a sketch are read one after another, each if it is there. -/
theorem ModuleSketch.Readable.decodes {sketch : ModuleSketch} {bodies initials : List (List Instr)}
    (readable : sketch.Readable bodies initials) :
    decode (encode sketch) =
      .ok (NameSection.withSketched (sketch.unnamed bodies initials) sketch) := by
  have fits := readable.fits
  simp only [encode, List.append_assoc]
  apply Completes.decodes
  apply Completes.types (by decide) readable.types fits.types rfl
  apply Completes.imports (by decide) rfl readable.importTypes fits.imports rfl rfl
  apply Completes.functions (by decide) rfl readable.funcTypes fits.funcs rfl
  apply Completes.table (by decide) rfl
  apply Completes.memory (by decide) rfl
  apply Completes.globals (by decide) rfl readable.globals readable.initials fits.globals rfl
  apply Completes.exports (by decide) readable.exportKinds readable.exportNames fits.exports rfl rfl
  apply Completes.start (by decide) rfl
  apply Completes.elements (by decide) fits.elements rfl
  have isCount := sketch.length_importedFuncs.symm
  apply Completes.code (by decide) rfl readable.locals readable.fewLocals readable.bodies fits.code
    rfl ((importCount_eq rfl rfl).trans isCount) rfl rfl
  apply Completes.datas (by decide) fits.datas rfl
  exact Completes.names rfl fits.names

/-- Decoding undoes encoding. Apart from names, what is decoded is what the sketch describes.
Functions have the names that are given for them if these are different, and given for each
position once; and slots of a function are bound as described if the names that are given
for them are different. Names for what does not exist make no difference. -/
theorem decode_encode {sketch : ModuleSketch} {bodies initials : List (List Instr)}
    (readable : sketch.Readable bodies initials) :
    ∃ module, decode (encode sketch) = .ok module ∧
      module = { sketch.described bodies initials with funcs := module.funcs } ∧
      module.funcs.map Func.unnamed =
        (sketch.described bodies initials).funcs.map Func.unnamed ∧
      ((sketch.funcNames.map (·.1)).Nodup → (sketch.funcNames.map (·.2)).Nodup →
        module.funcs.map (·.name) = (sketch.described bodies initials).funcs.map (·.name)) ∧
      ∀ position, ((sketch.slotNames position).map (·.2)).Nodup →
        module.funcs[position]?.map (fun func => (func.paramBindings, func.localBindings)) =
          (sketch.described bodies initials).funcs[position]?.map
            fun func => (func.paramBindings, func.localBindings) := by
  refine ⟨_, readable.decodes, ?_⟩
  rw [ModuleSketch.withSketched_unnamed]
  refine ⟨rfl, ?_, ?_, ?_⟩
  · apply map_mapIdx_congr
    intro position func member
    exact NameSection.renamed_unnamed sketch _ position func
  · intro isMap different
    apply map_mapIdx_congr
    intro position func member
    have noName := congrArg Func.name (ModuleSketch.unnamed_funcs member)
    exact NameSection.renamed_name isMap different noName.symm
  · intro position different
    rw [ModuleSketch.described]
    dsimp only
    rw [List.getElem?_mapIdx, List.getElem?_mapIdx]
    cases found : (sketch.unnamed bodies initials).funcs[position]? with
    | none => rfl
    | some func =>
        have same := ModuleSketch.unnamed_funcs (List.mem_of_getElem? found)
        have slots := NameSection.renamed_slots different (congrArg Func.paramBindings same).symm
          (congrArg Func.localBindings same).symm
        exact congrArg some (Prod.ext slots.1 slots.2)

/-- An imported function `print`, and a function `add` of two parameters and a local. There is
something in every section, and the segments lie at the largest addresses. -/
def adder : ModuleSketch where
  types := [⟨[0x7F, 0x7F], [0x7F]⟩, {}]
  imports := [⟨"env", "print", 1⟩]
  funcs := [⟨0, [0x7E], [0x20, 0, 0x20, 1, 0x6A]⟩]
  table := some ⟨1, none⟩
  memory := some ⟨1, some 2⟩
  globals := [⟨0x7F, true, [0x41, 7]⟩]
  exports := [⟨"add", 0, 1⟩]
  start := some 0
  elements := [⟨0xFFFFFFFF, [1]⟩]
  datas := [⟨0xFFFFFFFE, [104, 105]⟩]
  funcNames := [(1, "add"), (0, "print")]
  localNames := [(1, [(2, "sum"), (0, "left")])]

def adderBodies : List (List Instr) :=
  [[.localGet (.index 0), .localGet (.index 1), .binary .i32Add]]

def adderInitials : List (List Instr) := [[.const (.number (.i32 7))]]

theorem Encode.sorted_swap {α : Type} {later earlier : UInt32} (order : earlier < later)
    (first second : α) :
    sorted [(later, first), (earlier, second)] = [(earlier, second), (later, first)] := by
  have wrong : ¬later ≤ earlier := UInt32.not_le.mpr order
  simp [sorted, List.mergeSort, List.MergeSort.Internal.splitInTwo, wrong]

/-- The lists are sorted before the length is computed, since `decide` cannot run the sorting. -/
theorem adder_namesFit :
    (Encode.name "name" ++ NameSection.sketched adder).length < UInt32.size := by
  have funcs : Encode.sorted adder.funcNames = [(0, "print"), (1, "add")] :=
    Encode.sorted_swap (by decide) _ _
  have slots : Encode.sorted [(2, "sum"), (0, "left")] = [(0, "left"), (2, "sum")] :=
    Encode.sorted_swap (by decide) _ _
  have locals : Encode.sorted adder.localNames = adder.localNames := List.mergeSort_singleton _
  simp only [NameSection.sketched, Encode.nameMap, Encode.slotNames, funcs, locals]
  simp only [adder, Encode.list, List.flatMap_cons, slots]
  decide +kernel

theorem adder_readable : adder.Readable adderBodies adderInitials where
  fits := {
    types := by decide
    imports := by decide +kernel
    funcs := by decide
    globals := by decide
    exports := by decide +kernel
    elements := by decide
    code := by decide
    datas := by decide
    names := adder_namesFit }
  types := by
    have isType : IsValueType 0x7F := rfl
    simp [adder, isType]
  locals := List.forall_mem_singleton.mpr (List.forall_mem_singleton.mpr rfl)
  globals := List.forall_mem_singleton.mpr rfl
  importTypes := List.forall_mem_singleton.mpr (by decide)
  funcTypes := List.forall_mem_singleton.mpr (by decide)
  exportNames := by decide
  exportKinds := List.forall_mem_singleton.mpr (by decide)
  fewLocals := List.forall_mem_singleton.mpr (by decide)
  bodies := .cons (fun _ => rfl) .nil
  initials := .cons (fun _ => rfl) .nil

theorem decode_encode_adder : ∃ module, decode (encode adder) = .ok module ∧
    module.funcs.map (·.name) = ["$print", "$add"] ∧
    module.funcs.map (·.body.length) = [0, 3] ∧
    module.funcs[1]?.map (fun func =>
      (func.paramBindings.find? "$left", func.localBindings.find? "$sum")) =
        some (some 0, some 0) ∧
    module.datas.map (·.offset) = [describedOffset 0xFFFFFFFE] := by
  rcases decode_encode adder_readable with ⟨module, accepted, others, funcs, names, slots⟩
  refine ⟨module, accepted, ?_, ?_, ?_, ?_⟩
  · rw [names (by decide) (by decide)]
    decide
  · have bodies := congrArg (List.map fun func => func.body.length) funcs
    rw [List.map_map, List.map_map] at bodies
    exact bodies
  · have bound := congrArg (Option.map fun bindings =>
      (bindings.1.find? "$left", bindings.2.find? "$sum")) (slots 1 (by decide))
    rw [Option.map_map, Option.map_map] at bound
    exact bound.trans (by decide)
  · rw [others]
    rfl

end WasmLowering.Binary
