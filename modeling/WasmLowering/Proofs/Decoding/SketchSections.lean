import WasmLowering.Proofs.Decoding.Framing
import WasmLowering.Proofs.Decoding.SketchNames

/-! How the sections of a sketch follow each other.

A section that has nothing in it is left out, so it is not known which section came last
when one is read, only that it comes earlier in the order. `Completes` says that bytes are
the rest of a module whichever it was. For each section of a sketch there is a step: from
the bytes behind it, and the module with what it says, to the bytes with it. -/

namespace WasmLowering.Binary

open Decoder (Reads sectionContents)

def Completes (order : Nat) (before : Progress) (bytes : List UInt8) (module : Module) : Prop :=
  ∀ last ≤ order, ∀ start fuel, bytes.length ≤ fuel →
    ∃ after reader,
      Decoder.sections fuel { before with order := last } ⟨start, bytes⟩ = .ok after reader ∧
        after.bodies = after.declared ∧ after.module = module

theorem reads_of_eq {α : Type} {decoder : Decoder α} {used : List UInt8} {value other : α}
    (given : decoder.Reads used value) (same : value = other) : decoder.Reads used other :=
  same ▸ given

namespace Completes

variable {order : Nat} {before after : Progress} {rest : List UInt8} {module : Module}

theorem mono {larger : Nat} (given : Completes larger before rest module)
    (smaller : order ≤ larger) : Completes order before rest module := by
  intro last small
  exact given last (Nat.le_trans small smaller)

theorem done (order : Nat) (complete : before.bodies = before.declared) :
    Completes order before [] before.module := by
  intro last _ start fuel _
  cases fuel with
  | zero => exact ⟨_, _, rfl, complete, rfl⟩
  | succ fuel => exact ⟨_, _, rfl, complete, rfl⟩

theorem step {larger : Nat} {frame : Frame}
    (isStep : ∀ last ≤ order, ∀ start, ∃ next ≤ larger,
      Decoder.sectionStep { before with order := last } ⟨start, frame.bytes ++ rest⟩ =
        .ok { after with order := next } ⟨start + frame.bytes.length, rest⟩)
    (others : Completes larger after rest module) :
    Completes order before (frame.bytes ++ rest) module := by
  intro last small start fuel enough
  cases fuel with
  | zero => cases enough
  | succ fuel =>
      have stillEnough : rest.length ≤ fuel := by
        rw [Frame.bytes, List.cons_append, List.length_cons, List.length_append] at enough
        omega
      rcases isStep last small start with ⟨next, isSmall, ran⟩
      rcases others next isSmall _ fuel stillEnough with ⟨final, reader, ranLater, result⟩
      have both := Decoder.bind_eq_ok_iff.mpr ⟨_, _, ran, ranLater⟩
      exact ⟨final, reader, both, result⟩

theorem framed {id : SectionId} {byte : UInt8} (isId : SectionId.ofByte? byte = some id)
    (notCustom : id ≠ .custom) (later : order < id.order) {contents : List UInt8}
    (fits : contents.length < UInt32.size)
    (read : (sectionContents id { before with order := id.order }).Reads contents
      { after with order := id.order })
    (others : Completes id.order after rest module) :
    Completes order before (Encode.framed byte contents ++ rest) module := by
  let frame : Frame := ⟨byte, Encode.sized contents fits⟩
  show Completes order before (frame.bytes ++ rest) module
  apply step _ others
  intro last small start
  have isEntered : Decoder.entered { before with order := last } id =
      { before with order := id.order } := Decoder.entered_of_ne notCustom _
  have isRead := read.consumes (start + 1 + frame.payload.size.length)
  rw [← isEntered] at isRead
  refine ⟨id.order, Nat.le_refl _, Decoder.sectionStep_eq_ok_iff.mpr ?_⟩
  exact ⟨frame, id, rest, _, rfl, isId, fun _ => Nat.lt_of_le_of_lt small later, isRead,
    fun _ => rfl, rfl⟩

theorem optional {id : SectionId} {byte : UInt8} (isId : SectionId.ofByte? byte = some id)
    (notCustom : id ≠ .custom) (later : order < id.order) {isAbsent : Bool} {contents : List UInt8}
    (fits : contents.length < UInt32.size) (absent : isAbsent = true → after = before)
    (read : (sectionContents id { before with order := id.order }).Reads contents
      { after with order := id.order })
    (others : Completes id.order after rest module) :
    Completes order before
      ((if isAbsent then [] else Encode.framed byte contents) ++ rest) module := by
  cases isAbsent with
  | false => exact framed isId notCustom later fits read others
  | true =>
      rw [absent rfl] at others
      exact others.mono (Nat.le_of_lt later)

theorem option {α : Type} {id : SectionId} {byte : UInt8}
    (isId : SectionId.ofByte? byte = some id) (notCustom : id ≠ .custom) (later : order < id.order)
    {given : Option α} {contents : α → List UInt8}
    (fits : ∀ value, (contents value).length < UInt32.size) (absent : given = none → after = before)
    (read : ∀ value, given = some value →
      (sectionContents id { before with order := id.order }).Reads (contents value)
        { after with order := id.order })
    (others : Completes id.order after rest module) :
    Completes order before (Encode.optionSection byte contents given ++ rest) module := by
  cases given with
  | some value => exact framed isId notCustom later (fits value) (read value rfl) others
  | none =>
      rw [absent rfl] at others
      exact others.mono (Nat.le_of_lt later)

end Completes

/-! ## What the sections describe -/

namespace ModuleSketch

def describedTypes (sketch : ModuleSketch) : List FuncType := sketch.types.map (·.described)

def declaredFunc (sketch : ModuleSketch) (type : UInt32) : Func :=
  { declaration := describedDeclaration sketch.describedTypes type }

def importedFuncs (sketch : ModuleSketch) : List Func :=
  sketch.imports.map fun entry => sketch.declaredFunc entry.type

def declaredFuncs (sketch : ModuleSketch) : List Func :=
  sketch.funcs.map fun func => sketch.declaredFunc func.type

def definedFuncs (sketch : ModuleSketch) (bodies : List (List Instr)) : List Func :=
  sketch.funcs.zipWith
    (fun func body =>
      { sketch.declaredFunc func.type with locals := func.locals.map .ofByte, body }) bodies

def describedTables (sketch : ModuleSketch) : List Table :=
  sketch.table.toList.map fun limits => { element := .funcref, limits := limits.described }

def describedMemories (sketch : ModuleSketch) : List Memory :=
  sketch.memory.toList.map fun limits => { limits := limits.described }

def describedGlobals (sketch : ModuleSketch) (initials : List (List Instr)) : List Global :=
  sketch.globals.zipWith GlobalSketch.described initials

def describedStarts (sketch : ModuleSketch) : List Reference :=
  sketch.start.toList.map .index

theorem lt_describedTypes (sketch : ModuleSketch) {position : Nat}
    (known : position < sketch.types.length) : position < sketch.describedTypes.length := by
  rwa [describedTypes, List.length_map]

end ModuleSketch

theorem Module.addImports_map_func {α : Type} (module : Module) (entries : List α)
    (describe : α → Import) (func : α → Func) :
    Module.addImports module (entries.map fun entry => (describe entry, .func (func entry))) =
      { module with
        imports := entries.map describe
        funcs := module.funcs ++ entries.map func } := by
  simp [Module.addImports, List.filterMap_map, Function.comp_def]

theorem ModuleSketch.addBodies_declared (sketch : ModuleSketch) {module : Module}
    {imported : List Func} (areFuncs : module.funcs = imported ++ sketch.declaredFuncs)
    (bodies : List (List Instr)) :
    Module.addBodies module imported.length
        (sketch.funcs.zipWith (fun func body => (func.locals.map .ofByte, body)) bodies) =
      { module with funcs := imported ++ sketch.definedFuncs bodies } := by
  have defined : sketch.declaredFuncs.zipWith
      (fun func taken => { func with locals := func.locals ++ taken.1, body := taken.2 })
      (sketch.funcs.zipWith (fun func body => (func.locals.map ValueType.ofByte, body)) bodies) =
        sketch.definedFuncs bodies := by
    apply List.ext_getElem?
    intro position
    simp only [declaredFuncs, definedFuncs, List.getElem?_zipWith, List.getElem?_map]
    cases sketch.funcs[position]? <;> cases bodies[position]? <;> rfl
  rw [Module.addBodies, areFuncs, List.drop_left, List.take_left, defined]

theorem forall₂_zipWith {α β γ : Type} {related : α → β → Prop} {result : α → γ → Prop}
    {build : α → β → γ} {items : List α} {others : List β} (each : List.Forall₂ related items others)
    (built : ∀ item other, related item other → result item (build item other)) :
    List.Forall₂ result items (items.zipWith build others) := by
  induction each with
  | nil => exact .nil
  | cons first _ induction => exact .cons (built _ _ first) induction

/-! ## Steps -/

namespace Completes

variable {order : Nat} {before : Progress} {rest : List UInt8} {module : Module}
  {sketch : ModuleSketch}

theorem types (later : order < SectionId.type.order)
    (areTypes : ∀ type ∈ sketch.types, (∀ byte ∈ type.params, IsValueType byte) ∧
      ∀ byte ∈ type.results, IsValueType byte)
    (fits : (Encode.list Encode.type sketch.types).length < UInt32.size)
    (empty : before.module.types = [])
    (others : Completes SectionId.type.order
      { before with module := { before.module with types := sketch.describedTypes } } rest module) :
    Completes order before (Encode.listSection 1 Encode.type sketch.types ++ rest) module := by
  apply optional rfl (by decide) later fits _ _ others
  · intro isAbsent
    rw [ModuleSketch.describedTypes, List.isEmpty_iff.mp isAbsent, List.map_nil, ← empty]
  · have all := Encode.list_reads_map (fun _ _ => List.cons_ne_nil _ _) fits
      fun type member fits _ => TypeSketch.reads (areTypes type member).1 (areTypes type member).2 fits
    exact all.map _

theorem imports (later : order < SectionId.imports.order)
    (isTypes : before.module.types = sketch.describedTypes)
    (known : ∀ entry ∈ sketch.imports, entry.type.toNat < sketch.types.length)
    (fits : (Encode.list Encode.importEntry sketch.imports).length < UInt32.size)
    (empty : before.module.imports = []) (noFuncs : before.module.funcs = [])
    (others : Completes SectionId.imports.order
      { before with
        module := { before.module with
          imports := sketch.imports.map (·.described)
          funcs := sketch.importedFuncs } } rest module) :
    Completes order before
      (Encode.listSection 2 Encode.importEntry sketch.imports ++ rest) module := by
  apply optional rfl (by decide) later fits _ _ others
  · intro isAbsent
    rw [ModuleSketch.importedFuncs, List.isEmpty_iff.mp isAbsent, List.map_nil, List.map_nil,
      ← empty, ← noFuncs]
  · have nonempty : ∀ entry ∈ sketch.imports, Encode.importEntry entry ≠ [] := by
      intro entry _
      exact List.append_ne_nil_of_right_ne_nil _ (List.cons_ne_nil _ _)
    have all := Encode.list_reads_map nonempty fits fun entry member =>
      ImportSketch.reads (sketch.lt_describedTypes (known entry member))
    rw [← isTypes] at all
    apply reads_of_eq (all.map _)
    rw [Module.addImports_map_func, noFuncs]
    unfold ModuleSketch.importedFuncs ModuleSketch.declaredFunc
    rw [← isTypes]
    rfl

theorem functions (later : order < SectionId.function.order)
    (isTypes : before.module.types = sketch.describedTypes)
    (known : ∀ func ∈ sketch.funcs, func.type.toNat < sketch.types.length)
    (fits : (Encode.list (fun func => encodeU32 func.type) sketch.funcs).length < UInt32.size)
    (empty : before.declared = 0)
    (others : Completes SectionId.function.order
      { before with
        module := { before.module with funcs := before.module.funcs ++ sketch.declaredFuncs }
        declared := sketch.funcs.length } rest module) :
    Completes order before
      (Encode.listSection 3 (fun func => encodeU32 func.type) sketch.funcs ++ rest) module := by
  apply optional rfl (by decide) later fits _ _ others
  · intro isAbsent
    rw [ModuleSketch.declaredFuncs, List.isEmpty_iff.mp isAbsent, List.map_nil, List.append_nil,
      List.length_nil, ← empty]
  · have all := Encode.list_reads_map (fun func _ => encodeU32_ne_nil func.type) fits
      fun func member _ _ => func_reads (sketch.lt_describedTypes (known func member))
    rw [← isTypes] at all
    apply reads_of_eq (all.map _)
    rw [List.length_map]
    unfold ModuleSketch.declaredFuncs ModuleSketch.declaredFunc
    rw [← isTypes]

theorem table (later : order < SectionId.table.order) (empty : before.module.tables = [])
    (others : Completes SectionId.table.order
      { before with module := { before.module with tables := sketch.describedTables } } rest
      module) :
    Completes order before
      (Encode.optionSection 4 (fun table => 1 :: 0x70 :: Encode.limits table) sketch.table ++ rest)
      module := by
  apply option rfl (by decide) later _ _ _ others
  · intro limits
    have := limits.length_le
    rw [List.length_cons, List.length_cons]
    exact Nat.lt_of_le_of_lt (by omega : _ ≤ 13) (by decide)
  · intro isAbsent
    rw [ModuleSketch.describedTables, isAbsent, Option.toList_none, List.map_nil, ← empty]
  · intro limits isGiven
    apply reads_of_eq ((Encode.single_reads limits.reads_table).map _)
    rw [ModuleSketch.describedTables, isGiven, empty]
    rfl

theorem memory (later : order < SectionId.memory.order) (empty : before.module.memories = [])
    (others : Completes SectionId.memory.order
      { before with module := { before.module with memories := sketch.describedMemories } } rest
      module) :
    Completes order before
      (Encode.optionSection 5 (fun memory => 1 :: Encode.limits memory) sketch.memory ++ rest)
      module := by
  apply option rfl (by decide) later _ _ _ others
  · intro limits
    have := limits.length_le
    rw [List.length_cons]
    exact Nat.lt_of_le_of_lt (by omega : _ ≤ 12) (by decide)
  · intro isAbsent
    rw [ModuleSketch.describedMemories, isAbsent, Option.toList_none, List.map_nil, ← empty]
  · intro limits isGiven
    apply reads_of_eq ((Encode.single_reads limits.reads_memory).map _)
    rw [ModuleSketch.describedMemories, isGiven, empty]
    rfl

theorem start (later : order < SectionId.start.order) (empty : before.module.starts = [])
    (others : Completes SectionId.start.order
      { before with module := { before.module with starts := sketch.describedStarts } } rest
      module) :
    Completes order before (Encode.optionSection 8 encodeU32 sketch.start ++ rest) module := by
  apply option rfl (by decide) later _ _ _ others
  · intro position
    exact Nat.lt_of_le_of_lt (length_encodeU32_le position) (by decide)
  · intro isAbsent
    rw [ModuleSketch.describedStarts, isAbsent, Option.toList_none, List.map_nil, ← empty]
  · intro position isGiven
    apply reads_of_eq ((encodeU32_reads position).map _)
    rw [ModuleSketch.describedStarts, isGiven]
    rfl

theorem globals (later : order < SectionId.global.order)
    (isTypes : before.module.types = sketch.describedTypes)
    (areTypes : ∀ global ∈ sketch.globals, IsValueType global.type) {initials : List (List Instr)}
    (areCode : List.Forall₂ (fun global initial =>
      ReadsAs ⟨sketch.describedTypes, true⟩ global.initial initial) sketch.globals initials)
    (fits : (Encode.list Encode.global sketch.globals).length < UInt32.size)
    (empty : before.module.globals = [])
    (others : Completes SectionId.global.order
      { before with
        module := { before.module with globals := sketch.describedGlobals initials } } rest
      module) :
    Completes order before (Encode.listSection 6 Encode.global sketch.globals ++ rest) module := by
  apply optional rfl (by decide) later fits _ _ others
  · intro isAbsent
    rw [ModuleSketch.describedGlobals, List.isEmpty_iff.mp isAbsent, List.zipWith_nil_left, ← empty]
  · have each := (List.forall₂_and_left _ _).mpr ⟨areTypes, areCode⟩
    rw [← isTypes] at each
    have all := Encode.list_reads (fun _ _ => List.cons_ne_nil _ _) fits
      (forall₂_zipWith each fun global initial both _ => GlobalSketch.reads both.1 both.2)
    apply reads_of_eq (all.map _)
    rw [empty]
    rfl

theorem exports (later : order < SectionId.exports.order)
    (areKinds : ∀ entry ∈ sketch.exports, entry.kind ≤ 4)
    (distinct : (sketch.exports.map (·.name)).Nodup)
    (fits : (Encode.list Encode.exportEntry sketch.exports).length < UInt32.size)
    (empty : before.module.exports = []) (unbound : before.module.exportBindings = ∅)
    (others : Completes SectionId.exports.order
      { before with
        module := { before.module with
          exports := sketch.exports.map (·.described)
          exportBindings := Bindings.empty.putAll (boundExports sketch.exports 0) } } rest module) :
    Completes order before
      (Encode.listSection 7 Encode.exportEntry sketch.exports ++ rest) module := by
  apply optional rfl (by decide) later fits _ _ others
  · intro isAbsent
    have noneBound : Bindings.empty.putAll (boundExports [] 0) = before.module.exportBindings :=
      unbound.symm
    rw [List.isEmpty_iff.mp isAbsent, List.map_nil, ← empty, noneBound]
  · have fit : ∀ entry ∈ sketch.exports, (Encode.exportEntry entry).length < UInt32.size :=
      fun entry member => Nat.lt_of_le_of_lt (Encode.length_item_le member) fits
    have all := exportEntries_reads areKinds fit distinct 0 fun entry _ =>
      Bindings.has_empty entry.name
    have nonempty : ∀ entry ∈ sketch.exports, Encode.exportEntry entry ≠ [] := by
      intro entry _
      exact List.append_ne_nil_of_right_ne_nil _ (List.cons_ne_nil _ _)
    apply (Encode.length_reads sketch.exports).bind
    rw [Encode.count_fits nonempty fits, unbound,
      ← List.append_nil (sketch.exports.flatMap Encode.exportEntry)]
    exact all.bind (.pure _)

theorem elements (later : order < SectionId.element.order)
    (fits : (Encode.list Encode.element sketch.elements).length < UInt32.size)
    (empty : before.module.elements = [])
    (others : Completes SectionId.element.order
      { before with
        module := { before.module with elements := sketch.elements.map (·.described) } } rest
      module) :
    Completes order before
      (Encode.listSection 9 Encode.element sketch.elements ++ rest) module := by
  apply optional rfl (by decide) later fits _ _ others
  · intro isAbsent
    rw [List.isEmpty_iff.mp isAbsent, List.map_nil, ← empty]
  · have all := Encode.list_reads_map (fun _ _ => List.cons_ne_nil _ _) fits
      fun element _ fits number => (ElementSketch.reads before.module.types fits).locate (.segment number)
    have areActive : (sketch.elements.map fun element => some element.described).filterMap
        (fun segment => segment) = sketch.elements.map (·.described) := by
      simp [List.filterMap_map]
    apply reads_of_eq (all.map _)
    rw [areActive]

theorem code (later : order < SectionId.code.order)
    (isTypes : before.module.types = sketch.describedTypes)
    (areTypes : ∀ func ∈ sketch.funcs, ∀ byte ∈ func.locals, IsValueType byte)
    (few : ∀ func ∈ sketch.funcs, func.locals.length ≤ maxLocals) {bodies : List (List Instr)}
    (areCode : List.Forall₂ (fun func body =>
      ReadsAs ⟨sketch.describedTypes, false⟩ func.body body) sketch.funcs bodies)
    (fits : (Encode.list Encode.code sketch.funcs).length < UInt32.size) {imported : List Func}
    (areFuncs : before.module.funcs = imported ++ sketch.declaredFuncs)
    (isCount : before.module.importCount .func = imported.length)
    (isDeclared : before.declared = sketch.funcs.length) (noBodies : before.bodies = 0)
    (others : Completes SectionId.code.order
      { before with
        module := { before.module with funcs := imported ++ sketch.definedFuncs bodies }
        bodies := sketch.funcs.length } rest module) :
    Completes order before (Encode.listSection 10 Encode.code sketch.funcs ++ rest) module := by
  apply optional rfl (by decide) later fits _ _ others
  · intro isAbsent
    have noFuncs := List.isEmpty_iff.mp isAbsent
    rw [ModuleSketch.declaredFuncs, noFuncs, List.map_nil] at areFuncs
    rw [ModuleSketch.definedFuncs, noFuncs, List.zipWith_nil_left, List.length_nil, ← areFuncs,
      ← noBodies]
  · have nonempty : ∀ func ∈ sketch.funcs, Encode.code func ≠ [] := by
      intro func _
      exact List.append_ne_nil_of_left_ne_nil (encodeU32_ne_nil _) _
    have known : ∀ func ∈ sketch.funcs, (∀ byte ∈ func.locals, IsValueType byte) ∧
        func.locals.length ≤ maxLocals := fun func member => ⟨areTypes func member, few func member⟩
    have each := (List.forall₂_and_left _ _).mpr ⟨known, areCode⟩
    rw [← isTypes] at each
    have all := Encode.items_read fits
      (forall₂_zipWith each fun func body given => FuncSketch.reads given.1.1 given.1.2 given.2)
      imported.length
    apply (Encode.length_reads sketch.funcs).bind
    rw [Encode.count_fits nonempty fits, isDeclared, isCount, if_neg (not_not.mpr rfl)]
    apply reads_of_eq (all.map _)
    rw [sketch.addBodies_declared areFuncs]

theorem datas (later : order < SectionId.data.order)
    (fits : (Encode.list Encode.data sketch.datas).length < UInt32.size)
    (empty : before.module.datas = [])
    (others : Completes SectionId.data.order
      { before with module := { before.module with datas := sketch.datas.map (·.described) } } rest
      module) :
    Completes order before (Encode.listSection 11 Encode.data sketch.datas ++ rest) module := by
  apply optional rfl (by decide) later fits _ _ others
  · intro isAbsent
    rw [List.isEmpty_iff.mp isAbsent, List.map_nil, ← empty]
  · exact (Encode.list_reads_map (fun _ _ => List.cons_ne_nil _ _) fits
      fun data _ => DataSketch.reads before.module.types).map _

theorem sectionContents_names (before : Progress)
    (titleFits : (Encode.name "name").length < UInt32.size)
    (fits : (NameSection.sketched sketch).length < UInt32.size) (start : Nat) :
    sectionContents .custom before ⟨start, Encode.name "name" ++ NameSection.sketched sketch⟩ =
      .ok { before with module := NameSection.withSketched before.module sketch }
        ⟨start + (Encode.name "name").length, NameSection.sketched sketch⟩ := by
  have isTitle := Encode.name_reads titleFits start (NameSection.sketched sketch)
  refine Decoder.bind_eq_ok_iff.mpr ⟨"name", _, isTitle, ?_⟩
  rw [if_pos rfl, ← NameSection.apply_sketched fits]
  rfl

theorem names (complete : before.bodies = before.declared)
    (fits : (Encode.name "name" ++ NameSection.sketched sketch).length < UInt32.size) :
    Completes order before (Encode.nameSection sketch)
      (NameSection.withSketched before.module sketch) := by
  have bothFit := fits
  rw [List.length_append] at bothFit
  have titleFits : (Encode.name "name").length < UInt32.size := by omega
  have sketchedFits : (NameSection.sketched sketch).length < UInt32.size := by omega
  unfold Encode.nameSection
  split
  · next isEmpty =>
      rw [Bool.and_eq_true] at isEmpty
      have nothing : NameSection.sketched sketch = [] := by
        rw [NameSection.sketched, if_pos isEmpty.1, if_pos isEmpty.2]
        rfl
      rw [← NameSection.apply_sketched sketchedFits 0, nothing]
      exact done order complete
  · let frame : Frame := ⟨0, Encode.sized _ fits⟩
    let named : Progress :=
      { before with module := NameSection.withSketched before.module sketch }
    have atEnd : Completes order named [] named.module := done order complete
    have isStep : Completes order before (frame.bytes ++ []) named.module := by
      apply step _ atEnd
      intro last small start
      have isRead := sectionContents_names { before with order := last } titleFits sketchedFits
        (start + 1 + frame.payload.size.length)
      refine ⟨last, small, Decoder.sectionStep_eq_ok_iff.mpr ?_⟩
      exact ⟨frame, .custom, [], _, rfl, rfl, fun notCustom => absurd rfl notCustom, isRead,
        fun notCustom => absurd rfl notCustom, rfl⟩
    rw [List.append_nil] at isStep
    rw [List.append_assoc]
    exact isStep

end Completes

end WasmLowering.Binary
