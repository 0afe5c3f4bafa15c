import WasmLowering.Compile
import WasmLowering.Proofs.Lowering.Symbols

/-! Writing a module with names.

A module in which every reference has been replaced by a name, and in which constant
expressions are single instructions, is written unless something is not supported. -/

namespace WasmLowering

def Module.Constant (named : Module) (instrs : List Instr) : Prop :=
  ∃ instr, instrs = [instr] ∧ ∀ place, instr = .globalGet place → named.Refers .global place

structure Module.Ready (named : Module) : Prop where
  tied : ∀ kind entity, EntityKind.ofExtern? kind = some entity →
    (named.importsOf kind).length ≤ named.entityCount entity
  given : ∀ entity, ∀ name ∈ named.entityNames entity, name ≠ ""
  typed : ∀ func ∈ named.funcs, ∃ position, named.typeIndex? func.declaration = some position
  globals : ∀ global ∈ named.definedGlobals, named.Constant global.initial
  exports : ∀ entry ∈ named.exports, ∀ entity, EntityKind.ofExtern? entry.kind = some entity →
    named.Refers entity entry.target
  elements : ∀ segment ∈ named.elements, named.Refers .table segment.table ∧
    named.Constant segment.offset ∧ ∀ function ∈ segment.functions, named.Refers .func function
  datas : ∀ segment ∈ named.datas, segment.isPassive = false →
    named.Refers .memory segment.memory ∧ named.Constant segment.offset
  starts : ∀ reference ∈ named.starts, named.Refers .func reference

namespace Module

open Naming

variable {module named : Module}

theorem NamedAs.constant (same : module.NamedAs named) {scope : Naming.Scope}
    (isScope : scope.module = module.resolve) {instrs result : List Instr}
    (single : instrs.length = 1) (succeeds : scope.instrs [] instrs = .ok result) :
    named.Constant result := by
  rcases List.length_eq_one_iff.mp single with ⟨instr, rfl⟩
  rcases bind_eq_ok succeeds with ⟨first, isFirst, remaining⟩
  rcases bind_eq_ok remaining with ⟨others, areOthers, isAll⟩
  cases areOthers
  cases isAll
  refine ⟨first, rfl, ?_⟩
  rintro place rfl
  rcases (Scope.instr_sameSort isFirst).globalGet place rfl with ⟨source, isPlace⟩
  exact same.refers isScope isPlace

theorem applied_typeIndex (decoded : module.Decoded) (applied : module.resolve.Applied named)
    {source : Func} (isSource : source ∈ module.resolve.funcs) {declaration : Declaration}
    (succeeds : (Scope.ofModule module.resolve).declaration source.declaration = .ok declaration) :
    ∃ position, named.typeIndex? declaration = some position := by
  have isDeclared : source.declaration ∈ module.resolve.funcs.map (·.declaration) :=
    List.mem_map_of_mem isSource
  rw [map_declaration_resolve] at isDeclared
  rcases List.mem_map.mp isDeclared with ⟨func, isFunc, sameDeclaration⟩
  have referred := (decoded.funcs func isFunc).referred
  rw [sameDeclaration] at referred
  rcases Option.isSome_iff_exists.mp referred with ⟨reference, isReference⟩
  rw [Scope.declaration, isReference] at succeeds
  rcases bind_eq_ok succeeds with ⟨result, isResult, isDeclaration⟩
  cases isDeclaration
  rcases (applied_namedAs applied).refers rfl isResult with ⟨position, name, rfl, isNamed⟩
  exact ⟨position, isNamed.found⟩

theorem ready_of_applied (decoded : module.Decoded) (applied : module.resolve.Applied named)
    (valid : module.Valid) : named.Ready := by
  have same := applied_namedAs applied
  refine ⟨?_, same.given, ?_, ?_, ?_, ?_, ?_, ?_⟩
  · intro kind entity isKind
    rw [importsOf, same.imports, same.entityCount]
    exact decoded.tied kind entity isKind
  · intro func member
    rcases exists_of_forall₂ applied.funcs member with ⟨entry, isEntry, known⟩
    have isSource := List.fst_mem_of_mem_zipIdx isEntry
    exact applied_typeIndex decoded applied isSource known.declaration
  · intro result member
    rcases List.mem_iff_getElem?.mp member with ⟨number, isResult⟩
    rw [definedGlobals, same.importCount, List.getElem?_drop] at isResult
    rcases getElem?_of_forall₂ applied.globals.flip isResult with
      ⟨source, isSource, _, _, isInitial⟩
    refine same.constant rfl ?_ isInitial
    have initials := congrArg (·[module.importCount .global + number]?) (map_initial_resolve module)
    simp only [List.getElem?_map, isSource, Option.map_some] at initials
    rcases Option.map_eq_some_iff.mp initials.symm with ⟨global, isGlobal, sameInitial⟩
    rw [← sameInitial]
    apply valid.globals global
    exact List.mem_of_getElem? (List.getElem?_drop ▸ isGlobal)
  · intro result member entity isKind
    rcases exists_of_forall₂ applied.exports member with ⟨entry, _, applies⟩
    unfold applyExport at applies
    split at applies
    · next kind isEntity =>
        rcases bind_eq_ok applies with ⟨target, isTarget, isResult⟩
        cases isResult
        cases isEntity.symm.trans isKind
        exact same.refers rfl isTarget
    · next isNone =>
        cases applies
        rw [isNone] at isKind
        cases isKind
  · intro result member
    rcases exists_of_forall₂ applied.elements member with ⟨segment, isSegment, applies⟩
    rcases bind_eq_ok applies with ⟨table, isTable, remaining⟩
    rcases bind_eq_ok remaining with ⟨offset, isOffset, remaining⟩
    rcases bind_eq_ok remaining with ⟨functions, areFunctions, isResult⟩
    cases isResult
    refine ⟨same.refers rfl isTable,
      same.constant rfl (valid.elements segment isSegment) isOffset, ?_⟩
    intro function isFunction
    rcases exists_of_forall₂ (mapM_eq_ok areFunctions) isFunction with ⟨source, _, isSource⟩
    exact same.refers rfl isSource
  · intro result member notPassive
    rcases exists_of_forall₂ applied.datas member with ⟨segment, isSegment, applies⟩
    unfold applyData at applies
    split at applies
    · next passive =>
        cases applies
        rw [passive] at notPassive
        cases notPassive
    · next active =>
        rcases bind_eq_ok applies with ⟨memory, isMemory, remaining⟩
        rcases bind_eq_ok remaining with ⟨offset, isOffset, isResult⟩
        cases isResult
        exact ⟨same.refers rfl isMemory,
          same.constant rfl (valid.datas segment isSegment notPassive) isOffset⟩
  · intro result member
    rcases exists_of_forall₂ applied.starts member with ⟨source, _, isSource⟩
    exact same.refers rfl isSource

end Module

namespace Emission

open EntitySymbols

variable {lenient : Prop} {named : Module} {α β : Type}

/-! ## References -/

theorem found_gives {kind : EntityKind} {reference : Reference}
    (refers : named.Refers kind reference) (items : List α) (nameOf : α → String)
    (areItems : named.entityNames kind = items.map nameOf) (otherwise : Defect) :
    Gives lenient (found ((named.entityIndex? kind reference).bind fun position =>
      items[position.toNat]?) otherwise) fun item => item ∈ items := by
  rcases refers with ⟨position, name, rfl, isNamed⟩
  rcases isNamed.item items nameOf areItems with ⟨item, isFound, isItem, _⟩
  refine (Gives.found isFound otherwise).mono ?_
  rintro _ rfl
  exact List.mem_of_getElem? isItem

theorem external_meets {kind : ExternKind} {name : String} {symbols : EntitySymbols}
    (bound : symbols.Binds (kind, name)) :
    Meets lenient (external kind name) symbols fun _ after => after = symbols := by
  refine .bind_get ?_
  exact (Meets.lift (external_gives (.inr bound)) symbols).mono fun _ _ known => known.2

theorem numberOf_gives (value : Constant) : Gives lenient (numberOf value) fun _ => True := by
  cases value with
  | number => exact .ok trivial
  | _ => exact .unsupported _ _

theorem initial_meets {instrs : List Instr} (constant : named.Constant instrs)
    {symbols : EntitySymbols}
    (bound : ∀ name ∈ named.entityNames .global, symbols.Binds (.global, name)) :
    Meets lenient (initial instrs) symbols fun _ after => after = symbols := by
  rcases constant with ⟨instr, rfl, refers⟩
  unfold initial
  split
  · refine (Meets.lift (numberOf_gives _) symbols).bind ?_
    rintro number _ ⟨-, rfl⟩
    exact .pure rfl
  · next place isSingle =>
      cases isSingle
      rcases refers place rfl with ⟨position, name, rfl, isNamed⟩
      refine (Meets.lift (Gives.ok rfl) symbols).bind ?_
      rintro _ _ ⟨rfl, rfl⟩
      refine (external_meets (bound _ (List.mem_of_getElem? isNamed.isName))).bind ?_
      rintro external _ rfl
      exact .pure rfl
  · exact .unsupported _ _ _
  · next notConst notGet notSingle => exact absurd rfl (notSingle instr)

/-! ## Parts of a module -/

theorem each_meets {items : List α} {action : α → Emit β} (base : EntitySymbols)
    (step : ∀ item ∈ items, ∀ symbols, base.Extends symbols →
      Meets lenient (action item) symbols fun _ after => symbols.Extends after) :
    Meets lenient (items.mapM action) base fun _ after => base.Extends after := by
  refine (mapM_meets (fun _ _ _ => True) (fun _ _ _ _ _ _ => trivial) ?_).mono ?_
  · exact fun item member symbols later =>
      (step item member symbols later).mono fun _ _ extended => ⟨extended, trivial⟩
  · exact fun _ _ known => known.1

theorem exportedEntity_gives {entry : Export}
    (refers : ∀ entity, EntityKind.ofExtern? entry.kind = some entity →
      named.Refers entity entry.target) :
    Gives lenient (exportedEntity named entry) fun object => ∃ entity,
      EntityKind.ofExtern? object.kind = some entity ∧
        object.entity ∈ named.entityNames entity := by
  unfold exportedEntity
  split
  · next isKind =>
    rw [isKind] at refers
    refine (found_gives (refers .func rfl) named.funcs (·.name) rfl _).bind fun func member => ?_
    refine (funcSymbol_gives _ _).bind fun symbol _ => ?_
    refine (prototypeOf_gives _).bind fun prototype _ => .ok ⟨.func, rfl, ?_⟩
    exact List.mem_map_of_mem member
  · next isKind =>
    rw [isKind] at refers
    refine (found_gives (refers .global rfl) named.globals (·.name) rfl _).bind
      fun global member => ?_
    refine (globalSymbol_gives _ _).bind fun symbol _ => ?_
    refine (scalarOf_gives _).bind fun scalar _ => .ok ⟨.global, rfl, ?_⟩
    exact List.mem_map_of_mem member
  · next isKind =>
    rw [isKind] at refers
    refine (found_gives (refers .memory rfl) named.memories (·.name) rfl _).bind
      fun memory member => .ok ⟨.memory, rfl, ?_⟩
    exact List.mem_map_of_mem member
  · next isKind =>
    rw [isKind] at refers
    refine (found_gives (refers .table rfl) named.tables (·.name) rfl _).bind
      fun table member => .ok ⟨.table, rfl, ?_⟩
    exact List.mem_map_of_mem member
  · exact .unsupported _ _

theorem exports_meets (ready : named.Ready) (base : EntitySymbols) :
    Meets lenient (named.exports.mapM (exportObject named)) base fun objects after =>
      base.Extends after ∧ ∀ object ∈ objects, ∃ entity,
        EntityKind.ofExtern? object.kind = some entity ∧
          object.entity ∈ named.entityNames entity := by
  refine (mapM_meets (fun _ object _ => ∃ entity, EntityKind.ofExtern? object.kind = some entity ∧
    object.entity ∈ named.entityNames entity) (fun _ _ _ _ _ => id) ?_).mono ?_
  · intro entry member symbols _
    refine (Meets.lift (exportedEntity_gives (ready.exports entry member)) symbols).bind ?_
    rintro object _ ⟨known, rfl⟩
    refine (Meets.modify _ _).bind ?_
    rintro _ _ rfl
    exact .pure ⟨.refl _, known⟩
  · rintro objects after ⟨later, known⟩
    refine ⟨later, fun object member => ?_⟩
    rcases List.mem_iff_getElem?.mp member with ⟨position, isObject⟩
    rcases getElem?_of_forall₂ known.flip isObject with ⟨_, _, isKnown⟩
    exact isKnown

theorem typeEntry_gives (type : FuncType) : Gives lenient (typeEntry type) fun _ => True := by
  refine (Gives.mapM fun type _ => scalarOf_gives type).bind fun params _ => ?_
  refine (Gives.mapM fun type _ => scalarOf_gives type).bind fun results _ => ?_
  exact .ok trivial

theorem globalValue_meets {global : Global} (constant : named.Constant global.initial)
    (isGlobal : global.name ∈ named.entityNames .global) {symbols : EntitySymbols}
    (bound : ∀ name ∈ named.entityNames .global, symbols.Binds (.global, name)) :
    Meets lenient (globalValue global) symbols fun _ after => after = symbols := by
  have nonempty : global.initial ≠ [] := by
    rcases constant with ⟨instr, isInitial, _⟩
    rw [isInitial]
    exact List.cons_ne_nil _ _
  refine .bind_promised nonempty ?_
  refine (external_meets (bound _ isGlobal)).bind ?_
  rintro external _ rfl
  refine (initial_meets constant bound).bind ?_
  rintro value _ rfl
  exact .pure rfl

theorem dataCopy_meets {segment : DataSegment} {array : C.DataArray}
    (refers : named.Refers .memory segment.memory) (constant : named.Constant segment.offset)
    {symbols : EntitySymbols} (cover : symbols.Cover named) :
    Meets lenient (dataCopy named segment array) symbols fun _ after => after = symbols := by
  refine (Meets.lift (found_gives refers named.memories (·.name) rfl _) symbols).bind ?_
  rintro memory _ ⟨member, rfl⟩
  refine (external_meets (cover .memory .memory rfl _ (List.mem_map_of_mem member))).bind ?_
  rintro external _ rfl
  refine (initial_meets constant (cover .global .global rfl)).bind ?_
  rintro offset _ rfl
  exact .pure rfl

theorem element_meets (ready : named.Ready) {reference : Reference}
    (refers : named.Refers .func reference) {symbols : EntitySymbols}
    (cover : symbols.Cover named) :
    Meets lenient (element named reference) symbols fun _ after => after = symbols := by
  refine (Meets.lift (found_gives refers named.funcs (·.name) rfl _) symbols).bind ?_
  rintro func _ ⟨member, rfl⟩
  rcases ready.typed func member with ⟨position, isPosition⟩
  refine (Meets.lift (Gives.found isPosition _) _).bind ?_
  rintro typeIndex _ ⟨-, rfl⟩
  refine (external_meets (cover .func .func rfl _ (List.mem_map_of_mem member))).bind ?_
  rintro external _ rfl
  exact .pure rfl

theorem elementCopy_meets (ready : named.Ready) {segment : ElementSegment}
    (isSegment : segment ∈ named.elements) {symbols : EntitySymbols} (cover : symbols.Cover named) :
    Meets lenient (elementCopy named segment) symbols fun _ after => symbols.Extends after := by
  rcases ready.elements segment isSegment with ⟨refers, constant, areFunctions⟩
  refine (Meets.lift (found_gives refers named.tables (·.name) rfl _) symbols).bind ?_
  rintro table after ⟨member, same⟩
  subst after
  refine (external_meets (cover .table .table rfl _ (List.mem_map_of_mem member))).bind ?_
  rintro external after same
  subst after
  refine (initial_meets constant (cover .global .global rfl)).bind ?_
  rintro offset after same
  subst after
  refine Meets.bind (each_meets symbols fun reference isReference later extended => ?_) ?_
  · refine (element_meets ready (areFunctions reference isReference)
      (cover.extends extended)).mono ?_
    rintro _ _ rfl
    exact .refl _
  · exact fun elements after extended => .pure extended

theorem startFunc_meets {reference : Reference} (refers : named.Refers .func reference)
    {symbols : EntitySymbols} (cover : symbols.Cover named) :
    Meets lenient (startFunc named reference) symbols fun _ after => after = symbols := by
  refine (Meets.lift (found_gives refers named.funcs (·.name) rfl _) symbols).bind ?_
  rintro func _ ⟨member, rfl⟩
  exact external_meets (cover .func .func rfl _ (List.mem_map_of_mem member))

theorem memoryAllocation_meets {symbols : EntitySymbols} (cover : symbols.Cover named) :
    Meets lenient (memoryAllocation named) symbols fun _ after => after = symbols := by
  unfold memoryAllocation
  split
  · exact .pure rfl
  · next memory others areMemories =>
      split
      · refine (external_meets (cover .memory .memory rfl memory.name ?_)).bind ?_
        · simp [Module.entityNames, areMemories]
        · rintro external _ rfl
          exact .pure rfl
      · exact .pure rfl

theorem tableAllocation_meets {symbols : EntitySymbols} (cover : symbols.Cover named) :
    Meets lenient (tableAllocation named) symbols fun _ after => after = symbols := by
  unfold tableAllocation
  split
  · exact .pure rfl
  · next table others areTables =>
      split
      · refine (external_meets (cover .table .table rfl table.name ?_)).bind ?_
        · simp [Module.entityNames, areTables]
        · rintro external _ rfl
          exact .pure rfl
      · exact .pure rfl

/-! ## The whole module -/

theorem binds_all {symbols : EntitySymbols} {kind : ExternKind} {entity : EntityKind}
    (imported : ∀ number < named.importCount kind, ∀ name,
      (named.entityNames entity)[number]? = some name → symbols.Binds (kind, name))
    {items : List α} {nameOf : α → String} (areItems : named.entityNames entity = items.map nameOf)
    (defined : ∀ item ∈ items.drop (named.importCount kind), symbols.Binds (kind, nameOf item)) :
    ∀ name ∈ named.entityNames entity, symbols.Binds (kind, name) := by
  intro name member
  rcases List.mem_iff_getElem?.mp member with ⟨number, isName⟩
  rcases Nat.lt_or_ge number (named.importCount kind) with before | behind
  · exact imported number before name isName
  · rw [areItems, List.getElem?_map] at isName
    rcases Option.map_eq_some_iff.mp isName with ⟨item, isItem, rfl⟩
    apply defined item
    have isDefined : (items.drop (named.importCount kind))[number - named.importCount kind]? =
        some item := by
      rw [List.getElem?_drop, Nat.add_sub_cancel' behind, isItem]
    exact List.mem_of_getElem? isDefined

theorem types_meets (named : Module) (base : EntitySymbols) :
    Meets lenient (named.types.mapM fun type => (liftM (typeEntry type) : Emit _)) base
      fun _ after => base.Extends after := by
  refine each_meets _ fun type _ symbols _ => ?_
  exact (Meets.lift (typeEntry_gives type) symbols).mono fun _ _ known => known.2 ▸ .refl _

theorem funcs_meets (ready : named.Ready) (base : EntitySymbols) :
    Meets lenient (named.definedFuncs.mapM declareFunc) base fun _ after =>
      base.Extends after ∧ ∀ func ∈ named.definedFuncs, after.Binds (.func, func.name) := by
  refine defineAll_meets _ fun func member symbols => declareFunc_meets ?_ symbols
  exact ready.given .func _ (List.mem_map_of_mem (List.mem_of_mem_drop member))

theorem globals_meets (ready : named.Ready) (base : EntitySymbols) :
    Meets lenient (named.definedGlobals.mapM declareGlobal) base fun _ after =>
      base.Extends after ∧
        ∀ global ∈ named.definedGlobals, after.Binds (.global, global.name) := by
  refine defineAll_meets _ fun global member symbols => declareGlobal_meets ?_ symbols
  exact ready.given .global _ (List.mem_map_of_mem (List.mem_of_mem_drop member))

theorem globalValues_meets (ready : named.Ready) {base : EntitySymbols}
    (bound : ∀ name ∈ named.entityNames .global, base.Binds (.global, name)) :
    Meets lenient (named.definedGlobals.mapM globalValue) base fun _ after =>
      base.Extends after := by
  refine each_meets _ fun global member symbols later => ?_
  have isGlobal : global.name ∈ named.entityNames .global :=
    List.mem_map_of_mem (List.mem_of_mem_drop member)
  refine (globalValue_meets (ready.globals global member) isGlobal fun name isName =>
    later _ (bound name isName)).mono ?_
  rintro _ _ rfl
  exact .refl _

theorem memories_meets (ready : named.Ready) (base : EntitySymbols) :
    Meets lenient (named.definedMemories.mapM fun memory => define .memory memory.name) base
      fun _ after => base.Extends after ∧
        ∀ memory ∈ named.definedMemories, after.Binds (.memory, memory.name) := by
  refine defineAll_meets _ fun memory member symbols => define_meets ?_ symbols
  exact ready.given .memory _ (List.mem_map_of_mem (List.mem_of_mem_drop member))

theorem tables_meets (ready : named.Ready) (base : EntitySymbols) :
    Meets lenient (named.definedTables.mapM fun table => define .table table.name) base
      fun _ after => base.Extends after ∧
        ∀ table ∈ named.definedTables, after.Binds (.table, table.name) := by
  refine defineAll_meets _ fun table member symbols => define_meets ?_ symbols
  exact ready.given .table _ (List.mem_map_of_mem (List.mem_of_mem_drop member))

theorem dataArrays_meets (named : Module) (base : EntitySymbols) :
    Meets lenient ((activeDatas named).mapM fun (segment, position) => dataArray segment position)
      base fun _ after => base.Extends after := by
  refine each_meets _ fun entry _ symbols _ => ?_
  refine .bind_get ((Meets.set _ _).bind ?_)
  rintro _ _ rfl
  exact .pure (.refl symbols)

theorem dataCopies_meets (ready : named.Ready) {base : EntitySymbols} (cover : base.Cover named)
    (arrays : List C.DataArray) :
    Meets lenient (((activeDatas named).zip arrays).mapM fun ((segment, _), array) =>
      dataCopy named segment array) base fun _ after => base.Extends after := by
  refine each_meets _ ?_
  rintro ⟨⟨segment, position⟩, array⟩ member symbols later
  have isActive := List.mem_filter.mp (List.of_mem_zip member).1
  have isSegment : segment ∈ named.datas := List.fst_mem_of_mem_zipIdx isActive.1
  have notPassive : segment.isPassive = false := by
    have active := isActive.2
    simp only [Bool.and_eq_true, Bool.not_eq_true'] at active
    exact active.1
  rcases ready.datas segment isSegment notPassive with ⟨refers, constant⟩
  refine (dataCopy_meets refers constant (cover.extends later)).mono ?_
  rintro _ _ rfl
  exact .refl _

theorem functions_meets {base : EntitySymbols} (cover : base.Cover named)
    (lowers : ∀ func ∈ named.definedFuncs, ∀ symbols : EntitySymbols, symbols.Cover named →
      Gives lenient (lowerFunc named symbols func) fun _ => True) :
    Meets lenient (named.definedFuncs.mapM fun func =>
      (liftM (lowerFunc named base func) : Emit _)) base fun _ after => base.Extends after := by
  refine each_meets _ fun func member symbols _ => ?_
  exact (Meets.lift (lowers func member base cover) symbols).mono fun _ _ known => known.2 ▸ .refl _

theorem exportTargets_meets {base : EntitySymbols} (cover : base.Cover named)
    {objects : List C.ExportedObject}
    (known : ∀ object ∈ objects, ∃ entity, EntityKind.ofExtern? object.kind = some entity ∧
      object.entity ∈ named.entityNames entity) :
    Meets lenient (objects.mapM fun object => external object.kind object.entity) base
      fun _ after => base.Extends after := by
  refine each_meets _ fun object member symbols later => ?_
  rcases known object member with ⟨entity, isKind, isName⟩
  refine (external_meets (cover.extends later _ entity isKind _ isName)).mono ?_
  rintro _ _ rfl
  exact .refl _

theorem starts_meets (ready : named.Ready) {base : EntitySymbols} (cover : base.Cover named) :
    Meets lenient (named.starts.mapM (startFunc named)) base fun _ after => base.Extends after := by
  refine each_meets _ fun reference member symbols later => ?_
  refine (startFunc_meets (ready.starts reference member) (cover.extends later)).mono ?_
  rintro _ _ rfl
  exact .refl _

/-- A module is written if its functions are lowered once all entities have symbols. -/
theorem program_meets (ready : named.Ready) (noTags : named.tags = [])
    (lowers : ∀ func ∈ named.definedFuncs, ∀ symbols : EntitySymbols, symbols.Cover named →
      Gives lenient (lowerFunc named symbols func) fun _ => True) :
    Meets lenient (program named) {} fun _ _ => True := by
  refine (imports_meets ready.tied ready.given {}).bind fun imports first imported => ?_
  refine (exports_meets ready first).bind fun exports second ⟨keptSecond, areExports⟩ => ?_
  refine (types_meets named second).bind fun types third keptThird => ?_
  refine (funcs_meets ready third).bind fun prototypes fourth ⟨keptFourth, areFuncs⟩ => ?_
  refine (globals_meets ready fourth).bind fun globals fifth ⟨keptFifth, areGlobals⟩ => ?_
  have uptoFifth : first.Extends fifth :=
    keptSecond.trans (keptThird.trans (keptFourth.trans keptFifth))
  have boundGlobals : ∀ name ∈ named.entityNames .global, fifth.Binds (.global, name) :=
    binds_all (fun number inside name isName =>
      uptoFifth _ (imported .global .global rfl number inside name isName)) rfl areGlobals
  refine (globalValues_meets ready boundGlobals).bind fun globalValues sixth keptSixth => ?_
  refine (memories_meets ready sixth).bind fun memories seventh ⟨keptSeventh, areMemories⟩ => ?_
  refine (tables_meets ready seventh).bind fun tables eighth ⟨keptEighth, areTables⟩ => ?_
  have uptoEighth := keptSixth.trans (keptSeventh.trans keptEighth)
  -- From here on all entities have symbols.
  have cover : eighth.Cover named := by
    intro kind entity isKind
    have boundImports := fun number inside name isName =>
      (uptoFifth.trans uptoEighth) _ (imported kind entity isKind number inside name isName)
    cases kind with
    | func =>
        cases isKind
        exact binds_all boundImports rfl fun func member =>
          (keptFifth.trans uptoEighth) _ (areFuncs func member)
    | global =>
        cases isKind
        exact fun name member => uptoEighth _ (boundGlobals name member)
    | memory =>
        cases isKind
        exact binds_all boundImports rfl fun memory member =>
          keptEighth _ (areMemories memory member)
    | table =>
        cases isKind
        exact binds_all boundImports rfl areTables
    | except =>
        cases isKind
        simp [Module.entityNames, noTags]
    | unknown => cases isKind
  refine (dataArrays_meets named eighth).bind fun arrays ninth keptNinth => ?_
  have coverNinth := cover.extends keptNinth
  refine (memoryAllocation_meets coverNinth).bind ?_
  rintro memoryAllocation _ rfl
  refine (dataCopies_meets ready coverNinth arrays).bind fun dataCopies tenth keptTenth => ?_
  have coverTenth := coverNinth.extends keptTenth
  refine (tableAllocation_meets coverTenth).bind ?_
  rintro tableAllocation _ rfl
  have elements : Meets lenient (named.elements.mapM (elementCopy named)) _ fun _ after =>
      EntitySymbols.Extends _ after := each_meets _ fun segment member symbols later =>
    elementCopy_meets ready member (coverTenth.extends later)
  refine elements.bind fun elementCopies eleventh keptEleventh => ?_
  have coverEleventh := coverTenth.extends keptEleventh
  refine .bind_get ((functions_meets coverEleventh lowers).bind fun functions twelfth kept => ?_)
  have coverTwelfth := coverEleventh.extends kept
  refine (exportTargets_meets coverTwelfth areExports).bind fun targets thirteenth keptTargets => ?_
  refine (starts_meets ready (coverTwelfth.extends keptTargets)).bind fun starts last _ => ?_
  exact .pure trivial

/-- A program holds the defined functions of its module, lowered with the symbols that
were chosen before. -/
theorem program_functions (named : Module) :
    Meets True (program named) {} fun program _ => ∃ symbols,
      List.Forall₂ (fun func function => lowerFunc named symbols func = .ok function)
        named.definedFuncs program.functions := by
  refine (Meets.anything _ _).bind fun imports _ _ => ?_
  refine (Meets.anything _ _).bind fun exports _ _ => ?_
  refine (Meets.anything _ _).bind fun types _ _ => ?_
  refine (Meets.anything _ _).bind fun prototypes _ _ => ?_
  refine (Meets.anything _ _).bind fun globals _ _ => ?_
  refine (Meets.anything _ _).bind fun globalValues _ _ => ?_
  refine (Meets.anything _ _).bind fun memories _ _ => ?_
  refine (Meets.anything _ _).bind fun tables _ _ => ?_
  refine (Meets.anything _ _).bind fun dataArrays _ _ => ?_
  refine (Meets.anything _ _).bind fun memoryAllocation _ _ => ?_
  refine (Meets.anything _ _).bind fun dataCopies _ _ => ?_
  refine (Meets.anything _ _).bind fun tableAllocation _ _ => ?_
  refine (Meets.anything _ _).bind fun elementCopies symbols _ => ?_
  have functions : Meets True (named.definedFuncs.mapM fun func =>
      (liftM (lowerFunc named symbols func) : Emit _)) symbols fun functions after =>
        symbols.Extends after ∧ List.Forall₂ (fun func function =>
          lowerFunc named symbols func = .ok function) named.definedFuncs functions := by
    refine mapM_meets (fun func function _ => lowerFunc named symbols func = .ok function)
      (fun _ _ _ _ _ => id) fun func _ before _ => ?_
    refine (Meets.lift (Gives.ofResult (lowerFunc named symbols func)) before).mono ?_
    rintro function _ ⟨lowered, rfl⟩
    exact ⟨.refl _, lowered⟩
  refine .bind_get (functions.bind fun functions _ ⟨_, lowered⟩ => ?_)
  refine (Meets.anything _ _).bind fun exportTargets _ _ => ?_
  refine (Meets.anything _ _).bind fun starts _ _ => ?_
  exact .pure ⟨symbols, lowered⟩

end Emission

open Emission

theorem Module.exists_definedFunc {module named : Module} (decoded : module.Decoded)
    (applied : module.resolve.Applied named) {namedFunc : Func}
    (member : namedFunc ∈ named.definedFuncs) :
    ∃ func ∈ module.definedFuncs, func.Decoded ∧ module.FuncNamed func namedFunc := by
  have same := applied_namedAs applied
  have lengths : named.definedFuncs.length = module.definedFuncs.length := by
    have counts := congrArg List.length same.signatures
    simp only [List.length_map] at counts
    rw [definedFuncs, definedFuncs, List.length_drop, List.length_drop, counts, same.importCount]
  rcases List.mem_iff_getElem?.mp member with ⟨number, isNamedFunc⟩
  have inside : number < module.definedFuncs.length :=
    lengths ▸ (List.getElem?_eq_some_iff.mp isNamedFunc).1
  have isFunc := List.getElem?_eq_getElem inside
  rcases definedFunc_named decoded applied isFunc with ⟨other, isOther, isNamed⟩
  cases isOther.symm.trans isNamedFunc
  exact ⟨_, List.mem_of_getElem? isFunc, decoded.definedFunc isFunc, isNamed⟩

theorem Module.emit_gives {lenient : Prop} {module named : Module} (decoded : module.Decoded)
    (applied : module.resolve.Applied named) (valid : module.Valid)
    (single : ∀ func ∈ module.definedFuncs, func.SingleNames) :
    Gives lenient named.emit fun _ => True := by
  refine (checkModule_gives named).bind fun _ ⟨noTags, singleResults⟩ => Gives.map ?_
  refine program_meets (ready_of_applied decoded applied valid) noTags ?_
  intro namedFunc member symbols cover
  rcases exists_definedFunc decoded applied member with ⟨func, isFunc, funcDecoded, isNamed⟩
  refine (lowerFunc_gives (applied_namedAs applied) isNamed (List.mem_of_mem_drop member)
    funcDecoded (single func isFunc) (valid.funcs func isFunc) (.inr cover) singleResults).mono ?_
  exact fun _ _ => trivial

/-- A well-typed function with one name at most for every slot has been lowered, where
its module has been written. -/
theorem Module.emit_function {module named : Module} (decoded : module.Decoded)
    (applied : module.resolve.Applied named) {program : C.Program}
    (emitted : named.emit = .ok program) {number : Nat} {func : Func}
    (isFunc : module.definedFuncs[number]? = some func) (single : func.SingleNames)
    (typed : func.WellTyped module) :
    ∃ namedFunc function, module.FuncNamed func namedFunc ∧
      program.functions[number]? = some function ∧
      FunctionEmitted module named func namedFunc function := by
  rcases bind_eq_ok emitted with ⟨_, checked, runs⟩
  have singleResults := ((checkModule_gives named).of_ok checked).2
  have functions : Gives True ((Emission.program named).run' {}) fun program => ∃ symbols,
      List.Forall₂ (fun func function => lowerFunc named symbols func = .ok function)
        named.definedFuncs program.functions := Gives.map (program_functions named)
  rcases functions.of_ok runs with ⟨symbols, lowered⟩
  rcases definedFunc_named decoded applied isFunc with ⟨namedFunc, isNamedFunc, isNamed⟩
  rcases getElem?_of_forall₂ lowered isNamedFunc with ⟨function, isFunction, lowers⟩
  have member : namedFunc ∈ named.funcs := List.mem_of_mem_drop (List.mem_of_getElem? isNamedFunc)
  have lowering : Gives True (lowerFunc named symbols namedFunc)
      (FunctionEmitted module named func namedFunc) :=
    lowerFunc_gives (applied_namedAs applied) isNamed member (decoded.definedFunc isFunc) single
      typed (.inl trivial) singleResults
  exact ⟨namedFunc, function, isNamed, isFunction, lowering.of_ok lowers⟩

/-- A function that repeats a loop as long as its parameter is not zero, and then
returns it. -/
def waitForZero : List UInt8 :=
  [0x00, 0x61, 0x73, 0x6D, 0x01, 0x00, 0x00, 0x00,
    -- The type `[i32] -> [i32]`, one function of it, and its body.
    0x01, 0x06, 0x01, 0x60, 0x01, 0x7F, 0x01, 0x7F, 0x03, 0x02, 0x01, 0x00,
    0x0A, 0x0D, 0x01, 0x0B, 0x00, 0x03, 0x40, 0x20, 0x00, 0x0D, 0x00, 0x0B, 0x20, 0x00, 0x0B]

def waitBody : List Instr :=
  [.loop ⟨"", ⟨none, ⟨[], []⟩⟩⟩ [.localGet (.index 0), .brIf (.index 0)], .localGet (.index 0)]

def waitTypes : Assignment
  | [0] => some ⟨[], [0]⟩
  | [0, 0, 0] => some ⟨[], [0, 0]⟩
  | [1, 0, 0] => some ⟨[.i32], [0, 0]⟩
  | [1] => some ⟨[], [0]⟩
  | _ => none

def isWaiting (module : Module) : Bool :=
  match module.definedFuncs with
  | [func] =>
      func.declaration.signature = ⟨[.i32], [.i32]⟩ && func.locals = [] &&
        func.paramBindings.size = 0 && func.localBindings.size = 0 &&
        (match func.body with
        | [.loop ⟨"", ⟨none, ⟨[], []⟩⟩⟩ [.localGet (.index 0), .brIf (.index 0)],
          .localGet (.index 0)] => true
        | _ => false) &&
        module.definedGlobals.isEmpty && module.elements.isEmpty && module.datas.isEmpty
  | _ => false

theorem Bindings.find?_of_size {bindings : Bindings} (none : bindings.size = 0) (name : String) :
    bindings.find? name = .none := by
  have isEmpty : bindings.entries = ∅ := Std.ExtTreeMap.eq_empty_iff_size_eq_zero.mpr none
  rw [find?, isEmpty]
  exact Std.ExtTreeMap.getElem?_empty

theorem waiting_typed {module : Module} {func : Func}
    (signature : func.declaration.signature = ⟨[.i32], [.i32]⟩) (body : func.body = waitBody) :
    func.TypedBy module waitTypes := by
  have params : func.params = [.i32] := congrArg Signature.params signature
  have results : func.results = [.i32] := congrArg Signature.results signature
  have slot : func.slotType? 0 = some .i32 := by
    rw [Func.slotType?, params]
    rfl
  have again : Typed module func waitTypes [0, 0] 1 [⟨[], []⟩, ⟨[.i32], []⟩]
      (.instr (.brIf (.index 0))) (.i32 :: (LabelType.mk [] []).carried.reverse ++ [])
      ((LabelType.mk [] []).carried.reverse ++ []) := .brIf rfl
  have inside : Typed module func waitTypes [0, 0] 0 [⟨[], [] ++ []⟩, ⟨[.i32], []⟩]
      (.body [.localGet (.index 0), .brIf (.index 0)]) [].reverse [].reverse :=
    .cons rfl (.localGet slot) (.cons rfl again .nil)
  rw [Func.TypedBy, body, results]
  exact .cons rfl (.loop inside) (.cons rfl (.localGet slot) .nil)

theorem exists_waiting : ∃ module named func, Binary.decode waitForZero = .ok module ∧
    module.resolve.applyNames = .ok named ∧ named.emit.isOk ∧ module.definedFuncs = [func] ∧
    func.declaration.signature = ⟨[.i32], [.i32]⟩ ∧ func.locals = [] ∧ func.body = waitBody ∧
    func.SingleNames ∧ func.TypedBy module waitTypes ∧ module.Valid := by
  have run : ((Binary.decode waitForZero).toOption.bind fun module =>
      module.resolve.applyNames.toOption.map fun named =>
        (isWaiting module, named.emit.isOk)) = some (true, true) := by
    decide +kernel
  rcases decoded : Binary.decode waitForZero with error | module
  · rw [decoded] at run
    cases run
  rw [decoded, Except.toOption, Option.bind_some] at run
  rcases applied : module.resolve.applyNames with error | named
  · rw [applied] at run
    cases run
  rw [applied, Except.toOption, Option.map_some] at run
  have waits : isWaiting module = true := (Prod.mk.inj (Option.some.inj run)).1
  have emits : named.emit.isOk = true := (Prod.mk.inj (Option.some.inj run)).2
  unfold isWaiting at waits
  split at waits
  · next func isFunc =>
      simp only [Bool.and_eq_true, decide_eq_true_eq, List.isEmpty_iff] at waits
      rcases waits with
        ⟨⟨⟨⟨⟨⟨⟨signature, locals⟩, params⟩, names⟩, body⟩, globals⟩, elements⟩, datas⟩
      have isBody : func.body = waitBody := by
        split at body
        · next same => exact same
        · cases body
      have typed : func.TypedBy module waitTypes := waiting_typed signature isBody
      have single : func.SingleNames :=
        ⟨fun first second slot isFirst => by simp [Bindings.find?_of_size params] at isFirst,
          fun first second slot isFirst => by simp [Bindings.find?_of_size names] at isFirst⟩
      refine ⟨module, named, func, rfl, applied, emits, isFunc, signature, locals, isBody, single,
        typed, ?_⟩
      refine ⟨?_, by simp [globals], by simp [elements], by simp [datas]⟩
      intro other member
      rw [isFunc, List.mem_singleton] at member
      exact member ▸ ⟨waitTypes, typed⟩
  · cases waits

end WasmLowering
