import WasmLowering.Proofs.Lowering.Mentions
import WasmLowering.Proofs.Lowering.TypeChecks
import WasmLowering.Proofs.Symbols.FunctionLayout
import WasmLowering.Proofs.Symbols.Hygiene

/-! The variables that functions declare.

Parameters and locals are declared as the module has them, and the variables of the
operand stack as they have been mentioned while the body was lowered. All of them have
different symbols, so each is declared once. -/

namespace WasmLowering

namespace Emission

/-! ## Parameters and locals -/

def slotView (declared : Scalar × String) : ValueType × String :=
  (declared.1.toValueType, declared.2)

theorem namedParams_slots {func : Func} {params : List (Scalar × String)}
    (named : namedParams func = .ok params) :
    params.map slotView = func.params.zip func.paramNames := by
  have each : params.map slotView = (func.params.zip func.paramNames).zipIdx.map (·.1) := by
    refine map_eq_of_forall₂ (mapM_eq_ok named) ?_
    rintro ⟨⟨type, name⟩, position⟩ result isResult
    rcases bind_eq_ok isResult with ⟨_, _, remaining⟩
    rcases bind_eq_ok remaining with ⟨scalar, isScalar, same⟩
    cases same
    exact Prod.ext (scalarOf_eq_ok isScalar) rfl
  rw [each, List.zipIdx_map_fst]

theorem perm_groups {α β : Type} [DecidableEq β] {key : α → β} {keys : List β} {items : List α}
    (different : keys.Nodup) (complete : ∀ item ∈ items, key item ∈ keys) :
    (keys.flatMap fun value => items.filter (key · = value)).Perm items := by
  induction keys generalizing items with
  | nil =>
      have empty : items = [] := List.eq_nil_iff_forall_not_mem.mpr fun item member =>
        List.not_mem_nil (complete item member)
      simp [empty]
  | cons value rest induction =>
      rcases List.nodup_cons.mp different with ⟨isNew, differentRest⟩
      -- The groups that follow have nothing of the first one.
      have others : (rest.flatMap fun other => items.filter (key · = other)).Perm
          (items.filter fun item => !decide (key item = value)) := by
        have same : ∀ other ∈ rest, items.filter (key · = other) =
            (items.filter fun item => !decide (key item = value)).filter (key · = other) := by
          intro other isOther
          rw [List.filter_filter]
          apply List.filter_congr
          intro item _
          by_cases isKey : key item = other
          · have notFirst : other ≠ value := fun isFirst => isNew (isFirst ▸ isOther)
            simp [isKey, notFirst]
          · simp [isKey]
        rw [List.flatMap_congr same]
        apply induction differentRest
        intro item member
        rcases List.mem_filter.mp member with ⟨isItem, notFirst⟩
        exact (List.mem_cons.mp (complete item isItem)).resolve_left (by simpa using notFirst)
      exact (others.append_left _).trans (List.filter_append_perm _ items)

theorem localGroup_slots {func : Func} {scalar : Scalar} {group : List (Scalar × String)}
    (named : ((func.locals.zip func.localNames).zipIdx.filter
      (·.1.1 = scalar.toValueType)).mapM (fun entry => do
        promised (entry.1.2 ≠ "") (.unnamedLocal entry.2 func.name)
        return (scalar, entry.1.2)) = .ok group) :
    group.map slotView = (func.locals.zip func.localNames).filter (·.1 = scalar.toValueType) := by
  have each : group.map slotView = ((func.locals.zip func.localNames).zipIdx.filter
      (·.1.1 = scalar.toValueType)).map fun entry => (scalar.toValueType, entry.1.2) := by
    refine map_eq_of_forall₂ (mapM_eq_ok named) ?_
    rintro ⟨⟨type, name⟩, position⟩ result isResult
    rcases bind_eq_ok isResult with ⟨_, _, same⟩
    cases same
    rfl
  have ofGroup : ∀ entry ∈ (func.locals.zip func.localNames).zipIdx.filter
      (·.1.1 = scalar.toValueType), (scalar.toValueType, entry.1.2) = entry.1 := by
    intro entry member
    have isType : entry.1.1 = scalar.toValueType := by simpa using (List.mem_filter.mp member).2
    rw [← isType]
  have unnumbered : (func.locals.zip func.localNames).zipIdx.map (·.1) =
      func.locals.zip func.localNames := List.zipIdx_map_fst _ _
  rw [each, List.map_congr_left ofGroup, ← unnumbered, List.filter_map, unnumbered]
  rfl

/-- The locals are declared each with its type and name, those of each type together. -/
theorem namedLocals_slots {func : Func} {locals : List (Scalar × String)}
    (named : namedLocals func = .ok locals) :
    (locals.map slotView).Perm (func.locals.zip func.localNames) := by
  rcases bind_eq_ok named with ⟨_, areSupported, remaining⟩
  rcases bind_eq_ok remaining with ⟨groups, areGroups, same⟩
  cases same
  have each : groups.map (·.map slotView) = Scalar.all.map fun scalar =>
      (func.locals.zip func.localNames).filter (·.1 = scalar.toValueType) :=
    map_eq_of_forall₂ (mapM_eq_ok areGroups) fun _ _ isGroup => localGroup_slots isGroup
  have grouped : groups.flatten.map slotView = (Scalar.all.map (·.toValueType)).flatMap fun type =>
      (func.locals.zip func.localNames).filter (·.1 = type) := by
    rw [List.map_flatten, each, List.flatMap_map]
    rfl
  rw [grouped]
  refine perm_groups (by decide) fun ⟨type, name⟩ member => ?_
  rcases (supportedLocals_gives func).of_ok areSupported type (List.of_mem_zip member).1 with
    ⟨scalar, isScalar⟩
  refine List.mem_map.mpr ⟨scalar, ?_, isScalar.symm⟩
  cases scalar <;> decide

end Emission

namespace C

/-! ## The symbols of variables -/

def Variable.entry (declared : Variable) : Ident × String := (declared.ident, declared.symbol)

def Variable.place (declared : Variable) : ValueType × Ident :=
  (declared.type.toValueType, declared.ident)

section

variable {isZeroed : Bool} {places : List (Scalar × String)} {symbols : List String}

theorem placeVariables_entries {spelling : Spelling} {others : List Ident}
    (listed : spelling.map (·.1) = places.map (fun place => .named place.2) ++ others) :
    (placeVariables isZeroed places (spelling.map (·.2))).map Variable.entry =
      spelling.take places.length := by
  induction places generalizing spelling with
  | nil => rfl
  | cons place rest induction =>
      rcases spelling with _ | ⟨⟨first, symbol⟩, spelling⟩
      · cases listed
      · rcases List.cons.inj listed with ⟨isFirst, listedRest⟩
        rw [List.length_cons, List.take_succ_cons, ← induction listedRest]
        exact congrArg (· :: _) (Prod.ext isFirst.symm rfl)

theorem placeVariables_places (enough : places.length ≤ symbols.length) :
    (placeVariables isZeroed places symbols).map Variable.place =
      (places.map Emission.slotView).map fun (type, name) => (type, .named name) := by
  rw [placeVariables, List.map_map, ← List.map_fst_zip enough, List.map_map, List.map_map,
    List.map_fst_zip enough]
  rfl

theorem of_mem_placeVariables {declared : Variable}
    (member : declared ∈ placeVariables isZeroed places symbols) :
    ∃ type name symbol, (type, name) ∈ places ∧
      declared = ⟨.named name, type, symbol, isZeroed⟩ := by
  rcases List.mem_map.mp member with ⟨⟨⟨type, name⟩, symbol⟩, inZip, rfl⟩
  exact ⟨type, name, symbol, (List.of_mem_zip inZip).1, rfl⟩

end

namespace Function

variable {function : Function} {spelling : Spelling}

theorem firstVariables_entries (idents : spelling.map (·.1) = function.idents) :
    (function.paramVariables spelling ++ function.localVariables spelling).map Variable.entry =
      spelling.take (function.params.length + function.locals.length) := by
  rw [Function.idents, List.map_append, List.append_assoc] at idents
  have behind : (spelling.drop function.params.length).map (·.1) =
      function.locals.map (fun place => .named place.2) ++ function.mentioned := by
    rw [List.map_drop, idents]
    exact List.drop_left' (List.length_map ..)
  rw [List.map_append, List.take_add, paramVariables, placeVariables_entries idents, localVariables,
    ← List.map_drop, placeVariables_entries behind]

theorem length_symbols (idents : spelling.map (·.1) = function.idents) :
    function.params.length + function.locals.length ≤ (spelling.map (·.2)).length := by
  have sameLength := congrArg List.length idents
  simp only [List.length_map, Function.idents, List.length_append] at sameLength ⊢
  omega

theorem paramVariables_places (idents : spelling.map (·.1) = function.idents) :
    (function.paramVariables spelling).map Variable.place =
      (function.params.map Emission.slotView).map fun (type, name) => (type, .named name) :=
  placeVariables_places (Nat.le_of_add_right_le (length_symbols idents))

theorem localVariables_places (idents : spelling.map (·.1) = function.idents) :
    (function.localVariables spelling).map Variable.place =
      (function.locals.map Emission.slotView).map fun (type, name) => (type, .named name) := by
  apply placeVariables_places
  rw [List.length_drop]
  exact Nat.le_sub_of_add_le' (length_symbols idents)

theorem ident_of_slotsOf {ident : Ident} {type : Scalar} {slot : Slot}
    (isSlot : (match ident with
      | .slot slot => if slot.type = type then some slot else none
      | _ => none) = some slot) : ident = .slot slot ∧ slot.type = type := by
  split at isSlot
  · split at isSlot
    · next isType =>
        cases isSlot
        exact ⟨rfl, isType⟩
    · cases isSlot
  · cases isSlot

theorem mem_slotsOf {slot : Slot} {type : Scalar} :
    slot ∈ function.slotsOf type ↔ .slot slot ∈ function.mentioned ∧ slot.type = type := by
  rw [slotsOf, List.mem_mergeSort, List.mem_filterMap]
  constructor
  · rintro ⟨ident, member, isSlot⟩
    rcases ident_of_slotsOf isSlot with ⟨rfl, isType⟩
    exact ⟨member, isType⟩
  · rintro ⟨member, isType⟩
    exact ⟨_, member, if_pos isType⟩

theorem mem_slotVariables {declared : Variable} :
    declared ∈ function.slotVariables spelling ↔ ∃ slot, .slot slot ∈ function.mentioned ∧
      declared = ⟨.slot slot, slot.type, spelling.slot slot, false⟩ := by
  rw [slotVariables, List.mem_flatMap]
  constructor
  · rintro ⟨type, _, member⟩
    rcases List.mem_map.mp member with ⟨slot, isSlot, rfl⟩
    rcases mem_slotsOf.mp isSlot with ⟨mentioned, rfl⟩
    exact ⟨slot, mentioned, rfl⟩
  · rintro ⟨slot, mentioned, rfl⟩
    refine ⟨slot.type, ?_, List.mem_map.mpr ⟨slot, mem_slotsOf.mpr ⟨mentioned, rfl⟩, rfl⟩⟩
    cases slot.type <;> decide

theorem slotsOf_nodup (mentioned : function.mentioned.Nodup) (type : Scalar) :
    (function.slotsOf type).Nodup := by
  rw [slotsOf, (List.mergeSort_perm _ _).nodup_iff]
  apply mentioned.filterMap
  intro first second slot isFirst isSecond
  exact (ident_of_slotsOf isFirst).1.trans (ident_of_slotsOf isSecond).1.symm

theorem slotVariables_nodup (mentioned : function.mentioned.Nodup) :
    ((function.slotVariables spelling).map Variable.entry).Nodup := by
  have areSlots : (function.slotVariables spelling).map Variable.entry =
      (Scalar.all.flatMap function.slotsOf).map fun slot => (.slot slot, spelling.slot slot) := by
    simp only [slotVariables, List.map_flatMap, List.map_map]
    rfl
  rw [areSlots]
  refine List.Nodup.map (fun first second same => ?_) ?_
  · injection same with sameIdent
    injection sameIdent
  · refine List.nodup_flatMap.mpr ⟨fun type _ => slotsOf_nodup mentioned type, ?_⟩
    have different : Scalar.all.Nodup := by decide
    refine different.imp fun {first second} isOther slot isFirst isSecond => ?_
    exact isOther ((mem_slotsOf.mp isFirst).2.symm.trans (mem_slotsOf.mp isSecond).2)

/-! ## Every variable once -/

/-- The variables of a function are declared where it begins, each of them once. -/
structure DeclaresVariables (function : Function) (func : Func) (spelling : Spelling) : Prop where
  /-- Behind the declarations there are only statements. -/
  text : function.textWith spelling = function.layout spelling
  /-- The statements show only the symbols of what they refer to. -/
  shown : ∀ other : Spelling, spelling.Agree other
    (Emission.Scope.bodyIdents (function.body, function.returned)) →
      function.bodyText other = function.bodyText spelling
  /-- No symbol is declared twice. -/
  once : ((function.declared spelling).map (·.symbol)).Nodup
  /-- The parameters are declared in order, with their types. -/
  params : (function.paramVariables spelling).map Variable.place =
    (func.params.zip func.paramNames).map fun (type, name) => (type, .named name)
  /-- All locals are declared with their types. -/
  locals : ((function.localVariables spelling).map Variable.place).Perm
    ((func.locals.zip func.localNames).map fun (type, name) => (type, .named name))
  /-- A parameter or local that is referred to is declared with its type, and with zero if
  it is a local. -/
  places : ∀ name, .named name ∈
      Emission.Scope.bodyIdents (function.body, function.returned) → ∃ type : Scalar,
    ((type.toValueType, name) ∈ func.params.zip func.paramNames ∧
      ⟨.named name, type, spelling.named name, false⟩ ∈ function.paramVariables spelling) ∨
    ((type.toValueType, name) ∈ func.locals.zip func.localNames ∧
      ⟨.named name, type, spelling.named name, true⟩ ∈ function.localVariables spelling)
  /-- A slot that is referred to is declared with its type. -/
  slots : ∀ slot, .slot slot ∈
      Emission.Scope.bodyIdents (function.body, function.returned) →
    ⟨.slot slot, slot.type, spelling.slot slot, false⟩ ∈ function.slotVariables spelling
  /-- Different slots have different symbols. -/
  different : ∀ first second,
    .slot first ∈ Emission.Scope.bodyIdents (function.body, function.returned) →
    .slot second ∈ Emission.Scope.bodyIdents (function.body, function.returned) →
      spelling.slot first = spelling.slot second → first = second

theorem entries_nodup (idents : spelling.map (·.1) = function.idents)
    (symbols : (spelling.map (·.2)).Nodup) (mentioned : function.mentioned.Nodup) :
    ((function.declared spelling).map Variable.entry).Nodup := by
  rw [declared, List.map_append]
  refine List.Nodup.append ?_ (slotVariables_nodup mentioned) ?_
  · rw [firstVariables_entries idents]
    exact (List.Nodup.of_map _ symbols).sublist (List.take_sublist _ _)
  · -- No slot is a parameter or local.
    intro entry isPlace isSlot
    rcases List.mem_map.mp isPlace with ⟨place, placeMember, rfl⟩
    rcases List.mem_map.mp isSlot with ⟨other, otherMember, same⟩
    rcases mem_slotVariables.mp otherMember with ⟨slot, _, rfl⟩
    rcases List.mem_append.mp placeMember with isParam | isLocal
    · rcases of_mem_placeVariables isParam with ⟨_, _, _, _, rfl⟩
      cases same
    · rcases of_mem_placeVariables isLocal with ⟨_, _, _, _, rfl⟩
      cases same

theorem Hygienic.entry_mem {around : List String} (hygienic : function.Hygienic spelling around)
    {entry : Ident × String} (member : entry ∈ (function.declared spelling).map Variable.entry) :
    entry ∈ spelling := by
  rw [declared, List.map_append, firstVariables_entries hygienic.idents] at member
  rcases List.mem_append.mp member with isPlace | isSlot
  · exact List.mem_of_mem_take isPlace
  · rcases List.mem_map.mp isSlot with ⟨other, otherMember, rfl⟩
    rcases mem_slotVariables.mp otherMember with ⟨slot, isMentioned, rfl⟩
    exact hygienic.spelled _ (List.mem_append_right _ isMentioned)

theorem Hygienic.declared_nodup {around : List String}
    (hygienic : function.Hygienic spelling around) (mentioned : function.mentioned.Nodup) :
    ((function.declared spelling).map (·.symbol)).Nodup := by
  have symbols : (function.declared spelling).map (·.symbol) =
      ((function.declared spelling).map Variable.entry).map (·.2) := by
    rw [List.map_map]
    rfl
  rw [symbols]
  refine (entries_nodup hygienic.idents hygienic.nodup mentioned).map_on ?_
  intro first isFirst second isSecond same
  exact List.inj_on_of_nodup_map hygienic.nodup (hygienic.entry_mem isFirst)
    (hygienic.entry_mem isSecond) same

/-- A name that is referred to belongs to one of the parameters and locals. -/
theorem Hygienic.place_declared {around : List String}
    (hygienic : function.Hygienic spelling around)
    (unnamed : ∀ name, .named name ∉ function.mentioned) {name : String}
    (known : .named name ∈ function.idents) :
    ∃ type, (type, name) ∈ function.params ∧
        ⟨.named name, type, spelling.named name, false⟩ ∈ function.paramVariables spelling ∨
      (type, name) ∈ function.locals ∧
        ⟨.named name, type, spelling.named name, true⟩ ∈ function.localVariables spelling := by
  have isEntry : (.named name, spelling.named name) ∈
      spelling.take (function.params.length + function.locals.length) ++
        spelling.drop (function.params.length + function.locals.length) := by
    rw [List.take_append_drop]
    exact hygienic.spelled _ known
  rw [← firstVariables_entries hygienic.idents] at isEntry
  rcases List.mem_append.mp isEntry with isPlace | isLater
  · rcases List.mem_map.mp isPlace with ⟨place, member, same⟩
    injection same with isName isSymbol
    rcases List.mem_append.mp member with isParam | isLocal
    · rcases of_mem_placeVariables isParam with ⟨type, _, _, isPlace, rfl⟩
      cases isName
      cases isSymbol
      exact ⟨type, .inl ⟨isPlace, isParam⟩⟩
    · rcases of_mem_placeVariables isLocal with ⟨type, _, _, isPlace, rfl⟩
      cases isName
      cases isSymbol
      exact ⟨type, .inr ⟨isPlace, isLocal⟩⟩
  · -- What comes later has been mentioned.
    have isMentioned : .named name ∈ (spelling.map (·.1)).drop
        (function.params.length + function.locals.length) := by
      rw [← List.map_drop]
      exact List.mem_map_of_mem isLater
    rw [hygienic.idents, Function.idents, List.drop_left' (by simp)] at isMentioned
    exact absurd isMentioned (unnamed name)

theorem slot_mentioned {slot : Slot} (known : .slot slot ∈ function.idents) :
    .slot slot ∈ function.mentioned := by
  refine (List.mem_append.mp known).resolve_left fun isPlace => ?_
  rcases List.mem_map.mp isPlace with ⟨_, _, same⟩
  cases same

end Function

end C

open Emission

theorem C.Function.Hygienic.declaresVariables {module : Module} {symbols : EntitySymbols}
    {func : Func} {function : C.Function} {spelling : C.Spelling} {around : List String}
    (hygienic : function.Hygienic spelling around)
    (lowered : lowerFunc module symbols func = .ok function) :
    function.DeclaresVariables func spelling := by
  rcases lowerFunc_mentioned lowered with ⟨mentioned, unnamed⟩
  rcases lowerFunc_eq_ok lowered with ⟨_, parts⟩
  have params := namedParams_slots parts.params
  have locals := namedLocals_slots parts.locals
  refine ⟨C.Function.textWith_eq _ _, ?_, hygienic.declared_nodup mentioned, ?_, ?_, ?_, ?_, ?_⟩
  · exact fun other agree => (C.Function.bodyText_agree agree).symm
  · rw [C.Function.paramVariables_places hygienic.idents, params]
  · rw [C.Function.localVariables_places hygienic.idents]
    exact locals.map _
  · intro name member
    rcases hygienic.place_declared unnamed (hygienic.covered _ member) with
      ⟨type, ⟨isParam, isDeclared⟩ | ⟨isLocal, isDeclared⟩⟩
    · refine ⟨type, .inl ⟨?_, isDeclared⟩⟩
      rw [← params]
      exact List.mem_map_of_mem isParam
    · refine ⟨type, .inr ⟨?_, isDeclared⟩⟩
      exact locals.subset (List.mem_map_of_mem isLocal)
  · intro slot member
    exact C.Function.mem_slotVariables.mpr
      ⟨slot, C.Function.slot_mentioned (hygienic.covered _ member), rfl⟩
  · intro first second isFirst isSecond same
    have sameEntry := List.inj_on_of_nodup_map hygienic.nodup
      (hygienic.spelled _ (hygienic.covered _ isFirst))
      (hygienic.spelled _ (hygienic.covered _ isSecond)) same
    injection sameEntry with sameIdent
    injection sameIdent

/-- In every function of a program that is written, the parameters, the locals and the slots
of the operand stack that are used are declared once each, with their types. -/
theorem Module.write_variables_declared {module : Module} {headerName : String}
    {output : Output} (written : module.write headerName = .ok output) :
    ∃ program, module.emit = .ok program ∧ output = program.output headerName ∧
      List.Forall₂ (fun func function =>
        C.Function.DeclaresVariables function func (function.spelling program.taken))
        module.definedFuncs program.functions := by
  rcases bind_eq_ok written with ⟨program, emitted, isOutput⟩
  rcases emit_built emitted with ⟨after, built⟩
  refine ⟨program, emitted, (Except.ok.inj isOutput).symm, ?_⟩
  have each := (List.forall₂_and_left _ _).mpr ⟨built.hygienic.functions, built.lowered.flip⟩
  exact each.flip.imp fun _ _ ⟨hygienic, lowered⟩ => hygienic.declaresVariables lowered

/-- A module with a function whose parameter and local are called like variables of the
operand stack that it uses. -/
def namedLikeSlots : List UInt8 :=
  [0x00, 0x61, 0x73, 0x6D, 0x01, 0x00, 0x00, 0x00,
    -- The type `[i32] -> [i32]`, and a function of it.
    0x01, 0x06, 0x01, 0x60, 0x01, 0x7F, 0x01, 0x7F, 0x03, 0x02, 0x01, 0x00,
    -- An `f64` local, and the body `local.get 1 drop local.get 0 i64.extend_i32_u i32.wrap_i64`.
    0x0A, 0x0D, 0x01, 0x0B, 0x01, 0x01, 0x7C, 0x20, 0x01, 0x1A, 0x20, 0x00, 0xAD, 0xA7, 0x0B,
    -- The parameter is called `i0`, and the local `d0`.
    0x00, 0x12, 0x04, 0x6E, 0x61, 0x6D, 0x65, 0x02, 0x0B, 0x01, 0x00, 0x02,
    0x00, 0x02, 0x69, 0x30, 0x01, 0x02, 0x64, 0x30]

/-- One position of the stack is three variables, next to the parameter and the local. -/
theorem Module.write_variables_declared_namedLikeSlots : ∃ module named output program,
    Binary.decode namedLikeSlots = .ok module ∧ module.resolve.applyNames = .ok named ∧
      named.write "" = .ok output ∧ named.emit = .ok program ∧
      program.functions.map (fun function =>
        (function.params ++ function.locals, Scalar.all.flatMap function.slotsOf)) =
        [([(.i32, "$i0"), (.f64, "$d0")], [⟨0, .i32⟩, ⟨0, .i64⟩, ⟨0, .f64⟩])] ∧
      List.Forall₂ (fun func function =>
        C.Function.DeclaresVariables function func (function.spelling program.taken))
        named.definedFuncs program.functions := by
  rcases exists_of_run (Binary.decode namedLikeSlots)
      (fun module => module.resolve.applyNames.toOption.bind fun named =>
        named.emit.toOption.map fun program => program.functions.map fun function =>
          (function.params ++ function.locals, Scalar.all.flatMap function.slotsOf))
      (some [([(.i32, "$i0"), (.f64, "$d0")], [⟨0, .i32⟩, ⟨0, .i64⟩, ⟨0, .f64⟩])])
      (by decide +kernel) with ⟨module, accepted, shown⟩
  rcases Option.bind_eq_some_iff.mp shown with ⟨named, isNamed, shown⟩
  rcases exists_of_run named.emit _ _ shown with ⟨program, emitted, areDeclared⟩
  have written : named.write "" = .ok (program.output "") := by
    rw [Module.write, emitted]
    rfl
  rcases write_variables_declared written with ⟨other, emittedOther, _, declares⟩
  have same := Except.ok.inj (emitted.symm.trans emittedOther)
  subst same
  exact ⟨module, named, _, program, accepted, eq_ok_of_toOption isNamed, written, emitted,
    areDeclared, declares⟩

end WasmLowering
