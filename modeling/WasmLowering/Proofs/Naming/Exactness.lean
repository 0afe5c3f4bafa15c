import WasmLowering.Proofs.Decoding.Indexed

/-! Replacing positions by names is exact: it succeeds if and only if every position
exists, and then the names lead back to the positions. The functions that constants hold
are left as they are.

`Renames` says this of one computation, with the references it goes through and the
references of its result. Computations are put together by binding, and so are the
lists of references, so the rules for binding carry the statement from single
references to instructions, functions and the whole module. -/

namespace WasmLowering

namespace Naming

/-- A reference by a position that exists, and the name that it becomes. The name of
an entity leads back to the position. -/
structure Renamed (module : Module) (before after : Use) : Prop where
  inRange : before.InRange module
  space : after.space = before.space
  isName : after.reference.isName
  found : ∀ kind position, before = ⟨.entity kind, .index position⟩ →
    module.entityIndex? kind after.reference = some position

/-- A computation that replaces references. It succeeds if all of them are in range.
If they are positions and it succeeds, the references of its value are those replaced
before and then the replaced ones. -/
structure Renames (module : Module) {α : Type} (result : Except ApplyError α)
    (view : α → List Use) (before uses : List Use) : Prop where
  succeeds : (∀ use ∈ uses, use.InRange module) → ∃ value, result = .ok value
  renamed : (∀ use ∈ uses, use.reference.isIndex) → ∀ value, result = .ok value →
    ∃ named, view value = before ++ named ∧ List.Forall₂ (Renamed module) uses named

namespace Renames

variable {module : Module} {α β : Type} {view : α → List Use} {nextView : β → List Use}
  {before uses : List Use}

theorem pure {value : α} (isView : view value = before) :
    Renames module (.ok value) view before [] := by
  constructor
  · intro _
    exact ⟨value, rfl⟩
  · intro _ result isResult
    cases isResult
    exact ⟨[], by simp [isView], .nil⟩

theorem bind {first : Except ApplyError α} {next : α → Except ApplyError β}
    {laterUses : List Use} (given : Renames module first view [] uses)
    (later : ∀ value, first = .ok value →
      Renames module (next value) nextView (before ++ view value) laterUses) :
    Renames module (first >>= next) nextView before (uses ++ laterUses) := by
  constructor
  · intro inRange
    rcases given.succeeds fun use member => inRange use (by simp [member]) with ⟨value, isValue⟩
    have remaining := (later value isValue).succeeds fun use member => inRange use (by simp [member])
    rw [isValue]
    exact remaining
  · intro areIndices result isResult
    rcases bind_eq_ok isResult with ⟨value, isValue, isNext⟩
    rcases given.renamed (fun use member => areIndices use (by simp [member])) value isValue with
      ⟨named, isView, areNamed⟩
    rcases (later value isValue).renamed (fun use member => areIndices use (by simp [member]))
      result isNext with ⟨others, isNextView, othersNamed⟩
    refine ⟨named ++ others, ?_, List.rel_append areNamed othersNamed⟩
    rw [isNextView, isView]
    simp

theorem map {first : Except ApplyError α} {build : α → β}
    (given : Renames module first view [] uses)
    (isView : ∀ value, first = .ok value → nextView (build value) = before ++ view value) :
    Renames module (first >>= fun value => .ok (build value)) nextView before uses := by
  rw [← List.append_nil uses]
  apply given.bind
  intro value isValue
  exact pure (isView value isValue)

theorem mapM {change : α → Except ApplyError β} {itemUses : α → List Use} {items : List α}
    (each : ∀ item, Renames module (change item) nextView [] (itemUses item)) :
    Renames module (items.mapM change) (List.flatMap nextView) [] (items.flatMap itemUses) := by
  induction items with
  | nil => exact pure rfl
  | cons item rest induction =>
      rw [List.mapM_cons, List.flatMap_cons]
      apply (each item).bind
      intro value _
      apply induction.map
      intro values _
      simp

theorem single {space : Space} {reference : Reference} {result : Except ApplyError Reference}
    (inside : ∀ position, reference = .index position → position.toNat < space.size module →
      ∃ name, result = .ok (.name name) ∧
        ∀ kind, space = .entity kind → module.entityIndex? kind (.name name) = some position)
    (outside : ∀ position, reference = .index position → space.size module ≤ position.toNat →
      ∀ value, result ≠ .ok value) :
    Renames module result (fun value => [⟨space, value⟩]) [] [⟨space, reference⟩] := by
  cases reference with
  | name text =>
      constructor
      · intro inRange
        exact absurd (inRange _ (List.mem_singleton_self _)) id
      · intro areIndices
        cases areIndices _ (List.mem_singleton_self _)
  | index position =>
      constructor
      · intro inRange
        have isInside := inRange _ (List.mem_singleton_self _)
        rcases inside position rfl isInside with ⟨name, isName, _⟩
        exact ⟨_, isName⟩
      · intro _ value isValue
        have inRange : position.toNat < space.size module := by
          by_contra beyond
          exact outside position rfl (Nat.le_of_not_lt beyond) value isValue
        rcases inside position rfl inRange with ⟨name, isName, found⟩
        cases isName.symm.trans isValue
        refine ⟨_, rfl, .cons ⟨inRange, rfl, rfl, ?_⟩ .nil⟩
        intro kind other isUse
        cases isUse
        exact found kind rfl

end Renames

/-! ## References in a scope -/

def EntitiesNamed (module : Module) : Prop :=
  ∀ (kind : EntityKind) (position : Index), position.toNat < module.entityCount kind →
    ∃ name ≠ "", (module.entityNames kind)[position.toNat]? = some name ∧
      (module.entityBindings kind).find? name = some position

theorem entitiesNamed_resolve (module : Module) : EntitiesNamed module.resolve := by
  intro kind position inside
  rw [entityCount_resolve] at inside
  exact resolve_names_entity module kind inside

namespace Scope

variable (scope : Scope)

def slotCount : Nat :=
  match scope.func with
  | none => 0
  | some (_, names) => names.length

theorem entity_renames (named : EntitiesNamed scope.module) (kind : EntityKind)
    (reference : Reference) :
    Renames scope.module (scope.entity kind reference) (fun result => [⟨.entity kind, result⟩]) []
      [⟨.entity kind, reference⟩] := by
  apply Renames.single
  · intro position isIndex inside
    subst isIndex
    rcases named kind position inside with ⟨name, given, isName, isBound⟩
    have isFound : scope.module.entityIndex? kind (.index position) = some position :=
      if_pos inside
    refine ⟨name, ?_, ?_⟩
    · simp [Scope.entity, isFound, isName, given]
    · intro other same
      cases same
      simp only [Module.entityIndex?, Module.lookup, isBound]
      exact if_pos inside
  · intro position isIndex outside value
    subst isIndex
    have missing : scope.module.entityIndex? kind (.index position) = none :=
      if_neg (Nat.not_lt.mpr outside)
    simp [Scope.entity, missing]

theorem slot_renames (place : Reference) :
    Renames scope.module (scope.slot place) (fun result => [⟨.slot scope.slotCount, result⟩]) []
      [⟨.slot scope.slotCount, place⟩] := by
  rcases scope with ⟨module, _ | ⟨func, names⟩⟩
  · apply Renames.single
    · intro position _ inside
      exact absurd inside (Nat.not_lt_zero _)
    · intro position _ _ value
      simp [Scope.slot]
  · apply Renames.single
    · intro position isIndex inside
      subst isIndex
      have isName : names[position.toNat]? = some names[position.toNat] :=
        List.getElem?_eq_getElem inside
      exact ⟨names[position.toNat], by simp only [Scope.slot, isName], nofun⟩
    · intro position isIndex outside value
      subst isIndex
      have missing : names[position.toNat]? = none := List.getElem?_eq_none outside
      simp [Scope.slot, missing]

theorem label_renames (module : Module) (labels : List String) (target : Reference) :
    Renames module (Scope.label labels target) (fun result => [⟨.label labels.length, result⟩]) []
      [⟨.label labels.length, target⟩] := by
  apply Renames.single
  · intro position isIndex inside
    subst isIndex
    have upTo : position.toNat ≤ labels.length := Nat.le_of_lt_succ inside
    rcases Nat.lt_or_eq_of_le upTo with below | atEnd
    · have isName : labels[position.toNat]? = some labels[position.toNat] :=
        List.getElem?_eq_getElem below
      exact ⟨labels[position.toNat], by simp only [Scope.label, isName], nofun⟩
    · have missing : labels[position.toNat]? = none :=
        List.getElem?_eq_none (Nat.le_of_eq atEnd.symm)
      exact ⟨funcLabel, by simp only [Scope.label, missing, if_pos atEnd], nofun⟩
  · intro position isIndex outside value
    subst isIndex
    have beyond : labels.length < position.toNat := outside
    have missing : labels[position.toNat]? = none := List.getElem?_eq_none (Nat.le_of_lt beyond)
    simp [Scope.label, missing, Nat.ne_of_gt beyond]

theorem declaration_renames (named : EntitiesNamed scope.module) (declaration : Declaration) :
    Renames scope.module (scope.declaration declaration) Declaration.uses [] declaration.uses := by
  rcases declaration with ⟨_ | reference, signature⟩
  · exact .pure rfl
  · apply (scope.entity_renames named .type reference).map
    intro value _
    rfl

theorem head_renames (named : EntitiesNamed scope.module) (head : BlockHead) :
    Renames scope.module (scope.head head) (fun result => result.declaration.uses) []
      head.declaration.uses := by
  apply (scope.declaration_renames named head.declaration).map
  intro value _
  rfl

/-! ## Instructions -/

mutual

theorem instr_renames (named : EntitiesNamed scope.module) (labels : List String)
    (instr : Instr) :
    Renames scope.module (scope.instr labels instr)
      (Instr.uses scope.slotCount labels.length) [] (instr.uses scope.slotCount labels.length) := by
  match instr with
  | .block head body =>
      apply (scope.head_renames named head).bind
      intro newHead _
      apply (instrs_renames named (newHead.label :: labels) body).map
      intro newBody _
      simp [Instr.uses]
  | .loop head body =>
      apply (scope.head_renames named head).bind
      intro newHead _
      apply (instrs_renames named (newHead.label :: labels) body).map
      intro newBody _
      simp [Instr.uses]
  | .ifElse head thenBody elseBody =>
      rw [Instr.uses, List.append_assoc]
      apply (scope.head_renames named head).bind
      intro newHead _
      apply (instrs_renames named (newHead.label :: labels) thenBody).bind
      intro newThen _
      apply (instrs_renames named (newHead.label :: labels) elseBody).map
      intro newElse _
      simp [Instr.uses]
  | .tryCatch head body catches =>
      rw [Instr.uses, List.append_assoc]
      apply (scope.head_renames named head).bind
      intro newHead _
      apply (instrs_renames named (newHead.label :: labels) body).bind
      intro newBody _
      apply (catches_renames named (newHead.label :: labels) catches).map
      intro newCatches _
      simp [Instr.uses]
  | .br target | .brIf target | .rethrow target =>
      exact (label_renames scope.module labels target).map fun _ _ => rfl
  | .brTable targets otherwise =>
      rw [Instr.uses, List.map_append, List.map_eq_flatMap]
      apply (Renames.mapM (label_renames scope.module labels)).bind
      intro newTargets _
      apply (label_renames scope.module labels otherwise).map
      intro newOtherwise _
      simp [Instr.uses, List.map_eq_flatMap]
  | .throwTag reference | .call reference | .globalGet reference | .globalSet reference
  | .load _ reference _ _ | .store _ reference _ _ | .memorySize reference
  | .memoryGrow reference | .memoryFill reference =>
      exact (scope.entity_renames named _ reference).map fun _ _ => rfl
  | .callIndirect declaration table =>
      apply (scope.declaration_renames named declaration).bind
      intro newDeclaration _
      apply (scope.entity_renames named .table table).map
      intro newTable _
      simp [Instr.uses]
  | .localGet place | .localSet place | .localTee place =>
      exact (scope.slot_renames place).map fun _ _ => rfl
  | .memoryCopy target source =>
      apply (scope.entity_renames named .memory target).bind
      intro newTarget _
      exact (scope.entity_renames named .memory source).map fun _ _ => rfl
  | .atomic opcode memory offset =>
      rw [Scope.instr, Instr.uses]
      split
      · next isFence => exact .pure (by simp [Instr.uses, isFence])
      · next isAccess =>
          apply (scope.entity_renames named .memory memory).map
          intro newMemory _
          simp [Instr.uses, isAccess]
  | .unreachable | .nop | .drop | .leave | .select _ | .const _ | .unary _ | .binary _
  | .compare _ | .convert _ | .ternary _ | .simd .. | .simdLane .. | .simdShuffle ..
  | .refFunc _ | .other _ => exact .pure rfl

theorem instrs_renames (named : EntitiesNamed scope.module) (labels : List String)
    (body : List Instr) :
    Renames scope.module (scope.instrs labels body)
      (Instr.usesOfList scope.slotCount labels.length) []
      (Instr.usesOfList scope.slotCount labels.length body) := by
  match body with
  | [] => exact .pure rfl
  | instr :: rest =>
      apply (instr_renames named labels instr).bind
      intro first _
      apply (instrs_renames named labels rest).map
      intro others _
      simp [Instr.usesOfList]

theorem handler_renames (named : EntitiesNamed scope.module) (labels : List String)
    (handler : Catch) :
    Renames scope.module (scope.handler labels handler) (Catch.uses scope.slotCount labels.length)
      [] (handler.uses scope.slotCount labels.length) := by
  match handler with
  | .handler none body => exact (instrs_renames named labels body).map fun _ _ => rfl
  | .handler (some tag) body =>
      apply (scope.entity_renames named .except tag).bind
      intro newTag _
      exact (instrs_renames named labels body).map fun _ _ => rfl

theorem catches_renames (named : EntitiesNamed scope.module) (labels : List String)
    (catches : List Catch) :
    Renames scope.module (scope.catches labels catches)
      (Catch.usesOfList scope.slotCount labels.length) []
      (Catch.usesOfList scope.slotCount labels.length catches) := by
  match catches with
  | [] => exact .pure rfl
  | handler :: rest =>
      apply (handler_renames named labels handler).bind
      intro first _
      apply (catches_renames named labels rest).map
      intro others _
      simp [Catch.usesOfList]

end

end Scope

/-! ## Modules -/

variable {module : Module}

theorem importedFunc_renames (named : EntitiesNamed module) {imported number : Nat}
    (isImported : number < imported) (func : Func) :
    Renames module (applyFunc module imported number func) (fun result => result.declaration.uses)
      [] func.declaration.uses := by
  simp only [applyFunc, if_pos isImported]
  exact ((Scope.ofModule module).declaration_renames named func.declaration).map fun _ _ => rfl

theorem definedFunc_renames (named : EntitiesNamed module) {imported number : Nat}
    (isDefined : imported ≤ number) (func : Func) :
    Renames module (applyFunc module imported number func) Func.uses [] func.uses := by
  have slots : (Scope.ofFunc module func).slotCount = func.slotCount := by
    simp [Scope.slotCount, Scope.ofFunc, Func.paramNames, Func.localNames, Func.slotCount]
  simp only [applyFunc, if_neg (Nat.not_lt.mpr isDefined)]
  apply ((Scope.ofModule module).declaration_renames named func.declaration).bind
  intro declaration isDeclaration
  have body := (Scope.ofFunc module func).instrs_renames named [] func.body
  rw [slots] at body
  apply body.map
  intro newBody _
  have params := congrArg Signature.params (Scope.declaration_signature isDeclaration)
  simp [Func.uses, Func.slotCount, Func.params, params]

theorem funcs_renames (named : EntitiesNamed module) (imported number : Nat)
    (funcs : List Func) :
    Renames module (applyFuncs module imported number funcs)
      (Module.funcUses (imported - number)) [] (Module.funcUses (imported - number) funcs) := by
  induction funcs generalizing number with
  | nil =>
      rw [show Module.funcUses (imported - number) [] = [] by simp [Module.funcUses]]
      exact .pure (by simp [Module.funcUses])
  | cons func rest induction =>
      have later := induction (number + 1)
      rcases Nat.lt_or_ge number imported with before | behind
      · have step : imported - number = (imported - (number + 1)) + 1 := by omega
        rw [step, Module.funcUses, List.take_succ_cons, List.flatMap_cons, List.append_assoc]
        apply (importedFunc_renames named before func).bind
        intro first _
        apply later.map
        intro others _
        simp [Module.funcUses]
      · have none : imported - (number + 1) = 0 := by omega
        have still : imported - number = 0 := by omega
        rw [none] at later
        rw [still]
        apply (definedFunc_renames named behind func).bind
        intro first _
        apply later.map
        intro others _
        simp [Module.funcUses]

theorem export_renames (named : EntitiesNamed module) (entry : Export) :
    Renames module (applyExport module entry) Export.uses [] entry.uses := by
  rcases entry with ⟨name, kind, target⟩
  cases isKind : EntityKind.ofExtern? kind with
  | none =>
      simp only [applyExport, isKind, Export.uses]
      exact .pure (by simp [Export.uses, isKind])
  | some entity =>
      simp only [applyExport, isKind, Export.uses]
      apply ((Scope.ofModule module).entity_renames named entity target).map
      intro newTarget _
      simp [Export.uses, isKind]

theorem element_renames (named : EntitiesNamed module) (segment : ElementSegment) :
    Renames module (applyElement module segment) ElementSegment.uses [] segment.uses := by
  rw [ElementSegment.uses, ← List.singleton_append, List.append_assoc, List.map_eq_flatMap]
  apply ((Scope.ofModule module).entity_renames named .table segment.table).bind
  intro table _
  apply ((Scope.ofModule module).instrs_renames named [] segment.offset).bind
  intro offset _
  apply (Renames.mapM ((Scope.ofModule module).entity_renames named .func)).map
  intro functions _
  simp [ElementSegment.uses, List.map_eq_flatMap, Scope.slotCount, Scope.ofModule]

theorem data_renames (named : EntitiesNamed module) (segment : DataSegment) :
    Renames module (applyData module segment) DataSegment.uses [] segment.uses := by
  unfold applyData
  split
  · next isPassive =>
      rw [DataSegment.uses, if_pos isPassive]
      exact .pure (by simp [DataSegment.uses, isPassive])
  · next isActive =>
      rw [DataSegment.uses, if_neg isActive, ← List.singleton_append]
      apply ((Scope.ofModule module).entity_renames named .memory segment.memory).bind
      intro memory _
      apply ((Scope.ofModule module).instrs_renames named [] segment.offset).map
      intro offset _
      simp [DataSegment.uses, isActive, Scope.slotCount, Scope.ofModule]

theorem global_renames (named : EntitiesNamed module) (global : Global) :
    Renames module
      (do return { global with initial := ← (Scope.ofModule module).instrs [] global.initial })
      (fun result => Instr.usesOfList 0 0 result.initial) []
      (Instr.usesOfList 0 0 global.initial) :=
  ((Scope.ofModule module).instrs_renames named [] global.initial).map fun _ _ => rfl

theorem length_applyFuncs {imported number : Nat} {funcs named : List Func}
    (succeeds : applyFuncs module imported number funcs = .ok named) :
    named.length = funcs.length := by
  simpa using (Module.applyFuncs_applied succeeds).length_eq.symm

theorem applyNames_renames (named : EntitiesNamed module) :
    Renames module module.applyNames Module.uses [] module.uses := by
  simp only [Module.uses, List.append_assoc, List.map_eq_flatMap]
  apply (funcs_renames named (module.importCount .func) 0 module.funcs).bind
  intro funcs areFuncs
  apply (Renames.mapM (global_renames named)).bind
  intro globals _
  apply (Renames.mapM (export_renames named)).bind
  intro exports _
  apply (Renames.mapM (element_renames named)).bind
  intro elements _
  apply (Renames.mapM (data_renames named)).bind
  intro datas _
  apply (Renames.mapM ((Scope.ofModule module).entity_renames named .func)).map
  intro starts _
  have count : ({ module with funcs, globals, exports, elements, datas, starts } : Module).importCount
      .func = module.importCount .func := by
    simp [Module.importCount, Module.importsOf, EntityKind.ofExtern?, Module.entityCount,
      length_applyFuncs areFuncs]
  simp [Module.uses, count, List.map_eq_flatMap]

/-! ## Functions that constants hold -/

theorem Scope.instrs_heldFunctions {scope : Scope} {labels : List String}
    {body named : List Instr} (succeeds : scope.instrs labels body = .ok named) :
    Instr.heldFunctions named = Instr.heldFunctions body := by
  induction body generalizing named with
  | nil =>
      cases succeeds
      rfl
  | cons instr rest induction =>
      rcases bind_eq_ok succeeds with ⟨first, isFirst, remaining⟩
      rcases bind_eq_ok remaining with ⟨others, areOthers, isAll⟩
      cases isAll
      have same : first.heldFunction? = instr.heldFunction? := by
        ext callee
        rw [Instr.heldFunction?_eq_some_iff, Instr.heldFunction?_eq_some_iff]
        exact (instr_sameSort isFirst).refFunc callee
      have later : others.filterMap Instr.heldFunction? = rest.filterMap Instr.heldFunction? :=
        induction areOthers
      rw [Instr.heldFunctions, Instr.heldFunctions, List.filterMap_cons, List.filterMap_cons, same,
        later]

theorem applyElement_heldFunctions {segment named : ElementSegment}
    (succeeds : applyElement module segment = .ok named) :
    Instr.heldFunctions named.offset = Instr.heldFunctions segment.offset := by
  rcases bind_eq_ok succeeds with ⟨table, _, remaining⟩
  rcases bind_eq_ok remaining with ⟨offset, isOffset, remaining⟩
  rcases bind_eq_ok remaining with ⟨functions, _, isNamed⟩
  cases isNamed
  exact Scope.instrs_heldFunctions isOffset

theorem applyData_heldFunctions {segment named : DataSegment}
    (succeeds : applyData module segment = .ok named) :
    Instr.heldFunctions named.offset = Instr.heldFunctions segment.offset := by
  unfold applyData at succeeds
  split at succeeds
  · cases succeeds
    rfl
  · rcases bind_eq_ok succeeds with ⟨memory, _, remaining⟩
    rcases bind_eq_ok remaining with ⟨offset, isOffset, isNamed⟩
    cases isNamed
    exact Scope.instrs_heldFunctions isOffset

theorem applied_heldFunctions {named : Module} (applied : module.Applied named) :
    named.heldFunctions = module.heldFunctions := by
  have globals : named.globals.map (fun global => Instr.heldFunctions global.initial) =
      module.globals.map fun global => Instr.heldFunctions global.initial :=
    map_eq_of_forall₂ applied.globals fun _ _ same => Scope.instrs_heldFunctions same.2.2
  have elements : named.elements.map (fun segment => Instr.heldFunctions segment.offset) =
      module.elements.map fun segment => Instr.heldFunctions segment.offset :=
    map_eq_of_forall₂ applied.elements fun _ _ => applyElement_heldFunctions
  have datas : named.datas.map (fun segment => Instr.heldFunctions segment.offset) =
      module.datas.map fun segment => Instr.heldFunctions segment.offset :=
    map_eq_of_forall₂ applied.datas fun _ _ => applyData_heldFunctions
  simp only [Module.heldFunctions, List.flatMap_def, globals, elements, datas]

end Naming

open Naming in
/-- All references of a decoded module are positions. Replacing them by names succeeds
exactly if every one of them is in range. Then every reference has become a name, and the
name of an entity is found at the position that it replaces. The functions that constants
hold by bare positions are neither checked nor replaced. -/
theorem Module.applyNames_exact {bytes : List UInt8} {module : Module}
    (accepted : Binary.decode bytes = .ok module) :
    (∀ use ∈ module.uses, use.reference.isIndex) ∧
    ((∃ named, module.resolve.applyNames = .ok named) ↔
      ∀ use ∈ module.uses, use.InRange module) ∧
    ∀ named, module.resolve.applyNames = .ok named →
      named.heldFunctions = module.heldFunctions ∧
      List.Forall₂
        (fun before after => after.space = before.space ∧ after.reference.isName ∧
          ∀ kind position, before = ⟨.entity kind, .index position⟩ →
            named.entityIndex? kind after.reference = some position)
        module.uses named.uses := by
  have areIndices := (Binary.decode_indexed accepted).uses
  have renames := applyNames_renames (entitiesNamed_resolve module)
  rw [uses_resolve] at renames
  have sameRange := fun use : Use => use.inRange_congr (entityCount_resolve module)
  have renamed : ∀ named, module.resolve.applyNames = .ok named →
      List.Forall₂ (Renamed module.resolve) module.uses named.uses := by
    intro named isNamed
    rcases renames.renamed areIndices named isNamed with ⟨uses, areUses, related⟩
    rwa [areUses]
  refine ⟨areIndices, ⟨?_, ?_⟩, ?_⟩
  · intro ⟨named, isNamed⟩ use member
    rcases List.mem_iff_getElem?.mp member with ⟨position, isUse⟩
    rcases getElem?_of_forall₂ (renamed named isNamed) isUse with ⟨after, _, known⟩
    exact (sameRange use).mp known.inRange
  · intro inRange
    exact renames.succeeds fun use member => (sameRange use).mpr (inRange use member)
  · intro named isNamed
    have applied := applyNames_applied isNamed
    have same := applied_namedAs applied
    refine ⟨(applied_heldFunctions applied).trans (heldFunctions_resolve module), ?_⟩
    apply (renamed named isNamed).imp
    intro before after known
    refine ⟨known.space, known.isName, ?_⟩
    intro kind position isEntity
    rw [entityIndex?, same.entityBindings, same.entityCount, ← entityCount_resolve]
    exact known.found kind position isEntity

/-- A function that leaves a block and itself at once, with a call behind the jump. -/
def deadCall : List UInt8 :=
  [0x00, 0x61, 0x73, 0x6D, 0x01, 0x00, 0x00, 0x00,
    -- The type `[i32] -> []`, one function of it, exported as `f`.
    0x01, 0x05, 0x01, 0x60, 0x01, 0x7F, 0x00, 0x03, 0x02, 0x01, 0x00,
    0x07, 0x05, 0x01, 0x01, 0x66, 0x00, 0x00,
    -- `block br 1 (local.get 0) (call 0) end`
    0x0A, 0x0D, 0x01, 0x0B, 0x00, 0x02, 0x40, 0x0C, 0x01, 0x20, 0x00, 0x10, 0x00, 0x0B, 0x0B]

theorem Module.applyNames_exact_deadCall : ∃ module named,
    Binary.decode deadCall = .ok module ∧ module.resolve.applyNames = .ok named ∧
      module.uses = [⟨.entity .type, .index 0⟩, ⟨.label 1, .index 1⟩, ⟨.slot 1, .index 0⟩,
        ⟨.entity .func, .index 0⟩, ⟨.entity .func, .index 0⟩] ∧
      ∀ use ∈ named.uses, use.reference.isName := by
  rcases exists_of_run (Binary.decode deadCall)
      (fun module => (module.uses, decide (∀ use ∈ module.uses, use.InRange module)))
      ([⟨.entity .type, .index 0⟩, ⟨.label 1, .index 1⟩, ⟨.slot 1, .index 0⟩,
        ⟨.entity .func, .index 0⟩, ⟨.entity .func, .index 0⟩], true) (by decide +kernel) with
    ⟨module, accepted, shown⟩
  simp only [Prod.mk.injEq, decide_eq_true_eq] at shown
  rcases (applyNames_exact accepted).2.1.mpr shown.2 with ⟨named, isNamed⟩
  refine ⟨module, named, accepted, isNamed, shown.1, ?_⟩
  intro use member
  rcases exists_of_forall₂ ((applyNames_exact accepted).2.2 named isNamed).2 member with
    ⟨before, _, known⟩
  exact known.2.1

/-- A global that holds the function at position 5 of a module with one function. -/
def heldBeyond : List UInt8 :=
  [0x00, 0x61, 0x73, 0x6D, 0x01, 0x00, 0x00, 0x00,
    0x01, 0x04, 0x01, 0x60, 0x00, 0x00, 0x03, 0x02, 0x01, 0x00,
    -- A global of type `funcref` with the initial value `ref.func 5`
    0x06, 0x06, 0x01, 0x70, 0x00, 0xD2, 0x05, 0x0B,
    0x0A, 0x04, 0x01, 0x02, 0x00, 0x0B]

theorem Module.applyNames_passes_heldFunction : ∃ module named,
    Binary.decode heldBeyond = .ok module ∧ module.resolve.applyNames = .ok named ∧
      module.heldFunctions = [5] ∧ module.entityCount .func = 1 := by
  rcases exists_of_run (Binary.decode heldBeyond)
      (fun module => (module.heldFunctions, module.entityCount .func,
        module.resolve.applyNames.toOption.isSome))
      ([5], 1, true) (by decide +kernel) with ⟨module, accepted, shown⟩
  simp only [Prod.mk.injEq] at shown
  rcases Option.isSome_iff_exists.mp shown.2.2 with ⟨named, isNamed⟩
  exact ⟨module, named, accepted, eq_ok_of_toOption isNamed, shown.1, shown.2.1⟩

end WasmLowering
