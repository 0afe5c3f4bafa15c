import WasmLowering.Proofs.Naming.References

/-! Replacing references by names where they have been replaced already.

A reference that has a name is looked up and then kept. Names of entities and labels
are always found again. The name of a slot need not be: it is looked up among the
parameters first, where it can be bound to no position at all. `Repeats` says of one
computation that it gives back a value under a condition, and fails without it. -/

namespace WasmLowering.Naming

structure Repeats {α : Type} (result : Except ApplyError α) (value : α) (condition : Prop) :
    Prop where
  succeeds : condition → result = .ok value
  only : ∀ again, result = .ok again → again = value ∧ condition

namespace Repeats

variable {α β : Type}

theorem pure (value : α) : Repeats (.ok value) value True := by
  constructor
  · exact fun _ => rfl
  · intro again isAgain
    cases isAgain
    exact ⟨rfl, trivial⟩

theorem of_eq {result : Except ApplyError α} {value : α} (isValue : result = .ok value) :
    Repeats result value True :=
  isValue ▸ pure value

theorem congr {result : Except ApplyError α} {value : α} {condition other : Prop}
    (repeats : Repeats result value condition) (same : condition ↔ other) :
    Repeats result value other :=
  propext same ▸ repeats

theorem bind {first : Except ApplyError α} {next : α → Except ApplyError β} {value : α}
    {last : β} {condition later : Prop} (given : Repeats first value condition)
    (rest : Repeats (next value) last later) :
    Repeats (first >>= next) last (condition ∧ later) := by
  constructor
  · intro holds
    rw [given.succeeds holds.1]
    exact rest.succeeds holds.2
  · intro again isAgain
    rcases bind_eq_ok isAgain with ⟨middle, isMiddle, isLast⟩
    rcases given.only middle isMiddle with ⟨rfl, holds⟩
    rcases rest.only again isLast with ⟨same, holdsLater⟩
    exact ⟨same, holds, holdsLater⟩

theorem map {first : Except ApplyError α} {build : α → β} {value : α} {last : β}
    {condition : Prop} (given : Repeats first value condition) (isLast : build value = last) :
    Repeats (first >>= fun value => .ok (build value)) last condition :=
  isLast ▸ (given.bind (pure (build value))).congr (and_iff_left trivial)

theorem mapM {change : α → Except ApplyError α} {items : List α} {condition : α → Prop}
    (each : ∀ item ∈ items, Repeats (change item) item (condition item)) :
    Repeats (items.mapM change) items (∀ item ∈ items, condition item) := by
  induction items with
  | nil => exact (pure []).congr (by simp)
  | cons item rest induction =>
      rw [List.mapM_cons, List.forall_mem_cons]
      apply (each item List.mem_cons_self).bind
      exact (induction fun other member => each other (List.mem_cons_of_mem _ member)).map rfl

theorem mapM_eq_ok {change : α → Except ApplyError α} {items : List α}
    (each : ∀ item ∈ items, change item = .ok item) : items.mapM change = .ok items :=
  (mapM fun item member => of_eq (each item member)).succeeds fun _ _ => trivial

end Repeats

/-! ## Code -/

def SlotsFound (found : Reference → Prop) (uses : List Use) : Prop :=
  ∀ count place, ⟨.slot count, place⟩ ∈ uses → found place

@[simp] theorem slotsFound_nil (found : Reference → Prop) : SlotsFound found [] := nofun

@[simp] theorem slotsFound_append (found : Reference → Prop) (first second : List Use) :
    SlotsFound found (first ++ second) ↔ SlotsFound found first ∧ SlotsFound found second := by
  simp only [SlotsFound, List.mem_append]
  grind

@[simp] theorem slotsFound_slot (found : Reference → Prop) (count : Nat) (place : Reference)
    (rest : List Use) :
    SlotsFound found (⟨.slot count, place⟩ :: rest) ↔ found place ∧ SlotsFound found rest := by
  constructor
  · intro all
    exact ⟨all count place List.mem_cons_self, fun other reference member =>
      all other reference (List.mem_cons_of_mem _ member)⟩
  · intro ⟨isFound, others⟩ other reference member
    rcases List.mem_cons.mp member with isFirst | isLater
    · cases isFirst
      exact isFound
    · exact others other reference isLater

@[simp] theorem slotsFound_entity (found : Reference → Prop) (kind : EntityKind)
    (reference : Reference) (rest : List Use) :
    SlotsFound found (⟨.entity kind, reference⟩ :: rest) ↔ SlotsFound found rest := by
  simp [SlotsFound]

@[simp] theorem slotsFound_label (found : Reference → Prop) (opened : Nat) (target : Reference)
    (rest : List Use) :
    SlotsFound found (⟨.label opened, target⟩ :: rest) ↔ SlotsFound found rest := by
  simp [SlotsFound]

@[simp] theorem slotsFound_labels (found : Reference → Prop) (opened : Nat)
    (targets : List Reference) : SlotsFound found (targets.map (Use.mk (.label opened))) := by
  simp [SlotsFound]

@[simp] theorem slotsFound_declaration (found : Reference → Prop) (declaration : Declaration) :
    SlotsFound found declaration.uses := by
  simp [SlotsFound, Declaration.uses]

/-- What a later scope makes of the references that an earlier one has named: entities
are found again, and slots under a condition. -/
structure Again (earlier later : Scope) (found : Reference → Prop) : Prop where
  entity : ∀ kind reference named, earlier.entity kind reference = .ok named →
    later.entity kind named = .ok named
  slot : ∀ place named, earlier.slot place = .ok named →
    Repeats (later.slot named) named (found named)

theorem Scope.label_again {labels : List String} {target named : Reference}
    (succeeds : Scope.label labels target = .ok named) :
    Scope.label labels named = .ok named := by
  unfold Scope.label at succeeds
  split at succeeds
  · next text =>
      split at succeeds
      · next isOpen =>
          cases succeeds
          exact if_pos isOpen
      · cases succeeds
  · split at succeeds
    · next name isLabel =>
        cases succeeds
        have opened := List.mem_of_getElem? isLabel
        simp [Scope.label, opened]
    · split at succeeds
      · cases succeeds
        simp [Scope.label]
      · cases succeeds

namespace Again

variable {earlier later : Scope} {found : Reference → Prop}

theorem declaration (again : Again earlier later found) {declaration named : Declaration}
    (succeeds : earlier.declaration declaration = .ok named) :
    later.declaration named = .ok named := by
  unfold Scope.declaration at succeeds
  split at succeeds
  · rcases bind_eq_ok succeeds with ⟨reference, isReference, isNamed⟩
    cases isNamed
    simp only [Scope.declaration, again.entity _ _ _ isReference]
    rfl
  · next noType =>
      cases succeeds
      simp only [Scope.declaration, noType]

theorem head (again : Again earlier later found) {head named : BlockHead}
    (succeeds : earlier.head head = .ok named) : later.head named = .ok named := by
  rcases bind_eq_ok succeeds with ⟨declaration, isDeclaration, isNamed⟩
  cases isNamed
  simp only [Scope.head, again.declaration isDeclaration]
  rfl

mutual

theorem instr (again : Again earlier later found) {labels : List String} (slots opened : Nat)
    (instr : Instr) {named : Instr} (succeeds : earlier.instr labels instr = .ok named) :
    Repeats (later.instr labels named) named (SlotsFound found (named.uses slots opened)) := by
  match instr with
  | .block head body | .loop head body =>
      rcases bind_eq_ok succeeds with ⟨newHead, isHead, remaining⟩
      rcases bind_eq_ok remaining with ⟨newBody, isBody, isAll⟩
      cases isAll
      have bodyAgain := again.instrs slots (opened + 1) body isBody
      exact ((Repeats.of_eq (again.head isHead)).bind (bodyAgain.map rfl)).congr
        (by simp [Instr.uses])
  | .ifElse head thenBody elseBody =>
      rcases bind_eq_ok succeeds with ⟨newHead, isHead, remaining⟩
      rcases bind_eq_ok remaining with ⟨newThen, isThen, remaining⟩
      rcases bind_eq_ok remaining with ⟨newElse, isElse, isAll⟩
      cases isAll
      have thenAgain := again.instrs slots (opened + 1) thenBody isThen
      have elseAgain := again.instrs slots (opened + 1) elseBody isElse
      exact ((Repeats.of_eq (again.head isHead)).bind (thenAgain.bind (elseAgain.map rfl))).congr
        (by simp [Instr.uses])
  | .tryCatch head body catches =>
      rcases bind_eq_ok succeeds with ⟨newHead, isHead, remaining⟩
      rcases bind_eq_ok remaining with ⟨newBody, isBody, remaining⟩
      rcases bind_eq_ok remaining with ⟨newCatches, areCatches, isAll⟩
      cases isAll
      have bodyAgain := again.instrs slots (opened + 1) body isBody
      have catchesAgain := again.catches slots (opened + 1) catches areCatches
      exact ((Repeats.of_eq (again.head isHead)).bind
        (bodyAgain.bind (catchesAgain.map rfl))).congr (by simp [Instr.uses])
  | .br target | .brIf target | .rethrow target =>
      rcases bind_eq_ok succeeds with ⟨newTarget, isTarget, isAll⟩
      cases isAll
      exact ((Repeats.of_eq (Scope.label_again isTarget)).map rfl).congr
        (by simp [Instr.uses])
  | .brTable targets otherwise =>
      rcases bind_eq_ok succeeds with ⟨newTargets, areTargets, remaining⟩
      rcases bind_eq_ok remaining with ⟨newOtherwise, isOtherwise, isAll⟩
      cases isAll
      have targetsAgain : newTargets.mapM (Scope.label labels) = .ok newTargets := by
        apply Repeats.mapM_eq_ok
        intro target member
        rcases exists_of_forall₂ (mapM_eq_ok areTargets) member with ⟨source, _, isTarget⟩
        exact Scope.label_again isTarget
      have otherwiseAgain := Repeats.of_eq (Scope.label_again isOtherwise)
      exact ((Repeats.of_eq targetsAgain).bind (otherwiseAgain.map rfl)).congr
        (by simp [Instr.uses])
  | .throwTag reference | .call reference | .globalGet reference | .globalSet reference
  | .load _ reference _ _ | .store _ reference _ _ | .memorySize reference
  | .memoryGrow reference | .memoryFill reference =>
      rcases bind_eq_ok succeeds with ⟨newReference, isReference, isAll⟩
      cases isAll
      exact ((Repeats.of_eq (again.entity _ _ _ isReference)).map rfl).congr
        (by simp [Instr.uses])
  | .callIndirect declaration table =>
      rcases bind_eq_ok succeeds with ⟨newDeclaration, isDeclaration, remaining⟩
      rcases bind_eq_ok remaining with ⟨newTable, isTable, isAll⟩
      cases isAll
      have tableAgain := Repeats.of_eq (again.entity _ _ _ isTable)
      exact ((Repeats.of_eq (again.declaration isDeclaration)).bind (tableAgain.map rfl)).congr
        (by simp [Instr.uses])
  | .localGet place | .localSet place | .localTee place =>
      rcases bind_eq_ok succeeds with ⟨newPlace, isPlace, isAll⟩
      cases isAll
      exact ((again.slot _ _ isPlace).map rfl).congr (by simp [Instr.uses])
  | .memoryCopy target source =>
      rcases bind_eq_ok succeeds with ⟨newTarget, isTarget, remaining⟩
      rcases bind_eq_ok remaining with ⟨newSource, isSource, isAll⟩
      cases isAll
      have sourceAgain := Repeats.of_eq (again.entity _ _ _ isSource)
      exact ((Repeats.of_eq (again.entity _ _ _ isTarget)).bind (sourceAgain.map rfl)).congr
        (by simp [Instr.uses])
  | .atomic opcode memory offset =>
      rw [Scope.instr] at succeeds
      split at succeeds
      · next isFence =>
          cases succeeds
          rw [Scope.instr, if_pos isFence]
          exact (Repeats.pure _).congr (by simp [Instr.uses, isFence])
      · next isAccess =>
          rcases bind_eq_ok succeeds with ⟨newMemory, isMemory, isAll⟩
          cases isAll
          rw [Scope.instr, if_neg isAccess]
          exact ((Repeats.of_eq (again.entity _ _ _ isMemory)).map rfl).congr
            (by simp [Instr.uses, isAccess])
  | .unreachable | .nop | .drop | .leave | .select _ | .const _ | .unary _ | .binary _
  | .compare _ | .convert _ | .ternary _ | .simd .. | .simdLane .. | .simdShuffle ..
  | .refFunc _ | .other _ =>
      cases succeeds
      exact (Repeats.pure _).congr (by simp [Instr.uses])

theorem instrs (again : Again earlier later found) {labels : List String} (slots opened : Nat)
    (body : List Instr) {named : List Instr} (succeeds : earlier.instrs labels body = .ok named) :
    Repeats (later.instrs labels named) named
      (SlotsFound found (Instr.usesOfList slots opened named)) := by
  match body with
  | [] =>
      cases succeeds
      exact (Repeats.pure _).congr (by simp [Instr.usesOfList])
  | instr :: rest =>
      rcases bind_eq_ok succeeds with ⟨first, isFirst, remaining⟩
      rcases bind_eq_ok remaining with ⟨others, areOthers, isAll⟩
      cases isAll
      have firstAgain := again.instr slots opened instr isFirst
      have othersAgain := again.instrs slots opened rest areOthers
      exact (firstAgain.bind (othersAgain.map rfl)).congr (by simp [Instr.usesOfList])

theorem catches (again : Again earlier later found) {labels : List String} (slots opened : Nat)
    (catches : List Catch) {named : List Catch}
    (succeeds : earlier.catches labels catches = .ok named) :
    Repeats (later.catches labels named) named
      (SlotsFound found (Catch.usesOfList slots opened named)) := by
  match catches with
  | [] =>
      cases succeeds
      exact (Repeats.pure _).congr (by simp [Catch.usesOfList])
  | handler :: rest =>
      rcases bind_eq_ok succeeds with ⟨first, isFirst, remaining⟩
      rcases bind_eq_ok remaining with ⟨others, areOthers, isAll⟩
      cases isAll
      have firstAgain := again.handler slots opened handler isFirst
      have othersAgain := again.catches slots opened rest areOthers
      exact (firstAgain.bind (othersAgain.map rfl)).congr (by simp [Catch.usesOfList])

theorem handler (again : Again earlier later found) {labels : List String} (slots opened : Nat)
    (handler : Catch) {named : Catch} (succeeds : earlier.handler labels handler = .ok named) :
    Repeats (later.handler labels named) named
      (SlotsFound found (named.uses slots opened)) := by
  match handler with
  | .handler none body =>
      rcases bind_eq_ok succeeds with ⟨newBody, isBody, isAll⟩
      cases isAll
      have bodyAgain := again.instrs slots opened body isBody
      exact (bodyAgain.map rfl).congr (by simp [Catch.uses])
  | .handler (some tag) body =>
      rcases bind_eq_ok succeeds with ⟨newTag, isTag, remaining⟩
      rcases bind_eq_ok remaining with ⟨newBody, isBody, isAll⟩
      cases isAll
      have bodyAgain := again.instrs slots opened body isBody
      exact ((Repeats.of_eq (again.entity _ _ _ isTag)).bind (bodyAgain.map rfl)).congr
        (by simp [Catch.uses])

end

/-- Where every slot that has been named is found, so are all that named code uses. -/
theorem slotsFound (again : Again earlier later found)
    (isFound : ∀ place named, earlier.slot place = .ok named → found named)
    {labels : List String} (slots opened : Nat) {body named : List Instr}
    (succeeds : earlier.instrs labels body = .ok named) :
    SlotsFound found (Instr.usesOfList slots opened named) := by
  have always : Again earlier later fun _ => True := by
    refine ⟨again.entity, fun place named isNamed => ?_⟩
    exact (again.slot place named isNamed).congr (iff_true_intro (isFound place named isNamed))
  have isAgain := (always.instrs slots opened body succeeds).succeeds fun _ _ _ => trivial
  exact ((again.instrs slots opened body succeeds).only _ isAgain).2

end Again

end WasmLowering.Naming

namespace WasmLowering

open Naming

def Func.SlotsFound (func : Func) : Prop :=
  Naming.SlotsFound (fun place => (func.slot? place).isSome) func.uses

namespace Module

def SlotsFound (module : Module) : Prop :=
  ∀ func ∈ module.definedFuncs, func.SlotsFound

variable {module named : Module}

/-! ## Scopes of a named module -/

/-- The name of an entity is found at the entity, which has this name. -/
theorem NamedAs.entity_again (same : module.NamedAs named) {earlier later : Scope}
    (isEarlier : earlier.module = module.resolve) (isLater : later.module = named)
    {kind : EntityKind} {reference result : Reference}
    (succeeds : earlier.entity kind reference = .ok result) :
    later.entity kind result = .ok result := by
  rcases same.refers isEarlier succeeds with ⟨position, name, rfl, isNamed⟩
  simp [Scope.entity, isLater, isNamed.found, isNamed.isName]

theorem NamedAs.again_ofModule (same : module.NamedAs named) :
    Again (Scope.ofModule module.resolve) (Scope.ofModule named) fun _ => True where
  entity _ _ _ succeeds := same.entity_again rfl rfl succeeds
  slot _ _ succeeds := by cases succeeds

theorem slot_isName {scope : Scope} {place result : Reference}
    (succeeds : scope.slot place = .ok result) : ∃ text, result = .name text := by
  unfold Scope.slot at succeeds
  split at succeeds
  · cases succeeds
  · split at succeeds
    · cases succeeds
      exact ⟨_, rfl⟩
    · cases succeeds
  · split at succeeds
    · cases succeeds
      exact ⟨_, rfl⟩
    · cases succeeds

theorem NamedAs.again_ofFunc (same : module.NamedAs named) (func namedFunc : Func) :
    Again (Scope.ofFunc module.resolve func) (Scope.ofFunc named namedFunc)
      fun place => (namedFunc.slot? place).isSome where
  entity _ _ _ succeeds := same.entity_again rfl rfl succeeds
  slot place result succeeds := by
    rcases slot_isName succeeds with ⟨text, rfl⟩
    by_cases isFound : (namedFunc.slot? (.name text)).isSome = true
    · rw [eq_true isFound]
      exact .of_eq (if_pos isFound)
    · refine ⟨fun contrary => absurd contrary isFound, fun again isAgain => ?_⟩
      have fails : (Scope.ofFunc named namedFunc).slot (.name text) = .error (.localNotFound text) :=
        if_neg isFound
      cases fails.symm.trans isAgain

/-! ## Modules -/

theorem func_repeats (same : module.NamedAs named) {imported number : Nat} {func namedFunc : Func}
    (known : FuncApplied module.resolve imported number func namedFunc) :
    Repeats (applyFunc named imported number namedFunc) namedFunc
      (imported ≤ number → namedFunc.SlotsFound) := by
  have declared := Repeats.of_eq (same.again_ofModule.declaration known.declaration)
  rcases Nat.lt_or_ge number imported with before | behind
  · simp only [applyFunc, if_pos before]
    exact (declared.map rfl).congr (by simp [Nat.not_le.mpr before])
  · simp only [applyFunc, if_neg (Nat.not_lt.mpr behind)]
    have body := (same.again_ofFunc func namedFunc).instrs namedFunc.slotCount 0 func.body
      (known.body behind)
    exact (declared.bind (body.map rfl)).congr
      (by simp [behind, Func.SlotsFound, Func.uses])

theorem funcs_repeats (same : module.NamedAs named) {imported number : Nat}
    {entries : List (Func × Nat)} {funcs namedFuncs : List Func}
    (areEntries : entries = funcs.zipIdx number)
    (known : List.Forall₂
      (fun entry func => FuncApplied module.resolve imported entry.2 entry.1 func)
      entries namedFuncs) :
    Repeats (applyFuncs named imported number namedFuncs) namedFuncs
      (∀ func ∈ namedFuncs.drop (imported - number), func.SlotsFound) := by
  induction known generalizing number funcs with
  | nil => exact (Repeats.pure _).congr (by simp)
  | @cons entry first rest others isFirst _ induction =>
      rcases funcs with _ | ⟨func, later⟩
      · cases areEntries
      · cases areEntries
        have firstAgain := func_repeats same isFirst
        have othersAgain := induction rfl
        refine (firstAgain.bind (othersAgain.map rfl)).congr ?_
        rcases Nat.lt_or_ge number imported with before | behind
        · have step : imported - number = imported - (number + 1) + 1 := by omega
          simp [step, Nat.not_le.mpr before]
        · have none : imported - number = 0 := by omega
          have still : imported - (number + 1) = 0 := by omega
          simp [none, still, behind]

theorem NamedAs.export_again (same : module.NamedAs named) {entry result : Export}
    (succeeds : applyExport module.resolve entry = .ok result) :
    applyExport named result = .ok result := by
  rcases entry with ⟨name, kind, target⟩
  cases isKind : EntityKind.ofExtern? kind with
  | none =>
      simp only [applyExport, isKind] at succeeds
      cases succeeds
      simp only [applyExport, isKind]
      rfl
  | some entity =>
      simp only [applyExport, isKind] at succeeds
      rcases bind_eq_ok succeeds with ⟨newTarget, isTarget, isAll⟩
      cases isAll
      simp only [applyExport, isKind, same.again_ofModule.entity _ _ _ isTarget]
      rfl

theorem NamedAs.instrs_again (same : module.NamedAs named) {body result : List Instr}
    (succeeds : (Scope.ofModule module.resolve).instrs [] body = .ok result) :
    (Scope.ofModule named).instrs [] result = .ok result :=
  (same.again_ofModule.instrs 0 0 body succeeds).succeeds fun _ _ _ => trivial

theorem NamedAs.element_again (same : module.NamedAs named) {segment result : ElementSegment}
    (succeeds : applyElement module.resolve segment = .ok result) :
    applyElement named result = .ok result := by
  rcases bind_eq_ok succeeds with ⟨table, isTable, remaining⟩
  rcases bind_eq_ok remaining with ⟨offset, isOffset, remaining⟩
  rcases bind_eq_ok remaining with ⟨functions, areFunctions, isAll⟩
  cases isAll
  have functionsAgain :
      functions.mapM ((Scope.ofModule named).entity .func) = .ok functions := by
    apply Repeats.mapM_eq_ok
    intro function member
    rcases exists_of_forall₂ (mapM_eq_ok areFunctions) member with ⟨source, _, isFunction⟩
    exact same.again_ofModule.entity _ _ _ isFunction
  simp only [applyElement, same.again_ofModule.entity _ _ _ isTable, same.instrs_again isOffset,
    functionsAgain]
  rfl

theorem NamedAs.data_again (same : module.NamedAs named) {segment result : DataSegment}
    (succeeds : applyData module.resolve segment = .ok result) :
    applyData named result = .ok result := by
  unfold applyData at succeeds
  split at succeeds
  · next isPassive =>
      cases succeeds
      exact if_pos isPassive
  · next isActive =>
      rcases bind_eq_ok succeeds with ⟨memory, isMemory, remaining⟩
      rcases bind_eq_ok remaining with ⟨offset, isOffset, isAll⟩
      cases isAll
      simp only [applyData, if_neg isActive, same.again_ofModule.entity _ _ _ isMemory,
        same.instrs_again isOffset]
      rfl

/-- Replacing the references of a module that has been named gives it back, unless a slot
that is referred to is not found. -/
theorem applyNames_repeats (applied : module.resolve.Applied named) :
    Repeats named.applyNames named named.SlotsFound := by
  have same := applied_namedAs applied
  have funcs := funcs_repeats same rfl applied.funcs
  rw [importCount_resolve, ← same.importCount] at funcs
  have globals : named.globals.mapM (fun global => do
      return { global with initial := ← (Scope.ofModule named).instrs [] global.initial }) =
        .ok named.globals := by
    apply Repeats.mapM_eq_ok
    intro global member
    rcases exists_of_forall₂ applied.globals member with ⟨source, _, known⟩
    simp only [same.instrs_again known.2.2]
    rfl
  have exports : named.exports.mapM (applyExport named) = .ok named.exports := by
    apply Repeats.mapM_eq_ok
    intro entry member
    rcases exists_of_forall₂ applied.exports member with ⟨source, _, isEntry⟩
    exact same.export_again isEntry
  have elements : named.elements.mapM (applyElement named) = .ok named.elements := by
    apply Repeats.mapM_eq_ok
    intro segment member
    rcases exists_of_forall₂ applied.elements member with ⟨source, _, isSegment⟩
    exact same.element_again isSegment
  have datas : named.datas.mapM (applyData named) = .ok named.datas := by
    apply Repeats.mapM_eq_ok
    intro segment member
    rcases exists_of_forall₂ applied.datas member with ⟨source, _, isSegment⟩
    exact same.data_again isSegment
  have starts : named.starts.mapM ((Scope.ofModule named).entity .func) = .ok named.starts := by
    apply Repeats.mapM_eq_ok
    intro start member
    rcases exists_of_forall₂ applied.starts member with ⟨source, _, isStart⟩
    exact same.again_ofModule.entity _ _ _ isStart
  apply Repeats.congr
  · apply funcs.bind
    apply (Repeats.of_eq globals).bind
    apply (Repeats.of_eq exports).bind
    apply (Repeats.of_eq elements).bind
    apply (Repeats.of_eq datas).bind
    exact (Repeats.of_eq starts).map rfl
  · simp [SlotsFound, definedFuncs]

end Module

end WasmLowering
