import WasmLowering.Naming.Apply
import WasmLowering.Proofs.Naming.SlotNames
import WasmLowering.Proofs.Results
import WasmLowering.Proofs.Typing.Rules

/-! Code with names in place of positions.

Names mean what the positions meant: an entity is found at its position, and a
label is the one at its depth, because the labels that are open at a point all
have different names. -/

namespace WasmLowering.Naming

/-! ## Labels -/

theorem chooseLabel_grows (letter : String) (head : BlockHead) (state : LabelState)
    {name : String} (isTaken : name ∈ state.taken) :
    name ∈ (chooseLabel letter head state).2.taken := by
  unfold chooseLabel
  split
  · exact Std.ExtTreeSet.mem_insert.mpr (.inr isTaken)
  · exact isTaken

theorem labelInstr_plain {instr : Instr} (plain : instr.head? = none) (state : LabelState) :
    labelInstr instr state = (instr, state) := by
  cases instr <;> first | rfl | cases plain

mutual

theorem labelInstr_grows (instr : Instr) (state : LabelState) {name : String}
    (isTaken : name ∈ state.taken) : name ∈ (labelInstr instr state).2.taken := by
  rcases isHead : instr.head? with _ | _
  · rw [labelInstr_plain isHead]
    exact isTaken
  · match instr, isHead with
    | .block head body, _ => exact labelInstrs_grows body _ (chooseLabel_grows _ _ _ isTaken)
    | .loop head body, _ => exact labelInstrs_grows body _ (chooseLabel_grows _ _ _ isTaken)
    | .ifElse head thenBody elseBody, _ =>
        exact labelInstrs_grows elseBody _
          (labelInstrs_grows thenBody _ (chooseLabel_grows _ _ _ isTaken))
    | .tryCatch head body catches, _ =>
        exact labelCatches_grows catches _
          (labelInstrs_grows body _ (chooseLabel_grows _ _ _ isTaken))

theorem labelInstrs_grows (instrs : List Instr) (state : LabelState) {name : String}
    (isTaken : name ∈ state.taken) : name ∈ (labelInstrs instrs state).2.taken := by
  match instrs with
  | [] => exact isTaken
  | instr :: rest => exact labelInstrs_grows rest _ (labelInstr_grows instr _ isTaken)

theorem labelCatches_grows (catches : List Catch) (state : LabelState) {name : String}
    (isTaken : name ∈ state.taken) : name ∈ (labelCatches catches state).2.taken := by
  match catches with
  | [] => exact isTaken
  | .handler tag body :: rest =>
      exact labelCatches_grows rest _ (labelInstrs_grows body _ isTaken)

end

structure Covers (taken : NameSet) (labels : List String) : Prop where
  function : funcLabel ∈ taken
  opened : ∀ label ∈ labels, label ∈ taken

/-- Code without labels, and what becomes of it when labels are chosen and positions
are replaced by names, inside open labels with the innermost first. -/
def NamedCode (scope : Scope) (labels : List String) : Code → Code → Prop
  | .instr source, .instr target =>
      ∃ state : LabelState, Covers state.taken labels ∧ Instr.Unlabelled [source] ∧
        scope.instr labels (labelInstr source state).1 = .ok target
  | .body source, .body target =>
      ∃ state : LabelState, Covers state.taken labels ∧ Instr.Unlabelled source ∧
        scope.instrs labels (labelInstrs source state).1 = .ok target
  | _, _ => False

structure NamedHead (labels : List String) (head named : BlockHead) : Prop where
  notOpen : named.label ∉ labels
  notFunction : named.label ≠ funcLabel
  signature : named.declaration.signature = head.declaration.signature

namespace Scope

theorem declaration_signature {scope : Scope} {declaration named : Declaration}
    (succeeds : scope.declaration declaration = .ok named) :
    named.signature = declaration.signature := by
  unfold Scope.declaration at succeeds
  split at succeeds
  · rcases bind_eq_ok succeeds with ⟨reference, _, isNamed⟩
    cases isNamed
    rfl
  · cases succeeds
    rfl

/-- What is left of an instruction when its positions are replaced. -/
structure SameSort (scope : Scope) (instr named : Instr) : Prop where
  isExtension : named.isExtension = instr.isExtension
  isConstruct : named.isConstruct = instr.isConstruct
  globalGet : ∀ place, named = .globalGet place →
    ∃ source, scope.entity .global source = .ok place
  refFunc : ∀ callee, named = .refFunc callee ↔ instr = .refFunc callee

theorem instr_sameSort {scope : Scope} {labels : List String} {instr named : Instr}
    (succeeds : scope.instr labels instr = .ok named) : SameSort scope instr named := by
  cases instr with
  | globalGet source =>
      rcases bind_eq_ok succeeds with ⟨place, isPlace, isAll⟩
      cases isAll
      refine ⟨rfl, rfl, ?_, fun _ => ⟨nofun, nofun⟩⟩
      rintro _ ⟨⟩
      exact ⟨source, isPlace⟩
  | block | loop | brTable | callIndirect | memoryCopy =>
      rcases bind_eq_ok succeeds with ⟨_, _, remaining⟩
      rcases bind_eq_ok remaining with ⟨_, _, isAll⟩
      cases isAll
      exact ⟨rfl, rfl, nofun, fun _ => ⟨nofun, nofun⟩⟩
  | ifElse | tryCatch =>
      rcases bind_eq_ok succeeds with ⟨_, _, remaining⟩
      rcases bind_eq_ok remaining with ⟨_, _, remaining⟩
      rcases bind_eq_ok remaining with ⟨_, _, isAll⟩
      cases isAll
      exact ⟨rfl, rfl, nofun, fun _ => ⟨nofun, nofun⟩⟩
  | atomic =>
      rw [Scope.instr] at succeeds
      split at succeeds
      · cases succeeds
        exact ⟨rfl, rfl, nofun, fun _ => .rfl⟩
      · rcases bind_eq_ok succeeds with ⟨_, _, isAll⟩
        cases isAll
        exact ⟨rfl, rfl, nofun, fun _ => ⟨nofun, nofun⟩⟩
  | br | brIf | rethrow | throwTag | call | globalSet | localGet | localSet | localTee | load
  | store | memorySize | memoryGrow | memoryFill =>
      rcases bind_eq_ok succeeds with ⟨_, _, isAll⟩
      cases isAll
      exact ⟨rfl, rfl, nofun, fun _ => ⟨nofun, nofun⟩⟩
  | _ =>
      cases succeeds
      exact ⟨rfl, rfl, nofun, fun _ => .rfl⟩

theorem head_named {scope : Scope} {labels : List String} {letter : String}
    (given : letter ≠ "") {head named : BlockHead} {state : LabelState}
    (covers : Covers state.taken labels) (unlabelled : head.label = "")
    (succeeds : scope.head (chooseLabel letter head state).1 = .ok named) :
    NamedHead labels head named ∧
      Covers (chooseLabel letter head state).2.taken (named.label :: labels) := by
  rcases takePositional_spec state.taken given state.count with ⟨_, free, mem_taken⟩
  simp only [chooseLabel, unlabelled, decide_true, Bool.true_or, if_true] at succeeds ⊢
  rcases bind_eq_ok succeeds with ⟨declaration, isDeclaration, isNamed⟩
  cases isNamed
  refine ⟨⟨fun opened => free (covers.opened _ opened), ?_, ?_⟩, ⟨?_, ?_⟩⟩
  · intro equal
    have same : (takePositional state.taken letter state.count).1 = funcLabel := equal
    exact free (same ▸ covers.function)
  · exact declaration_signature isDeclaration
  · exact (mem_taken _).mpr (.inr covers.function)
  · intro label member
    rcases List.mem_cons.mp member with rfl | member
    · exact (mem_taken _).mpr (.inl rfl)
    · exact (mem_taken _).mpr (.inr (covers.opened label member))

end Scope

namespace NamedCode

variable {scope : Scope} {labels : List String} {target : Code}

theorem body_nil (named : NamedCode scope labels (.body []) target) : target = .body [] := by
  cases target with
  | instr => exact named.elim
  | body instrs =>
      rcases named with ⟨state, _, _, succeeds⟩
      cases succeeds
      rfl

theorem body_cons {instr : Instr} {rest : List Instr}
    (named : NamedCode scope labels (.body (instr :: rest)) target) :
    ∃ first others, target = .body (first :: others) ∧
      NamedCode scope labels (.instr instr) (.instr first) ∧
      NamedCode scope labels (.body rest) (.body others) := by
  cases target with
  | instr => exact named.elim
  | body instrs =>
      rcases named with ⟨state, covers, unlabelled, succeeds⟩
      rcases (Instr.unlabelled_cons instr rest).mp unlabelled with ⟨unlabelledFirst, unlabelledRest⟩
      rcases bind_eq_ok succeeds with ⟨first, isFirst, remaining⟩
      rcases bind_eq_ok remaining with ⟨others, areOthers, isAll⟩
      cases isAll
      refine ⟨first, others, rfl, ⟨state, covers, unlabelledFirst, isFirst⟩, ?_⟩
      refine ⟨(labelInstr instr state).2, ⟨?_, ?_⟩, unlabelledRest, areOthers⟩
      · exact labelInstr_grows instr state covers.function
      · exact fun label opened => labelInstr_grows instr state (covers.opened label opened)

theorem plain {instr : Instr} (isPlain : instr.head? = none)
    (named : NamedCode scope labels (.instr instr) target) :
    ∃ first, target = .instr first ∧ scope.instr labels instr = .ok first := by
  cases target with
  | body => exact named.elim
  | instr first =>
      rcases named with ⟨state, _, _, succeeds⟩
      rw [labelInstr_plain isPlain] at succeeds
      exact ⟨first, rfl, succeeds⟩

theorem sameSort {instr : Instr} (named : NamedCode scope labels (.instr instr) target) :
    ∃ first, target = .instr first ∧ first.isExtension = instr.isExtension ∧
      first.isConstruct = instr.isConstruct := by
  cases target with
  | body => exact named.elim
  | instr first =>
      rcases named with ⟨state, _, _, succeeds⟩
      have same := Scope.instr_sameSort succeeds
      have labelled : (labelInstr instr state).1.isExtension = instr.isExtension ∧
          (labelInstr instr state).1.isConstruct = instr.isConstruct := by
        cases instr <;> exact ⟨rfl, rfl⟩
      exact ⟨first, rfl, same.isExtension.trans labelled.1, same.isConstruct.trans labelled.2⟩

theorem block {head : BlockHead} {body : List Instr}
    (named : NamedCode scope labels (.instr (.block head body)) target) :
    ∃ newHead newBody, target = .instr (.block newHead newBody) ∧ NamedHead labels head newHead ∧
      NamedCode scope (newHead.label :: labels) (.body body) (.body newBody) := by
  cases target with
  | body => exact named.elim
  | instr first =>
      rcases named with ⟨state, covers, unlabelled, succeeds⟩
      rcases (Instr.unlabelled_block head body).mp unlabelled with ⟨noLabel, unlabelledBody⟩
      rcases bind_eq_ok succeeds with ⟨newHead, isHead, remaining⟩
      rcases bind_eq_ok remaining with ⟨newBody, isBody, isAll⟩
      cases isAll
      rcases Scope.head_named (by decide) covers noLabel isHead with ⟨namedHead, nowCovers⟩
      exact ⟨newHead, newBody, rfl, namedHead, _, nowCovers, unlabelledBody, isBody⟩

theorem loop {head : BlockHead} {body : List Instr}
    (named : NamedCode scope labels (.instr (.loop head body)) target) :
    ∃ newHead newBody, target = .instr (.loop newHead newBody) ∧ NamedHead labels head newHead ∧
      NamedCode scope (newHead.label :: labels) (.body body) (.body newBody) := by
  cases target with
  | body => exact named.elim
  | instr first =>
      rcases named with ⟨state, covers, unlabelled, succeeds⟩
      rcases (Instr.unlabelled_loop head body).mp unlabelled with ⟨noLabel, unlabelledBody⟩
      rcases bind_eq_ok succeeds with ⟨newHead, isHead, remaining⟩
      rcases bind_eq_ok remaining with ⟨newBody, isBody, isAll⟩
      cases isAll
      rcases Scope.head_named (by decide) covers noLabel isHead with ⟨namedHead, nowCovers⟩
      exact ⟨newHead, newBody, rfl, namedHead, _, nowCovers, unlabelledBody, isBody⟩

theorem ifElse {head : BlockHead} {thenBody elseBody : List Instr}
    (named : NamedCode scope labels (.instr (.ifElse head thenBody elseBody)) target) :
    ∃ newHead newThen newElse, target = .instr (.ifElse newHead newThen newElse) ∧
      NamedHead labels head newHead ∧
      NamedCode scope (newHead.label :: labels) (.body thenBody) (.body newThen) ∧
      NamedCode scope (newHead.label :: labels) (.body elseBody) (.body newElse) := by
  cases target with
  | body => exact named.elim
  | instr first =>
      rcases named with ⟨state, covers, unlabelled, succeeds⟩
      rcases (Instr.unlabelled_ifElse head thenBody elseBody).mp unlabelled with
        ⟨noLabel, unlabelledThen, unlabelledElse⟩
      rcases bind_eq_ok succeeds with ⟨newHead, isHead, remaining⟩
      rcases bind_eq_ok remaining with ⟨newThen, isThen, remaining⟩
      rcases bind_eq_ok remaining with ⟨newElse, isElse, isAll⟩
      cases isAll
      rcases Scope.head_named (by decide) covers noLabel isHead with ⟨namedHead, nowCovers⟩
      refine ⟨newHead, newThen, newElse, rfl, namedHead, ⟨_, nowCovers, unlabelledThen, isThen⟩, ?_⟩
      refine ⟨_, ⟨labelInstrs_grows _ _ nowCovers.function, ?_⟩, unlabelledElse, isElse⟩
      exact fun label opened => labelInstrs_grows _ _ (nowCovers.opened label opened)

end NamedCode

/-! ## References -/

/-- The name of a branch target is that of the label at its depth. -/
theorem Scope.label_named {labels : List String} {depth : Index} {named : Reference}
    (succeeds : Scope.label labels (.index depth) = .ok named) :
    ∃ name, named = .name name ∧ (labels ++ [funcLabel])[depth.toNat]? = some name := by
  unfold Scope.label at succeeds
  dsimp only at succeeds
  split at succeeds
  · next name isLabel =>
      cases succeeds
      refine ⟨name, rfl, ?_⟩
      rw [List.getElem?_append_left (List.getElem?_eq_some_iff.mp isLabel).1]
      exact isLabel
  · split at succeeds
    · next isFunction =>
        cases succeeds
        refine ⟨funcLabel, rfl, ?_⟩
        rw [isFunction, List.getElem?_append_right (Nat.le_refl _), Nat.sub_self]
        rfl
    · cases succeeds

theorem Scope.slot_named {module : Module} {func : Func} {slot : Index} {named : Reference}
    (succeeds : (Scope.ofFunc module func).slot (.index slot) = .ok named) :
    ∃ name, named = .name name ∧ (func.paramNames ++ func.localNames)[slot.toNat]? = some name := by
  unfold Scope.slot Scope.ofFunc at succeeds
  dsimp only at succeeds
  split at succeeds
  · next name isSlot =>
      cases succeeds
      exact ⟨name, rfl, isSlot⟩
  · cases succeeds

end WasmLowering.Naming

namespace WasmLowering.Module

open Naming

/-- A module with names for everything in place of the positions of another. -/
structure NamedAs (module named : Module) : Prop where
  entityNames : ∀ kind, named.entityNames kind = module.resolve.entityNames kind
  entityBindings : ∀ kind, named.entityBindings kind = module.resolve.entityBindings kind
  imports : named.imports = module.imports
  signatures : named.funcs.map (·.declaration.signature) =
    module.funcs.map (·.declaration.signature)
  globalTypes : named.globals.map (·.type) = module.globals.map (·.type)

structure Names (named : Module) (kind : EntityKind) (position : Index) (name : String) :
    Prop where
  given : name ≠ ""
  found : named.entityIndex? kind (.name name) = some position
  isName : (named.entityNames kind)[position.toNat]? = some name

def Refers (named : Module) (kind : EntityKind) (reference : Reference) : Prop :=
  ∃ position name, reference = .name name ∧ named.Names kind position name

theorem lookup_lt {bindings : Bindings} {reference : Reference} {count : Nat} {position : Index}
    (isFound : lookup bindings reference count = some position) : position.toNat < count := by
  unfold lookup at isFound
  split at isFound
  · split at isFound
    · cases isFound
      assumption
    · cases isFound
  · split at isFound
    · split at isFound
      · cases isFound
        assumption
      · cases isFound
    · cases isFound

namespace NamedAs

variable {module named : Module}

theorem entityCount (same : module.NamedAs named) (kind : EntityKind) :
    named.entityCount kind = module.entityCount kind := by
  rw [← length_entityNames, same.entityNames, length_entityNames, entityCount_resolve]

theorem names (same : module.NamedAs named) {kind : EntityKind} {position : Index}
    (inside : position.toNat < module.entityCount kind) :
    ∃ name, named.Names kind position name := by
  rcases resolve_names_entity module kind inside with ⟨name, given, isName, isBound⟩
  refine ⟨name, given, ?_, by rw [same.entityNames, isName]⟩
  unfold entityIndex? lookup
  dsimp only
  rw [same.entityBindings, isBound, same.entityCount]
  simp [inside]

theorem entity (same : module.NamedAs named) {scope : Scope}
    (isScope : scope.module = module.resolve) {kind : EntityKind} {position : Index}
    {reference : Reference}
    (succeeds : scope.entity kind (.index position) = .ok reference) :
    ∃ name, reference = .name name ∧ named.Names kind position name := by
  unfold Scope.entity at succeeds
  rw [isScope] at succeeds
  split at succeeds
  · cases succeeds
  · next found isFound =>
      unfold entityIndex? lookup at isFound
      dsimp only at isFound
      split at isFound
      · next inside =>
          cases isFound
          rw [entityCount_resolve] at inside
          rcases same.names inside with ⟨name, isNamed⟩
          have isName := isNamed.isName
          rw [same.entityNames] at isName
          simp only [isName, Option.getD_some, isNamed.given, if_false] at succeeds
          cases succeeds
          exact ⟨name, rfl, isNamed⟩
      · cases isFound

theorem refers (same : module.NamedAs named) {scope : Scope}
    (isScope : scope.module = module.resolve) {kind : EntityKind} {reference result : Reference}
    (succeeds : scope.entity kind reference = .ok result) : named.Refers kind result := by
  unfold Scope.entity at succeeds
  rw [isScope] at succeeds
  split at succeeds
  · cases succeeds
  · next position isFound =>
      have inside : position.toNat < module.entityCount kind := by
        rw [← entityCount_resolve]
        exact lookup_lt isFound
      rcases same.names inside with ⟨name, isNamed⟩
      have isName := isNamed.isName
      rw [same.entityNames] at isName
      simp only [isName, Option.getD_some] at succeeds
      refine ⟨position, name, ?_, isNamed⟩
      split at succeeds
      · split at succeeds
        · next text sameName =>
            cases succeeds
            rw [sameName]
        · cases succeeds
      · rw [if_neg isNamed.given] at succeeds
        cases succeeds
        rfl

theorem given (same : module.NamedAs named) (kind : EntityKind) :
    ∀ name ∈ named.entityNames kind, name ≠ "" := by
  intro name member
  rw [same.entityNames, entityNames_resolve] at member
  rcases List.mem_iff_getElem?.mp member with ⟨position, isName⟩
  have inside : position < (module.entityNames kind).length := by
    rw [← length_nameTable]
    exact (List.getElem?_eq_some_iff.mp isName).1
  rcases nameTable_names module kind inside with ⟨other, given, isOther⟩
  cases isOther.symm.trans isName
  exact given

end NamedAs

/-! ## Replacing the references of a module -/

structure FuncApplied (module : Module) (imported number : Nat) (func named : Func) : Prop where
  name : named.name = func.name
  signature : named.declaration.signature = func.declaration.signature
  locals : named.locals = func.locals
  paramBindings : named.paramBindings = func.paramBindings
  localBindings : named.localBindings = func.localBindings
  declaration : (Scope.ofModule module).declaration func.declaration = .ok named.declaration
  body : imported ≤ number → (Scope.ofFunc module func).instrs [] func.body = .ok named.body

theorem applyFunc_applied {module : Module} {imported number : Nat} {func named : Func}
    (succeeds : applyFunc module imported number func = .ok named) :
    FuncApplied module imported number func named := by
  rcases bind_eq_ok succeeds with ⟨declaration, isDeclaration, remaining⟩
  split at remaining
  · next before =>
      cases remaining
      exact ⟨rfl, Scope.declaration_signature isDeclaration, rfl, rfl, rfl, isDeclaration,
        fun behind => absurd before (Nat.not_lt.mpr behind)⟩
  · rcases bind_eq_ok remaining with ⟨body, isBody, isNamed⟩
    cases isNamed
    exact ⟨rfl, Scope.declaration_signature isDeclaration, rfl, rfl, rfl, isDeclaration,
      fun _ => isBody⟩

theorem applyFuncs_applied {module : Module} {imported number : Nat} {funcs named : List Func}
    (succeeds : applyFuncs module imported number funcs = .ok named) :
    List.Forall₂ (fun entry func => FuncApplied module imported entry.2 entry.1 func)
      (funcs.zipIdx number) named := by
  induction funcs generalizing number named with
  | nil =>
      cases succeeds
      exact .nil
  | cons func rest induction =>
      rcases bind_eq_ok succeeds with ⟨first, isFirst, remaining⟩
      rcases bind_eq_ok remaining with ⟨others, areOthers, isAll⟩
      cases isAll
      exact .cons (applyFunc_applied isFirst) (induction areOthers)

structure Applied (module named : Module) : Prop where
  funcs : List.Forall₂
    (fun entry func => FuncApplied module (module.importCount .func) entry.2 entry.1 func)
    module.funcs.zipIdx named.funcs
  globals : List.Forall₂
    (fun global result => result.name = global.name ∧ result.type = global.type ∧
      (Scope.ofModule module).instrs [] global.initial = .ok result.initial)
    module.globals named.globals
  exports : List.Forall₂ (fun entry result => applyExport module entry = .ok result)
    module.exports named.exports
  elements : List.Forall₂ (fun segment result => applyElement module segment = .ok result)
    module.elements named.elements
  datas : List.Forall₂ (fun segment result => applyData module segment = .ok result)
    module.datas named.datas
  starts : List.Forall₂
    (fun reference result => (Scope.ofModule module).entity .func reference = .ok result)
    module.starts named.starts
  others : named = { module with
    funcs := named.funcs, globals := named.globals, exports := named.exports
    elements := named.elements, datas := named.datas, starts := named.starts }

theorem applyNames_applied {module named : Module} (succeeds : module.applyNames = .ok named) :
    module.Applied named := by
  rcases bind_eq_ok succeeds with ⟨funcs, areFuncs, remaining⟩
  rcases bind_eq_ok remaining with ⟨globals, areGlobals, remaining⟩
  rcases bind_eq_ok remaining with ⟨exports, areExports, remaining⟩
  rcases bind_eq_ok remaining with ⟨elements, areElements, remaining⟩
  rcases bind_eq_ok remaining with ⟨datas, areDatas, remaining⟩
  rcases bind_eq_ok remaining with ⟨starts, areStarts, isNamed⟩
  cases isNamed
  refine ⟨applyFuncs_applied areFuncs, ?_, mapM_eq_ok areExports, mapM_eq_ok areElements,
    mapM_eq_ok areDatas, mapM_eq_ok areStarts, rfl⟩
  refine (mapM_eq_ok areGlobals).imp fun global result isResult => ?_
  rcases bind_eq_ok isResult with ⟨initial, isInitial, isGlobal⟩
  cases isGlobal
  exact ⟨rfl, rfl, isInitial⟩

theorem map_fst_zipIdx_view {α γ : Type} (items : List α) (view : α → γ) (number : Nat) :
    (items.zipIdx number).map (fun entry => view entry.1) = items.map view := by
  rw [← Function.comp_def view Prod.fst, ← List.map_map, List.zipIdx_map_fst]

theorem map_zipWith_view {α γ : Type} {change : α → String → α} {view : α → γ}
    (keeps : ∀ item name, view (change item name) = view item) {items : List α}
    {names : List String} (same : names.length = items.length) :
    (items.zipWith change names).map view = items.map view := by
  induction items generalizing names with
  | nil => simp
  | cons item rest induction =>
      cases names with
      | nil => simp at same
      | cons name others =>
          simp only [List.zipWith_cons_cons, List.map_cons, keeps]
          rw [induction (by simpa using same)]

theorem map_declaration_resolve (module : Module) :
    module.resolve.funcs.map (·.declaration) = module.funcs.map (·.declaration) := by
  have renamed : (resolveEntities module).funcs.map (·.declaration) =
      module.funcs.map (·.declaration) := by
    apply map_zipWith_view
    · exact fun _ _ => rfl
    · rw [length_nameTable, length_entityNames, Module.entityCount]
  rw [← renamed, Module.resolve, List.map_append, List.map_map]
  have kept : ((·.declaration) ∘ resolveFunc) = fun func : Func => func.declaration := rfl
  rw [kept, ← List.map_append, List.take_append_drop]

theorem map_initial_resolve (module : Module) :
    module.resolve.globals.map (·.initial) = module.globals.map (·.initial) := by
  apply map_zipWith_view
  · exact fun _ _ => rfl
  · rw [length_nameTable, length_entityNames, Module.entityCount]

theorem applied_namedAs {module named : Module} (applied : module.resolve.Applied named) :
    module.NamedAs named := by
  have lengths : ∀ kind, (nameTable module kind).names.length = module.entityCount kind := by
    intro kind
    rw [length_nameTable, length_entityNames]
  constructor
  · intro kind
    cases kind with
    | func =>
        refine (map_eq_of_forall₂ applied.funcs fun entry func known => known.name).trans ?_
        exact map_fst_zipIdx_view _ _ _
    | global => exact map_eq_of_forall₂ applied.globals fun global result known => known.1
    | table =>
        rw [applied.others]
        rfl
    | memory =>
        rw [applied.others]
        rfl
    | except =>
        rw [applied.others]
        rfl
    | type =>
        rw [applied.others]
        rfl
  · intro kind
    rw [applied.others]
    cases kind <;> rfl
  · rw [applied.others]
    rfl
  · refine (map_eq_of_forall₂ applied.funcs fun entry func known => known.signature).trans ?_
    rw [map_fst_zipIdx_view module.resolve.funcs (·.declaration.signature)]
    simpa [Function.comp_def] using
      congrArg (List.map Declaration.signature) (map_declaration_resolve module)
  · refine (map_eq_of_forall₂ applied.globals fun global result known => known.2.1).trans ?_
    apply map_zipWith_view
    · exact fun _ _ => rfl
    · exact lengths .global

theorem NamedAs.importCount {module named : Module} (same : module.NamedAs named)
    (kind : ExternKind) : named.importCount kind = module.importCount kind := by
  unfold Module.importCount
  cases EntityKind.ofExtern? kind with
  | none => rfl
  | some entity =>
      dsimp only
      rw [same.entityCount, Module.importsOf, same.imports, Module.importsOf]

/-! ## Functions -/

structure FuncNamed (module : Module) (func named : Func) : Prop where
  signature : named.declaration.signature = func.declaration.signature
  locals : named.locals = func.locals
  paramBindings : named.paramBindings = (resolveFunc func).paramBindings
  localBindings : named.localBindings = (resolveFunc func).localBindings
  body : ∃ scope : Scope, scope.module = module.resolve ∧
    (∀ slot reference, scope.slot (.index slot) = .ok reference →
      ∃ name, reference = .name name ∧
        ((resolveFunc func).paramNames ++ (resolveFunc func).localNames)[slot.toNat]? = some name) ∧
    NamedCode scope [] (.body func.body) (.body named.body)

/-- A defined function after naming, and what becomes of it when its references are
replaced. -/
theorem definedFunc_applied {module named : Module} (applied : module.resolve.Applied named)
    {number : Nat} {func : Func} (isFunc : module.definedFuncs[number]? = some func) :
    ∃ own namedFunc, named.definedFuncs[number]? = some namedFunc ∧
      FuncApplied module.resolve (module.importCount .func) (module.importCount .func + number)
        (resolveFunc { func with name := own }) namedFunc := by
  have same := applied_namedAs applied
  rw [definedFuncs, List.getElem?_drop] at isFunc
  rcases getElem?_funcs_resolve isFunc with ⟨own, isResolved⟩
  rw [if_neg (by omega)] at isResolved
  have isEntry : module.resolve.funcs.zipIdx[module.importCount .func + number]? =
      some (resolveFunc { func with name := own }, module.importCount .func + number) := by
    rw [List.getElem?_zipIdx, isResolved]
    simp
  rcases getElem?_of_forall₂ applied.funcs isEntry with ⟨namedFunc, isNamed, known⟩
  rw [importCount_resolve] at known
  refine ⟨own, namedFunc, ?_, known⟩
  rw [definedFuncs, same.importCount, List.getElem?_drop, isNamed]

theorem FuncApplied.named {module : Module} {number : Nat} {func namedFunc : Func} {own : String}
    (unlabelled : Instr.Unlabelled func.body)
    (known : FuncApplied module.resolve (module.importCount .func) (module.importCount .func + number)
      (resolveFunc { func with name := own }) namedFunc) : FuncNamed module func namedFunc := by
  refine ⟨known.signature, known.locals, known.paramBindings, known.localBindings, ?_⟩
  refine ⟨Scope.ofFunc module.resolve (resolveFunc { func with name := own }), rfl, ?_, ?_⟩
  · intro slot reference isSlot
    have known := Scope.slot_named isSlot
    exact known
  · refine ⟨⟨0, (localPass func).1⟩, ⟨?_, fun _ member => absurd member List.not_mem_nil⟩,
      unlabelled, ?_⟩
    · exact mem_localPass (funcLabel_mem_takenNames func)
    · exact known.body (Nat.le_add_right _ _)

theorem definedFunc_named {module named : Module} (decoded : module.Decoded)
    (applied : module.resolve.Applied named) {number : Nat} {func : Func}
    (isFunc : module.definedFuncs[number]? = some func) :
    ∃ namedFunc, named.definedFuncs[number]? = some namedFunc ∧
      FuncNamed module func namedFunc := by
  rcases definedFunc_applied applied isFunc with ⟨own, namedFunc, isNamed, known⟩
  exact ⟨namedFunc, isNamed, known.named (decoded.definedFunc isFunc).unlabelled⟩

end WasmLowering.Module
