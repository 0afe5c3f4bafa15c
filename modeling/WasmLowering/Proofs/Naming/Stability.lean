import WasmLowering.Proofs.Naming.BlockLabels

/-! Naming a module that has names for everything changes nothing.

Every pass only acts where a name is missing or means something else. Where each
entity has a name that is bound to it, each slot shows a name, and each structured
instruction has a label of its own, all passes leave what they find. -/

namespace WasmLowering.Naming

/-! ## Entities -/

namespace NameTable

/-- A table with a name for every entity, bound to its position. -/
structure Settled (table : NameTable) : Prop where
  sound : table.Sound
  given : ∀ name ∈ table.names, name ≠ ""

theorem bindExisting_settled {bindings : Bindings} {start : Nat} {names : List String}
    (sound : (NameTable.mk names bindings).SoundFrom start) (given : ∀ name ∈ names, name ≠ "") :
    bindExisting bindings start names = ⟨names, bindings⟩ := by
  induction names generalizing start with
  | nil => rfl
  | cons name rest induction =>
      have nonempty := given name List.mem_cons_self
      have bound : bindings.find? name = some (.ofNat start) := sound 0 name rfl nonempty
      have kept : keptName bindings start name = name := by simp [keptName, bound]
      have same : bindName bindings start name = bindings := by simp [bindName, bound]
      have later : bindExisting bindings (start + 1) rest = ⟨rest, bindings⟩ := by
        apply induction
        · intro position other has isGiven
          rw [Nat.add_right_comm, Nat.add_assoc]
          exact sound (position + 1) other (by simpa using has) isGiven
        · exact fun other member => given other (List.mem_cons_of_mem _ member)
      rw [bindExisting_cons, same, later, kept]

theorem Settled.nameAt_eq {table : NameTable} (settled : table.Settled) (position : Nat)
    (name : String) : table.nameAt position name = table := by
  apply if_neg
  intro unnamed
  exact settled.given "" (List.mem_of_getElem? unnamed) rfl

theorem Settled.nameInOrder_eq {table : NameTable} (settled : table.Settled)
    (names : List String) : table.nameInOrder names = table :=
  List.foldl_fixed' (fun entry => settled.nameAt_eq entry.2 entry.1) names.zipIdx

theorem Settled.nameExports_eq {table : NameTable} (settled : table.Settled)
    (exports : List (Reference × String)) : table.nameExports exports = table := by
  apply List.foldl_fixed'
  intro entry
  dsimp only
  split
  · exact settled.nameAt_eq _ _
  · rfl

end NameTable

def EntitiesSettled (module : Module) : Prop :=
  ∀ kind, (NameTable.mk (module.entityNames kind) (module.entityBindings kind)).Settled

theorem nameTable_settled {module : Module} (settled : EntitiesSettled module)
    (kind : EntityKind) :
    nameTable module kind = ⟨module.entityNames kind, module.entityBindings kind⟩ := by
  have isSettled := settled kind
  rw [nameTable, NameTable.bindExisting_settled isSettled.sound isSettled.given,
    isSettled.nameInOrder_eq, isSettled.nameExports_eq]
  exact isSettled.nameInOrder_eq _

theorem zipWith_rename_self {entity : Type} (rename : entity → String → entity)
    (name : entity → String) (same : ∀ item, rename item (name item) = item)
    (items : List entity) : items.zipWith rename (items.map name) = items := by
  induction items with
  | nil => rfl
  | cons item rest induction =>
      rw [List.map_cons, List.zipWith_cons_cons, same, induction]

theorem resolveEntities_settled {module : Module} (settled : EntitiesSettled module) :
    resolveEntities module = module := by
  simp only [resolveEntities, nameTable_settled settled, Module.entityNames,
    Module.entityBindings]
  simp only [zipWith_rename_self, implies_true]

/-! ## Slots and labels -/

theorem nameSlots_given {names : List String} (given : ∀ name ∈ names, name ≠ "")
    (letter : String) (start : Nat) (state : NameSet × Bindings) :
    nameSlots letter start names state = state := by
  induction names generalizing start with
  | nil => rfl
  | cons name rest induction =>
      rw [nameSlots, if_neg (given name List.mem_cons_self)]
      exact induction (fun other member => given other (List.mem_cons_of_mem _ member)) _

def OwnLabel (label : String) : Prop := label ≠ "" ∧ label ≠ funcLabel

theorem chooseLabel_own {head : BlockHead} (own : OwnLabel head.label) (letter : String)
    (state : LabelState) : (chooseLabel letter head state).1 = head := by
  simp [chooseLabel, own.1, own.2]

theorem ownLabel_chooseLabel {letter : String} (given : letter ≠ "") (head : BlockHead)
    {state : LabelState} (function : funcLabel ∈ state.taken) :
    OwnLabel (chooseLabel letter head state).1.label := by
  unfold chooseLabel
  split
  · rcases takePositional_spec state.taken given state.count with ⟨nonempty, free, _⟩
    refine ⟨nonempty, fun equal => ?_⟩
    have same : (takePositional state.taken letter state.count).1 = funcLabel := equal
    exact free (same ▸ function)
  · next own => simpa [OwnLabel] using own

mutual

theorem labelInstr_own (instr : Instr) (own : ∀ label ∈ Instr.blockLabels [instr], OwnLabel label)
    (state : LabelState) : (labelInstr instr state).1 = instr := by
  rcases isHead : instr.head? with _ | _
  · rw [labelInstr_plain isHead]
  · match instr, isHead with
    | .block head body, _ =>
        simp only [Instr.blockLabels_block, List.forall_mem_cons] at own
        simp only [labelInstr, chooseLabel_own own.1, labelInstrs_own body own.2]
    | .loop head body, _ =>
        simp only [Instr.blockLabels_loop, List.forall_mem_cons] at own
        simp only [labelInstr, chooseLabel_own own.1, labelInstrs_own body own.2]
    | .ifElse head thenBody elseBody, _ =>
        simp only [Instr.blockLabels_ifElse, List.forall_mem_cons, List.forall_mem_append] at own
        simp only [labelInstr, chooseLabel_own own.1, labelInstrs_own thenBody own.2.1,
          labelInstrs_own elseBody own.2.2]
    | .tryCatch head body catches, _ =>
        simp only [Instr.blockLabels_tryCatch, List.forall_mem_cons, List.forall_mem_append] at own
        simp only [labelInstr, chooseLabel_own own.1, labelInstrs_own body own.2.1,
          labelCatches_own catches own.2.2]

theorem labelInstrs_own (body : List Instr) (own : ∀ label ∈ Instr.blockLabels body, OwnLabel label)
    (state : LabelState) : (labelInstrs body state).1 = body := by
  match body with
  | [] => rfl
  | instr :: rest =>
      rw [Instr.blockLabels_cons, List.forall_mem_append] at own
      simp only [labelInstrs, labelInstr_own instr own.1, labelInstrs_own rest own.2]

theorem labelCatches_own (catches : List Catch)
    (own : ∀ label ∈ Catch.blockLabels catches, OwnLabel label) (state : LabelState) :
    (labelCatches catches state).1 = catches := by
  match catches with
  | [] => rfl
  | .handler tag body :: rest =>
      rw [Catch.blockLabels_cons, List.forall_mem_append] at own
      simp only [labelCatches, labelCatch, labelInstrs_own body own.1, labelCatches_own rest own.2]

end

mutual

theorem own_labelInstr (instr : Instr) {state : LabelState} (function : funcLabel ∈ state.taken) :
    ∀ label ∈ Instr.blockLabels [(labelInstr instr state).1], OwnLabel label := by
  rcases isHead : instr.head? with _ | _
  · rw [labelInstr_plain isHead, Instr.blockLabels_plain isHead]
    exact nofun
  · match instr, isHead with
    | .block head body, _ =>
        rw [labelInstr, Instr.blockLabels_block, List.forall_mem_cons]
        exact ⟨ownLabel_chooseLabel (by decide) head function,
          own_labelInstrs body (chooseLabel_grows _ _ _ function)⟩
    | .loop head body, _ =>
        rw [labelInstr, Instr.blockLabels_loop, List.forall_mem_cons]
        exact ⟨ownLabel_chooseLabel (by decide) head function,
          own_labelInstrs body (chooseLabel_grows _ _ _ function)⟩
    | .ifElse head thenBody elseBody, _ =>
        have inside := chooseLabel_grows "$I" head state function
        rw [labelInstr, Instr.blockLabels_ifElse, List.forall_mem_cons, List.forall_mem_append]
        exact ⟨ownLabel_chooseLabel (by decide) head function, own_labelInstrs thenBody inside,
          own_labelInstrs elseBody (labelInstrs_grows thenBody _ inside)⟩
    | .tryCatch head body catches, _ =>
        have inside := chooseLabel_grows "$E" head state function
        rw [labelInstr, Instr.blockLabels_tryCatch, List.forall_mem_cons, List.forall_mem_append]
        exact ⟨ownLabel_chooseLabel (by decide) head function, own_labelInstrs body inside,
          own_labelCatches catches (labelInstrs_grows body _ inside)⟩

theorem own_labelInstrs (body : List Instr) {state : LabelState}
    (function : funcLabel ∈ state.taken) :
    ∀ label ∈ Instr.blockLabels (labelInstrs body state).1, OwnLabel label := by
  match body with
  | [] => exact nofun
  | instr :: rest =>
      rw [labelInstrs, Instr.blockLabels_cons, List.forall_mem_append]
      exact ⟨own_labelInstr instr function,
        own_labelInstrs rest (labelInstr_grows instr _ function)⟩

theorem own_labelCatches (catches : List Catch) {state : LabelState}
    (function : funcLabel ∈ state.taken) :
    ∀ label ∈ Catch.blockLabels (labelCatches catches state).1, OwnLabel label := by
  match catches with
  | [] => exact nofun
  | .handler tag body :: rest =>
      rw [labelCatches, labelCatch, Catch.blockLabels_cons, List.forall_mem_append]
      exact ⟨own_labelInstrs body function,
        own_labelCatches rest (labelInstrs_grows body _ function)⟩

end

/-! ## Functions and modules -/

structure FuncSettled (func : Func) : Prop where
  params : ∀ name ∈ func.paramNames, name ≠ ""
  locals : ∀ name ∈ func.localNames, name ≠ ""
  labels : ∀ label ∈ Instr.blockLabels func.body, OwnLabel label

theorem resolveFunc_settled {func : Func} (settled : FuncSettled func) :
    resolveFunc func = func := by
  simp only [resolveFunc, nameSlots_given settled.params, nameSlots_given settled.locals,
    labelInstrs_own func.body settled.labels]

structure ModuleSettled (module : Module) : Prop where
  entities : EntitiesSettled module
  funcs : ∀ func ∈ module.definedFuncs, FuncSettled func

theorem resolve_settled {module : Module} (settled : ModuleSettled module) :
    module.resolve = module := by
  have defined : module.definedFuncs.map resolveFunc = module.definedFuncs := by
    rw [List.map_congr_left fun func member => resolveFunc_settled (settled.funcs func member)]
    exact List.map_id _
  have funcs : module.funcs.take (module.importCount .func) ++
      module.definedFuncs.map resolveFunc = module.funcs := by
    rw [defined]
    exact List.take_append_drop _ _
  rw [Module.resolve, resolveEntities_settled settled.entities]
  exact congrArg (fun funcs => { module with funcs }) funcs

end WasmLowering.Naming
