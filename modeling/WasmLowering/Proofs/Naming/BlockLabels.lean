import WasmLowering.Proofs.Naming.NamedCode

/-! The labels of a function are different from each other, from the label of the
function, and from the names of its parameters and locals.

Labels are chosen on the way through a body, each among the names that are not
taken. What is taken only grows, so a label chosen later differs from all earlier
ones. -/

namespace WasmLowering

def Instr.blockLabels (body : List Instr) : List String :=
  (visitedOfList (fun _ => true) body).filterMap fun instr => instr.head?.map (·.label)

def Catch.blockLabels (catches : List Catch) : List String :=
  (visitedOfList (fun _ => true) catches).filterMap fun instr => instr.head?.map (·.label)

def Instr.branchTargets : Instr → List Reference
  | .br target => [target]
  | .brIf target => [target]
  | .brTable targets otherwise => targets ++ [otherwise]
  | _ => []

namespace Instr

@[simp] theorem blockLabels_nil : blockLabels [] = [] := by
  simp [blockLabels, visitedOfList]

theorem blockLabels_cons (instr : Instr) (rest : List Instr) :
    blockLabels (instr :: rest) = blockLabels [instr] ++ blockLabels rest := by
  simp [blockLabels, visitedOfList, List.filterMap_append]

theorem blockLabels_plain {instr : Instr} (plain : instr.head? = none) :
    blockLabels [instr] = [] := by
  simp [blockLabels, visitedOfList, visited_of_head?_eq_none plain, plain]

@[simp] theorem blockLabels_block (head : BlockHead) (body : List Instr) :
    blockLabels [.block head body] = head.label :: blockLabels body := by
  simp [blockLabels, visitedOfList, visited, head?]

@[simp] theorem blockLabels_loop (head : BlockHead) (body : List Instr) :
    blockLabels [.loop head body] = head.label :: blockLabels body := by
  simp [blockLabels, visitedOfList, visited, head?]

@[simp] theorem blockLabels_ifElse (head : BlockHead) (thenBody elseBody : List Instr) :
    blockLabels [.ifElse head thenBody elseBody] =
      head.label :: (blockLabels thenBody ++ blockLabels elseBody) := by
  simp [blockLabels, visitedOfList, visited, head?, List.filterMap_append]

@[simp] theorem blockLabels_tryCatch (head : BlockHead) (body : List Instr)
    (catches : List Catch) :
    blockLabels [.tryCatch head body catches] =
      head.label :: (blockLabels body ++ Catch.blockLabels catches) := by
  simp [blockLabels, Catch.blockLabels, visitedOfList, visited, head?, List.filterMap_append]

end Instr

@[simp] theorem Catch.blockLabels_nil : Catch.blockLabels [] = [] := by
  simp [blockLabels, visitedOfList]

@[simp] theorem Catch.blockLabels_cons (tag : Option Reference) (body : List Instr)
    (rest : List Catch) :
    Catch.blockLabels (.handler tag body :: rest) =
      Instr.blockLabels body ++ Catch.blockLabels rest := by
  simp [blockLabels, Instr.blockLabels, visitedOfList, visited, List.filterMap_append]

namespace Naming

/-! ## Labels are chosen among free names -/

theorem chooseLabel_takes {letter : String} (given : letter ≠ "") {head : BlockHead}
    (unlabelled : head.label = "") (state : LabelState) :
    Takes (· ≠ "") state.taken (chooseLabel letter head state).2.taken
      [(chooseLabel letter head state).1.label] := by
  rcases takePositional_spec state.taken given state.count with ⟨nonempty, free, mem_taken⟩
  simp only [chooseLabel, unlabelled, decide_true, Bool.true_or, if_true]
  constructor
  · exact List.nodup_singleton _
  · simpa using nonempty
  · simpa using free
  · simpa using (mem_taken _).mpr (.inl rfl)
  · exact fun name isTaken => (mem_taken name).mpr (.inr isTaken)

mutual

theorem labelInstr_takes (instr : Instr) (unlabelled : Instr.Unlabelled [instr])
    (state : LabelState) :
    Takes (· ≠ "") state.taken (labelInstr instr state).2.taken
      (Instr.blockLabels [(labelInstr instr state).1]) := by
  rcases isHead : instr.head? with _ | _
  · rw [labelInstr_plain isHead, Instr.blockLabels_plain isHead]
    exact .nil _
  · match instr, isHead with
    | .block head body, _ =>
        rcases (Instr.unlabelled_block head body).mp unlabelled with ⟨noLabel, inBody⟩
        rw [labelInstr, Instr.blockLabels_block]
        exact (chooseLabel_takes (by decide) noLabel state).append (labelInstrs_takes body inBody _)
    | .loop head body, _ =>
        rcases (Instr.unlabelled_loop head body).mp unlabelled with ⟨noLabel, inBody⟩
        rw [labelInstr, Instr.blockLabels_loop]
        exact (chooseLabel_takes (by decide) noLabel state).append (labelInstrs_takes body inBody _)
    | .ifElse head thenBody elseBody, _ =>
        rcases (Instr.unlabelled_ifElse head thenBody elseBody).mp unlabelled with
          ⟨noLabel, inThen, inElse⟩
        rw [labelInstr, Instr.blockLabels_ifElse]
        apply (chooseLabel_takes (by decide) noLabel state).append
        exact (labelInstrs_takes thenBody inThen _).append (labelInstrs_takes elseBody inElse _)
    | .tryCatch head body catches, _ =>
        rcases (Instr.unlabelled_tryCatch head body catches).mp unlabelled with
          ⟨noLabel, inBody, inCatches⟩
        rw [labelInstr, Instr.blockLabels_tryCatch]
        apply (chooseLabel_takes (by decide) noLabel state).append
        exact (labelInstrs_takes body inBody _).append (labelCatches_takes catches inCatches _)

theorem labelInstrs_takes (body : List Instr) (unlabelled : Instr.Unlabelled body)
    (state : LabelState) :
    Takes (· ≠ "") state.taken (labelInstrs body state).2.taken
      (Instr.blockLabels (labelInstrs body state).1) := by
  match body with
  | [] =>
      rw [labelInstrs, Instr.blockLabels_nil]
      exact .nil _
  | instr :: rest =>
      rcases (Instr.unlabelled_cons instr rest).mp unlabelled with ⟨inFirst, inRest⟩
      rw [labelInstrs, Instr.blockLabels_cons]
      exact (labelInstr_takes instr inFirst state).append (labelInstrs_takes rest inRest _)

theorem labelCatches_takes (catches : List Catch) (unlabelled : Instr.UnlabelledCatches catches)
    (state : LabelState) :
    Takes (· ≠ "") state.taken (labelCatches catches state).2.taken
      (Catch.blockLabels (labelCatches catches state).1) := by
  match catches with
  | [] =>
      rw [labelCatches, Catch.blockLabels_nil]
      exact .nil _
  | .handler tag body :: rest =>
      rcases (Instr.unlabelledCatches_cons tag body rest).mp unlabelled with ⟨inBody, inRest⟩
      rw [labelCatches, labelCatch, Catch.blockLabels_cons]
      exact (labelInstrs_takes body inBody state).append (labelCatches_takes rest inRest _)

end

/-! ## Replacing positions keeps labels -/

namespace Scope

variable {scope : Scope}

theorem head_label {head named : BlockHead} (succeeds : scope.head head = .ok named) :
    named.label = head.label := by
  rcases bind_eq_ok succeeds with ⟨declaration, _, isNamed⟩
  cases isNamed
  rfl

/-- An instruction that holds no others still holds none, and if it is a branch, it has
its targets replaced. -/
theorem instr_plain {labels : List String} {instr named : Instr} (plain : instr.head? = none)
    (succeeds : scope.instr labels instr = .ok named) :
    named.head? = none ∧ List.Forall₂ (fun old new => Scope.label labels old = .ok new)
      instr.branchTargets named.branchTargets := by
  cases instr with
  | block | loop | ifElse | tryCatch => cases plain
  | br | brIf =>
      rcases bind_eq_ok succeeds with ⟨target, isTarget, isAll⟩
      cases isAll
      exact ⟨rfl, .cons isTarget .nil⟩
  | brTable =>
      rcases bind_eq_ok succeeds with ⟨targets, areTargets, remaining⟩
      rcases bind_eq_ok remaining with ⟨otherwise, isOtherwise, isAll⟩
      cases isAll
      exact ⟨rfl, List.rel_append (mapM_eq_ok areTargets) (.cons isOtherwise .nil)⟩
  | callIndirect | memoryCopy =>
      rcases bind_eq_ok succeeds with ⟨_, _, remaining⟩
      rcases bind_eq_ok remaining with ⟨_, _, isAll⟩
      cases isAll
      exact ⟨rfl, .nil⟩
  | atomic =>
      rw [Scope.instr] at succeeds
      split at succeeds
      · cases succeeds
        exact ⟨rfl, .nil⟩
      · rcases bind_eq_ok succeeds with ⟨_, _, isAll⟩
        cases isAll
        exact ⟨rfl, .nil⟩
  | rethrow | throwTag | call | globalGet | globalSet | localGet | localSet | localTee | load
  | store | memorySize | memoryGrow | memoryFill =>
      rcases bind_eq_ok succeeds with ⟨_, _, isAll⟩
      cases isAll
      exact ⟨rfl, .nil⟩
  | _ =>
      cases succeeds
      exact ⟨rfl, .nil⟩

theorem handler_body {labels : List String} {tag : Option Reference} {body : List Instr}
    {named : Catch} (succeeds : scope.handler labels (.handler tag body) = .ok named) :
    ∃ newTag newBody, named = .handler newTag newBody ∧
      scope.instrs labels body = .ok newBody := by
  cases tag with
  | none =>
      rcases bind_eq_ok succeeds with ⟨newBody, isBody, isHandler⟩
      cases isHandler
      exact ⟨none, newBody, rfl, isBody⟩
  | some reference =>
      rcases bind_eq_ok succeeds with ⟨newTag, _, remaining⟩
      rcases bind_eq_ok remaining with ⟨newBody, isBody, isHandler⟩
      cases isHandler
      exact ⟨some newTag, newBody, rfl, isBody⟩

mutual

theorem instr_blockLabels {labels : List String} (instr : Instr) {named : Instr}
    (succeeds : scope.instr labels instr = .ok named) :
    Instr.blockLabels [named] = Instr.blockLabels [instr] := by
  rcases isHead : instr.head? with _ | _
  · rw [Instr.blockLabels_plain isHead, Instr.blockLabels_plain (instr_plain isHead succeeds).1]
  · match instr, isHead with
    | .block head body, _ =>
        rcases bind_eq_ok succeeds with ⟨newHead, isHead, remaining⟩
        rcases bind_eq_ok remaining with ⟨newBody, isBody, isAll⟩
        cases isAll
        simp [head_label isHead, instrs_blockLabels body isBody]
    | .loop head body, _ =>
        rcases bind_eq_ok succeeds with ⟨newHead, isHead, remaining⟩
        rcases bind_eq_ok remaining with ⟨newBody, isBody, isAll⟩
        cases isAll
        simp [head_label isHead, instrs_blockLabels body isBody]
    | .ifElse head thenBody elseBody, _ =>
        rcases bind_eq_ok succeeds with ⟨newHead, isHead, remaining⟩
        rcases bind_eq_ok remaining with ⟨newThen, isThen, remaining⟩
        rcases bind_eq_ok remaining with ⟨newElse, isElse, isAll⟩
        cases isAll
        simp [head_label isHead, instrs_blockLabels thenBody isThen,
          instrs_blockLabels elseBody isElse]
    | .tryCatch head body catches, _ =>
        rcases bind_eq_ok succeeds with ⟨newHead, isHead, remaining⟩
        rcases bind_eq_ok remaining with ⟨newBody, isBody, remaining⟩
        rcases bind_eq_ok remaining with ⟨newCatches, areCatches, isAll⟩
        cases isAll
        simp [head_label isHead, instrs_blockLabels body isBody,
          catches_blockLabels catches areCatches]

theorem instrs_blockLabels {labels : List String} (body : List Instr) {named : List Instr}
    (succeeds : scope.instrs labels body = .ok named) :
    Instr.blockLabels named = Instr.blockLabels body := by
  match body with
  | [] =>
      cases succeeds
      rfl
  | instr :: rest =>
      rcases bind_eq_ok succeeds with ⟨first, isFirst, remaining⟩
      rcases bind_eq_ok remaining with ⟨others, areOthers, isAll⟩
      cases isAll
      rw [Instr.blockLabels_cons, Instr.blockLabels_cons instr, instr_blockLabels instr isFirst,
        instrs_blockLabels rest areOthers]

theorem catches_blockLabels {labels : List String} (catches : List Catch) {named : List Catch}
    (succeeds : scope.catches labels catches = .ok named) :
    Catch.blockLabels named = Catch.blockLabels catches := by
  match catches with
  | [] =>
      cases succeeds
      rfl
  | .handler tag body :: rest =>
      rcases bind_eq_ok succeeds with ⟨first, isFirst, remaining⟩
      rcases bind_eq_ok remaining with ⟨others, areOthers, isAll⟩
      cases isAll
      rcases handler_body isFirst with ⟨newTag, newBody, rfl, isBody⟩
      rw [Catch.blockLabels_cons, Catch.blockLabels_cons, instrs_blockLabels body isBody,
        catches_blockLabels rest areOthers]

end

end Scope

/-! ## Names of parameters and locals are taken -/

/-- The name that a slot shows after a pass is taken, however many slots there are. -/
theorem SlotsNamed.shown_taken {start : Nat} {shown : List String}
    {before after : NameSet × Bindings} (pass : SlotsNamed start shown before after)
    (isShown : before.2.reverse shown.length = shown)
    (isTaken : ∀ name ∈ shown, name ≠ "" → name ∈ before.1) {name : String}
    (member : name ∈ after.2.reverse shown.length) (given : name ≠ "") : name ∈ after.1 := by
  rcases List.mem_iff_getElem?.mp member with ⟨position, has⟩
  have inside : position < shown.length := by
    simpa using (List.getElem?_eq_some_iff.mp has).1
  have afterShows := Bindings.shows_of_reverse has
  rcases afterShows.bound given with ⟨place, isBound, isPlace⟩
  rcases pass.fromBefore name place isBound with old | ⟨_, nowTaken, _⟩
  · -- The least of the names before is still bound to the slot, so both are the same.
    have isPrevious := List.getElem?_eq_getElem inside
    have hasPrevious : (before.2.reverse shown.length)[position]? = some shown[position] := by
      rw [isShown, isPrevious]
    have beforeShows := Bindings.shows_of_reverse hasPrevious
    rcases beforeShows.least name place old isPlace given with ⟨nonempty, order⟩
    have previousTaken := isTaken _ (List.mem_of_getElem? isPrevious) nonempty
    rcases beforeShows.bound nonempty with ⟨other, otherBound, isOther⟩
    rw [← pass.keeps _ previousTaken] at otherBound
    have backward := (afterShows.least _ other otherBound isOther nonempty).2
    have same : shown[position] = name := by
      rcases order with equal | less
      · exact equal
      · rcases backward with equal | greater
        · exact equal.symm
        · rw [Std.OrientedOrd.eq_swap, less] at greater
          cases greater
    exact pass.grows name (same ▸ previousTaken)
  · exact nowTaken

theorem resolved_slot_taken (func : Func) {name : String} (given : name ≠ "")
    (member : name ∈ (resolveFunc func).paramNames ++ (resolveFunc func).localNames) :
    name ∈ (localPass func).1 := by
  have paramCount : func.paramNames.length = func.params.length := Bindings.length_reverse _ _
  have localCount : func.localNames.length = func.locals.length := Bindings.length_reverse _ _
  rcases List.mem_append.mp member with isParam | isLocal
  · apply (localPass_named func).grows
    apply (paramPass_named func).shown_taken _ _ _ given
    · rw [paramCount]
      rfl
    · exact fun name member => shown_mem_takenNames (List.mem_append_left _ member)
    · rw [paramCount]
      exact isParam
  · apply (localPass_named func).shown_taken _ _ _ given
    · rw [localCount]
      rfl
    · intro name member nonempty
      apply (paramPass_named func).grows
      exact shown_mem_takenNames (List.mem_append_right _ member) nonempty
    · rw [localCount]
      exact isLocal

theorem resolved_labels {func : Func} (unlabelled : Instr.Unlabelled func.body) :
    (Instr.blockLabels (resolveFunc func).body ++ [funcLabel]).Nodup ∧
      ∀ label ∈ Instr.blockLabels (resolveFunc func).body,
        label ∉ (resolveFunc func).paramNames ++ (resolveFunc func).localNames := by
  have takes := labelInstrs_takes func.body unlabelled ⟨0, (localPass func).1⟩
  constructor
  · rw [List.nodup_append]
    refine ⟨takes.nodup, List.nodup_singleton _, ?_⟩
    intro label member other isFunction same
    rw [List.mem_singleton] at isFunction
    have isTaken := mem_localPass (funcLabel_mem_takenNames func)
    exact takes.free label member (same ▸ isFunction ▸ isTaken)
  · intro label member isSlot
    exact takes.free label member (resolved_slot_taken func (takes.given label member) isSlot)

end Naming

end WasmLowering
