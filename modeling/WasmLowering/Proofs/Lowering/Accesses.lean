import WasmLowering.Proofs.Lowering.Frame

/-! Accesses in bounds.

Some accesses rely on a check that has been made before, or on how code is lowered: the
type of an operand, the rest of a stack that is cut, the types of what a branch carries,
and the labels that are open. Here each of them has a fault of its own, which can be any
error at all. The fault makes no difference, so it never happens. -/

namespace WasmLowering.Emission

open C (Slot Jump Stmt)

variable {α β : Type}

section

variable (fault : EmitError)

def itemOr (items : List α) (position : Nat) : Except EmitError α :=
  match items[position]? with
  | some item => .ok item
  | none => .error fault

def behindOr (items : List α) (count : Nat) : Except EmitError (List α) :=
  if count ≤ items.length then .ok (items.drop count) else .error fault

/-! ## The operand stack -/

def typeAtOr (func : String) (operand : Nat) : Lowering ValueType := do
  need func (operand + 1)
  itemOr fault (← get).stack operand

def popOr (func : String) (count : Nat) : Lowering Unit := do
  let state ← get
  promised (state.floor + count ≤ state.height)
    (.popBelow func count state.height state.floor)
  set { state with stack := ← behindOr fault state.stack count }

def resetStackOr (func : String) (height : Nat) : Lowering Unit := do
  let state ← get
  promised (height ≤ state.height) (.resetAbove height state.height func)
  set { state with stack := ← behindOr fault state.stack (state.height - height) }

/-! ## Labels -/

def findLabelOr (func : String) (target : Reference) : Lowering OpenLabel := do
  let name ← referenceName "label" target
  let labels := (← get).labels
  if name = Naming.funcLabel then itemOr fault labels (labels.length - 1)
  else found (labels.find? (·.label.name = name)) (.unknownLabel name func)

def closeLabelOr (func : String) (opened : OpenLabel) : Lowering Unit := do
  let state ← get
  set { state with labels := ← behindOr fault state.labels 1 }
  resetStackOr fault func opened.entry
  pushAll opened.signature.results

def copiesOr : (source target : Nat) → List ValueType → Lowering (List (Slot × Slot))
  | _, _, [] => return []
  | source, target, type :: rest => do
      if source = target then copiesOr (source + 1) (target + 1) rest
      else
        let left ← slot target type
        let right ← slot source (← itemOr fault (← get).stack.reverse source)
        return (left, right) :: (← copiesOr (source + 1) (target + 1) rest)

def jumpToOr (func : String) (target : Reference) : Lowering Jump := do
  let opened ← findLabelOr fault func target
  modify fun state => { state with targets := opened.label.number :: state.targets }
  let state ← get
  let carried := opened.carried
  promised (opened.entry + carried.length ≤ state.height)
    (.carriedValues opened.label.name func carried.length (state.height - opened.entry))
  return ⟨← copiesOr fault (state.height - carried.length) opened.entry carried, opened.label⟩

/-! ## Code

Instructions that are neither constructs nor branches only use the operand stack. -/

namespace Scope

mutual

def instrOr (scope : Scope) : Instr → Lowering Lowered
  | .block head body => do
      let opened ← openLabel scope.name false head
      let body ← scope.instrsOr body
      scope.checkEnd "block" opened body
      let label ← labelStmts opened
      closeLabelOr fault scope.name opened
      return ⟨body.stmts ++ label, body.falls || !label.isEmpty⟩
  | .loop head body => do
      let opened ← openLabel scope.name true head
      let body ← scope.instrsOr body
      scope.checkEnd "loop" opened body
      let label ← labelStmts opened
      closeLabelOr fault scope.name opened
      return ⟨label ++ body.stmts, body.falls⟩
  | .ifElse head thenBody [] => do
      let condition ← top scope.name 0
      popOr fault scope.name 1
      let opened ← openLabel scope.name false head
      let body ← scope.instrsOr thenBody
      scope.checkEnd "if" opened body
      let label ← labelStmts opened
      closeLabelOr fault scope.name opened
      return .through (.ifThen condition body.stmts :: label)
  | .ifElse head thenBody (first :: others) => do
      let condition ← top scope.name 0
      popOr fault scope.name 1
      let opened ← openLabel scope.name false head
      let thenPart ← scope.instrsOr thenBody
      scope.checkEnd "if" opened thenPart
      resetStackOr fault scope.name opened.entry
      pushAll opened.signature.params
      let elsePart ← scope.instrsOr (first :: others)
      scope.checkEnd "else" opened elsePart
      let label ← labelStmts opened
      closeLabelOr fault scope.name opened
      return ⟨.ifThenElse condition thenPart.stmts elsePart.stmts :: label,
        thenPart.falls || elsePart.falls || !label.isEmpty⟩
  | .br target => do
      return .final (.jump (← jumpToOr fault scope.name target))
  | .brIf target => do
      let condition ← top scope.name 0
      popOr fault scope.name 1
      return .through [.jumpIf condition (← jumpToOr fault scope.name target)]
  | .brTable targets otherwise => do
      let position ← top scope.name 0
      popOr fault scope.name 1
      let cases ← targets.mapM (jumpToOr fault scope.name)
      return .final (.switch position cases (← jumpToOr fault scope.name otherwise))
  | .leave => do
      return .final (.jump (← jumpToOr fault scope.name (.name Naming.funcLabel)))
  | instr => scope.instr instr

def instrsOr (scope : Scope) : List Instr → Lowering Lowered
  | [] => return .through []
  | instr :: rest => do
      let first ← scope.instrOr instr
      if first.falls then
        let others ← scope.instrsOr rest
        return ⟨first.stmts ++ others.stmts, others.falls⟩
      else return first

end

def bodyOr (scope : Scope) : Lowering (List Stmt × Option Slot) := do
  let results := scope.func.results
  let opened ← openLabel scope.name false ⟨Naming.funcLabel, ⟨none, ⟨[], results⟩⟩⟩
  let body ← scope.instrsOr fault scope.func.body
  if body.falls then checkHeight scope.name "end of function" results.length
  let label ← labelStmts opened
  closeLabelOr fault scope.name opened
  let returned ← resultSlot ((← get).height - 1) results
  return (body.stmts ++ label, returned)

end Scope

end

/-! ## Where the fault makes no difference -/

/-- Two computations that start with the same step and are the same behind it. -/
theorem bind_same {first : Lowering α} {next other : α → Lowering β} {state : State}
    (same : ∀ value between, first state = .ok (value, between) →
      next value between = other value between) :
    (first >>= next) state = (first >>= other) state := by
  change (first state >>= fun pair => next pair.1 pair.2) =
    (first state >>= fun pair => other pair.1 pair.2)
  cases ran : first state with
  | error error => rfl
  | ok result => exact same result.1 result.2 ran

/-- Two computations whose first steps do the same, and that are the same behind them. -/
theorem bind_alike {first firstOther : Lowering α} {next other : α → Lowering β} {state : State}
    (alike : first state = firstOther state)
    (same : ∀ value between, firstOther state = .ok (value, between) →
      next value between = other value between) :
    (first >>= next) state = (firstOther >>= other) state := by
  rw [← bind_same same]
  change (first state >>= fun pair => next pair.1 pair.2) =
    (firstOther state >>= fun pair => next pair.1 pair.2)
  rw [alike]

theorem lift_ok_bind (value : α) (next : α → Lowering β) (state : State) :
    ((liftM (.ok value : Except EmitError α) : Lowering α) >>= next) state = next value state :=
  rfl

variable (fault : EmitError)

theorem itemOr_eq {items : List α} {position : Nat} {item : α}
    (isItem : items[position]? = some item) : itemOr fault items position = .ok item := by
  rw [itemOr, isItem]

theorem behindOr_eq {items : List α} {count : Nat} (enough : count ≤ items.length) :
    behindOr fault items count = .ok (items.drop count) :=
  if_pos enough

theorem need_eq_ok {func : String} {count : Nat} {state after : State} {value : Unit}
    (succeeds : need func count state = .ok (value, after)) :
    state.floor + count ≤ state.height ∧ after = state := by
  have known := lift_eq_ok succeeds
  exact ⟨promised_eq_ok known.1, known.2⟩

theorem typeAtOr_eq (func : String) (operand : Nat) :
    typeAtOr fault func operand = typeAt func operand := by
  funext state
  apply bind_same
  intro _ between isNeeded
  rcases need_eq_ok isNeeded with ⟨enough, rfl⟩
  have inside : operand < between.stack.length := by
    have height : between.height = between.stack.length := rfl
    omega
  have isItem := List.getElem?_eq_getElem inside
  change (liftM (itemOr fault between.stack operand) : Lowering _) between =
    .ok (between.stack[operand]?.getD .any, between)
  rw [itemOr_eq fault isItem, isItem]
  rfl

theorem popOr_eq (func : String) (count : Nat) : popOr fault func count = pop func count := by
  funext state
  apply bind_same
  intro current between isState
  cases isState
  apply bind_same
  intro _ between isPromised
  rcases lift_eq_ok isPromised with ⟨holds, rfl⟩
  have enough := promised_eq_ok holds
  have height : between.height = between.stack.length := rfl
  rw [behindOr_eq fault (by omega)]
  rfl

theorem resetStackOr_eq (func : String) (height : Nat) :
    resetStackOr fault func height = resetStack func height := by
  funext state
  apply bind_same
  intro current between isState
  cases isState
  apply bind_same
  intro _ between isPromised
  rcases lift_eq_ok isPromised with ⟨holds, rfl⟩
  have isHeight : between.height = between.stack.length := rfl
  rw [behindOr_eq fault (by omega)]
  rfl

theorem findLabelOr_eq (func : String) (target : Reference) {state : State}
    (opened : state.labels ≠ []) :
    findLabelOr fault func target state = findLabel func target state := by
  apply bind_same
  intro name between isName
  rcases lift_eq_ok isName with ⟨_, rfl⟩
  apply bind_same
  intro current _ isState
  cases isState
  have isLast : between.labels[between.labels.length - 1]? =
      some (between.labels.getLast opened) := by
    rw [← List.getLast?_eq_getElem?, List.getLast?_eq_some_getLast opened]
  dsimp only
  split
  · rw [itemOr_eq fault isLast, List.getLast?_eq_some_getLast opened]
    rfl
  · rfl

theorem closeLabelOr_eq (func : String) (opened : OpenLabel) {state : State}
    (isOpen : state.labels ≠ []) :
    closeLabelOr fault func opened state = closeLabel func opened state := by
  have enough : 1 ≤ state.labels.length := List.length_pos_iff.mpr isOpen
  unfold closeLabelOr closeLabel
  rw [resetStackOr_eq]
  change ((liftM (behindOr fault state.labels 1) : Lowering _) >>= fun labels => do
    set { state with labels }
    resetStack func opened.entry
    pushAll opened.signature.results) state = _
  rw [behindOr_eq fault enough, List.drop_one]
  rfl

theorem slot_eq_ok {depth : Nat} {type : ValueType} {state after : State} {value : Slot}
    (succeeds : slot depth type state = .ok (value, after)) :
    after.stack = state.stack ∧ after.labels = state.labels := by
  have kept : Meets True (slot depth type) state fun _ after =>
      after.stack = state.stack ∧ after.labels = state.labels := by
    apply (Meets.lift (Gives.ofResult _) state).bind
    intro scalar between ⟨_, same⟩
    subst same
    apply (Meets.modify _ between).bind
    intro _ next isNext
    subst isNext
    apply Meets.pure
    unfold State.mention
    split <;> exact ⟨rfl, rfl⟩
  exact kept.of_ok succeeds

theorem getElem?_reverse_stack {state : State} {depth : Nat} (inside : depth < state.height) :
    state.stack.reverse[depth]? = some (state.typeAtDepth depth) := by
  have isHeight : state.height = state.stack.length := rfl
  have below : state.stack.length - 1 - depth < state.stack.length := by omega
  rw [List.getElem?_reverse (isHeight ▸ inside), State.typeAtDepth, isHeight,
    List.getElem?_eq_getElem below]
  rfl

theorem copiesOr_eq (source target : Nat) (types : List ValueType) {state : State}
    (inside : source + types.length ≤ state.height) :
    copiesOr fault source target types state = copies source target types state := by
  induction types generalizing source target state with
  | nil => rfl
  | cons type rest induction =>
      rw [List.length_cons] at inside
      unfold copiesOr copies
      split
      · exact induction _ _ (by omega)
      · apply bind_same
        intro left between isLeft
        have sameHeight : between.height = state.height := congrArg List.length (slot_eq_ok isLeft).1
        apply bind_same
        intro current _ isState
        cases isState
        have isType : between.stack.reverse[source]? = some (between.typeAtDepth source) :=
          getElem?_reverse_stack (by omega)
        rw [itemOr_eq fault isType, lift_ok_bind]
        apply bind_same
        intro right next isRight
        have nextHeight : next.height = between.height :=
          congrArg List.length (slot_eq_ok isRight).1
        apply bind_alike
        · exact induction _ _ (by omega)
        · exact fun _ _ _ => rfl

theorem jumpToOr_eq (func : String) (target : Reference) {state : State}
    (isOpen : state.labels ≠ []) :
    jumpToOr fault func target state = jumpTo func target state := by
  apply bind_alike (findLabelOr_eq fault func target isOpen)
  intro opened between _
  apply bind_same
  intro _ marked _
  apply bind_same
  intro current _ isState
  cases isState
  apply bind_same
  intro _ last isPromised
  rcases lift_eq_ok isPromised with ⟨holds, rfl⟩
  have enough := promised_eq_ok holds
  apply bind_alike
  · exact copiesOr_eq fault _ _ _ (by omega)
  · exact fun _ _ _ => rfl

/-! ## Code is lowered with its labels open

The label of the function is opened first, and what is opened inside is closed before
it. So there is a label wherever one is looked for or closed. -/

section

variable {scope : Scope} {labels : List OpenLabel} {state : State}

theorem Frames.behind {action : Lowering α} {after : α → List OpenLabel}
    {view : α → List C.Ident} (frames : Frames scope labels [] action after view)
    (framed : Framed scope labels [] state) {value : α} {next : State}
    (ran : action state = .ok (value, next)) : Framed scope (after value) [] next :=
  ((frames state framed).of_ok ran).mono (List.nil_subset _)

theorem Framed.ne_nil (framed : Framed scope labels [] state) (opened : labels ≠ []) :
    state.labels ≠ [] :=
  framed.isOpen ▸ opened

theorem jumpsOr_eq (targets : List Reference) (framed : Framed scope labels [] state)
    (opened : labels ≠ []) :
    targets.mapM (jumpToOr fault scope.name) state = scope.jumps targets state := by
  unfold Scope.jumps
  induction targets generalizing state with
  | nil => rw [List.mapM_nil, List.mapM_nil]
  | cons target rest induction =>
      rw [List.mapM_cons, List.mapM_cons]
      apply bind_alike (jumpToOr_eq fault scope.name target (framed.ne_nil opened))
      intro jump between isJump
      apply bind_alike (induction ((jumpTo_frames scope.name target).behind framed isJump))
      exact fun _ _ _ => rfl

theorem finishOr_eq (construct : String) {opened : OpenLabel} (body : Lowered)
    (build : List Stmt → Lowered) (framed : Framed scope (opened :: labels) [] state) :
    (do
      scope.checkEnd construct opened body
      let label ← labelStmts opened
      closeLabelOr fault scope.name opened
      return build label : Lowering Lowered) state =
    (do
      scope.checkEnd construct opened body
      let label ← labelStmts opened
      closeLabel scope.name opened
      return build label : Lowering Lowered) state := by
  apply bind_same
  intro _ checked isChecked
  have checkedFramed := (Scope.checkEnd_frames construct opened body).behind framed isChecked
  apply bind_same
  intro label last isLabel
  have lastFramed := (labelStmts_frames List.mem_cons_self).behind checkedFramed isLabel
  apply bind_alike (closeLabelOr_eq fault scope.name opened (lastFramed.ne_nil (by simp)))
  exact fun _ _ _ => rfl

namespace Scope

mutual

theorem instrOr_eq (instr : Instr) {labels : List OpenLabel} {state : State}
    (framed : Framed scope labels [] state) (isOpen : labels ≠ []) :
    scope.instrOr fault instr state = scope.instr instr state := by
  match instr with
  | .block head body =>
      apply bind_same
      intro opened inner isOpened
      have innerFramed := (openLabel_frames scope.name false head).behind framed isOpened
      apply bind_alike (instrsOr_eq body innerFramed (by simp))
      intro lowered last isLowered
      exact finishOr_eq fault _ _ _ ((instrs_frames body).behind innerFramed isLowered)
  | .loop head body =>
      apply bind_same
      intro opened inner isOpened
      have innerFramed := (openLabel_frames scope.name true head).behind framed isOpened
      apply bind_alike (instrsOr_eq body innerFramed (by simp))
      intro lowered last isLowered
      exact finishOr_eq fault _ _ _ ((instrs_frames body).behind innerFramed isLowered)
  | .ifElse head thenBody [] =>
      rw [Scope.instrOr, Scope.instr, popOr_eq]
      apply bind_same
      intro condition asked isCondition
      have askedFramed := (top_frames scope.name 0).behind framed isCondition
      apply bind_same
      intro _ popped isPopped
      have poppedFramed := (pop_frames scope.name 1).behind askedFramed isPopped
      apply bind_same
      intro opened inner isOpened
      have innerFramed := (openLabel_frames scope.name false head).behind poppedFramed isOpened
      apply bind_alike (instrsOr_eq thenBody innerFramed (by simp))
      intro lowered last isLowered
      exact finishOr_eq fault _ _ _ ((instrs_frames thenBody).behind innerFramed isLowered)
  | .ifElse head thenBody (first :: others) =>
      rw [Scope.instrOr, Scope.instr, popOr_eq]
      apply bind_same
      intro condition asked isCondition
      have askedFramed := (top_frames scope.name 0).behind framed isCondition
      apply bind_same
      intro _ popped isPopped
      have poppedFramed := (pop_frames scope.name 1).behind askedFramed isPopped
      apply bind_same
      intro opened inner isOpened
      have innerFramed := (openLabel_frames scope.name false head).behind poppedFramed isOpened
      apply bind_alike (instrsOr_eq thenBody innerFramed (by simp))
      intro thenPart middle isThen
      have thenFramed := (instrs_frames thenBody).behind innerFramed isThen
      apply bind_same
      intro _ checked isChecked
      have checkedFramed := (checkEnd_frames "if" opened thenPart).behind thenFramed isChecked
      rw [resetStackOr_eq]
      apply bind_same
      intro _ reset isReset
      have resetFramed := (resetStack_frames scope.name opened.entry).behind checkedFramed isReset
      apply bind_same
      intro _ again isAgain
      have againFramed := (pushAll_frames opened.signature.params).behind resetFramed isAgain
      apply bind_alike (instrsOr_eq (first :: others) againFramed (by simp))
      intro elsePart last isElse
      exact finishOr_eq fault _ _ _ ((instrs_frames (first :: others)).behind againFramed isElse)
  | .br target =>
      apply bind_alike (jumpToOr_eq fault scope.name target (framed.ne_nil isOpen))
      exact fun _ _ _ => rfl
  | .brIf target =>
      rw [Scope.instrOr, Scope.instr, popOr_eq]
      apply bind_same
      intro condition asked isCondition
      have askedFramed := (top_frames scope.name 0).behind framed isCondition
      apply bind_same
      intro _ popped isPopped
      have poppedFramed := (pop_frames scope.name 1).behind askedFramed isPopped
      apply bind_alike (jumpToOr_eq fault scope.name target (poppedFramed.ne_nil isOpen))
      exact fun _ _ _ => rfl
  | .brTable targets otherwise =>
      rw [Scope.instrOr, Scope.instr, popOr_eq]
      apply bind_same
      intro position asked isPosition
      have askedFramed := (top_frames scope.name 0).behind framed isPosition
      apply bind_same
      intro _ popped isPopped
      have poppedFramed := (pop_frames scope.name 1).behind askedFramed isPopped
      apply bind_alike (jumpsOr_eq fault targets poppedFramed isOpen)
      intro cases next areCases
      have nextFramed := (jumps_frames targets).behind poppedFramed areCases
      apply bind_alike (jumpToOr_eq fault scope.name otherwise (nextFramed.ne_nil isOpen))
      exact fun _ _ _ => rfl
  | .leave =>
      apply bind_alike (jumpToOr_eq fault scope.name _ (framed.ne_nil isOpen))
      exact fun _ _ _ => rfl
  | .unreachable | .nop | .drop | .select _ | .const _ | .unary _ | .binary _ | .compare _
  | .convert _ | .ternary _ | .localGet _ | .localSet _ | .localTee _ | .globalGet _
  | .globalSet _ | .load .. | .store .. | .memorySize _ | .memoryGrow _ | .memoryFill _
  | .memoryCopy .. | .call _ | .callIndirect .. | .tryCatch .. | .throwTag _ | .rethrow _
  | .simd .. | .simdLane .. | .simdShuffle .. | .atomic .. | .refFunc _ | .other _ => rfl

theorem instrsOr_eq (body : List Instr) {labels : List OpenLabel} {state : State}
    (framed : Framed scope labels [] state) (isOpen : labels ≠ []) :
    scope.instrsOr fault body state = scope.instrs body state := by
  match body with
  | [] => rw [Scope.instrsOr, Scope.instrs]
  | instr :: rest =>
      rw [Scope.instrsOr, Scope.instrs]
      apply bind_alike (instrOr_eq instr framed isOpen)
      intro first between isFirst
      have nextFramed := (instr_frames instr).behind framed isFirst
      split
      · apply bind_alike (instrsOr_eq rest nextFramed isOpen)
        exact fun _ _ _ => rfl
      · rfl

end

theorem bodyOr_eq (scope : Scope) : scope.bodyOr fault {} = scope.body {} := by
  apply bind_same
  intro opened inner isOpened
  have framed := (openLabel_frames scope.name false _).behind (.start scope) isOpened
  apply bind_alike (instrsOr_eq fault scope.func.body framed (by simp))
  intro lowered last isLowered
  have lastFramed := (instrs_frames scope.func.body).behind framed isLowered
  have ends : ∀ {state : State}, Framed scope [opened] [] state →
      (do
        let label ← labelStmts opened
        closeLabelOr fault scope.name opened
        let returned ← resultSlot ((← get).height - 1) scope.func.results
        return (lowered.stmts ++ label, returned) : Lowering _) state =
      (do
        let label ← labelStmts opened
        closeLabel scope.name opened
        let returned ← resultSlot ((← get).height - 1) scope.func.results
        return (lowered.stmts ++ label, returned) : Lowering _) state := by
    intro state stateFramed
    apply bind_same
    intro label labelled isLabel
    have labelledFramed := (labelStmts_frames List.mem_cons_self).behind stateFramed isLabel
    apply bind_alike (closeLabelOr_eq fault scope.name opened (labelledFramed.ne_nil (by simp)))
    exact fun _ _ _ => rfl
  dsimp only
  split
  · apply bind_same
    intro _ checked isChecked
    exact ends ((checkHeight_frames _ _ _).behind lastFramed isChecked)
  · exact ends lastFramed

end Scope

end

end WasmLowering.Emission
