import WasmLowering.Proofs.Lowering.IndirectCalls
import WasmLowering.Proofs.Lowering.LabelLayout
import WasmLowering.Proofs.Lowering.OperandSteps
import WasmLowering.Proofs.Symbols.Hygiene

/-! The jumps and labels of functions.

Whether a label stands in a function is known when everything inside its construct has
been lowered. All that is needed of the rest of the lowering is that it leaves labels
alone; the types of the code do not matter. -/

namespace WasmLowering

namespace Emission

open C (Label Jump Stmt Laid labelFor)

/-! ## Steps that leave labels alone -/

/-- The part of the state that labels and jumps are about: the labels around, those that
are jumped to, and how many there are. -/
def State.control (state : State) : List OpenLabel × List Nat × Nat :=
  (state.labels, state.targets, state.labelCount)

class StackOnly {α : Type} (action : Lowering α) : Prop where
  keeps : ∀ state, Meets True action state fun _ next => next.control = state.control

theorem State.Worked.control {state next : State} (worked : state.Worked next) :
    next.control = state.control := by
  induction worked with
  | same | setStack => rfl
  | mention state slot =>
      rcases state.mentions_mention (.slot slot) with ⟨mentioned, same⟩
      rw [same]
      rfl
  | trans _ _ earlier later => exact later.trans earlier

namespace StackOnly

instance of_operands {α : Type} (action : Lowering α) [isWork : OnOperands action] :
    StackOnly action where
  keeps state := (isWork.works state).mono fun _ _ worked => worked.control

theorem instr (scope : Scope) {instr : Instr} (plain : instr.isConstruct = false)
    (notBranch : instr.branchTargets = []) (notLeave : instr ≠ .leave) :
    StackOnly (scope.instr instr) :=
  @of_operands _ _ (OnOperands.instr scope plain notBranch notLeave)

end StackOnly

variable {scope : Scope} {state : State}

theorem setPlace_jumpless (place : Reference) :
    Meets True (scope.setPlace place) state fun stmts _ =>
      Stmt.placedOfList stmts = [] ∧ Stmt.gotosOfList stmts = [] :=
  .skip fun _ _ => .skip fun _ _ => .pure ⟨rfl, rfl⟩

theorem instr_jumpless {instr : Instr} (plain : instr.isConstruct = false)
    (notBranch : instr.branchTargets = []) (notLeave : instr ≠ .leave) :
    Meets True (scope.instr instr) state fun lowered _ =>
      Stmt.placedOfList lowered.stmts = [] ∧ Stmt.gotosOfList lowered.stmts = [] := by
  cases instr with
  | block | loop | ifElse => cases plain
  | br | brIf => cases notBranch
  | brTable => exact absurd notBranch (by simp [Instr.branchTargets])
  | leave => exact absurd rfl notLeave
  | binary opcode | compare opcode | convert opcode | unary opcode =>
      simp only [Scope.instr, Scope.binary, Scope.unary]
      split
      · exact .unsupported _ _ _
      · exact .skip fun _ _ => .skip fun _ _ => .skip fun _ _ => .skip fun _ _ => .pure ⟨rfl, rfl⟩
  | callIndirect declaration table =>
      refine .skip fun _ _ => ?_
      dsimp only
      split
      · exact .unsupported _ _ _
      repeat refine .skip fun _ _ => ?_
      exact .pure ⟨rfl, rfl⟩
  | localSet place =>
      exact (setPlace_jumpless place).bind fun _ _ free => .skip fun _ _ => .pure free
  | localTee place => exact (setPlace_jumpless place).bind fun _ _ free => .pure free
  | unreachable | nop => exact .pure ⟨rfl, rfl⟩
  | drop | const | call | select | localGet | globalGet | globalSet | load | store | memoryGrow
  | memorySize | memoryFill | memoryCopy =>
      repeat refine .skip fun _ _ => ?_
      exact .pure ⟨rfl, rfl⟩
  | _ => exact .unsupported _ _ _

theorem bind_condition {α : Type} {func : String} {next : C.Slot → Lowering α}
    {post : α → State → Prop}
    (continues : ∀ condition popped, popped.control = state.control →
      Meets True (next condition) popped post) :
    Meets True (do
      let condition ← top func 0
      pop func 1
      next condition) state post := by
  apply ((StackOnly.of_operands (top func 0)).keeps state).bind
  intro condition _ isTop
  apply ((StackOnly.of_operands (pop func 1)).keeps _).bind
  intro _ popped isPopped
  exact continues condition popped ((isPopped.trans isTop))

theorem bind_otherArm {α : Type} {func : String} {height : Nat} {types : List ValueType}
    {next : Lowering α} {post : α → State → Prop}
    (continues : ∀ first : State, first.control = state.control → Meets True next first post) :
    Meets True (do
      resetStack func height
      pushAll types
      next) state post := by
  apply ((StackOnly.of_operands (resetStack func height)).keeps state).bind
  intro _ _ isReset
  apply ((StackOnly.of_operands (pushAll types)).keeps _).bind
  intro _ first isPushed
  exact continues first (isPushed.trans isReset)

/-! ## Steps that have to do with labels -/

theorem findLabel_open (func : String) (target : Reference) :
    Meets True (findLabel func target) state fun opened next =>
      opened ∈ state.labels ∧ next = state := by
  apply (Meets.lift (Gives.ofResult _) state).bind
  intro name _ ⟨_, same⟩
  subst same
  apply Meets.bind_get
  apply (Meets.lift (Gives.ofResult _) _).mono
  intro opened next ⟨isFound, same⟩
  have isOpen := found_eq_ok isFound
  refine ⟨?_, same⟩
  split at isOpen
  · exact List.mem_of_getLast? isOpen
  · exact List.mem_of_find?_eq_some isOpen

structure JumpsOut (state : State) (targets : List Label) (next : State) : Prop where
  outward : ∀ target ∈ targets, target ∈ state.labels.map (·.label)
  isOpen : next.labels = state.labels
  count : next.labelCount = state.labelCount
  counted : ∀ number, number ∈ next.targets ↔
    number ∈ state.targets ∨ number ∈ targets.map (·.number)

namespace JumpsOut

theorem none {next : State} (same : next.control = state.control) : JumpsOut state [] next := by
  injection same with isOpen others
  injection others with areTargets count
  exact ⟨nofun, isOpen, count, by simp [areTargets]⟩

theorem append {between next : State} {targets others : List Label}
    (first : JumpsOut state targets between) (later : JumpsOut between others next) :
    JumpsOut state (targets ++ others) next where
  outward := by
    intro target member
    rcases List.mem_append.mp member with member | member
    · exact first.outward target member
    · exact first.isOpen ▸ later.outward target member
  isOpen := later.isOpen.trans first.isOpen
  count := later.count.trans first.count
  counted number := by rw [later.counted, first.counted, List.map_append, List.mem_append, or_assoc]

end JumpsOut

theorem jumpTo_jumpsOut (func : String) (target : Reference) (state : State) :
    Meets True (jumpTo func target) state fun jump next => JumpsOut state [jump.target] next := by
  apply (findLabel_open func target).bind
  intro opened found ⟨isOpen, same⟩
  subst found
  apply (Meets.modify _ _).bind
  intro _ marked isMarked
  have marks : JumpsOut state [opened.label] marked := by
    subst isMarked
    refine ⟨?_, rfl, rfl, ?_⟩
    · simpa using ⟨opened, isOpen, rfl⟩
    · simp [or_comm]
  apply Meets.bind_get
  apply (Meets.lift (Gives.ofResult _) _).bind
  intro _ between ⟨_, same⟩
  subst same
  apply ((StackOnly.of_operands (copies _ _ _)).keeps _).bind
  intro pairs next sameNext
  exact .pure (by simpa using marks.append (.none sameNext))

theorem jumps_jumpsOut (targets : List Reference) (state : State) :
    Meets True (scope.jumps targets) state fun jumps next =>
      JumpsOut state (jumps.map (·.target)) next := by
  unfold Scope.jumps
  induction targets generalizing state with
  | nil => exact .pure (.none rfl)
  | cons target rest induction =>
      rw [List.mapM_cons]
      apply (jumpTo_jumpsOut scope.name target state).bind
      intro jump between isFirst
      apply (induction between).bind
      intro jumps next areOthers
      exact .pure (isFirst.append areOthers)

theorem instr_jumpsOut {instr : Instr} (plain : instr.isConstruct = false) (state : State) :
    Meets True (scope.instr instr) state fun lowered next =>
      Stmt.placedOfList lowered.stmts = [] ∧
        JumpsOut state (Stmt.gotosOfList lowered.stmts) next := by
  by_cases notBranch : instr.branchTargets = [] ∧ instr ≠ .leave
  · have keeps := StackOnly.instr scope plain notBranch.1 notBranch.2
    apply ((instr_jumpless plain notBranch.1 notBranch.2).and (keeps.keeps state)).mono
    intro lowered next ⟨⟨unlabelled, jumpless⟩, same⟩
    exact ⟨unlabelled, jumpless ▸ .none same⟩
  cases instr with
  | br target =>
      apply (jumpTo_jumpsOut scope.name target state).bind
      intro jump next jumps
      exact .pure ⟨rfl, jumps⟩
  | leave =>
      apply (jumpTo_jumpsOut scope.name _ state).bind
      intro jump next jumps
      exact .pure ⟨rfl, jumps⟩
  | brIf target =>
      apply bind_condition
      intro condition popped isPopped
      apply (jumpTo_jumpsOut scope.name target popped).bind
      intro jump next jumps
      exact .pure ⟨rfl, (JumpsOut.none isPopped).append jumps⟩
  | brTable targets otherwise =>
      apply bind_condition
      intro condition popped isPopped
      apply (jumps_jumpsOut targets popped).bind
      intro cases between areCases
      apply (jumpTo_jumpsOut scope.name otherwise between).bind
      intro jump next isLast
      have jumps := (JumpsOut.none isPopped).append (areCases.append isLast)
      exact .pure ⟨rfl, by simpa [Lowered.final, Stmt.gotos] using jumps⟩
  | _ => exact absurd ⟨rfl, by simp⟩ notBranch

structure Enters (state : State) (head : BlockHead) (opened : OpenLabel) (inner : State) :
    Prop where
  label : opened.label = ⟨state.labelCount, head.label⟩
  isOpen : inner.labels = opened :: state.labels
  targets : inner.targets = state.targets
  count : inner.labelCount = state.labelCount + 1

theorem openLabel_enters (func : String) (isLoop : Bool) (head : BlockHead) (state : State) :
    Meets True (openLabel func isLoop head) state (Enters state head) := by
  apply Meets.bind_get
  apply (Meets.lift (Gives.ofResult _) state).bind
  intro _ _ ⟨_, same⟩
  subst same
  rcases State.mentions_mention _ (.label ⟨_, head.label⟩) with ⟨mentioned, isMention⟩
  dsimp only
  rw [isMention]
  apply (Meets.set _ _).bind
  intro _ inner isInner
  subst isInner
  exact .pure ⟨rfl, rfl, rfl, rfl⟩

theorem Enters.of_control {before : State} {head : BlockHead} {opened : OpenLabel} {inner : State}
    (enters : Enters before head opened inner) (same : before.control = state.control) :
    Enters state head opened inner := by
  injection same with isOpen others
  injection others with areTargets count
  exact ⟨count ▸ enters.label, isOpen ▸ enters.isOpen, areTargets ▸ enters.targets,
    count ▸ enters.count⟩

theorem closeLabel_leaves (func : String) (opened : OpenLabel) (last : State) :
    Meets True (closeLabel func opened) last fun _ next =>
      next.control = (last.labels.tail, last.targets, last.labelCount) := by
  apply (Meets.modify _ _).bind
  intro _ closed isClosed
  apply ((StackOnly.of_operands (do
    resetStack func opened.entry
    pushAll opened.signature.results)).keeps closed).mono
  intro _ next isNext
  rw [isNext, isClosed]
  rfl

theorem ending_leaves (construct : String) (opened : OpenLabel) (body : Lowered)
    (build : List Stmt → Lowered) (last : State) :
    Meets True (do
        scope.checkEnd construct opened body
        let label ← labelStmts opened
        closeLabel scope.name opened
        return build label) last fun lowered next =>
      lowered = build (labelIf (last.uses opened) opened.label) ∧
        next.control = (last.labels.tail, last.targets, last.labelCount) := by
  apply (checkEnd_same scope construct opened body last).bind
  intro _ _ same
  subst same
  apply (labelStmts_meets opened _).bind
  intro label _ ⟨isLabel, same⟩
  subst same
  apply (closeLabel_leaves scope.name opened _).bind
  intro _ next isNext
  exact .pure ⟨congrArg build isLabel, isNext⟩

/-! ## Lowering code -/

structure State.Counted (state : State) : Prop where
  isOpen : ∀ opened ∈ state.labels, opened.label.number < state.labelCount
  targets : ∀ number ∈ state.targets, number < state.labelCount

theorem State.Counted.of_control {other : State} (same : other.control = state.control)
    (counted : state.Counted) : other.Counted := by
  injection same with isOpen others
  injection others with areTargets count
  exact ⟨isOpen ▸ count ▸ counted.isOpen, areTargets ▸ count ▸ counted.targets⟩

/-- Lowering lays code out inside the labels that are open, and takes note of what is
jumped to. -/
structure Lays (code : Code) (state : State) (lowered : Lowered) (next : State) : Prop where
  isOpen : next.labels = state.labels
  laid : Laid (state.labels.map (·.label)) state.labelCount next.labelCount code lowered.stmts
    lowered.falls
  targets : ∀ number, number ∈ next.targets ↔
    number ∈ state.targets ∨ number ∈ (Stmt.gotosOfList lowered.stmts).map (·.number)

namespace Lays

variable {code : Code} {lowered : Lowered} {next : State}

theorem counted (lays : Lays code state lowered next) (counted : state.Counted) :
    next.Counted := by
  have isLe := lays.laid.le
  refine ⟨?_, ?_⟩
  · intro opened isOpen
    exact Nat.lt_of_lt_of_le (counted.isOpen opened (lays.isOpen ▸ isOpen)) isLe
  · intro number isTarget
    rcases (lays.targets number).mp isTarget with isOld | isNew
    · exact Nat.lt_of_lt_of_le (counted.targets number isOld) isLe
    · rcases List.mem_map.mp isNew with ⟨target, isGoto, rfl⟩
      rcases lays.laid.found target isGoto with isPlaced | isAround
      · exact (lays.laid.numbered.bounds _ (List.mem_map_of_mem isPlaced)).2
      · rcases List.mem_map.mp isAround with ⟨opened, isOpen, rfl⟩
        exact Nat.lt_of_lt_of_le (counted.isOpen opened isOpen) isLe

theorem plain {instr : Instr} (isPlain : instr.isConstruct = false)
    (unlabelled : Stmt.placedOfList lowered.stmts = [])
    (jumps : JumpsOut state (Stmt.gotosOfList lowered.stmts) next) :
    Lays (.instr instr) state lowered next where
  isOpen := jumps.isOpen
  laid := jumps.count ▸ .plain isPlain unlabelled jumps.outward
  targets := jumps.counted

theorem nil (state : State) : Lays (.body []) state (.through []) state :=
  ⟨rfl, .nil, by simp [Lowered.through]⟩

theorem cons {instr : Instr} {rest : List Instr} {first others : Lowered} {between : State}
    (isFirst : Lays (.instr instr) state first between) (falls : first.falls = true)
    (later : Lays (.body rest) between others next) :
    Lays (.body (instr :: rest)) state ⟨first.stmts ++ others.stmts, others.falls⟩ next where
  isOpen := later.isOpen.trans isFirst.isOpen
  laid := .cons (falls ▸ isFirst.laid) (isFirst.isOpen ▸ later.laid)
  targets number := by
    rw [later.targets, isFirst.targets, Stmt.gotosOfList_append, List.map_append, List.mem_append,
      or_assoc]

theorem stop {instr : Instr} {rest : List Instr} {first : Lowered}
    (isFirst : Lays (.instr instr) state first next) (stops : first.falls = false) :
    Lays (.body (instr :: rest)) state first next where
  isOpen := isFirst.isOpen
  laid := stops ▸ .stop (stops ▸ isFirst.laid)
  targets := isFirst.targets

end Lays

namespace Enters

variable {head : BlockHead} {opened : OpenLabel} {inner last next : State} {body : List Instr}

theorem counted (enters : Enters state head opened inner) (counted : state.Counted) :
    inner.Counted := by
  rcases enters with ⟨isLabel, isOpen, areTargets, isCount⟩
  refine ⟨?_, ?_⟩
  · rw [isOpen, isCount, List.forall_mem_cons, isLabel]
    refine ⟨Nat.lt_succ_self _, ?_⟩
    exact fun outer isOuter => Nat.lt_succ_of_lt (counted.isOpen outer isOuter)
  · rw [areTargets, isCount]
    exact fun number isTarget => Nat.lt_succ_of_lt (counted.targets number isTarget)

/-- Inside a construct, only jumps to its label go to something with its number. -/
theorem alone (enters : Enters state head opened inner) (counted : state.Counted)
    {first next : Nat} {code : Code} {stmts : List Stmt} {falls : Bool}
    (laid : Laid (inner.labels.map (·.label)) first next code stmts falls)
    (above : inner.labelCount ≤ first) :
    ∀ target ∈ Stmt.gotosOfList stmts, target.number = opened.label.number →
      target = opened.label := by
  intro target isGoto sameNumber
  rw [enters.label] at sameNumber
  rw [enters.count] at above
  rcases laid.found target isGoto with isPlaced | isAround
  · have bound := (laid.numbered.bounds _ (List.mem_map_of_mem isPlaced)).1
    rw [sameNumber] at bound
    exact absurd bound (by simp; omega)
  · rw [enters.isOpen] at isAround
    rcases List.mem_cons.mp isAround with rfl | isOuter
    · rfl
    · rcases List.mem_map.mp isOuter with ⟨outer, isOpen, rfl⟩
      exact absurd sameNumber (Nat.ne_of_lt (counted.isOpen outer isOpen))

theorem labelIf_eq (enters : Enters state head opened inner) (counted : state.Counted)
    {stmts : List Stmt}
    (targets : ∀ number, number ∈ last.targets ↔
      number ∈ inner.targets ∨ number ∈ (Stmt.gotosOfList stmts).map (·.number))
    (alone : ∀ target ∈ Stmt.gotosOfList stmts, target.number = opened.label.number →
      target = opened.label) :
    labelIf (last.uses opened) opened.label = labelFor opened.label stmts := by
  have notBefore : opened.label.number ∉ inner.targets := by
    rw [enters.targets, enters.label]
    exact fun isTarget => Nat.lt_irrefl _ (counted.targets _ isTarget)
  have isUsed : opened.label.number ∈ last.targets ↔ opened.label ∈ Stmt.gotosOfList stmts := by
    rw [targets, List.mem_map]
    constructor
    · rintro (isOld | ⟨target, isGoto, sameNumber⟩)
      · exact absurd isOld notBefore
      · exact alone target isGoto sameNumber ▸ isGoto
    · exact fun isGoto => .inr ⟨_, isGoto, rfl⟩
  simp [labelIf, labelFor, State.uses, isUsed]

theorem laid (enters : Enters state head opened inner) {code : Code} {lowered : Lowered}
    (lays : Lays code inner lowered last) :
    Laid (⟨state.labelCount, head.label⟩ :: state.labels.map (·.label)) (state.labelCount + 1)
      last.labelCount code lowered.stmts lowered.falls := by
  have laid := lays.laid
  rwa [enters.isOpen, enters.count, List.map_cons, enters.label] at laid

theorem lays (enters : Enters state head opened inner) {code : Code} {lowered : Lowered}
    (isOpen : last.labels = inner.labels)
    (targets : ∀ number, number ∈ last.targets ↔
      number ∈ inner.targets ∨ number ∈ (Stmt.gotosOfList lowered.stmts).map (·.number))
    (isNext : next.control = (last.labels.tail, last.targets, last.labelCount))
    (laid : Laid (state.labels.map (·.label)) state.labelCount last.labelCount code lowered.stmts
      lowered.falls) : Lays code state lowered next := by
  injection isNext with sameLabels others
  injection others with sameTargets sameCount
  refine ⟨?_, sameCount ▸ laid, ?_⟩
  · rw [sameLabels, isOpen, enters.isOpen, List.tail_cons]
  · rwa [sameTargets, ← enters.targets]

theorem block (enters : Enters state head opened inner) (counted : state.Counted)
    {lowered : Lowered} (inside : Lays (.body body) inner lowered last)
    (isNext : next.control = (last.labels.tail, last.targets, last.labelCount)) :
    Lays (.instr (.block head body)) state
      ⟨lowered.stmts ++ labelIf (last.uses opened) opened.label,
        lowered.falls || !(labelIf (last.uses opened) opened.label).isEmpty⟩ next := by
  have alone := enters.alone counted inside.laid (Nat.le_refl _)
  rw [enters.labelIf_eq counted inside.targets alone]
  refine enters.lays inside.isOpen ?_ isNext ?_
  · simpa using inside.targets
  · rw [enters.label]
    exact .block (enters.laid inside)

theorem loop (enters : Enters state head opened inner) (counted : state.Counted)
    {lowered : Lowered} (inside : Lays (.body body) inner lowered last)
    (isNext : next.control = (last.labels.tail, last.targets, last.labelCount)) :
    Lays (.instr (.loop head body)) state
      ⟨labelIf (last.uses opened) opened.label ++ lowered.stmts, lowered.falls⟩ next := by
  have alone := enters.alone counted inside.laid (Nat.le_refl _)
  rw [enters.labelIf_eq counted inside.targets alone]
  refine enters.lays inside.isOpen ?_ isNext ?_
  · simpa using inside.targets
  · rw [enters.label]
    exact .loop (enters.laid inside)

theorem ifThen (enters : Enters state head opened inner) (counted : state.Counted)
    {condition : C.Slot} {lowered : Lowered} (inside : Lays (.body body) inner lowered last)
    (isNext : next.control = (last.labels.tail, last.targets, last.labelCount)) :
    Lays (.instr (.ifElse head body [])) state
      (.through (.ifThen condition lowered.stmts ::
        labelIf (last.uses opened) opened.label)) next := by
  have alone := enters.alone counted inside.laid (Nat.le_refl _)
  rw [enters.labelIf_eq counted inside.targets alone]
  refine enters.lays inside.isOpen ?_ isNext ?_
  · simpa [Lowered.through, Stmt.gotos] using inside.targets
  · rw [enters.label]
    exact .ifThen (enters.laid inside)

theorem ifThenElse (enters : Enters state head opened inner) (counted : state.Counted)
    {condition : C.Slot} {thenPart elsePart : Lowered} {thenLast elseFirst : State}
    {elseBody : List Instr} (thenInside : Lays (.body body) inner thenPart thenLast)
    (same : elseFirst.control = thenLast.control)
    (elseInside : Lays (.body elseBody) elseFirst elsePart last)
    (isNext : next.control = (last.labels.tail, last.targets, last.labelCount)) :
    Lays (.instr (.ifElse head body elseBody)) state
      ⟨.ifThenElse condition thenPart.stmts elsePart.stmts ::
          labelIf (last.uses opened) opened.label,
        thenPart.falls || elsePart.falls ||
          !(labelIf (last.uses opened) opened.label).isEmpty⟩ next := by
  injection same with sameLabels others
  injection others with sameTargets sameCount
  have isOpen : elseFirst.labels = inner.labels := sameLabels.trans thenInside.isOpen
  have elseLaid := elseInside.laid
  rw [isOpen, sameCount] at elseLaid
  have targets : ∀ number, number ∈ last.targets ↔ number ∈ inner.targets ∨
      number ∈ (Stmt.gotosOfList (thenPart.stmts ++ elsePart.stmts)).map (·.number) := by
    intro number
    rw [elseInside.targets, sameTargets, thenInside.targets, Stmt.gotosOfList_append,
      List.map_append, List.mem_append, or_assoc]
  have alone : ∀ target ∈ Stmt.gotosOfList (thenPart.stmts ++ elsePart.stmts),
      target.number = opened.label.number → target = opened.label := by
    rw [Stmt.gotosOfList_append, List.forall_mem_append]
    exact ⟨enters.alone counted thenInside.laid (Nat.le_refl _),
      enters.alone counted elseLaid thenInside.laid.le⟩
  rw [enters.labelIf_eq counted targets alone]
  refine enters.lays (elseInside.isOpen.trans isOpen) ?_ isNext ?_
  · simpa [Stmt.gotos] using targets
  · rw [enters.isOpen, List.map_cons, enters.label] at elseLaid
    rw [enters.label]
    exact .ifThenElse (enters.laid thenInside) elseLaid

end Enters

mutual

theorem instr_lays (instr : Instr) (state : State) (counted : state.Counted) :
    Meets True (scope.instr instr) state (Lays (.instr instr) state) := by
  match instr with
  | .block head body =>
      apply (openLabel_enters scope.name false head state).bind
      intro opened inner enters
      apply (instrs_lays body inner (enters.counted counted)).bind
      intro lowered last inside
      apply (ending_leaves _ _ _ _ _).mono
      rintro _ next ⟨rfl, isNext⟩
      exact enters.block counted inside isNext
  | .loop head body =>
      apply (openLabel_enters scope.name true head state).bind
      intro opened inner enters
      apply (instrs_lays body inner (enters.counted counted)).bind
      intro lowered last inside
      apply (ending_leaves _ _ _ _ _).mono
      rintro _ next ⟨rfl, isNext⟩
      exact enters.loop counted inside isNext
  | .ifElse head thenBody [] =>
      rw [Scope.instr]
      apply bind_condition
      intro condition popped isPopped
      apply (openLabel_enters scope.name false head popped).bind
      intro opened inner entersPopped
      have enters := entersPopped.of_control isPopped
      apply (instrs_lays thenBody inner (enters.counted counted)).bind
      intro lowered last inside
      apply (ending_leaves _ _ _ _ _).mono
      rintro _ next ⟨rfl, isNext⟩
      exact enters.ifThen counted inside isNext
  | .ifElse head thenBody (first :: others) =>
      rw [Scope.instr]
      apply bind_condition
      intro condition popped isPopped
      apply (openLabel_enters scope.name false head popped).bind
      intro opened inner entersPopped
      have enters := entersPopped.of_control isPopped
      apply (instrs_lays thenBody inner (enters.counted counted)).bind
      intro thenPart thenLast thenInside
      apply (checkEnd_same _ _ _ _ _).bind
      intro _ _ same
      subst same
      apply bind_otherArm
      intro elseFirst same
      have elseCounted : elseFirst.Counted :=
        .of_control same (thenInside.counted (enters.counted counted))
      apply (instrs_lays (first :: others) elseFirst elseCounted).bind
      intro elsePart last elseInside
      apply (ending_leaves _ _ _ _ _).mono
      rintro _ next ⟨rfl, isNext⟩
      exact enters.ifThenElse counted thenInside same elseInside isNext
  | .br _ | .brIf _ | .brTable _ _ | .leave | .unreachable | .nop | .drop | .localSet _
  | .localTee _ | .binary _ | .compare _ | .convert _ | .unary _ | .call _ | .callIndirect _ _
  | .const _ | .select _ | .globalGet _ | .globalSet _ | .localGet _ | .load _ _ _ _
  | .store _ _ _ _ | .memoryGrow _ | .memorySize _ | .memoryFill _ | .memoryCopy _ _
  | .tryCatch .. | .throwTag _ | .rethrow _ | .ternary _ | .simd .. | .simdLane ..
  | .simdShuffle .. | .atomic .. | .refFunc _ | .other _ =>
      apply (instr_jumpsOut rfl state).mono
      intro lowered next ⟨unlabelled, jumps⟩
      exact .plain rfl unlabelled jumps

theorem instrs_lays (body : List Instr) (state : State) (counted : state.Counted) :
    Meets True (scope.instrs body) state (Lays (.body body) state) := by
  match body with
  | [] => exact .pure (.nil state)
  | instr :: rest =>
      apply (instr_lays instr state counted).bind
      intro first between isFirst
      split
      · next falls =>
          apply (instrs_lays rest between (isFirst.counted counted)).bind
          intro others next later
          exact .pure (isFirst.cons falls later)
      · next stops => exact .pure (isFirst.stop (by simpa using stops))

end

def asBlock (func : Func) : Code :=
  .instr (.block ⟨Naming.funcLabel, ⟨none, ⟨[], func.results⟩⟩⟩ func.body)

theorem body_laid (scope : Scope) :
    Meets True scope.body {} fun result _ =>
      ∃ next falls, Laid [] 0 next (asBlock scope.func) result.1 falls := by
  have counted : State.Counted {} := ⟨nofun, nofun⟩
  apply (openLabel_enters scope.name false _ {}).bind
  intro opened inner enters
  apply (instrs_lays scope.func.body inner (enters.counted counted)).bind
  intro lowered last inside
  refine Meets.bind_check (fun _ => ?_) ?_
  · exact .bind_get ((Meets.lift (Gives.ofResult _) last).mono fun _ _ known => known.2)
  apply (labelStmts_meets opened last).bind
  intro label _ ⟨isLabel, same⟩
  subst isLabel same
  apply (closeLabel_leaves scope.name opened _).bind
  intro _ next isNext
  have laid := (enters.block counted inside isNext).laid
  exact .skip fun _ _ => .skip fun _ _ => .pure ⟨_, _, laid⟩

theorem lowerFunc_laid (module : Module) (symbols : EntitySymbols) (func : Func) :
    Gives True (lowerFunc module symbols func) fun function =>
      ∃ next falls, Laid [] 0 next (asBlock func) function.body falls := by
  apply (Gives.ofResult _).mono
  intro function succeeds
  rcases lowerFunc_eq_ok succeeds with ⟨_, lowered⟩
  exact (body_laid _).of_ok lowered.body

end Emission

/-! ## Programs -/

namespace C

mutual

/-- A label that stands in a statement is one of the things that it refers to. -/
theorem Stmt.label_mem_idents (stmt : Stmt) {label : Label} (member : label ∈ stmt.placed) :
    .label label ∈ stmt.idents := by
  match stmt with
  | .label place =>
      rw [Stmt.placed, List.mem_singleton] at member
      simp [Stmt.idents, member]
  | .ifThen _ body => exact List.mem_cons_of_mem _ (Stmt.label_mem_identsOfList body member)
  | .ifThenElse _ thenBody elseBody =>
      rcases List.mem_append.mp member with inThen | inElse
      · simp [Stmt.idents, Stmt.label_mem_identsOfList thenBody inThen]
      · simp [Stmt.idents, Stmt.label_mem_identsOfList elseBody inElse]
  | .assign .. | .setNamed .. | .setGlobal .. | .store .. | .fill .. | .copy .. | .call ..
  | .callIndirect .. | .trap | .jump _ | .jumpIf .. | .switch .. => cases member

theorem Stmt.label_mem_identsOfList (stmts : List Stmt) {label : Label}
    (member : label ∈ Stmt.placedOfList stmts) : .label label ∈ Stmt.identsOfList stmts := by
  match stmts with
  | [] => cases member
  | stmt :: rest =>
      rw [Stmt.identsOfList_cons, List.mem_append]
      rcases List.mem_append.mp member with isFirst | isLater
      · exact .inl (Stmt.label_mem_idents stmt isFirst)
      · exact .inr (Stmt.label_mem_identsOfList rest isLater)

end

/-- The jumps and the labels of a function belong together, each label with its symbol. -/
structure Function.JumpsMatched (function : Function) (spelling : Spelling) : Prop where
  /-- No two label statements have the same symbol. -/
  once : ((Stmt.placedOfList function.body).map spelling.label).Nodup
  /-- What is jumped to stands in the function. -/
  found : Stmt.gotosOfList function.body ⊆ Stmt.placedOfList function.body
  /-- What stands in the function is jumped to. -/
  used : Stmt.placedOfList function.body ⊆ Stmt.gotosOfList function.body

theorem Function.Hygienic.jumpsMatched {function : Function} {spelling : Spelling}
    {around : List String} {next : Nat} {code : Code} {falls : Bool}
    (hygienic : function.Hygienic spelling around)
    (laid : Laid [] 0 next code function.body falls) :
    function.JumpsMatched spelling where
  once := by
    have different := List.Nodup.of_map _ laid.numbered.nodup
    refine different.map_on ?_
    intro first isFirst second isSecond same
    have firstKnown := hygienic.covered _
      (List.mem_append_left _ (Stmt.label_mem_identsOfList _ isFirst))
    have secondKnown := hygienic.covered _
      (List.mem_append_left _ (Stmt.label_mem_identsOfList _ isSecond))
    have sameEntry := List.inj_on_of_nodup_map hygienic.nodup (hygienic.spelled _ firstKnown)
      (hygienic.spelled _ secondKnown) same
    injection sameEntry with sameIdent
    injection sameIdent
  found := fun target isGoto => (laid.found target isGoto).resolve_right List.not_mem_nil
  used := laid.used

end C

open Emission

theorem Emission.Built.laid {module : Module} {program : C.Program} {after : Stages}
    (built : Built module program after) :
    List.Forall₂ (fun func function =>
      ∃ next falls, C.Laid [] 0 next (asBlock func) function.body falls)
      module.definedFuncs program.functions :=
  built.lowered.imp fun func _ lowered =>
    (lowerFunc_laid module after.elementCopies func).of_ok lowered

/-- In every function of a program that is written, jumps and labels match, and the labels
stand where their constructs begin, for a loop, or end, for everything else. -/
theorem Module.write_jumps_matched {module : Module} {headerName : String} {output : Output}
    (written : module.write headerName = .ok output) :
    ∃ program, module.emit = .ok program ∧ output = program.output headerName ∧
      (∀ function ∈ program.functions,
        C.Function.JumpsMatched function (function.spelling program.taken)) ∧
      List.Forall₂ (fun func function =>
        ∃ next falls, C.Laid [] 0 next (asBlock func) function.body falls)
        module.definedFuncs program.functions := by
  rcases bind_eq_ok written with ⟨program, emitted, isOutput⟩
  rcases emit_built emitted with ⟨after, built⟩
  refine ⟨program, emitted, (Except.ok.inj isOutput).symm, ?_, built.laid⟩
  intro function member
  rcases exists_of_forall₂ built.laid member with ⟨func, _, next, falls, laid⟩
  exact (built.hygienic.functions function member).jumpsMatched laid

/-- A module with a loop inside a block. One branch starts the loop again, and another
leaves the block. -/
def loopInBlock : List UInt8 :=
  [0x00, 0x61, 0x73, 0x6D, 0x01, 0x00, 0x00, 0x00,
    -- The type `[i32] -> []`, and a function of it.
    0x01, 0x05, 0x01, 0x60, 0x01, 0x7F, 0x00, 0x03, 0x02, 0x01, 0x00,
    -- The body: `block loop local.get 0 br_if 0 local.get 0 br_if 1 end end end`.
    0x0A, 0x12, 0x01, 0x10, 0x00, 0x02, 0x40, 0x03, 0x40, 0x20, 0x00, 0x0D, 0x00, 0x20, 0x00,
    0x0D, 0x01, 0x0B, 0x0B, 0x0B]

/-- The label of the loop stands first, and that of the function not at all. -/
theorem Module.write_jumps_matched_loopInBlock : ∃ module named output program,
    Binary.decode loopInBlock = .ok module ∧ module.resolve.applyNames = .ok named ∧
      named.write "" = .ok output ∧ named.emit = .ok program ∧
      program.functions.map (fun function => C.Stmt.placedOfList function.body) =
        [[⟨2, "$L1"⟩, ⟨1, "$B0"⟩]] ∧
      ∀ function ∈ program.functions,
        C.Function.JumpsMatched function (function.spelling program.taken) := by
  rcases exists_of_run (Binary.decode loopInBlock)
      (fun module => module.resolve.applyNames.toOption.bind fun named =>
        named.emit.toOption.map fun program => program.functions.map fun function =>
          C.Stmt.placedOfList function.body)
      (some [[⟨2, "$L1"⟩, ⟨1, "$B0"⟩]]) (by decide +kernel) with ⟨module, accepted, shown⟩
  rcases Option.bind_eq_some_iff.mp shown with ⟨named, isNamed, shown⟩
  rcases exists_of_run named.emit _ _ shown with ⟨program, emitted, areLabels⟩
  have written : named.write "" = .ok (program.output "") := by
    rw [Module.write, emitted]
    rfl
  rcases write_jumps_matched written with ⟨other, emittedOther, _, matched, _⟩
  have same := Except.ok.inj (emitted.symm.trans emittedOther)
  subst same
  exact ⟨module, named, _, program, accepted, eq_ok_of_toOption isNamed, written, emitted,
    areLabels, matched⟩

end WasmLowering
