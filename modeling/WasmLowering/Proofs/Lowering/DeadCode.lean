import WasmLowering.Proofs.Lowering.JumpLabels
import WasmLowering.Proofs.Lowering.Points
import WasmLowering.Proofs.Semantics.NamedSource

/-! Code that is left out is dead.

While code is lowered, it is followed whether control can go on behind it, and what is
behind is left out if not. This takes account of every way out of the code: it goes on, or
the label that a branch goes to is noted as a target. So where lowering says that control
does not go on, no run of the code does, whatever it tests. The types of the code do not
matter. -/

namespace WasmLowering.Emission

variable {scope : Scope} {around : List String} {state next : State}

/-! ## Finding labels -/

def State.Inside (state : State) (around : List String) : Prop :=
  state.labels.map (·.label.name) = around ++ [Naming.funcLabel]

theorem State.Inside.of_labels {other : State} (inside : state.Inside around)
    (same : other.labels = state.labels) : other.Inside around := by
  rw [State.Inside, same]
  exact inside

/-- The first label with a name is where the name is first among all names. -/
theorem getElem?_of_find? {labels : List OpenLabel} {names others : List String} {name : String}
    {depth : Nat} {opened : OpenLabel} (named : labels.map (·.label.name) = names ++ others)
    (isDepth : names.idxOf? name = some depth)
    (isFirst : labels.find? (·.label.name = name) = some opened) :
    labels[depth]? = some opened := by
  induction names generalizing labels depth with
  | nil => cases isDepth
  | cons first names induction =>
      cases labels with
      | nil => cases named
      | cons label labels =>
          rw [List.map_cons, List.cons_append, List.cons.injEq] at named
          rcases named with ⟨rfl, named⟩
          rw [List.idxOf?_cons] at isDepth
          rw [List.find?_cons] at isFirst
          by_cases isName : label.label.name = name
          · simp only [isName, decide_true, beq_self_eq_true, if_true, Option.some.injEq]
              at isDepth isFirst
            rw [← isDepth, ← isFirst]
            rfl
          · simp only [isName, decide_false, beq_iff_eq, if_false, Option.map_eq_some_iff]
              at isDepth isFirst
            rcases isDepth with ⟨depth, isDepth, rfl⟩
            rw [List.getElem?_cons_succ]
            exact induction named isDepth isFirst

theorem findLabel_depth (func : String) {target : Reference} {depth : Nat}
    (inside : state.Inside around) (isDepth : target.depth? around = some depth) :
    Meets True (findLabel func target) state fun opened _ =>
      state.labels[depth]? = some opened := by
  have lengths : state.labels.length = around.length + 1 := by
    simpa using congrArg List.length inside
  apply (Meets.lift (Gives.ofResult _) state).bind
  intro name _ ⟨isName, same⟩
  subst same
  apply Meets.bind_get
  apply (Meets.lift (Gives.ofResult _) _).mono
  intro opened _ ⟨isFound, _⟩
  have isOpen := found_eq_ok isFound
  cases target with
  | index position => cases isName
  | name text =>
      cases isName
      rw [Reference.depth?] at isDepth
      split at isDepth
      · next isFunction =>
          rw [if_pos isFunction, List.getLast?_eq_getElem?, lengths, Nat.add_sub_cancel] at isOpen
          rw [← Option.some.inj isDepth, isOpen]
      · next notFunction =>
          rw [if_neg notFunction] at isOpen
          exact getElem?_of_find? inside isDepth isOpen

/-! ## Ways out that are taken account of -/

def Targeted (labels : List OpenLabel) (targets : List Nat) (depth : Nat) : Prop :=
  ∃ opened, labels[depth]? = some opened ∧ opened.label.number ∈ targets

theorem Targeted.mono {labels : List OpenLabel} {targets others : List Nat} {depth : Nat}
    (targeted : Targeted labels targets depth) (grows : targets ⊆ others) :
    Targeted labels others depth := by
  rcases targeted with ⟨opened, isOpen, isTarget⟩
  exact ⟨opened, isOpen, grows isTarget⟩

/-- What lowering says is true of a way out of code: control goes on behind it, or the
label that is branched to is a target. -/
def Noted (labels : List OpenLabel) (targets : List Nat) (falls : Bool) : Exit → Prop
  | .falls => falls = true
  | .branch depth => Targeted labels targets depth

namespace Noted

variable {labels : List OpenLabel} {targets others : List Nat} {falls : Bool} {exit : Exit}

theorem mono {goesOn : Bool} (noted : Noted labels targets falls exit)
    (grows : targets ⊆ others) (weaker : falls = true → goesOn = true) :
    Noted labels others goesOn exit := by
  cases exit with
  | falls => exact weaker noted
  | branch depth => exact Targeted.mono noted grows

theorem outward {opened : OpenLabel} (noted : Noted (opened :: labels) targets falls exit) :
    Noted labels targets (falls || targets.contains opened.label.number) exit.outward := by
  match exit with
  | .falls => exact Bool.or_eq_true_iff.mpr (.inl noted)
  | .branch 0 =>
      rcases noted with ⟨found, isFound, isTarget⟩
      cases isFound
      exact Bool.or_eq_true_iff.mpr (.inr (List.contains_iff_mem.mpr isTarget))
  | .branch (depth + 1) => exact noted

theorem outward_loop {opened : OpenLabel} (noted : Noted (opened :: labels) targets falls exit)
    (leaves : exit ≠ .branch 0) : Noted labels targets falls exit.outward := by
  match exit with
  | .falls => exact noted
  | .branch 0 => exact absurd rfl leaves
  | .branch (depth + 1) => exact noted

end Noted

/-- Lowering leaves the labels around as they are, targets stay targets, and every way out
of the code is noted. -/
structure Traced (around : List String) (code : Code) (state : State) (lowered : Lowered)
    (next : State) : Prop where
  isOpen : next.labels = state.labels
  grows : state.targets ⊆ next.targets
  noted : ∀ exit, Exits around code exit → Noted state.labels next.targets lowered.falls exit

/-! ## Instructions without a body -/

structure Marks (around : List String) (references : List Reference) (state next : State) :
    Prop where
  isOpen : next.labels = state.labels
  grows : state.targets ⊆ next.targets
  targeted : ∀ target ∈ references, ∀ depth, target.depth? around = some depth →
    Targeted state.labels next.targets depth

namespace Marks

variable {between : State} {references others : List Reference}

theorem none (same : next.control = state.control) : Marks around [] state next := by
  injection same with isOpen others
  injection others with areTargets _
  exact ⟨isOpen, areTargets ▸ List.Subset.refl _, nofun⟩

theorem append (first : Marks around references state between)
    (later : Marks around others between next) :
    Marks around (references ++ others) state next where
  isOpen := later.isOpen.trans first.isOpen
  grows := List.Subset.trans first.grows later.grows
  targeted := by
    intro target member depth isDepth
    rcases List.mem_append.mp member with isFirst | isLater
    · exact (first.targeted target isFirst depth isDepth).mono later.grows
    · exact first.isOpen ▸ later.targeted target isLater depth isDepth

end Marks

theorem jumpTo_marks (func : String) (target : Reference) (inside : state.Inside around) :
    Meets True (jumpTo func target) state fun _ next => Marks around [target] state next := by
  have isTarget : ∀ depth, target.depth? around = some depth →
      Meets True (jumpTo func target) state fun jump _ =>
        ∃ opened, state.labels[depth]? = some opened ∧ jump.target = opened.label := by
    intro depth isDepth
    apply (findLabel_depth func inside isDepth).bind
    intro opened _ isOpen
    exact .skip fun _ _ => .skip fun _ _ => .skip fun _ _ => .skip fun _ _ =>
      .pure ⟨opened, isOpen, rfl⟩
  apply ((Gives.ofResult _).mono ?_)
  intro ⟨jump, next⟩ succeeds
  have jumps := (jumpTo_jumpsOut func target state).of_ok succeeds
  refine ⟨jumps.isOpen, fun number isOld => (jumps.counted number).mpr (.inl isOld), ?_⟩
  intro other isOther depth isDepth
  cases List.mem_singleton.mp isOther
  rcases (isTarget depth isDepth).of_ok succeeds with ⟨opened, isOpen, isLabel⟩
  exact ⟨opened, isOpen, (jumps.counted _).mpr (.inr (by simp [isLabel]))⟩

theorem jumps_marks (targets : List Reference) (state : State) (inside : state.Inside around) :
    Meets True (scope.jumps targets) state fun _ next => Marks around targets state next := by
  unfold Scope.jumps
  induction targets generalizing state with
  | nil => exact .pure (.none rfl)
  | cons target rest induction =>
      rw [List.mapM_cons]
      apply (jumpTo_marks scope.name target inside).bind
      intro jump between isFirst
      apply (induction between (inside.of_labels isFirst.isOpen)).bind
      intro jumps next areOthers
      exact .pure (isFirst.append areOthers)

theorem instr_marks {instr : Instr} (plain : instr.isConstruct = false)
    (inside : state.Inside around) :
    Meets True (scope.instr instr) state fun _ next =>
      Marks around instr.branchTargets state next := by
  by_cases notBranch : instr.branchTargets = [] ∧ instr ≠ .leave
  · have keeps := StackOnly.instr scope plain notBranch.1 notBranch.2
    apply (keeps.keeps state).mono
    intro _ next same
    exact notBranch.1 ▸ .none same
  cases instr with
  | br target => exact (jumpTo_marks scope.name target inside).bind fun _ _ marks => .pure marks
  | leave =>
      apply (jumpTo_marks scope.name _ inside).bind
      intro _ _ marks
      exact .pure ⟨marks.isOpen, marks.grows, nofun⟩
  | brIf target =>
      apply bind_condition
      intro condition popped isPopped
      have marks : Marks around [] state popped := .none isPopped
      apply (jumpTo_marks scope.name target (inside.of_labels marks.isOpen)).bind
      intro jump next later
      exact .pure (marks.append later)
  | brTable targets otherwise =>
      apply bind_condition
      intro condition popped isPopped
      have marks : Marks around [] state popped := .none isPopped
      apply (jumps_marks targets popped (inside.of_labels marks.isOpen)).bind
      intro cases between areCases
      have later := marks.append areCases
      apply (jumpTo_marks scope.name otherwise (inside.of_labels later.isOpen)).bind
      intro jump next isLast
      exact .pure (later.append isLast)
  | _ => exact absurd ⟨rfl, by simp⟩ notBranch

theorem instr_goesOn {instr : Instr} (plain : instr.isConstruct = false)
    (goesOn : instr.isFinal = false) :
    Meets True (scope.instr instr) state fun lowered _ => lowered.falls = true := by
  cases instr with
  | block | loop | ifElse => cases plain
  | br | brTable | leave | unreachable => cases goesOn
  | binary opcode | compare opcode | convert opcode | unary opcode =>
      simp only [Scope.instr, Scope.binary, Scope.unary]
      split
      · exact .unsupported _ _ _
      · exact .skip fun _ _ => .skip fun _ _ => .skip fun _ _ => .skip fun _ _ => .pure rfl
  | callIndirect declaration table =>
      refine .skip fun _ _ => ?_
      dsimp only
      split
      · exact .unsupported _ _ _
      repeat refine .skip fun _ _ => ?_
      exact .pure rfl
  | nop => exact .pure rfl
  | brIf | drop | const | call | select | localGet | localSet | localTee | globalGet | globalSet
  | load | store | memoryGrow | memorySize | memoryFill | memoryCopy =>
      repeat refine .skip fun _ _ => ?_
      exact .pure rfl
  | _ => exact .unsupported _ _ _

theorem instr_traced_plain {instr : Instr} (plain : instr.isConstruct = false)
    (inside : state.Inside around) :
    Meets True (scope.instr instr) state (Traced around (.instr instr) state) := by
  apply ((Gives.ofResult _).mono ?_)
  intro ⟨lowered, next⟩ succeeds
  have marks := (instr_marks plain inside).of_ok succeeds
  refine ⟨marks.isOpen, marks.grows, ?_⟩
  intro exit exits
  rcases exits.of_plain plain with ⟨rfl, goesOn⟩ | ⟨target, isTarget, depth, isDepth, rfl⟩
  · exact (instr_goesOn plain goesOn).of_ok succeeds
  · exact marks.targeted target isTarget depth isDepth

/-! ## Constructs -/

namespace Enters

variable {head : BlockHead} {opened : OpenLabel} {inner last : State}

theorem inside (enters : Enters state head opened inner) (outside : state.Inside around) :
    inner.Inside (head.label :: around) := by
  rw [State.Inside, enters.isOpen, List.map_cons, enters.label, outside]
  rfl

theorem traced (enters : Enters state head opened inner) {construct : Instr} {lowered : Lowered}
    (isOpen : last.labels = inner.labels) (grows : inner.targets ⊆ last.targets)
    (isNext : next.control = (last.labels.tail, last.targets, last.labelCount))
    (noted : ∀ exit, Exits around (.instr construct) exit →
      Noted state.labels last.targets lowered.falls exit) :
    Traced around (.instr construct) state lowered next := by
  injection isNext with sameLabels others
  injection others with sameTargets _
  refine ⟨?_, ?_, ?_⟩
  · rw [sameLabels, isOpen, enters.isOpen, List.tail_cons]
  · rw [sameTargets, ← enters.targets]
    exact grows
  · rw [sameTargets]
    exact noted

/-- Behind a construct that has its label there, a branch to the label goes on. -/
theorem outward (enters : Enters state head opened inner) {falls : Bool} {exit : Exit}
    (noted : Noted inner.labels last.targets falls exit) :
    Noted state.labels last.targets
      (falls || !(labelIf (last.uses opened) opened.label).isEmpty) exit.outward := by
  rw [enters.isOpen] at noted
  rw [labelIf_isEmpty, Bool.not_not]
  exact noted.outward

variable {body : List Instr} {lowered : Lowered} {stmts : List C.Stmt}

theorem traced_block (enters : Enters state head opened inner)
    (isBody : Traced (head.label :: around) (.body body) inner lowered last)
    (isNext : next.control = (last.labels.tail, last.targets, last.labelCount)) :
    Traced around (.instr (.block head body)) state
      ⟨stmts, lowered.falls || !(labelIf (last.uses opened) opened.label).isEmpty⟩ next := by
  refine enters.traced isBody.isOpen isBody.grows isNext ?_
  intro exit exits
  cases exits with
  | plain isPlain => cases isPlain
  | branch isTarget => cases isTarget
  | block isInside outward => exact outward ▸ enters.outward (isBody.noted _ isInside)

theorem traced_loop (enters : Enters state head opened inner)
    (isBody : Traced (head.label :: around) (.body body) inner lowered last)
    (isNext : next.control = (last.labels.tail, last.targets, last.labelCount)) :
    Traced around (.instr (.loop head body)) state ⟨stmts, lowered.falls⟩ next := by
  refine enters.traced isBody.isOpen isBody.grows isNext ?_
  intro exit exits
  cases exits with
  | plain isPlain => cases isPlain
  | branch isTarget => cases isTarget
  | loop isInside leaves outward =>
      have noted := isBody.noted _ isInside
      rw [enters.isOpen] at noted
      exact outward ▸ noted.outward_loop leaves

theorem traced_ifThen (enters : Enters state head opened inner)
    (isBody : Traced (head.label :: around) (.body body) inner lowered last)
    (isNext : next.control = (last.labels.tail, last.targets, last.labelCount)) :
    Traced around (.instr (.ifElse head body [])) state (.through stmts) next := by
  refine enters.traced isBody.isOpen isBody.grows isNext ?_
  intro exit exits
  cases exits with
  | plain isPlain => cases isPlain
  | branch isTarget => cases isTarget
  | thenArm isInside outward =>
      have noted := enters.outward (isBody.noted _ isInside)
      exact outward ▸ noted.mono (List.Subset.refl _) fun _ => rfl
  | elseArm isInside outward =>
      cases isInside
      exact outward ▸ rfl

theorem traced_ifThenElse (enters : Enters state head opened inner) {thenLast elseFirst : State}
    {elseBody : List Instr} {thenPart elsePart : Lowered}
    (isThen : Traced (head.label :: around) (.body body) inner thenPart thenLast)
    (between : Marks (head.label :: around) [] thenLast elseFirst)
    (isElse : Traced (head.label :: around) (.body elseBody) elseFirst elsePart last)
    (isNext : next.control = (last.labels.tail, last.targets, last.labelCount)) :
    Traced around (.instr (.ifElse head body elseBody)) state
      ⟨stmts, thenPart.falls || elsePart.falls ||
        !(labelIf (last.uses opened) opened.label).isEmpty⟩ next := by
  have later := List.Subset.trans between.grows isElse.grows
  have sameLabels := between.isOpen.trans isThen.isOpen
  refine enters.traced (isElse.isOpen.trans sameLabels) (List.Subset.trans isThen.grows later)
    isNext ?_
  intro exit exits
  cases exits with
  | plain isPlain => cases isPlain
  | branch isTarget => cases isTarget
  | @thenArm _ _ _ _ inside _ isInside outward =>
      have noted : Noted inner.labels last.targets (thenPart.falls || elsePart.falls) inside :=
        (isThen.noted inside isInside).mono later fun falls => by rw [falls, Bool.true_or]
      exact outward ▸ enters.outward noted
  | @elseArm _ _ _ _ inside _ isInside outward =>
      have noted : Noted inner.labels last.targets (thenPart.falls || elsePart.falls) inside :=
        (sameLabels ▸ isElse.noted inside isInside).mono (List.Subset.refl _) fun falls => by
          rw [falls, Bool.or_true]
      exact outward ▸ enters.outward noted

end Enters

mutual

theorem instr_traced (instr : Instr) {around : List String} (state : State)
    (inside : state.Inside around) :
    Meets True (scope.instr instr) state (Traced around (.instr instr) state) := by
  match instr with
  | .block head body =>
      apply (openLabel_enters scope.name false head state).bind
      intro opened inner enters
      apply (instrs_traced body inner (enters.inside inside)).bind
      intro lowered last isBody
      apply (ending_leaves _ _ _ _ _).mono
      rintro _ next ⟨rfl, isNext⟩
      exact enters.traced_block isBody isNext
  | .loop head body =>
      apply (openLabel_enters scope.name true head state).bind
      intro opened inner enters
      apply (instrs_traced body inner (enters.inside inside)).bind
      intro lowered last isBody
      apply (ending_leaves _ _ _ _ _).mono
      rintro _ next ⟨rfl, isNext⟩
      exact enters.traced_loop isBody isNext
  | .ifElse head thenBody [] =>
      rw [Scope.instr]
      apply bind_condition
      intro condition popped isPopped
      apply (openLabel_enters scope.name false head popped).bind
      intro opened inner entersPopped
      have enters := entersPopped.of_control isPopped
      apply (instrs_traced thenBody inner (enters.inside inside)).bind
      intro lowered last isBody
      apply (ending_leaves _ _ _ _ _).mono
      rintro _ next ⟨rfl, isNext⟩
      exact enters.traced_ifThen isBody isNext
  | .ifElse head thenBody (first :: others) =>
      rw [Scope.instr]
      apply bind_condition
      intro condition popped isPopped
      apply (openLabel_enters scope.name false head popped).bind
      intro opened inner entersPopped
      have enters := entersPopped.of_control isPopped
      have innerInside := enters.inside inside
      apply (instrs_traced thenBody inner innerInside).bind
      intro thenPart _ isThen
      apply (checkEnd_same _ _ _ _ _).bind
      intro _ thenLast same
      subst same
      apply bind_otherArm
      intro elseFirst isStart
      have between : Marks (head.label :: around) [] thenLast elseFirst := .none isStart
      have elseInside := innerInside.of_labels (between.isOpen.trans isThen.isOpen)
      apply (instrs_traced (first :: others) elseFirst elseInside).bind
      intro elsePart last isElse
      apply (ending_leaves _ _ _ _ _).mono
      rintro _ next ⟨rfl, isNext⟩
      exact enters.traced_ifThenElse isThen between isElse isNext
  | .br _ | .brIf _ | .brTable _ _ | .leave | .unreachable | .nop | .drop | .localSet _
  | .localTee _ | .binary _ | .compare _ | .convert _ | .unary _ | .call _ | .callIndirect _ _
  | .const _ | .select _ | .globalGet _ | .globalSet _ | .localGet _ | .load _ _ _ _
  | .store _ _ _ _ | .memoryGrow _ | .memorySize _ | .memoryFill _ | .memoryCopy _ _
  | .tryCatch .. | .throwTag _ | .rethrow _ | .ternary _ | .simd .. | .simdLane ..
  | .simdShuffle .. | .atomic .. | .refFunc _ | .other _ =>
      exact instr_traced_plain rfl inside

theorem instrs_traced (body : List Instr) {around : List String} (state : State)
    (inside : state.Inside around) :
    Meets True (scope.instrs body) state (Traced around (.body body) state) := by
  match body with
  | [] =>
      refine .pure ⟨rfl, List.Subset.refl _, ?_⟩
      intro exit exits
      cases exits
      rfl
  | instr :: rest =>
      apply (instr_traced instr state inside).bind
      intro first between isFirst
      split
      · next falls =>
          apply (instrs_traced rest between (inside.of_labels isFirst.isOpen)).bind
          intro others next later
          refine .pure ⟨later.isOpen.trans isFirst.isOpen,
            List.Subset.trans isFirst.grows later.grows, ?_⟩
          intro exit exits
          cases exits with
          | first exitsFirst leaves =>
              cases exit with
              | falls => exact absurd rfl leaves
              | branch depth => exact Targeted.mono (isFirst.noted _ exitsFirst) later.grows
          | later _ behind => exact isFirst.isOpen ▸ later.noted exit behind
      · next stops =>
          refine .pure ⟨isFirst.isOpen, isFirst.grows, ?_⟩
          intro exit exits
          cases exits with
          | first exitsFirst _ => exact isFirst.noted exit exitsFirst
          | later goesOn _ => exact absurd (isFirst.noted _ goesOn) stops

end

theorem code_traced (code : Code) (state : State) (inside : state.Inside around) :
    Meets True (scope.code code) state (Traced around code state) := by
  cases code with
  | instr first => exact instr_traced first state inside
  | body body => exact instrs_traced body state inside

/-! ## Functions -/

/-- While the function is lowered, code inside constructs with the given labels is lowered
from a state. What is behind an instruction is lowered only if control goes on there. -/
inductive Scope.Processed (scope : Scope) : (around : List String) → Code → State → Prop
  | body {opened inner}
      (opens : openLabel scope.name false ⟨Naming.funcLabel, ⟨none, ⟨[], scope.func.results⟩⟩⟩ {} =
        .ok (opened, inner)) :
      Scope.Processed scope [] (.body scope.func.body) inner
  | first {around instr rest state}
      (outer : Scope.Processed scope around (.body (instr :: rest)) state) :
      Scope.Processed scope around (.instr instr) state
  | rest {around instr rest state lowered next}
      (outer : Scope.Processed scope around (.body (instr :: rest)) state)
      (isLowered : scope.instr instr state = .ok (lowered, next)) (falls : lowered.falls = true) :
      Scope.Processed scope around (.body rest) next
  | block {around head body state opened inner}
      (outer : Scope.Processed scope around (.instr (.block head body)) state)
      (opens : openLabel scope.name false head state = .ok (opened, inner)) :
      Scope.Processed scope (head.label :: around) (.body body) inner
  | loop {around head body state opened inner}
      (outer : Scope.Processed scope around (.instr (.loop head body)) state)
      (opens : openLabel scope.name true head state = .ok (opened, inner)) :
      Scope.Processed scope (head.label :: around) (.body body) inner
  | thenArm {around head thenBody elseBody state opened inner}
      (outer : Scope.Processed scope around (.instr (.ifElse head thenBody elseBody)) state)
      (enters : scope.enterIf head state = .ok (opened, inner)) :
      Scope.Processed scope (head.label :: around) (.body thenBody) inner
  | elseArm {around head thenBody elseBody state opened inner lowered middle again}
      (outer : Scope.Processed scope around (.instr (.ifElse head thenBody elseBody)) state)
      (enters : scope.enterIf head state = .ok (opened, inner))
      (isLowered : scope.instrs thenBody inner = .ok (lowered, middle))
      (returns : scope.enterElse opened middle = .ok ((), again)) :
      Scope.Processed scope (head.label :: around) (.body elseBody) again

theorem enterIf_enters (head : BlockHead) (state : State) :
    Meets True (scope.enterIf head) state (Enters state head) := by
  apply bind_condition
  intro condition popped isPopped
  apply (openLabel_enters scope.name false head popped).mono
  intro opened inner enters
  exact enters.of_control isPopped

instance enterElse_onOperands (opened : OpenLabel) : OnOperands (scope.enterElse opened) := by
  unfold Scope.enterElse
  infer_instance

theorem Scope.Processed.inside {code : Code} (processed : scope.Processed around code state) :
    state.Inside around := by
  induction processed with
  | body opens =>
      have enters := (openLabel_enters _ _ _ _).of_ok opens
      rw [State.Inside, enters.isOpen, List.map_cons, enters.label]
      rfl
  | first _ inside => exact inside
  | rest _ isLowered _ inside =>
      exact inside.of_labels ((instr_traced _ _ inside).of_ok isLowered).isOpen
  | block _ opens inside | loop _ opens inside =>
      exact ((openLabel_enters _ _ _ _).of_ok opens).inside inside
  | thenArm _ enters inside => exact ((enterIf_enters _ _).of_ok enters).inside inside
  | elseArm _ enters isLowered returns inside =>
      have inner := ((enterIf_enters _ _).of_ok enters).inside inside
      have middle := inner.of_labels ((instrs_traced _ _ inner).of_ok isLowered).isOpen
      have same := ((StackOnly.of_operands (scope.enterElse _)).keeps _).of_ok returns
      exact middle.of_labels (congrArg Prod.fst same)

/-- What is left out is dead: if code of a function is lowered and control is said not to
go on behind it, then no run of the code goes on there, on any machine and from any frame.
For a construct this includes branches to its own label. -/
theorem Scope.stops_dead {scope : Scope} {around : List String} {code : Code}
    {state next : State} {lowered : Lowered} (processed : scope.Processed around code state)
    (isLowered : scope.code code state = .ok (lowered, next)) (stops : lowered.falls = false)
    {Value Store Trap : Type} (machine : Machine Value Store Trap) (fuel : Nat)
    (frame last : Source.Frame Value Store) :
    Source.namedCode machine scope.module scope.func fuel around code frame ≠ .falls last := by
  intro isLast
  have traced := (code_traced code state processed.inside).of_ok isLowered
  have falls : lowered.falls = true := traced.noted .falls (Source.namedCode_exits isLast)
  rw [stops] at falls
  cases falls

/-- A module with a loop inside a block that is never left, and code behind the loop. -/
def endlessLoop : List UInt8 :=
  [0x00, 0x61, 0x73, 0x6D, 0x01, 0x00, 0x00, 0x00,
    -- The type `[i32] -> []`, and a function of it.
    0x01, 0x05, 0x01, 0x60, 0x01, 0x7F, 0x00, 0x03, 0x02, 0x01, 0x00,
    -- The body: `block loop local.get 0 br_if 0 br 0 end unreachable end end`.
    0x0A, 0x11, 0x01, 0x0F, 0x00, 0x02, 0x40, 0x03, 0x40, 0x20, 0x00, 0x0D, 0x00, 0x0C, 0x00,
    0x0B, 0x00, 0x0B, 0x0B]

/-- Nothing behind the loop is reached, although the block has a label that could be
branched to. -/
theorem Scope.stops_dead_endlessLoop : ∃ module named func state lowered next,
    Binary.decode endlessLoop = .ok module ∧ module.resolve.applyNames = .ok named ∧
      named.definedFuncs.head? = some func ∧
      (Scope.mk named {} func ["$p0"]).Processed [] (.body func.body) state ∧
      (Scope.mk named {} func ["$p0"]).code (.body func.body) state = .ok (lowered, next) ∧
      lowered.falls = false ∧
      ∀ (machine : Machine Nat Unit Unit) (fuel : Nat) (frame last : Source.Frame Nat Unit),
        Source.namedCode machine named func fuel [] (.body func.body) frame ≠ .falls last := by
  rcases exists_of_run (Binary.decode endlessLoop)
      (fun module => module.resolve.applyNames.toOption.bind fun named =>
        named.definedFuncs.head?.bind fun func =>
          (openLabel func.name false
              ⟨Naming.funcLabel, ⟨none, ⟨[], func.results⟩⟩⟩ {}).toOption.bind fun start =>
            ((Scope.mk named {} func ["$p0"]).code (.body func.body)
              start.2).toOption.map (·.1.falls))
      (some false) (by decide +kernel) with ⟨module, accepted, shown⟩
  rcases Option.bind_eq_some_iff.mp shown with ⟨named, isNamed, shown⟩
  rcases Option.bind_eq_some_iff.mp shown with ⟨func, isFunc, shown⟩
  rcases Option.bind_eq_some_iff.mp shown with ⟨⟨opened, state⟩, isOpened, shown⟩
  rcases exists_of_run _ _ _ shown with ⟨⟨lowered, next⟩, isLowered, stops⟩
  have processed : (Scope.mk named {} func ["$p0"]).Processed [] (.body func.body) state :=
    .body (eq_ok_of_toOption isOpened)
  exact ⟨module, named, func, state, lowered, next, accepted, eq_ok_of_toOption isNamed, isFunc,
    processed, isLowered, stops, Scope.stops_dead processed isLowered stops⟩

end WasmLowering.Emission
