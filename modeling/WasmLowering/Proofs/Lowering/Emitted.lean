import WasmLowering.Proofs.Lowering.Labels
import WasmLowering.Proofs.Semantics.Statements

/-! Which statements are emitted for typed code.

The relation is between decoded code and statements. It says where the operands
and results of every instruction are, which label a branch jumps to, and whether
control can go on behind the statements. Lowering establishes it, and it is all
that is needed to compare what the two sides do. -/

namespace WasmLowering.Emission

open C (Slot Label Jump Stmt SlotsAt TargetAt)

/-- A label that emitted code can jump to; only a label that is used is there. -/
structure JumpTarget where
  type : LabelType
  number : Nat
  isUsed : Bool

def JumpTarget.floor (targets : List JumpTarget) : List ValueType :=
  LabelType.floor (targets.map (·.type))

structure Jumps (target : JumpTarget) (height : Nat) (jump : Jump) : Prop where
  isUsed : target.isUsed = true
  number : jump.target.number = target.number
  copies : C.Copies (height - target.type.carried.length) target.type.below.length
    target.type.carried jump.copies

def labelIf (isUsed : Bool) (label : Label) : List Stmt :=
  if isUsed then [.label label] else []

@[simp] theorem labelIf_isEmpty (isUsed : Bool) (label : Label) :
    (labelIf isUsed label).isEmpty = !isUsed := by
  cases isUsed <;> rfl

section

variable (module named : Module) (slotNames : List String)

/-- Statements are emitted for code that is typed from one stack to another. -/
inductive Emits : List JumpTarget → Code → (before : List ValueType) → List Stmt → (falls : Bool) →
    (after : List ValueType) → Prop
  | nil {targets types} : Emits targets (.body []) types [] true types
  | cons {targets instr rest before stmts middle others falls after}
      (first : Emits targets (.instr instr) before stmts true middle)
      (later : Emits targets (.body rest) middle others falls after) :
      Emits targets (.body (instr :: rest)) before (stmts ++ others) falls after
  | stop {targets instr rest before stmts middle after}
      (first : Emits targets (.instr instr) before stmts false middle) :
      Emits targets (.body (instr :: rest)) before stmts false after
  | apply {targets instr below stmt application arguments target}
      (applies : module.application? instr = some application)
      (effect : stmt.effect? named = some ⟨application.operation, arguments, target⟩)
      (areArguments : SlotsAt (below ++ JumpTarget.floor targets).length application.type.params
        arguments)
      (isTarget : TargetAt (below ++ JumpTarget.floor targets).length application.type.results
        target) :
      Emits targets (.instr instr) (application.type.params.reverse ++ below) [stmt] true
        (application.type.results.reverse ++ below)
  | nop {targets types} : Emits targets (.instr .nop) types [] true types
  | drop {targets type below} : Emits targets (.instr .drop) (type :: below) [] true below
  | select {targets explicit type below condition first second}
      (isFirst : first.IsAt (below ++ JumpTarget.floor targets).length type)
      (isSecond : second.IsAt ((below ++ JumpTarget.floor targets).length + 1) type)
      (isCondition : condition.IsAt ((below ++ JumpTarget.floor targets).length + 2) .i32) :
      Emits targets (.instr (.select explicit)) (.i32 :: type :: type :: below)
        [.assign first (.select condition first second)] true (type :: below)
  | const {targets value below slot}
      (isSlot : slot.IsAt (below ++ JumpTarget.floor targets).length value.scalar.toValueType) :
      Emits targets (.instr (.const (.number value))) below [.assign slot (.literal value)] true
        (value.scalar.toValueType :: below)
  | localGet {targets place name type below slot}
      (isName : slotNames[place.toNat]? = some name)
      (isSlot : slot.IsAt (below ++ JumpTarget.floor targets).length type) :
      Emits targets (.instr (.localGet (.index place))) below [.assign slot (.named name)] true
        (type :: below)
  | localSet {targets place name type below slot}
      (isName : slotNames[place.toNat]? = some name)
      (isSlot : slot.IsAt (below ++ JumpTarget.floor targets).length type) :
      Emits targets (.instr (.localSet (.index place))) (type :: below) [.setNamed name slot] true
        below
  | localTee {targets place name type below slot}
      (isName : slotNames[place.toNat]? = some name)
      (isSlot : slot.IsAt (below ++ JumpTarget.floor targets).length type) :
      Emits targets (.instr (.localTee (.index place))) (type :: below) [.setNamed name slot] true
        (type :: below)
  | block {targets head body below stmts falls isUsed label}
      (inside : Emits (⟨⟨head.results, below ++ JumpTarget.floor targets⟩, label.number, isUsed⟩ ::
        targets) (.body body) head.params.reverse stmts falls head.results.reverse) :
      Emits targets (.instr (.block head body)) (head.params.reverse ++ below)
        (stmts ++ labelIf isUsed label) (falls || isUsed) (head.results.reverse ++ below)
  | loop {targets head body below stmts falls isUsed label}
      (inside : Emits (⟨⟨head.params, below ++ JumpTarget.floor targets⟩, label.number, isUsed⟩ ::
        targets) (.body body) head.params.reverse stmts falls head.results.reverse) :
      Emits targets (.instr (.loop head body)) (head.params.reverse ++ below)
        (labelIf isUsed label ++ stmts) falls (head.results.reverse ++ below)
  | ifThen {targets head thenBody below condition stmts falls isUsed label}
      (isCondition : condition.IsAt
        (head.params.reverse ++ below ++ JumpTarget.floor targets).length .i32)
      (inside : Emits (⟨⟨head.results, below ++ JumpTarget.floor targets⟩, label.number, isUsed⟩ ::
        targets) (.body thenBody) head.params.reverse stmts falls head.results.reverse)
      (same : head.params = head.results) :
      Emits targets (.instr (.ifElse head thenBody [])) (.i32 :: head.params.reverse ++ below)
        (.ifThen condition stmts :: labelIf isUsed label) true (head.results.reverse ++ below)
  | ifThenElse {targets head thenBody elseBody below condition thenStmts thenFalls elseStmts
        elseFalls isUsed label}
      (isCondition : condition.IsAt
        (head.params.reverse ++ below ++ JumpTarget.floor targets).length .i32)
      (thenInside : Emits (⟨⟨head.results, below ++ JumpTarget.floor targets⟩, label.number,
        isUsed⟩ :: targets) (.body thenBody) head.params.reverse thenStmts thenFalls
        head.results.reverse)
      (elseInside : Emits (⟨⟨head.results, below ++ JumpTarget.floor targets⟩, label.number,
        isUsed⟩ :: targets) (.body elseBody) head.params.reverse elseStmts elseFalls
        head.results.reverse) :
      Emits targets (.instr (.ifElse head thenBody elseBody)) (.i32 :: head.params.reverse ++ below)
        (.ifThenElse condition thenStmts elseStmts :: labelIf isUsed label)
        (thenFalls || elseFalls || isUsed) (head.results.reverse ++ below)
  | br {targets depth target above jump after} (isTarget : targets[depth.toNat]? = some target)
      (jumps : Jumps target
        (target.type.carried.reverse ++ above ++ JumpTarget.floor targets).length jump) :
      Emits targets (.instr (.br (.index depth))) (target.type.carried.reverse ++ above)
        [.jump jump] false after
  | brIf {targets depth target below condition jump}
      (isTarget : targets[depth.toNat]? = some target)
      (isCondition : condition.IsAt
        (target.type.carried.reverse ++ below ++ JumpTarget.floor targets).length .i32)
      (jumps : Jumps target
        (target.type.carried.reverse ++ below ++ JumpTarget.floor targets).length jump) :
      Emits targets (.instr (.brIf (.index depth))) (.i32 :: target.type.carried.reverse ++ below)
        [.jumpIf condition jump] true (target.type.carried.reverse ++ below)
  | brTable {targets cases otherwise carried above position jumps last after}
      (isPosition : position.IsAt
        (carried.reverse ++ above ++ JumpTarget.floor targets).length .i32)
      (areTargets : List.Forall₂ (fun reference jump => ∃ depth target,
        reference = .index depth ∧ targets[depth.toNat]? = some target ∧
          target.type.carried = carried ∧
          Jumps target (carried.reverse ++ above ++ JumpTarget.floor targets).length jump)
        (cases ++ [otherwise]) (jumps ++ [last])) :
      Emits targets (.instr (.brTable cases otherwise)) (.i32 :: carried.reverse ++ above)
        [.switch position jumps last] false after
  | leave {targets target above jump after} (isTarget : targets.getLast? = some target)
      (jumps : Jumps target
        (target.type.carried.reverse ++ above ++ JumpTarget.floor targets).length jump) :
      Emits targets (.instr .leave) (target.type.carried.reverse ++ above) [.jump jump] false after
  | unreachable {targets before after} :
      Emits targets (.instr .unreachable) before [.trap] false after

end

inductive Marked (used : List Nat) : List LabelType → List OpenLabel → List JumpTarget → Prop
  | nil : Marked used [] [] []
  | cons {label labels} {opened : OpenLabel} {others targets isUsed}
      (covers : opened.label.number ∈ used → isUsed = true)
      (later : Marked used labels others targets) :
      Marked used (label :: labels) (opened :: others)
        (⟨label, opened.label.number, isUsed⟩ :: targets)

namespace Marked

variable {used : List Nat} {labels : List LabelType} {opened : List OpenLabel}
  {targets : List JumpTarget}

theorem types (marked : Marked used labels opened targets) : targets.map (·.type) = labels := by
  induction marked with
  | nil => rfl
  | cons _ _ induction => rw [List.map_cons, induction]

theorem floor (marked : Marked used labels opened targets) :
    JumpTarget.floor targets = LabelType.floor labels := by
  rw [JumpTarget.floor, marked.types]

theorem mono {fewer : List Nat} (marked : Marked used labels opened targets)
    (subset : fewer ⊆ used) : Marked fewer labels opened targets := by
  induction marked with
  | nil => exact .nil
  | cons covers _ induction => exact .cons (fun member => covers (subset member)) induction

theorem getElem? (marked : Marked used labels opened targets) {depth : Nat} {label : LabelType}
    {target : OpenLabel} (isLabel : labels[depth]? = some label)
    (isTarget : opened[depth]? = some target) (isUsed : target.label.number ∈ used) :
    targets[depth]? = some ⟨label, target.label.number, true⟩ := by
  induction marked generalizing depth with
  | nil => simp at isLabel
  | cons covers _ induction =>
      cases depth with
      | zero =>
          cases isLabel
          cases isTarget
          rw [List.getElem?_cons_zero, covers isUsed]
      | succ depth => exact induction (by simpa using isLabel) (by simpa using isTarget)

/-- A jump to an open label is one to the target that the label becomes. -/
theorem jumps (marked : Marked used labels opened targets) {height : Nat}
    {carried : List ValueType} {depth : Nat} {jump : Jump}
    (jumpsTo : JumpsTo labels opened height carried used depth jump) :
    ∃ target, targets[depth]? = some target ∧ target.type.carried = carried ∧
      Jumps target height jump := by
  rcases jumpsTo.label with ⟨label, target, isLabel, isTarget, rfl, isUsed, sameTarget, copies⟩
  refine ⟨_, marked.getElem? isLabel isTarget isUsed, rfl, rfl, ?_, copies⟩
  rw [sameTarget]

theorem branches (marked : Marked used labels opened targets) {height : Nat}
    {carried : List ValueType} {source : Reference} {jump : Jump}
    (branch : ∃ depth : Index, source = .index depth ∧
      JumpsTo labels opened height carried used depth.toNat jump) :
    ∃ depth target, source = .index depth ∧ targets[depth.toNat]? = some target ∧
      target.type.carried = carried ∧ Jumps target height jump := by
  rcases branch with ⟨depth, isSource, jumpsTo⟩
  rcases marked.jumps jumpsTo with ⟨target, isTarget, sameCarried, jumps⟩
  exact ⟨depth, target, isSource, isTarget, sameCarried, jumps⟩

end Marked

end WasmLowering.Emission
