import WasmLowering.Proofs.Lowering.Postcondition
import WasmLowering.Proofs.Naming.BlockLabels
import WasmLowering.Proofs.Typing.Rules

/-! Steps on operands.

Most instructions are lowered by steps that look at the operand stack, change it and
mention slots. What such steps can do to the state is said here once, and what they keep
follows from it. -/

namespace WasmLowering.Emission

inductive State.Worked : State → State → Prop where
  | same (state : State) : State.Worked state state
  | setStack (state : State) (stack : List ValueType) : State.Worked state { state with stack }
  | mention (state : State) (slot : C.Slot) : State.Worked state (state.mention (.slot slot))
  | trans {state between next : State} (earlier : State.Worked state between)
      (later : State.Worked between next) : State.Worked state next

class OnOperands {α : Type} (action : Lowering α) : Prop where
  works : ∀ state : State, Meets True action state fun _ next => state.Worked next

namespace OnOperands

variable {α β : Type}

instance pure (value : α) : OnOperands (Pure.pure value : Lowering α) :=
  ⟨fun state => .pure (.same state)⟩

instance bind (first : Lowering α) (next : α → Lowering β) [isFirst : OnOperands first]
    [areNext : ∀ value, OnOperands (next value)] : OnOperands (first >>= next) where
  works state := by
    apply (isFirst.works state).bind
    intro value between worked
    apply ((areNext value).works between).mono
    intro _ _ workedNext
    exact worked.trans workedNext

instance lift (result : Except EmitError α) : OnOperands (liftM result : Lowering α) where
  works state :=
    (Meets.lift (Gives.ofResult result) state).mono fun _ _ known => known.2 ▸ .same state

instance get : OnOperands (MonadState.get : Lowering State) := ⟨.same⟩

instance ite (condition : Prop) [Decidable condition] (yes no : Lowering α) [isYes : OnOperands yes]
    [isNo : OnOperands no] : OnOperands (if condition then yes else no) := by
  split
  · exact isYes
  · exact isNo

theorem setStack {check : State → Lowering PUnit} {stack : State → List ValueType}
    [areChecks : ∀ state, OnOperands (check state)] :
    OnOperands (do
      let state ← MonadState.get
      check state
      set { state with stack := stack state }) where
  works state := by
    apply Meets.bind_get
    apply ((areChecks state).works state).bind
    intro _ between _
    exact (Meets.set _ between).mono fun _ _ same => same ▸ .setStack state _

instance push (type : ValueType) : OnOperands (Emission.push type) :=
  ⟨fun state => .setStack state _⟩

instance pushAll (types : List ValueType) : OnOperands (Emission.pushAll types) :=
  ⟨fun state => .setStack state _⟩

instance need (func : String) (count : Nat) : OnOperands (Emission.need func count) := by
  unfold Emission.need
  infer_instance

instance pop (func : String) (count : Nat) : OnOperands (Emission.pop func count) := setStack

instance resetStack (func : String) (height : Nat) :
    OnOperands (Emission.resetStack func height) := setStack

instance checkHeight (func place : String) (expected : Nat) :
    OnOperands (Emission.checkHeight func place expected) := by
  unfold Emission.checkHeight
  infer_instance

instance typeAt (func : String) (operand : Nat) : OnOperands (Emission.typeAt func operand) := by
  unfold Emission.typeAt
  infer_instance

instance mention (slot : C.Slot) :
    OnOperands (modify (·.mention (.slot slot)) : Lowering PUnit) where
  works state := (Meets.modify _ state).mono fun _ _ isNext => isNext ▸ .mention state slot

instance slot (depth : Nat) (type : ValueType) : OnOperands (Emission.slot depth type) := by
  unfold Emission.slot
  infer_instance

instance top (func : String) (operand : Nat) : OnOperands (Emission.top func operand) := by
  unfold Emission.top
  infer_instance

instance topAs (func : String) (operand : Nat) (type : ValueType) :
    OnOperands (Emission.topAs func operand type) := by
  unfold Emission.topAs
  infer_instance

instance resultSlot (depth : Nat) (results : List ValueType) :
    OnOperands (Scope.resultSlot depth results) := by
  unfold Scope.resultSlot
  split
  · infer_instance
  · infer_instance

instance copies (source target : Nat) (types : List ValueType) :
    OnOperands (Emission.copies source target types) := by
  induction types generalizing source target with
  | nil =>
      unfold Emission.copies
      infer_instance
  | cons type rest induction =>
      unfold Emission.copies
      infer_instance

instance labelStmts (opened : OpenLabel) : OnOperands (Emission.labelStmts opened) := by
  unfold Emission.labelStmts
  infer_instance

instance findLabel (func : String) (target : Reference) :
    OnOperands (Emission.findLabel func target) := by
  unfold Emission.findLabel
  infer_instance

variable (scope : Scope)

instance external (kind : ExternKind) (name : String) : OnOperands (scope.external kind name) := by
  unfold Scope.external
  infer_instance

instance memory (reference : Reference) : OnOperands (scope.memory reference) := by
  unfold Scope.memory
  infer_instance

instance place (reference : Reference) : OnOperands (scope.place reference) := by
  unfold Scope.place
  infer_instance

instance operands (count : Nat) : OnOperands (scope.operands count) := by
  induction count with
  | zero =>
      unfold Scope.operands
      infer_instance
  | succ count induction =>
      unfold Scope.operands
      infer_instance

instance operandsBelow (count : Nat) : OnOperands (scope.operandsBelow count) := by
  induction count with
  | zero =>
      unfold Scope.operandsBelow
      infer_instance
  | succ count induction =>
      unfold Scope.operandsBelow
      infer_instance

instance binarySlots (form : C.BinaryForm) (type result : ValueType) :
    OnOperands (scope.binarySlots form type result) := by
  cases form <;> exact inferInstanceAs (OnOperands (_ >>= _))

instance setPlace (reference : Reference) : OnOperands (scope.setPlace reference) := by
  unfold Scope.setPlace
  infer_instance

instance checkEnd (construct : String) (opened : OpenLabel) (body : Lowered) :
    OnOperands (scope.checkEnd construct opened body) := by
  unfold Scope.checkEnd
  infer_instance

instance binary (opcode : Opcode) : OnOperands (scope.binary opcode) := by
  unfold Scope.binary
  split
  · exact lift _
  · infer_instance

instance unary (opcode : Opcode) : OnOperands (scope.unary opcode) := by
  unfold Scope.unary
  split
  · exact lift _
  · infer_instance

instance callIndirect (declaration : Declaration) (table : Reference) :
    OnOperands (scope.callIndirect declaration table) := by
  unfold Scope.callIndirect
  refine @bind _ _ _ _ inferInstance fun table => ?_
  dsimp only
  split
  · exact lift (.error _)
  · infer_instance

theorem instr {instr : Instr} (plain : instr.isConstruct = false)
    (notBranch : instr.branchTargets = []) (notLeave : instr ≠ .leave) :
    OnOperands (scope.instr instr) := by
  cases instr with
  | block | loop | ifElse => cases plain
  | br | brIf => cases notBranch
  | brTable => exact absurd notBranch (by simp [Instr.branchTargets])
  | leave => exact absurd rfl notLeave
  | binary opcode | compare opcode => exact binary scope opcode
  | convert opcode | unary opcode => exact unary scope opcode
  | callIndirect declaration table => exact callIndirect scope declaration table
  | nop | unreachable => exact pure _
  | drop | localSet | localTee => exact bind _ _
  | const | call | select | localGet | globalGet | globalSet | load | store | memoryGrow
  | memorySize | memoryFill | memoryCopy => exact bind _ _
  | _ => exact lift _

end OnOperands

end WasmLowering.Emission
