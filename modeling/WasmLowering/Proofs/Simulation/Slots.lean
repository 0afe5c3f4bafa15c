import WasmLowering.Proofs.Lowering.Emitted

/-! Values of the operand stack in slots.

The slots of a configuration hold a stack when every position that is in use holds
the value at that position, in the variable for its type. What is in other
variables does not matter. -/

namespace WasmLowering.C

variable {Value : Type} {slots : Slot → Value}

def HoldsAt (slots : Slot → Value) (depth : Nat) (type : ValueType) (value : Value) : Prop :=
  ∀ slot : Slot, slot.IsAt depth type → slots slot = value

inductive Holds (slots : Slot → Value) : List ValueType → List Value → Prop
  | nil : Holds slots [] []
  | cons {type types value values} (top : HoldsAt slots types.length type value)
      (others : Holds slots types values) : Holds slots (type :: types) (value :: values)

inductive HoldsRow (slots : Slot → Value) : (start : Nat) → List ValueType → List Value → Prop
  | nil {start} : HoldsRow slots start [] []
  | cons {start type types value values} (first : HoldsAt slots start type value)
      (others : HoldsRow slots (start + 1) types values) :
      HoldsRow slots start (type :: types) (value :: values)

theorem Holds.length_eq {types : List ValueType} {values : List Value}
    (holds : Holds slots types values) : values.length = types.length := by
  induction holds with
  | nil => rfl
  | cons _ _ induction => rw [List.length_cons, List.length_cons, induction]

theorem HoldsRow.length_eq {start : Nat} {types : List ValueType} {values : List Value}
    (holds : HoldsRow slots start types values) : values.length = types.length := by
  induction holds with
  | nil => rfl
  | cons _ _ induction => rw [List.length_cons, List.length_cons, induction]

/-! ## Writing to slots -/

theorem HoldsAt.update {depth : Nat} {type : ValueType} {value : Value}
    (holds : HoldsAt slots depth type value) {target : Slot} (other : target.depth ≠ depth)
    (written : Value) : HoldsAt (Function.update slots target written) depth type value := by
  intro slot isAt
  have different : slot ≠ target := by
    rintro rfl
    exact other isAt.depth
  rw [Function.update_of_ne different]
  exact holds slot isAt

theorem HoldsAt.written {depth : Nat} {type : ValueType} {target : Slot}
    (isTarget : target.IsAt depth type) (slots : Slot → Value) (value : Value) :
    HoldsAt (Function.update slots target value) depth type value := by
  intro slot isAt
  have same : slot = target := by
    have depths : slot.depth = target.depth := isAt.depth.trans isTarget.depth.symm
    have types : slot.type = target.type := Option.some.inj (isAt.type.symm.trans isTarget.type)
    cases slot
    cases target
    cases depths
    cases types
    rfl
  rw [same, Function.update_self]

theorem Holds.update {types : List ValueType} {values : List Value}
    (holds : Holds slots types values) {target : Slot} (above : types.length ≤ target.depth)
    (written : Value) : Holds (Function.update slots target written) types values := by
  induction holds with
  | nil => exact .nil
  | cons top _ induction =>
      rw [List.length_cons] at above
      exact .cons (top.update (Nat.ne_of_gt above) written) (induction (Nat.le_of_lt above))

theorem HoldsRow.update {start : Nat} {types : List ValueType} {values : List Value}
    (holds : HoldsRow slots start types values) {target : Slot} (below : target.depth < start)
    (written : Value) : HoldsRow (Function.update slots target written) start types values := by
  induction holds with
  | nil => exact .nil
  | cons first _ induction =>
      exact .cons (first.update (Nat.ne_of_lt below) written)
        (induction (Nat.lt_succ_of_lt below))

theorem Holds.lower {above below : List ValueType} {values : List Value}
    (holds : Holds slots (above ++ below) values) :
    Holds slots below (values.drop above.length) := by
  induction above generalizing values with
  | nil => exact holds
  | cons type above induction =>
      rcases holds with _ | ⟨_, others⟩
      exact induction others

theorem Holds.push {types : List ValueType} {values : List Value}
    (holds : Holds slots types values) {type : ValueType} {target : Slot}
    (isTarget : target.IsAt types.length type) (value : Value) :
    Holds (Function.update slots target value) (type :: types) (value :: values) :=
  .cons (.written isTarget slots value) (holds.update (Nat.le_of_eq isTarget.depth.symm) value)

/-! ## Rows on top of a stack -/

/-- The topmost values of a stack are a row on what is below them. -/
theorem Holds.split {types below : List ValueType} {values : List Value}
    (holds : Holds slots (types.reverse ++ below) values) :
    ∃ row rest, values = row.reverse ++ rest ∧ HoldsRow slots below.length types row ∧
      Holds slots below rest := by
  induction types generalizing below with
  | nil => exact ⟨[], values, rfl, .nil, holds⟩
  | cons type types induction =>
      rw [List.reverse_cons, List.append_assoc] at holds
      rcases induction holds with ⟨row, rest, rfl, isRow, isRest⟩
      rcases isRest with _ | ⟨isFirst, isBelow⟩
      exact ⟨_ :: row, _, by simp, .cons isFirst isRow, isBelow⟩

theorem SlotsAt.map {start : Nat} {types : List ValueType} {operands : List Slot}
    (areAt : SlotsAt start types operands) {values : List Value}
    (isRow : HoldsRow slots start types values) : operands.map slots = values := by
  induction areAt generalizing values with
  | nil =>
      cases isRow
      rfl
  | cons first _ induction =>
      rcases isRow with _ | ⟨isFirst, isLater⟩
      rw [List.map_cons, isFirst _ first, induction isLater]

theorem TargetAt.map {start : Nat} {types : List ValueType} {target : Option Slot}
    (isTarget : TargetAt start types target) {values : List Value}
    (isRow : HoldsRow slots start types values) : target.toList.map slots = values := by
  cases isTarget with
  | nothing =>
      cases isRow
      rfl
  | value isAt =>
      rcases isRow with _ | ⟨isFirst, isLater⟩
      cases isLater
      rw [Option.toList_some, List.map_cons, isFirst _ isAt, List.map_nil]

theorem TargetAt.store {below results : List ValueType} {target : Option Slot}
    (isTarget : TargetAt below.length results target) {rest : List Value}
    (isRest : Holds slots below rest) {values : List Value}
    (counted : values.length = results.length) :
    Holds (storeResult slots target values) (results.reverse ++ below)
      (values.reverse ++ rest) := by
  cases isTarget with
  | nothing =>
      rw [List.eq_nil_of_length_eq_zero counted]
      exact isRest
  | value isAt =>
      rcases List.length_eq_one_iff.mp counted with ⟨value, rfl⟩
      exact isRest.push isAt value

/-! ## Copies -/

/-- Where values are moved down, none is written over before it has been copied. -/
theorem Copies.stack {source target : Nat} {types : List ValueType} {pairs : List (Slot × Slot)}
    (copies : Copies source target types pairs) (down : target ≤ source) {values : List Value}
    (isRow : HoldsRow slots source types values) {below : List ValueType} {rest : List Value}
    (onTop : target = below.length) (isRest : Holds slots below rest) :
    Holds (copySlots slots pairs) (types.reverse ++ below) (values.reverse ++ rest) := by
  -- What has been copied so far is on the stack, and only what has not is in the row.
  induction copies generalizing slots values below rest with
  | nil =>
      cases isRow
      exact isRest
  | stay same others induction =>
      rcases isRow with _ | ⟨isFirst, isLater⟩
      rw [List.reverse_cons, List.reverse_cons, List.append_assoc, List.append_assoc]
      rw [same, onTop] at isFirst
      exact induction (Nat.succ_le_succ down) isLater (congrArg Nat.succ onTop)
        (.cons isFirst isRest)
  | @move source target type types pairs left right isLeft isRight others induction =>
      rcases isRow with _ | ⟨isFirst, isLater⟩
      rw [List.reverse_cons, List.reverse_cons, List.append_assoc, List.append_assoc]
      have isBelow : left.depth < source + 1 := by
        rw [isLeft.depth]
        exact Nat.lt_succ_of_le down
      rw [onTop] at isLeft
      have isCopied := isRest.push isLeft (slots right)
      rw [isFirst right isRight] at isCopied
      have isKept := isLater.update isBelow (slots right)
      rw [isFirst right isRight] at isKept
      rw [copySlots, List.foldl_cons]
      simp only [isFirst right isRight]
      exact induction (Nat.succ_le_succ down) isKept (congrArg Nat.succ onTop) isCopied

end WasmLowering.C
