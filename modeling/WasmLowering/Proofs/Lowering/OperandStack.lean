import Mathlib.Data.List.Nodup
import WasmLowering.Proofs.Lowering.Postcondition
import WasmLowering.Proofs.Typing.Rules

/-! What the steps of the lowering do to its state: the operand stack and the slots
of operands. Mentioning a slot changes nothing else. -/

namespace WasmLowering

structure C.Slot.IsAt (slot : C.Slot) (depth : Nat) (type : ValueType) : Prop where
  depth : slot.depth = depth
  type : type.scalar? = some slot.type

inductive C.SlotsAt : (start : Nat) → List ValueType → List C.Slot → Prop
  | nil {start} : SlotsAt start [] []
  | cons {start type types slot slots} (first : slot.IsAt start type)
      (others : SlotsAt (start + 1) types slots) : SlotsAt start (type :: types) (slot :: slots)

inductive C.TargetAt : (start : Nat) → List ValueType → Option C.Slot → Prop
  | nothing {start} : TargetAt start [] none
  | value {start type slot} (isAt : slot.IsAt start type) : TargetAt start [type] (some slot)

/-- Copies that move values with the given types down from one position to
another. Values that stay where they are need no copy. -/
inductive C.Copies : (source target : Nat) → List ValueType → List (C.Slot × C.Slot) → Prop
  | nil {source target} : Copies source target [] []
  | stay {source target type types pairs} (same : source = target)
      (others : Copies (source + 1) (target + 1) types pairs) :
      Copies source target (type :: types) pairs
  | move {source target type types pairs} {left right : C.Slot} (isLeft : left.IsAt target type)
      (isRight : right.IsAt source type)
      (others : Copies (source + 1) (target + 1) types pairs) :
      Copies source target (type :: types) ((left, right) :: pairs)

namespace Emission

open C (Slot SlotsAt)

variable {lenient : Prop}

def State.Mentions (state after : State) : Prop :=
  ∃ mentioned, after = { state with mentioned }

theorem State.mentions_mention (state : State) (ident : C.Ident) :
    state.Mentions (state.mention ident) := by
  unfold State.mention
  split
  · exact ⟨state.mentioned, rfl⟩
  · exact ⟨_, rfl⟩

/-! ## The operand stack -/

theorem push_meets (type : ValueType) (state : State) :
    Meets lenient (push type) state fun _ after =>
      after = { state with stack := type :: state.stack } :=
  Meets.modify _ state

theorem pushAll_meets (types : List ValueType) (state : State) :
    Meets lenient (pushAll types) state fun _ after =>
      after = { state with stack := types.reverse ++ state.stack } :=
  Meets.modify _ state

theorem need_meets (func : String) {count : Nat} {state : State}
    (enough : state.floor + count ≤ state.height) :
    Meets lenient (need func count) state fun _ after => after = state := by
  refine .bind_get ?_
  exact (Meets.lift (Gives.promised enough _) _).mono fun _ after kept => kept.2

theorem pop_meets (func : String) {count : Nat} {state : State}
    (enough : state.floor + count ≤ state.height) :
    Meets lenient (pop func count) state fun _ after =>
      after = { state with stack := state.stack.drop count } := by
  refine .bind_get (.bind_promised enough ?_)
  exact Meets.set _ _

theorem resetStack_meets (func : String) {height : Nat} {state : State}
    {above below : List ValueType} (isStack : state.stack = above ++ below)
    (isHeight : height = below.length) :
    Meets lenient (resetStack func height) state fun _ after =>
      after = { state with stack := below } := by
  have total : state.height = above.length + height := by
    rw [State.height, isStack, List.length_append, isHeight]
  refine .bind_get (.bind_promised (total ▸ Nat.le_add_left _ _) ?_)
  refine (Meets.set _ _).mono ?_
  rintro _ _ rfl
  rw [total, Nat.add_sub_cancel, isStack, List.drop_left]

theorem checkHeight_meets (func place : String) {expected : Nat} {state : State}
    (isHeight : state.height = expected) :
    Meets lenient (checkHeight func place expected) state fun _ after => after = state := by
  refine .bind_get ?_
  exact (Meets.lift (Gives.promised isHeight _) _).mono fun _ after kept => kept.2

theorem typeAt_meets (func : String) {operand : Nat} {state : State} {type : ValueType}
    (enough : state.floor + (operand + 1) ≤ state.height)
    (isType : state.stack[operand]? = some type) :
    Meets lenient (typeAt func operand) state fun result after =>
      result = type ∧ after = state := by
  refine (need_meets func enough).bind fun _ _ same => ?_
  subst same
  refine .bind_get ?_
  exact .pure ⟨by rw [isType, Option.getD_some], rfl⟩

/-! ## Slots -/

theorem slot_meets (depth : Nat) (type : ValueType) (state : State) :
    Meets lenient (slot depth type) state fun result after =>
      result.IsAt depth type ∧ state.Mentions after := by
  refine (Meets.lift (mangledType_gives type) state).bind fun scalar _ ⟨isScalar, same⟩ => ?_
  subst same
  refine (Meets.modify _ _).bind fun _ after same => ?_
  subst same
  exact .pure ⟨⟨rfl, isScalar⟩, State.mentions_mention _ _⟩

theorem top_meets (func : String) {operand : Nat} {state : State} {type : ValueType}
    (enough : state.floor + (operand + 1) ≤ state.height)
    (isType : state.stack[operand]? = some type) :
    Meets lenient (top func operand) state fun result after =>
      result.IsAt (state.height - 1 - operand) type ∧ state.Mentions after := by
  refine (typeAt_meets func enough isType).bind fun _ _ ⟨isResult, same⟩ => ?_
  subst isResult same
  exact .bind_get (slot_meets _ _ _)

theorem topAs_meets (func : String) {operand : Nat} {state : State} (type : ValueType)
    (enough : state.floor + (operand + 1) ≤ state.height) :
    Meets lenient (topAs func operand type) state fun result after =>
      result.IsAt (state.height - 1 - operand) type ∧ state.Mentions after := by
  refine (need_meets func enough).bind fun _ _ same => ?_
  subst same
  exact .bind_get (slot_meets _ _ _)

theorem resultSlot_meets (depth : Nat) {results : List ValueType} (single : results.length ≤ 1)
    (state : State) :
    Meets lenient (Scope.resultSlot depth results) state fun target after =>
      C.TargetAt depth results target ∧ state.Mentions after := by
  match results with
  | [] => exact .pure ⟨.nothing, state.mentioned, rfl⟩
  | [type] =>
      refine (slot_meets depth type state).bind fun target after ⟨isAt, mentions⟩ => ?_
      exact .pure ⟨.value isAt, mentions⟩
  | _ :: _ :: _ => simp at single

theorem operands_meets (scope : Scope) (count : Nat) {state : State}
    (enough : state.floor + count ≤ state.height) :
    Meets lenient (scope.operands count) state fun slots after =>
      SlotsAt (state.height - count) (state.stack.take count).reverse slots ∧
        state.Mentions after := by
  induction count generalizing state with
  | zero => exact .pure ⟨.nil, state.mentioned, rfl⟩
  | succ count induction =>
      have inside : count < state.stack.length := by
        have bound : state.floor + (count + 1) ≤ state.stack.length := enough
        omega
      refine (top_meets _ enough (List.getElem?_eq_getElem inside)).bind ?_
      rintro first _ ⟨isFirst, mentioned, rfl⟩
      refine (induction ?_).bind ?_
      · exact Nat.le_trans (Nat.add_le_add_left (Nat.le_succ _) _) enough
      rintro others _ ⟨areOthers, mentionedLater, rfl⟩
      refine .pure ⟨?_, mentionedLater, rfl⟩
      rw [List.take_succ_eq_append_getElem inside, List.reverse_append, List.reverse_singleton,
        List.singleton_append]
      have positions : state.height - (count + 1) + 1 = state.height - count := by
        have bound : count < state.height := inside
        omega
      refine .cons ?_ (positions ▸ areOthers)
      rwa [Nat.sub_sub, Nat.add_comm 1 count] at isFirst

theorem operandsBelow_meets (scope : Scope) (count : Nat) {state : State}
    (enough : state.floor + (count + 1) ≤ state.height) :
    Meets lenient (scope.operandsBelow count) state fun slots after =>
      SlotsAt (state.height - 1 - count) (state.stack.tail.take count).reverse slots ∧
        state.Mentions after := by
  induction count generalizing state with
  | zero => exact .pure ⟨.nil, state.mentioned, rfl⟩
  | succ count induction =>
      have inside : count + 1 < state.stack.length := by
        have bound : state.floor + (count + 1 + 1) ≤ state.stack.length := enough
        omega
      have insideTail : count < state.stack.tail.length := by
        rw [List.length_tail]
        omega
      refine (top_meets _ enough (List.getElem?_eq_getElem inside)).bind ?_
      rintro first _ ⟨isFirst, mentioned, rfl⟩
      refine (induction ?_).bind ?_
      · exact Nat.le_trans (Nat.add_le_add_left (Nat.le_succ _) _) enough
      rintro others _ ⟨areOthers, mentionedLater, rfl⟩
      refine .pure ⟨?_, mentionedLater, rfl⟩
      rw [List.take_succ_eq_append_getElem insideTail, List.reverse_append,
        List.reverse_singleton, List.singleton_append, List.getElem_tail]
      have positions : state.height - 1 - (count + 1) + 1 = state.height - 1 - count := by
        have bound : count + 1 < state.height := inside
        omega
      exact .cons isFirst (positions ▸ areOthers)

def State.HasRow (state : State) (start : Nat) (types : List ValueType) : Prop :=
  ∀ position type, types[position]? = some type → state.typeAtDepth (start + position) = type

theorem State.HasRow.tail {state : State} {start : Nat} {type : ValueType}
    {types : List ValueType} (row : state.HasRow start (type :: types)) :
    state.HasRow (start + 1) types := by
  intro position other isType
  have known := row (position + 1) other (by simpa using isType)
  rwa [← Nat.add_assoc, Nat.add_right_comm] at known

theorem copies_meets (source target : Nat) {carried : List ValueType} {state : State}
    (row : state.HasRow source carried) :
    Meets lenient (copies source target carried) state fun pairs after =>
      C.Copies source target carried pairs ∧ state.Mentions after := by
  induction carried generalizing source target state with
  | nil => exact .pure ⟨.nil, state.mentioned, rfl⟩
  | cons type rest induction =>
      rw [copies]
      split
      · next same =>
          refine (induction (source + 1) (target + 1) row.tail).mono ?_
          exact fun pairs after ⟨areCopies, mentions⟩ => ⟨.stay same areCopies, mentions⟩
      · refine (slot_meets target type state).bind ?_
        rintro left _ ⟨isLeft, mentioned, rfl⟩
        refine .bind_get ((slot_meets source _ _).bind ?_)
        rintro right _ ⟨isRight, mentionedLater, rfl⟩
        have later : { state with mentioned := mentionedLater }.HasRow (source + 1) rest := row.tail
        refine (induction (source + 1) (target + 1) later).bind ?_
        rintro pairs _ ⟨areCopies, mentionedLast, rfl⟩
        have isType : state.typeAtDepth source = type := row 0 type rfl
        exact .pure ⟨.move isLeft (isType ▸ isRight) areCopies, mentionedLast, rfl⟩

end Emission

end WasmLowering
