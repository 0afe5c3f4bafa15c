import WasmLowering.Proofs.Lowering.Labels
import WasmLowering.Proofs.Lowering.Parts
import WasmLowering.Proofs.Semantics.Statements

/-! The copies of a jump as one parallel move.

The copies are made one after another, from the lowest position on, and the positions
they write to can be among those that later copies read. Values only move down, so
every copy writes below all that is still to be read, and in the end each position
holds what its source held before the first copy. -/

namespace WasmLowering.C

variable {Value : Type}

/-! ## Rows that move -/

def moveRow (source target : Nat) (types : List ValueType) (slots : Slot → Value) : Slot → Value :=
  fun slot =>
    if target ≤ slot.depth ∧ types[slot.depth - target]? = some slot.type.toValueType then
      slots ⟨source + (slot.depth - target), slot.type⟩
    else slots slot

theorem moveRow_below {source target depth : Nat} (below : depth < target)
    (types : List ValueType) (slots : Slot → Value) (type : Scalar) :
    moveRow source target types slots ⟨depth, type⟩ = slots ⟨depth, type⟩ :=
  if_neg fun inside => Nat.not_le.mpr below inside.1

theorem moveRow_at (source target position : Nat) (types : List ValueType)
    (slots : Slot → Value) (type : Scalar) :
    moveRow source target types slots ⟨target + position, type⟩ =
      if types[position]? = some type.toValueType then slots ⟨source + position, type⟩
      else slots ⟨target + position, type⟩ := by
  simp [moveRow]

theorem moveRow_nil (source target : Nat) (slots : Slot → Value) :
    moveRow source target [] slots = slots := by
  funext slot
  simp [moveRow]

theorem moveRow_same (start : Nat) (types : List ValueType) (slots : Slot → Value) :
    moveRow start start types slots = slots := by
  funext slot
  unfold moveRow
  split
  · next inside => rw [Nat.add_sub_cancel' inside.1]
  · rfl

/-- Where a row moves down, its first value can be copied before the others move. -/
theorem moveRow_cons {source target : Nat} (down : target ≤ source) (scalar : Scalar)
    (types : List ValueType) (slots : Slot → Value) :
    moveRow source target (scalar.toValueType :: types) slots =
      moveRow (source + 1) (target + 1) types
        (Function.update slots ⟨target, scalar⟩ (slots ⟨source, scalar⟩)) := by
  have elsewhere : ∀ depth type, depth ≠ target →
      Function.update slots ⟨target, scalar⟩ (slots ⟨source, scalar⟩) ⟨depth, type⟩ =
        slots ⟨depth, type⟩ := by
    intro depth type other
    apply Function.update_of_ne
    rintro ⟨⟩
    exact other rfl
  funext ⟨depth, type⟩
  rcases Nat.lt_or_ge depth target with below | above
  · rw [moveRow_below below, moveRow_below (Nat.lt_succ_of_lt below),
      elsewhere depth type (Nat.ne_of_lt below)]
  · rcases Nat.exists_eq_add_of_le above with ⟨position, rfl⟩
    cases position with
    | zero =>
        rw [moveRow_at, moveRow_below (Nat.lt_succ_self (target + 0))]
        by_cases same : scalar.toValueType = type.toValueType
        · have sameType : scalar = type := by simpa using congrArg ValueType.scalar? same
          subst sameType
          simp
        · have otherSlot : (⟨target, type⟩ : Slot) ≠ ⟨target, scalar⟩ := by
            rintro ⟨⟩
            exact same rfl
          simp [otherSlot, same]
    | succ position =>
        have isTarget : target + (position + 1) = target + 1 + position := by omega
        have isSource : source + (position + 1) = source + 1 + position := by omega
        rw [moveRow_at, isTarget, moveRow_at, elsewhere _ _ (by omega), elsewhere _ _ (by omega),
          List.getElem?_cons_succ, isSource]

theorem Copies.copySlots_eq {source target : Nat} {types : List ValueType}
    {pairs : List (Slot × Slot)} (copies : Copies source target types pairs)
    (down : target ≤ source) (slots : Slot → Value) :
    copySlots slots pairs = moveRow source target types slots := by
  induction copies generalizing slots with
  | nil => exact (moveRow_nil _ _ _).symm
  | stay same others induction =>
      subst same
      rw [induction (Nat.le_refl _), moveRow_same, moveRow_same]
  | @move source target type types pairs left right isLeft isRight others induction =>
      have isType := (ValueType.scalar?_eq_some_iff type left.type).mp isLeft.type
      have sameType : right.type = left.type :=
        Option.some.inj (isRight.type.symm.trans isLeft.type)
      have leftSlot : left = ⟨target, left.type⟩ := by rw [← isLeft.depth]
      have rightSlot : right = ⟨source, left.type⟩ := by rw [← isRight.depth, ← sameType]
      rw [isType, moveRow_cons down, ← leftSlot, ← rightSlot]
      exact induction (Nat.succ_le_succ down) _

theorem Copies.scalars {source target : Nat} {types : List ValueType}
    {pairs : List (Slot × Slot)} (copies : Copies source target types pairs)
    (different : source ≠ target) :
    ∀ type ∈ types, ∃ scalar : Scalar, type.scalar? = some scalar := by
  induction copies with
  | nil => exact nofun
  | stay same => exact absurd same different
  | move isLeft _ _ induction =>
      exact List.forall_mem_cons.mpr ⟨⟨_, isLeft.type⟩, induction (by omega)⟩

end WasmLowering.C

namespace WasmLowering.Emission

open C (Slot Copies copySlots moveRow)

/-! ## The copies of a branch -/

theorem slot_runs (depth : Nat) {type : ValueType} {scalar : Scalar}
    (isScalar : type.scalar? = some scalar) (state : State) :
    ∃ found after, slot depth type state = .ok (found, after) ∧ state.Mentions after := by
  have mangled : Symbol.mangledType type = .ok scalar := by rw [Symbol.mangledType, isScalar]
  refine ⟨⟨depth, scalar⟩, state.mention (.slot ⟨depth, scalar⟩), ?_, state.mentions_mention _⟩
  rw [slot, mangled]
  rfl

theorem copies_same (start : Nat) (carried : List ValueType) (state : State) :
    copies start start carried state = .ok ([], state) := by
  induction carried generalizing start with
  | nil => rfl
  | cons type rest induction =>
      rw [copies, if_pos rfl]
      exact induction (start + 1)

theorem copies_run (source target : Nat) {carried : List ValueType}
    (scalars : ∀ type ∈ carried, ∃ scalar : Scalar, type.scalar? = some scalar) {state : State}
    (row : state.HasRow source carried) :
    ∃ pairs after, copies source target carried state = .ok (pairs, after) := by
  induction carried generalizing source target state with
  | nil => exact ⟨[], state, rfl⟩
  | cons type rest induction =>
      rcases scalars type List.mem_cons_self with ⟨scalar, isScalar⟩
      have restScalars : ∀ other ∈ rest, ∃ scalar : Scalar, other.scalar? = some scalar :=
        fun other member => scalars other (List.mem_cons_of_mem type member)
      have isType : state.typeAtDepth source = type := row 0 type rfl
      rw [copies]
      split
      · exact induction (source + 1) (target + 1) restScalars row.tail
      · rcases slot_runs target isScalar state with ⟨left, _, isLeft, mentioned, rfl⟩
        rcases slot_runs source (isType ▸ isScalar) { state with mentioned } with
          ⟨right, _, isRight, mentionedLater, rfl⟩
        have later : { state with mentioned := mentionedLater }.HasRow (source + 1) rest := row.tail
        rcases induction (source + 1) (target + 1) restScalars later with ⟨pairs, after, arePairs⟩
        refine ⟨(left, right) :: pairs, after, ?_⟩
        exact bind_run isLeft (bind_run rfl (bind_run isRight (bind_run arePairs rfl)))

theorem promised_runs {σ : Type} {condition : Prop} [Decidable condition] (holds : condition)
    (otherwise : Defect) (state : σ) :
    (liftM (promised condition otherwise) : StateT σ (Except EmitError) Unit) state =
      .ok ((), state) := by
  rw [promised, require, if_pos holds]
  rfl

/-- Where a label is found and what it carries is there, all that is left of a branch is
the copies. -/
theorem jumpTo_eq_ok_iff {func : String} {target : Reference} {state after : State}
    {opened : OpenLabel} (isFound : findLabel func target state = .ok (opened, state))
    (enough : opened.entry + opened.carried.length ≤ state.height) {jump : C.Jump} :
    jumpTo func target state = .ok (jump, after) ↔
      copies (state.height - opened.carried.length) opened.entry opened.carried
        { state with targets := opened.label.number :: state.targets } =
          .ok (jump.copies, after) ∧
        jump.target = opened.label := by
  constructor
  · intro runs
    rcases run_bind runs with ⟨found, between, finds, runs⟩
    rw [isFound] at finds
    cases finds
    rcases run_bind runs with ⟨_, between, isMarked, runs⟩
    cases isMarked
    rcases run_bind runs with ⟨_, between, isState, runs⟩
    cases isState
    rcases run_bind runs with ⟨_, between, isPromised, runs⟩
    rcases lift_eq_ok isPromised with ⟨_, rfl⟩
    rcases run_bind runs with ⟨pairs, between, areCopies, isJump⟩
    cases isJump
    exact ⟨areCopies, rfl⟩
  · rcases jump with ⟨pairs, label⟩
    rintro ⟨areCopies, rfl⟩
    apply bind_run isFound
    apply bind_run rfl
    apply bind_run rfl
    apply bind_run (promised_runs enough _ _)
    exact bind_run areCopies rfl

section

variable {func : String} {target : Reference} {state : State} {opened : OpenLabel}
  (isFound : findLabel func target state = .ok (opened, state))
  (enough : opened.entry + opened.carried.length ≤ state.height)
  (onTop : opened.carried.reverse <+: state.stack)

include isFound enough onTop

/-- The copies of a branch move down what is on top of the stack. -/
theorem jumpTo_copies {jump : C.Jump} {after : State}
    (runs : jumpTo func target state = .ok (jump, after)) :
    Copies (state.height - opened.carried.length) opened.entry opened.carried jump.copies := by
  have row : { state with targets := opened.label.number :: state.targets }.HasRow
      (state.height - opened.carried.length) opened.carried := State.hasRow_of_prefix onTop
  rw [jumpTo_eq_ok_iff isFound enough] at runs
  exact ((copies_meets _ _ row).of_ok runs.1).1

/-- There is a jump unless a value without a C type would have to move. -/
theorem jumpTo_runs_iff :
    (∃ jump after, jumpTo func target state = .ok (jump, after)) ↔
      (opened.entry + opened.carried.length = state.height ∨
        ∀ type ∈ opened.carried, ∃ scalar : Scalar, type.scalar? = some scalar) := by
  constructor
  · rintro ⟨jump, after, runs⟩
    by_cases same : state.height - opened.carried.length = opened.entry
    · exact .inl (by omega)
    · exact .inr ((jumpTo_copies isFound enough onTop runs).scalars same)
  · let marked : State := { state with targets := opened.label.number :: state.targets }
    rintro (same | scalars)
    · have inPlace : state.height - opened.carried.length = opened.entry := by omega
      refine ⟨⟨[], opened.label⟩, marked, (jumpTo_eq_ok_iff isFound enough).mpr ⟨?_, rfl⟩⟩
      rw [inPlace]
      exact copies_same _ _ marked
    · have row : marked.HasRow (state.height - opened.carried.length) opened.carried :=
        State.hasRow_of_prefix onTop
      rcases copies_run _ opened.entry scalars row with ⟨pairs, after, runs⟩
      exact ⟨⟨pairs, opened.label⟩, after, (jumpTo_eq_ok_iff isFound enough).mpr ⟨runs, rfl⟩⟩

end

/-- The copies of a branch are one parallel move. Where the types that a label carries are
on top of the stack, there is a jump unless a value without a C type would have to move.
Its copies, one after another, put into the slot of each value that the label carries what
the slot of this value on top of the stack held before the first copy; all other slots are
as they were, those below the label among them. -/
theorem jumpTo_moves_at_once (func : String) (target : Reference) (state : State)
    (opened : OpenLabel) (isFound : findLabel func target state = .ok (opened, state))
    (enough : opened.entry + opened.carried.length ≤ state.height)
    (onTop : opened.carried.reverse <+: state.stack) :
    ((∃ jump after, jumpTo func target state = .ok (jump, after)) ↔
      (opened.entry + opened.carried.length = state.height ∨
        ∀ type ∈ opened.carried, ∃ scalar : Scalar, type.scalar? = some scalar)) ∧
    ∀ jump after, jumpTo func target state = .ok (jump, after) →
      jump.target = opened.label ∧
      ∀ (Value : Type) (slots : Slot → Value),
        (∀ position scalar, opened.carried[position]? = some scalar.toValueType →
          copySlots slots jump.copies ⟨opened.entry + position, scalar⟩ =
            slots ⟨state.height - opened.carried.length + position, scalar⟩) ∧
        (∀ slot, (∀ position, opened.carried[position]? = some slot.type.toValueType →
          slot.depth ≠ opened.entry + position) → copySlots slots jump.copies slot = slots slot) ∧
        ∀ slot, slot.depth < opened.entry → copySlots slots jump.copies slot = slots slot := by
  refine ⟨jumpTo_runs_iff isFound enough onTop, fun jump after runs => ?_⟩
  refine ⟨((jumpTo_eq_ok_iff isFound enough).mp runs).2, fun Value slots => ?_⟩
  have down : opened.entry ≤ state.height - opened.carried.length := by omega
  rw [(jumpTo_copies isFound enough onTop runs).copySlots_eq down]
  refine ⟨?_, ?_, ?_⟩
  · intro position scalar isType
    rw [C.moveRow_at, if_pos isType]
  · intro slot apart
    apply if_neg
    rintro ⟨above, isType⟩
    exact apart _ isType (Nat.add_sub_cancel' above).symm
  · intro slot below
    exact C.moveRow_below below _ _ _

/-! A block with two results, both of which move down by one position: the first copy
writes to the slot below the one that the second copy writes to, and reads that one. -/

def overlappingBlock : OpenLabel :=
  ⟨⟨1, "$B0"⟩, false, ⟨[], [.i32, .i32]⟩, 0⟩

def overlappingState : State :=
  { stack := [.i32, .i32, .i32], labels := [overlappingBlock], labelCount := 2 }

theorem jumpTo_moves_at_once_overlapping :
    findLabel "$f0" (.name "$B0") overlappingState = .ok (overlappingBlock, overlappingState) ∧
      ∃ jump after, jumpTo "$f0" (.name "$B0") overlappingState = .ok (jump, after) ∧
        ∀ (Value : Type) (slots : Slot → Value),
          copySlots slots jump.copies ⟨0, .i32⟩ = slots ⟨1, .i32⟩ ∧
          copySlots slots jump.copies ⟨1, .i32⟩ = slots ⟨2, .i32⟩ ∧
          copySlots slots jump.copies ⟨2, .i32⟩ = slots ⟨2, .i32⟩ := by
  have isFound : findLabel "$f0" (.name "$B0") overlappingState =
      .ok (overlappingBlock, overlappingState) := rfl
  have moves := jumpTo_moves_at_once "$f0" (.name "$B0") overlappingState overlappingBlock isFound
    (by decide) (by decide)
  rcases moves.1.mpr (.inr (by simp [overlappingBlock, OpenLabel.carried, ValueType.scalar?])) with
    ⟨jump, after, runs⟩
  refine ⟨isFound, jump, after, runs, fun Value slots => ?_⟩
  have known := (moves.2 jump after runs).2 Value slots
  refine ⟨known.1 0 .i32 rfl, known.1 1 .i32 rfl, known.2.1 ⟨2, .i32⟩ ?_⟩
  intro position isType atPosition
  have isSecond : position = 2 := by simpa [overlappingBlock] using atPosition.symm
  subst isSecond
  cases isType

end WasmLowering.Emission
