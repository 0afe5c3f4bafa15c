import WasmLowering.C.Spelling
import WasmLowering.Proofs.Lowering.Postcondition
import WasmLowering.Proofs.Results

/-! What lowering leaves, whatever the code is.

No types are needed here: the labels that are open around an instruction are open
behind it too, and everything that the emitted statements refer to has been
mentioned, or is a parameter or local. `Frames` says this of one computation, from
the labels that are open and what is known before to those after it. -/

namespace WasmLowering.C

/-! ## What statements refer to -/

def Expr.idents : Expr → List Ident
  | .literal _ => []
  | .named name => [.named name]
  | .global _ => []
  | .unary _ operand => [.slot operand]
  | .binary _ left right => [.slot left, .slot right]
  | .select condition first second => [.slot condition, .slot first, .slot second]
  | .load _ _ address _ => [.slot address]
  | .size _ => []
  | .grow _ pages => [.slot pages]

def Jump.idents (jump : Jump) : List Ident :=
  jump.copies.flatMap (fun (target, source) => [.slot target, .slot source]) ++
    [.label jump.target]

def slotIdents (slots : List Slot) : List Ident := slots.map .slot

mutual

def Stmt.idents : Stmt → List Ident
  | .assign target value => .slot target :: value.idents
  | .setNamed name value => [.named name, .slot value]
  | .setGlobal _ value => [.slot value]
  | .store _ _ address _ value => slotIdents [address, value]
  | .fill _ start value count => slotIdents [start, value, count]
  | .copy _ _ start origin count => slotIdents [start, origin, count]
  | .call target _ arguments => slotIdents (target.toList ++ arguments)
  | .callIndirect target _ _ _ position arguments =>
      slotIdents (target.toList ++ position :: arguments)
  | .trap => []
  | .jump branch => branch.idents
  | .jumpIf condition branch => .slot condition :: branch.idents
  | .switch position cases otherwise =>
      .slot position :: (cases.flatMap Jump.idents ++ otherwise.idents)
  | .label place => [.label place]
  | .ifThen condition body => .slot condition :: Stmt.identsOfList body
  | .ifThenElse condition thenBody elseBody =>
      .slot condition :: (Stmt.identsOfList thenBody ++ Stmt.identsOfList elseBody)

def Stmt.identsOfList : List Stmt → List Ident
  | [] => []
  | stmt :: rest => stmt.idents ++ Stmt.identsOfList rest

end

@[simp, grind =] theorem Stmt.identsOfList_nil : Stmt.identsOfList [] = [] := rfl

@[simp, grind =] theorem Stmt.identsOfList_cons (stmt : Stmt) (rest : List Stmt) :
    Stmt.identsOfList (stmt :: rest) = stmt.idents ++ Stmt.identsOfList rest := rfl

@[simp, grind =] theorem Stmt.identsOfList_append (first second : List Stmt) :
    Stmt.identsOfList (first ++ second) = Stmt.identsOfList first ++ Stmt.identsOfList second := by
  induction first with
  | nil => rfl
  | cons stmt rest induction => simp [induction]

end WasmLowering.C

namespace WasmLowering.Emission

open C (Slot Ident Jump Stmt slotIdents)

/-! ## Frames -/

def Scope.Knows (scope : Scope) (state : State) (ident : Ident) : Prop :=
  ident ∈ state.mentioned ∨ ∃ name ∈ scope.declared, ident = .named name

structure Framed (scope : Scope) (labels : List OpenLabel) (known : List Ident) (state : State) :
    Prop where
  isOpen : state.labels = labels
  mentioned : ∀ opened ∈ labels, .label opened.label ∈ state.mentioned
  knows : ∀ ident ∈ known, scope.Knows state ident

/-- From a state with open labels, a computation that succeeds ends in a state with
the labels that its value says, and what its value refers to is known. -/
def Frames {α : Type} (scope : Scope) (labels : List OpenLabel) (known : List Ident)
    (action : Lowering α) (after : α → List OpenLabel) (view : α → List Ident) : Prop :=
  ∀ state, Framed scope labels known state →
    Meets True action state fun value next => Framed scope (after value) (known ++ view value) next

namespace Framed

variable {scope : Scope} {labels : List OpenLabel} {known : List Ident} {state next : State}

theorem mono {more : List Ident} (framed : Framed scope labels more state)
    (subset : known ⊆ more) : Framed scope labels known state :=
  ⟨framed.isOpen, framed.mentioned, fun ident member => framed.knows ident (subset member)⟩

theorem start (scope : Scope) : Framed scope [] [] {} :=
  ⟨rfl, fun _ none => absurd none List.not_mem_nil, fun _ none => absurd none List.not_mem_nil⟩

theorem grow (framed : Framed scope labels known state) (sameLabels : next.labels = state.labels)
    (grown : state.mentioned ⊆ next.mentioned) : Framed scope labels known next := by
  refine ⟨sameLabels.trans framed.isOpen, fun opened member => grown (framed.mentioned opened member),
    ?_⟩
  intro ident member
  rcases framed.knows ident member with mentioned | declared
  · exact .inl (grown mentioned)
  · exact .inr declared

theorem withStack (framed : Framed scope labels known state) (stack : List ValueType) :
    Framed scope labels known { state with stack } :=
  framed.grow rfl (List.Subset.refl _)

theorem learn (framed : Framed scope labels known state) {ident : Ident}
    (knows : scope.Knows state ident) : Framed scope labels (known ++ [ident]) state := by
  refine ⟨framed.isOpen, framed.mentioned, ?_⟩
  intro other member
  rcases List.mem_append.mp member with member | member
  · exact framed.knows other member
  · exact List.mem_singleton.mp member ▸ knows

end Framed

theorem mentioned_mention (state : State) (ident : Ident) :
    state.mentioned ⊆ (state.mention ident).mentioned ∧
      ident ∈ (state.mention ident).mentioned := by
  unfold State.mention
  split
  · next known => exact ⟨List.Subset.refl _, by simpa using known⟩
  · exact ⟨List.subset_cons_self _ _, List.mem_cons_self⟩

theorem labels_mention (state : State) (ident : Ident) :
    (state.mention ident).labels = state.labels := by
  unfold State.mention
  split <;> rfl

namespace Frames

variable {α β : Type} {scope : Scope} {labels : List OpenLabel} {known : List Ident}
  {view : α → List Ident} {nextView : β → List Ident}

theorem pure {value : α} (subset : view value ⊆ known) :
    Frames scope labels known (Pure.pure value) (fun _ => labels) view := by
  intro state framed
  apply Meets.pure
  exact framed.mono (by simp [subset])

theorem bind {first : Lowering α} {next : α → Lowering β} {middle : α → List OpenLabel}
    {after : β → List OpenLabel} (given : Frames scope labels known first middle view)
    (later : ∀ value, Frames scope (middle value) (known ++ view value) (next value) after
      nextView) :
    Frames scope labels known (first >>= next) after nextView := by
  intro state framed
  apply (given state framed).bind
  intro value between betweenFramed
  apply (later value between betweenFramed).mono
  intro result next nextFramed
  apply nextFramed.mono
  simp

theorem bind_get {next : State → Lowering α} {after : α → List OpenLabel}
    (later : ∀ current, Framed scope labels known current →
      Frames scope labels known (next current) after view) :
    Frames scope labels known (MonadState.get >>= next) after view := by
  intro state framed
  exact Meets.bind_get (later state framed state framed)

theorem set {next : State} {after : List OpenLabel} (framed : Framed scope after known next) :
    Frames scope labels known (MonadStateOf.set next) (fun _ => after) fun _ => [] := by
  intro state _
  apply (Meets.set next state).mono
  intro _ _ same
  simpa [same] using framed

theorem modify {change : State → State} {after : List OpenLabel}
    (keeps : ∀ state, Framed scope labels known state → Framed scope after known (change state)) :
    Frames scope labels known (modify change) (fun _ => after) fun _ => [] := by
  intro state framed
  apply (Meets.modify change state).mono
  intro _ _ same
  simpa [same] using keeps state framed

theorem lift (result : Except EmitError α) :
    Frames scope labels known (liftM result) (fun _ => labels) fun _ => [] := by
  intro state framed
  apply (Meets.lift (Gives.ofResult result) state).mono
  intro value next ⟨_, same⟩
  simpa [same] using framed

theorem ite {condition : Prop} [Decidable condition] {yes no : Lowering α}
    {after : α → List OpenLabel} (ifYes : Frames scope labels known yes after view)
    (ifNo : Frames scope labels known no after view) :
    Frames scope labels known (if condition then yes else no) after view := by
  split
  · exact ifYes
  · exact ifNo

theorem mapM {change : β → Lowering α} {items : List β}
    (each : ∀ item known, Frames scope labels known (change item) (fun _ => labels) view) :
    Frames scope labels known (items.mapM change) (fun _ => labels) (List.flatMap view) := by
  induction items generalizing known with
  | nil => exact pure (by simp)
  | cons item rest induction =>
      rw [List.mapM_cons]
      apply (each item known).bind
      intro value
      apply induction.bind
      intro values
      exact pure (by simp)

end Frames

/-! ## The operand stack -/

section

variable {scope : Scope} {labels : List OpenLabel} {known : List Ident}

theorem push_frames (type : ValueType) :
    Frames scope labels known (push type) (fun _ => labels) fun _ => [] :=
  .modify fun _ framed => framed.withStack _

theorem pushAll_frames (types : List ValueType) :
    Frames scope labels known (pushAll types) (fun _ => labels) fun _ => [] :=
  .modify fun _ framed => framed.withStack _

theorem need_frames (func : String) (count : Nat) :
    Frames scope labels known (need func count) (fun _ => labels) fun _ => [] :=
  .bind_get fun _ _ => .lift _

theorem pop_frames (func : String) (count : Nat) :
    Frames scope labels known (pop func count) (fun _ => labels) fun _ => [] := by
  apply Frames.bind_get
  intro current framed
  apply (Frames.lift _).bind
  intro _
  exact .set (by simpa using framed.withStack _)

theorem resetStack_frames (func : String) (height : Nat) :
    Frames scope labels known (resetStack func height) (fun _ => labels) fun _ => [] := by
  apply Frames.bind_get
  intro current framed
  apply (Frames.lift _).bind
  intro _
  exact .set (by simpa using framed.withStack _)

theorem checkHeight_frames (func place : String) (expected : Nat) :
    Frames scope labels known (checkHeight func place expected) (fun _ => labels) fun _ => [] :=
  .bind_get fun _ _ => .lift _

theorem typeAt_frames (func : String) (operand : Nat) :
    Frames scope labels known (typeAt func operand) (fun _ => labels) fun _ => [] := by
  apply (need_frames func (operand + 1)).bind
  intro _
  apply Frames.bind_get
  intro current _
  exact .pure (by simp)

theorem slot_frames (depth : Nat) (type : ValueType) :
    Frames scope labels known (slot depth type) (fun _ => labels) fun slot => [.slot slot] := by
  apply (Frames.lift _).bind
  intro scalar state framed
  have mentions := mentioned_mention state (.slot ⟨depth, scalar⟩)
  have grown := framed.grow (labels_mention state _) mentions.1
  apply (Meets.modify _ state).bind
  intro _ after same
  subst same
  apply Meets.pure
  exact grown.learn (.inl mentions.2)

theorem top_frames (func : String) (operand : Nat) :
    Frames scope labels known (top func operand) (fun _ => labels) fun slot => [.slot slot] := by
  apply (typeAt_frames func operand).bind
  intro type
  apply Frames.bind_get
  intro current _
  exact slot_frames _ _

theorem topAs_frames (func : String) (operand : Nat) (type : ValueType) :
    Frames scope labels known (topAs func operand type) (fun _ => labels)
      fun slot => [.slot slot] := by
  apply (need_frames func (operand + 1)).bind
  intro _
  apply Frames.bind_get
  intro current _
  exact slot_frames _ _

theorem resultSlot_frames (depth : Nat) (results : List ValueType) :
    Frames scope labels known (Scope.resultSlot depth results) (fun _ => labels)
      fun target => slotIdents target.toList := by
  cases results with
  | nil => exact .pure (by simp [slotIdents])
  | cons type _ =>
      apply (slot_frames depth type).bind
      intro slot
      exact .pure (by simp [slotIdents])

/-! ## Labels -/

theorem openLabel_opens (func : String) (isLoop : Bool) (head : BlockHead) (state : State) :
    Meets True (openLabel func isLoop head) state fun opened inner =>
      opened.label = ⟨state.labelCount, head.label⟩ ∧ inner.labels = opened :: state.labels ∧
        state.mentioned ⊆ inner.mentioned ∧ .label opened.label ∈ inner.mentioned := by
  have mentions := mentioned_mention state (.label ⟨state.labelCount, head.label⟩)
  apply Meets.bind_get
  apply (Meets.lift (Gives.ofResult _) state).bind
  intro _ after ⟨_, same⟩
  subst same
  apply (Meets.set _ _).bind
  intro _ inner isInner
  subst isInner
  apply Meets.pure
  refine ⟨rfl, ?_, mentions.1, mentions.2⟩
  show _ :: (after.mention _).labels = _
  rw [labels_mention]

theorem openLabel_frames (func : String) (isLoop : Bool) (head : BlockHead) :
    Frames scope labels known (openLabel func isLoop head) (fun opened => opened :: labels)
      fun opened => [.label opened.label] := by
  intro state framed
  apply (openLabel_opens func isLoop head state).mono
  intro opened inner ⟨_, areLabels, grown, mentioned⟩
  have outside : Framed scope labels known { inner with labels := state.labels } :=
    framed.grow rfl grown
  refine ⟨by rw [areLabels, framed.isOpen], ?_, ?_⟩
  · intro other member
    rcases List.mem_cons.mp member with rfl | member
    · exact mentioned
    · exact outside.mentioned other member
  · intro ident member
    rcases List.mem_append.mp member with member | member
    · exact outside.knows ident member
    · exact .inl (List.mem_singleton.mp member ▸ mentioned)

theorem closeLabel_frames (func : String) (opened : OpenLabel) :
    Frames scope (opened :: labels) known (closeLabel func opened) (fun _ => labels)
      fun _ => [] := by
  have popped : Frames scope (opened :: labels) known
      (modify fun state => { state with labels := state.labels.tail } : Lowering PUnit)
      (fun _ => labels) fun _ => [] := by
    apply Frames.modify
    intro state framed
    refine ⟨by simp [framed.isOpen], ?_, framed.knows⟩
    exact fun other member => framed.mentioned other (List.mem_cons_of_mem _ member)
  apply popped.bind
  intro _
  apply (resetStack_frames func opened.entry).bind
  intro _
  exact pushAll_frames _

theorem labelStmts_frames {opened : OpenLabel} (isOpen : opened ∈ labels) :
    Frames scope labels known (labelStmts opened) (fun _ => labels) Stmt.identsOfList := by
  intro state framed
  apply Meets.bind_get
  apply Meets.pure
  split
  · simpa [Stmt.idents] using framed.learn (.inl (framed.mentioned opened isOpen))
  · simpa using framed

theorem findLabel_frames (func : String) (target : Reference) :
    Frames scope labels known (findLabel func target) (fun _ => labels)
      fun opened => [.label opened.label] := by
  apply (Frames.lift _).bind
  intro name state framed
  apply Meets.bind_get
  apply (Meets.lift (Gives.ofResult _) state).mono
  intro opened next ⟨isFound, same⟩
  subst same
  have isOpen : opened ∈ next.labels := by
    unfold found at isFound
    split at isFound
    · next value isValue =>
        cases isFound
        split at isValue
        · exact List.mem_of_getLast? isValue
        · exact List.mem_of_find?_eq_some isValue
    · cases isFound
  have learned := framed.learn (.inl (framed.mentioned opened (framed.isOpen ▸ isOpen)))
  exact learned.mono (by simp)

theorem copies_frames (source target : Nat) (types : List ValueType) :
    Frames scope labels known (copies source target types) (fun _ => labels)
      (List.flatMap fun pair => [.slot pair.1, .slot pair.2]) := by
  induction types generalizing source target known with
  | nil => exact .pure (by simp)
  | cons type rest induction =>
      apply Frames.ite
      · exact induction _ _
      · apply (slot_frames target type).bind
        intro left
        apply Frames.bind_get
        intro current _
        apply (slot_frames source _).bind
        intro right
        apply (induction _ _).bind
        intro others
        exact .pure (by simp)

theorem jumpTo_frames (func : String) (target : Reference) :
    Frames scope labels known (jumpTo func target) (fun _ => labels) Jump.idents := by
  apply (findLabel_frames func target).bind
  intro opened
  have targeted : Frames scope labels (known ++ [.label opened.label])
      (modify fun state => { state with targets := opened.label.number :: state.targets } :
        Lowering PUnit) (fun _ => labels) fun _ => [] :=
    .modify fun _ framed => framed.grow rfl (List.Subset.refl _)
  apply targeted.bind
  intro _
  apply Frames.bind_get
  intro current _
  apply (Frames.lift _).bind
  intro _
  apply (copies_frames _ _ _).bind
  intro pairs
  exact .pure (by simp [Jump.idents])

namespace Scope

/-! ## Instructions -/

def loweredIdents (lowered : Lowered) : List Ident := Stmt.identsOfList lowered.stmts

theorem stmt_frames {stmt : Stmt} (subset : stmt.idents ⊆ known) :
    Frames scope labels known (Pure.pure (.through [stmt])) (fun _ => labels) loweredIdents := by
  apply Frames.pure
  simpa [loweredIdents, Lowered.through] using subset

theorem operands_frames (count : Nat) :
    Frames scope labels known (scope.operands count) (fun _ => labels) slotIdents := by
  induction count generalizing known with
  | zero => exact .pure (by simp [slotIdents])
  | succ count induction =>
      apply (top_frames scope.name count).bind
      intro first
      apply induction.bind
      intro others
      exact .pure (by simp [slotIdents])

theorem operandsBelow_frames (count : Nat) :
    Frames scope labels known (scope.operandsBelow count) (fun _ => labels) slotIdents := by
  induction count generalizing known with
  | zero => exact .pure (by simp [slotIdents])
  | succ count induction =>
      apply (top_frames scope.name (count + 1)).bind
      intro first
      apply induction.bind
      intro others
      exact .pure (by simp [slotIdents])

theorem place_frames (place : Reference) :
    Frames scope labels known (scope.place place) (fun _ => labels) fun name => [.named name] := by
  apply (Frames.lift _).bind
  intro name state framed
  apply (Meets.lift (Gives.ofResult _) state).bind
  intro _ after ⟨isPromised, same⟩
  subst same
  apply Meets.pure
  have declared : name ∈ scope.declared := by
    by_contra missing
    simp [promised, require, missing] at isPromised
  exact (framed.learn (.inr ⟨name, declared, rfl⟩)).mono (by simp)

theorem memory_frames (reference : Reference) :
    Frames scope labels known (scope.memory reference) (fun _ => labels) fun _ => [] := by
  apply (Frames.lift _).bind
  intro memory
  exact .lift _

theorem binarySlots_frames (form : C.BinaryForm) (type result : ValueType) :
    Frames scope labels known (scope.binarySlots form type result) (fun _ => labels)
      fun slots => slotIdents [slots.1, slots.2.1, slots.2.2] := by
  unfold binarySlots
  split
  · apply (topAs_frames scope.name 1 result).bind
    intro target
    apply (top_frames scope.name 1).bind
    intro left
    apply (top_frames scope.name 0).bind
    intro right
    exact .pure (by simp [slotIdents])
  · apply (Frames.lift _).bind
    intro _
    apply (topAs_frames scope.name 1 result).bind
    intro target
    apply (top_frames scope.name 1).bind
    intro left
    apply (top_frames scope.name 0).bind
    intro right
    exact .pure (by simp [slotIdents])
  · apply (top_frames scope.name 1).bind
    intro left
    apply (Frames.lift _).bind
    intro _
    apply (top_frames scope.name 0).bind
    intro right
    exact .pure (by simp [slotIdents])
  · apply (top_frames scope.name 1).bind
    intro left
    apply (top_frames scope.name 0).bind
    intro right
    exact .pure (by simp [slotIdents])

theorem binary_frames (opcode : Opcode) :
    Frames scope labels known (scope.binary opcode) (fun _ => labels) loweredIdents := by
  unfold binary
  split
  · exact fun state _ => .unsupported _ state _
  · apply (typeAt_frames scope.name 1).bind
    intro type
    apply (binarySlots_frames _ type _).bind
    intro slots
    apply (pop_frames scope.name 2).bind
    intro _
    apply (push_frames _).bind
    intro _
    exact stmt_frames (by simp [Stmt.idents, C.Expr.idents, slotIdents])

theorem unary_frames (opcode : Opcode) :
    Frames scope labels known (scope.unary opcode) (fun _ => labels) loweredIdents := by
  unfold unary
  split
  · exact fun state _ => .unsupported _ state _
  · apply (topAs_frames scope.name 0 _).bind
    intro target
    apply (top_frames scope.name 0).bind
    intro operand
    apply (pop_frames scope.name 1).bind
    intro _
    apply (push_frames _).bind
    intro _
    exact stmt_frames (by simp [Stmt.idents, C.Expr.idents])

theorem load_frames (opcode : Opcode) (memory : Reference) (offset : UInt64) :
    Frames scope labels known (scope.load opcode memory offset) (fun _ => labels)
      loweredIdents := by
  apply (Frames.lift _).bind
  intro _
  apply (topAs_frames scope.name 0 _).bind
  intro target
  apply (Frames.lift _).bind
  intro _
  apply (top_frames scope.name 0).bind
  intro address
  apply (pop_frames scope.name 1).bind
  intro _
  apply (push_frames _).bind
  intro _
  exact stmt_frames (by simp [Stmt.idents, C.Expr.idents])

theorem store_frames (opcode : Opcode) (memory : Reference) (offset : UInt64) :
    Frames scope labels known (scope.store opcode memory offset) (fun _ => labels)
      loweredIdents := by
  apply (memory_frames memory).bind
  intro _
  apply (top_frames scope.name 1).bind
  intro address
  apply (top_frames scope.name 0).bind
  intro value
  apply (pop_frames scope.name 2).bind
  intro _
  exact stmt_frames (by simp [Stmt.idents, slotIdents])

theorem call_frames (callee : Reference) :
    Frames scope labels known (scope.call callee) (fun _ => labels) loweredIdents := by
  apply (Frames.lift _).bind
  intro func
  apply (need_frames scope.name _).bind
  intro _
  apply Frames.bind_get
  intro current _
  apply (resultSlot_frames _ _).bind
  intro target
  apply (Frames.lift _).bind
  intro _
  apply (operands_frames _).bind
  intro arguments
  apply (pop_frames scope.name _).bind
  intro _
  apply (pushAll_frames _).bind
  intro _
  exact stmt_frames (by simp [Stmt.idents, slotIdents])

theorem callIndirect_frames (declaration : Declaration) (table : Reference) :
    Frames scope labels known (scope.callIndirect declaration table) (fun _ => labels)
      loweredIdents := by
  apply (Frames.lift _).bind
  intro _
  dsimp only
  split
  · exact fun state _ => .unsupported _ state _
  apply (Frames.lift _).bind
  intro typeIndex
  apply (need_frames scope.name _).bind
  intro _
  apply Frames.bind_get
  intro current _
  apply (resultSlot_frames _ _).bind
  intro target
  apply (Frames.lift _).bind
  intro _
  apply (Frames.lift _).bind
  intro _
  apply (top_frames scope.name 0).bind
  intro position
  apply (operandsBelow_frames _).bind
  intro arguments
  apply (pop_frames scope.name _).bind
  intro _
  apply (pushAll_frames _).bind
  intro _
  exact stmt_frames (by simp [Stmt.idents, slotIdents])

theorem select_frames :
    Frames scope labels known scope.select (fun _ => labels) loweredIdents := by
  apply (typeAt_frames scope.name 1).bind
  intro type
  apply (top_frames scope.name 2).bind
  intro first
  apply (top_frames scope.name 0).bind
  intro condition
  apply (top_frames scope.name 1).bind
  intro second
  apply (pop_frames scope.name 3).bind
  intro _
  apply (push_frames type).bind
  intro _
  exact stmt_frames (by simp [Stmt.idents, C.Expr.idents])

theorem const_frames (value : Constant) :
    Frames scope labels known (scope.const value) (fun _ => labels) loweredIdents := by
  apply (push_frames _).bind
  intro _
  apply (top_frames scope.name 0).bind
  intro target
  apply (Frames.lift _).bind
  intro number
  exact stmt_frames (by simp [Stmt.idents, C.Expr.idents])

theorem localGet_frames (place : Reference) :
    Frames scope labels known (scope.localGet place) (fun _ => labels) loweredIdents := by
  apply (Frames.lift _).bind
  intro _
  apply (push_frames _).bind
  intro _
  apply (top_frames scope.name 0).bind
  intro target
  apply (place_frames place).bind
  intro name
  exact stmt_frames (by simp [Stmt.idents, C.Expr.idents])

theorem setPlace_frames (place : Reference) :
    Frames scope labels known (scope.setPlace place) (fun _ => labels) Stmt.identsOfList := by
  apply (place_frames place).bind
  intro name
  apply (top_frames scope.name 0).bind
  intro value
  exact .pure (by simp [Stmt.idents])

theorem globalGet_frames (place : Reference) :
    Frames scope labels known (scope.globalGet place) (fun _ => labels) loweredIdents := by
  apply (Frames.lift _).bind
  intro global
  apply (push_frames _).bind
  intro _
  apply (top_frames scope.name 0).bind
  intro target
  apply (Frames.lift _).bind
  intro _
  exact stmt_frames (by simp [Stmt.idents, C.Expr.idents])

theorem globalSet_frames (place : Reference) :
    Frames scope labels known (scope.globalSet place) (fun _ => labels) loweredIdents := by
  apply (Frames.lift _).bind
  intro global
  apply (Frames.lift _).bind
  intro _
  apply (top_frames scope.name 0).bind
  intro value
  apply (pop_frames scope.name 1).bind
  intro _
  exact stmt_frames (by simp [Stmt.idents])

theorem memoryGrow_frames (memory : Reference) :
    Frames scope labels known (scope.memoryGrow memory) (fun _ => labels) loweredIdents := by
  apply (Frames.lift _).bind
  intro _
  apply (top_frames scope.name 0).bind
  intro pages
  apply (Frames.lift _).bind
  intro _
  exact stmt_frames (by simp [Stmt.idents, C.Expr.idents])

theorem memorySize_frames (memory : Reference) :
    Frames scope labels known (scope.memorySize memory) (fun _ => labels) loweredIdents := by
  apply (Frames.lift _).bind
  intro _
  apply (push_frames _).bind
  intro _
  apply (top_frames scope.name 0).bind
  intro target
  apply (Frames.lift _).bind
  intro _
  exact stmt_frames (by simp [Stmt.idents, C.Expr.idents])

theorem stretch_frames {build : Slot → Slot → Slot → Stmt}
    (isView : ∀ first second third,
      (build first second third).idents = slotIdents [first, second, third]) :
    Frames scope labels known
      (do
        let first ← top scope.name 2
        let second ← top scope.name 1
        let third ← top scope.name 0
        pop scope.name 3
        return .through [build first second third])
      (fun _ => labels) loweredIdents := by
  apply (top_frames scope.name 2).bind
  intro first
  apply (top_frames scope.name 1).bind
  intro second
  apply (top_frames scope.name 0).bind
  intro third
  apply (pop_frames scope.name 3).bind
  intro _
  exact stmt_frames (by simp [isView, slotIdents])

theorem memoryFill_frames (memory : Reference) :
    Frames scope labels known (scope.memoryFill memory) (fun _ => labels) loweredIdents := by
  apply (memory_frames memory).bind
  intro _
  exact stretch_frames fun _ _ _ => rfl

theorem memoryCopy_frames (target source : Reference) :
    Frames scope labels known (scope.memoryCopy target source) (fun _ => labels)
      loweredIdents := by
  apply (Frames.lift _).bind
  intro _
  apply (Frames.lift _).bind
  intro _
  apply (Frames.lift _).bind
  intro _
  apply (Frames.lift _).bind
  intro _
  exact stretch_frames fun _ _ _ => rfl

theorem jumps_frames (targets : List Reference) :
    Frames scope labels known (scope.jumps targets) (fun _ => labels)
      (List.flatMap Jump.idents) :=
  .mapM fun target _ => jumpTo_frames scope.name target

theorem checkEnd_frames (construct : String) (opened : OpenLabel) (body : Lowered) :
    Frames scope labels known (scope.checkEnd construct opened body) (fun _ => labels)
      fun _ => [] := by
  apply Frames.ite
  · exact checkHeight_frames _ _ _
  · exact .pure (by simp)

/-! ## Code -/

theorem finish_frames (construct : String) (opened : OpenLabel) (body : Lowered)
    {build : List Stmt → Lowered}
    (isView : ∀ label, loweredIdents (build label) ⊆ known ++ Stmt.identsOfList label) :
    Frames scope (opened :: labels) known
      (do
        scope.checkEnd construct opened body
        let label ← labelStmts opened
        closeLabel scope.name opened
        return build label)
      (fun _ => labels) loweredIdents := by
  apply (checkEnd_frames construct opened body).bind
  intro _
  apply (labelStmts_frames List.mem_cons_self).bind
  intro label
  apply (closeLabel_frames scope.name opened).bind
  intro _
  exact .pure (by simpa using isView label)

mutual

theorem instr_frames (instr : Instr) {labels : List OpenLabel} {known : List Ident} :
    Frames scope labels known (scope.instr instr) (fun _ => labels) loweredIdents := by
  match instr with
  | .block head body =>
      apply (openLabel_frames scope.name false head).bind
      intro opened
      apply (instrs_frames body).bind
      intro lowered
      exact finish_frames _ _ _ fun label => by grind [loweredIdents]
  | .loop head body =>
      apply (openLabel_frames scope.name true head).bind
      intro opened
      apply (instrs_frames body).bind
      intro lowered
      exact finish_frames _ _ _ fun label => by grind [loweredIdents]
  | .ifElse head thenBody [] =>
      rw [Scope.instr]
      apply (top_frames scope.name 0).bind
      intro condition
      apply (pop_frames scope.name 1).bind
      intro _
      apply (openLabel_frames scope.name false head).bind
      intro opened
      apply (instrs_frames thenBody).bind
      intro lowered
      exact finish_frames _ _ _ fun label => by grind [loweredIdents, Lowered.through, Stmt.idents]
  | .ifElse head thenBody (first :: others) =>
      rw [Scope.instr]
      apply (top_frames scope.name 0).bind
      intro condition
      apply (pop_frames scope.name 1).bind
      intro _
      apply (openLabel_frames scope.name false head).bind
      intro opened
      apply (instrs_frames thenBody).bind
      intro thenPart
      apply (checkEnd_frames _ _ _).bind
      intro _
      apply (resetStack_frames _ _).bind
      intro _
      apply (pushAll_frames _).bind
      intro _
      apply (instrs_frames (first :: others)).bind
      intro elsePart
      exact finish_frames _ _ _ fun label => by grind [loweredIdents, Stmt.idents]
  | .br target =>
      apply (jumpTo_frames scope.name target).bind
      intro jump
      exact .pure (by simp [loweredIdents, Lowered.final, Stmt.idents])
  | .brIf target =>
      apply (top_frames scope.name 0).bind
      intro condition
      apply (pop_frames scope.name 1).bind
      intro _
      apply (jumpTo_frames scope.name target).bind
      intro jump
      exact stmt_frames (by simp [Stmt.idents])
  | .brTable targets otherwise =>
      apply (top_frames scope.name 0).bind
      intro position
      apply (pop_frames scope.name 1).bind
      intro _
      apply (jumps_frames targets).bind
      intro cases
      apply (jumpTo_frames scope.name otherwise).bind
      intro default
      exact .pure (by simp [loweredIdents, Lowered.final, Stmt.idents])
  | .leave =>
      apply (jumpTo_frames scope.name (.name Naming.funcLabel)).bind
      intro jump
      exact .pure (by simp [loweredIdents, Lowered.final, Stmt.idents])
  | .unreachable => exact .pure (by simp [loweredIdents, Lowered.final, Stmt.idents])
  | .nop => exact .pure (by simp [loweredIdents, Lowered.through])
  | .drop =>
      apply (pop_frames scope.name 1).bind
      intro _
      exact .pure (by simp [loweredIdents, Lowered.through])
  | .localSet place =>
      apply (setPlace_frames place).bind
      intro stmts
      apply (pop_frames scope.name 1).bind
      intro _
      exact .pure (by simp [loweredIdents, Lowered.through])
  | .localTee place =>
      apply (setPlace_frames place).bind
      intro stmts
      exact .pure (by simp [loweredIdents, Lowered.through])
  | .binary opcode => exact binary_frames opcode
  | .compare opcode => exact binary_frames opcode
  | .convert opcode => exact unary_frames opcode
  | .unary opcode => exact unary_frames opcode
  | .call callee => exact call_frames callee
  | .callIndirect declaration table => exact callIndirect_frames declaration table
  | .const value => exact const_frames value
  | .select _ => exact select_frames
  | .globalGet place => exact globalGet_frames place
  | .globalSet place => exact globalSet_frames place
  | .localGet place => exact localGet_frames place
  | .load opcode memory _ offset => exact load_frames opcode memory offset
  | .store opcode memory _ offset => exact store_frames opcode memory offset
  | .memoryGrow memory => exact memoryGrow_frames memory
  | .memorySize memory => exact memorySize_frames memory
  | .memoryFill memory => exact memoryFill_frames memory
  | .memoryCopy target source => exact memoryCopy_frames target source
  | .tryCatch .. | .throwTag _ | .rethrow _ | .ternary _ | .simd .. | .simdLane ..
  | .simdShuffle .. | .atomic .. | .refFunc _ | .other _ =>
      exact fun state _ => .unsupported _ state _

theorem instrs_frames (body : List Instr) {labels : List OpenLabel} {known : List Ident} :
    Frames scope labels known (scope.instrs body) (fun _ => labels) loweredIdents := by
  match body with
  | [] => exact .pure (by simp [loweredIdents, Lowered.through])
  | instr :: rest =>
      apply (instr_frames instr).bind
      intro first
      apply Frames.ite
      · apply (instrs_frames rest).bind
        intro others
        exact .pure (by simp [loweredIdents])
      · exact .pure (by simp [loweredIdents])

end

def bodyIdents (result : List Stmt × Option Slot) : List Ident :=
  Stmt.identsOfList result.1 ++ slotIdents result.2.toList

theorem body_frames (opened : OpenLabel) :
    Frames scope [opened] [.label opened.label]
      (do
        let results := scope.func.results
        let body ← scope.instrs scope.func.body
        if body.falls then checkHeight scope.name "end of function" results.length
        let label ← labelStmts opened
        closeLabel scope.name opened
        let returned ← resultSlot ((← get).height - 1) results
        return (body.stmts ++ label, returned))
      (fun _ => []) bodyIdents := by
  apply (instrs_frames scope.func.body).bind
  intro body
  have ends : Frames scope [opened] ([.label opened.label] ++ loweredIdents body)
      (do
        let label ← labelStmts opened
        closeLabel scope.name opened
        let returned ← resultSlot ((← get).height - 1) scope.func.results
        return (body.stmts ++ label, returned))
      (fun _ => []) bodyIdents := by
    apply (labelStmts_frames List.mem_cons_self).bind
    intro label
    apply (closeLabel_frames scope.name opened).bind
    intro _
    apply Frames.bind_get
    intro current _
    apply (resultSlot_frames _ _).bind
    intro returned
    exact .pure (by grind [loweredIdents, bodyIdents])
  apply Frames.ite
  · apply (checkHeight_frames _ _ _).bind
    intro _
    simpa using ends
  · exact ends

theorem body_known (scope : Scope) :
    Meets True scope.body {} fun result next =>
      Framed scope [] (.label ⟨0, Naming.funcLabel⟩ :: bodyIdents result) next := by
  apply ((openLabel_opens scope.name false _ {}).and
    (openLabel_frames scope.name false _ {} (.start scope))).bind
  intro opened inner ⟨⟨isLabel, _⟩, framed⟩
  apply (body_frames opened inner framed).mono
  intro result next nextFramed
  rw [isLabel] at nextFramed
  exact nextFramed

end Scope

end

/-! ## Functions -/

structure LoweredFrom (module : Module) (symbols : EntitySymbols) (func : Func)
    (function : C.Function) (last : State) : Prop where
  name : function.name = func.name
  params : namedParams func = .ok function.params
  locals : namedLocals func = .ok function.locals
  body : (Scope.mk module symbols func ((function.params ++ function.locals).map (·.2))).body {} =
    .ok ((function.body, function.returned), last)
  mentioned : function.mentioned = last.mentioned.reverse

theorem lowerFunc_eq_ok {module : Module} {symbols : EntitySymbols} {func : Func}
    {function : C.Function} (succeeds : lowerFunc module symbols func = .ok function) :
    ∃ last, LoweredFrom module symbols func function last := by
  rcases bind_eq_ok succeeds with ⟨external, _, remaining⟩
  rcases bind_eq_ok remaining with ⟨result, _, remaining⟩
  rcases bind_eq_ok remaining with ⟨params, areParams, remaining⟩
  rcases bind_eq_ok remaining with ⟨locals, areLocals, remaining⟩
  rcases bind_eq_ok remaining with ⟨⟨⟨body, returned⟩, last⟩, isBody, isFunction⟩
  cases isFunction
  exact ⟨last, rfl, areParams, areLocals, isBody, rfl⟩

/-- Everything in a function that is referred to gets a symbol, and so does its label. -/
theorem lowerFunc_idents (module : Module) (symbols : EntitySymbols) (func : Func) :
    Gives True (lowerFunc module symbols func) fun function =>
      ∀ ident ∈ .label ⟨0, Naming.funcLabel⟩ :: Scope.bodyIdents (function.body, function.returned),
        ident ∈ function.idents := by
  apply (Gives.ofResult _).mono
  intro function succeeds
  rcases lowerFunc_eq_ok succeeds with ⟨last, lowered⟩
  have framed := (Scope.body_known _).of_ok lowered.body
  intro ident member
  apply List.mem_append.mpr
  rcases framed.knows ident member with mentioned | ⟨name, declared, isNamed⟩
  · exact .inr (lowered.mentioned ▸ List.mem_reverse.mpr mentioned)
  · rcases List.mem_map.mp declared with ⟨slot, isSlot, rfl⟩
    exact .inl (List.mem_map.mpr ⟨slot, isSlot, isNamed.symm⟩)

end WasmLowering.Emission
