import WasmLowering.Proofs.Lowering.OperandStack

/-! Labels of the lowering and labels of the typing.

The labels that are open while a point is lowered are those that the typing rules
give the point: in the same order, carrying the same types, and with the same
height below. -/

namespace WasmLowering.Emission

variable {lenient : Prop}

def Nested (labels : List LabelType) : Prop :=
  ∀ label ∈ labels, label.below <:+ LabelType.floor labels

theorem Nested.cons {labels : List LabelType} (nested : Nested labels) (carried : List ValueType)
    (below : List ValueType) : Nested (⟨carried, below ++ LabelType.floor labels⟩ :: labels) := by
  intro label member
  rcases List.mem_cons.mp member with rfl | member
  · exact List.suffix_refl _
  · exact (nested label member).trans (List.suffix_append _ _)

structure Opens (names : List String) (labels : List LabelType) (opened : List OpenLabel) :
    Prop where
  named : opened.map (·.label.name) = names ++ [Naming.funcLabel]
  carried : opened.map (·.carried) = labels.map (·.carried)
  entries : opened.map (·.entry) = labels.map (·.below.length)
  nodup : (names ++ [Naming.funcLabel]).Nodup
  nested : Nested labels

namespace Opens

variable {names : List String} {labels : List LabelType} {opened : List OpenLabel}

theorem getElem? (opens : Opens names labels opened) {depth : Nat} {label : LabelType}
    (isLabel : labels[depth]? = some label) :
    ∃ target, opened[depth]? = some target ∧ target.carried = label.carried ∧
      target.entry = label.below.length := by
  have lengths : opened.length = labels.length := by simpa using congrArg List.length opens.carried
  have inside : depth < opened.length := lengths ▸ (List.getElem?_eq_some_iff.mp isLabel).1
  have isTarget := List.getElem?_eq_getElem inside
  refine ⟨opened[depth], isTarget, ?_, ?_⟩
  · have carried := congrArg (·[depth]?) opens.carried
    simpa [isLabel, isTarget] using carried
  · have entries := congrArg (·[depth]?) opens.entries
    simpa [isLabel, isTarget] using entries

end Opens

structure State.Fits (state : State) (names : List String) (labels : List LabelType)
    (before : List ValueType) : Prop where
  stack : state.stack = before ++ LabelType.floor labels
  opens : Opens names labels state.labels

namespace State.Fits

variable {state : State} {names : List String} {labels : List LabelType}
  {before : List ValueType}

theorem floor (fits : state.Fits names labels before) :
    state.floor = (LabelType.floor labels).length := by
  have entries := fits.opens.entries
  unfold State.floor
  cases isOpen : state.labels with
  | nil =>
      rw [isOpen] at entries
      cases labels with
      | nil => rfl
      | cons label rest => simp at entries
  | cons opened others =>
      rw [isOpen] at entries
      cases labels with
      | nil => simp at entries
      | cons label rest =>
          simp only [List.map_cons, List.cons.injEq] at entries
          exact entries.1

theorem height (fits : state.Fits names labels before) :
    state.height = before.length + (LabelType.floor labels).length := by
  rw [State.height, fits.stack, List.length_append]

theorem enough (fits : state.Fits names labels before) {count : Nat}
    (inside : count ≤ before.length) : state.floor + count ≤ state.height := by
  rw [fits.floor, fits.height]
  omega

theorem of_eq {other : State} (fits : state.Fits names labels before)
    {after : List ValueType} (isStack : other.stack = after ++ LabelType.floor labels)
    (isLabels : other.labels = state.labels) : other.Fits names labels after :=
  ⟨isStack, isLabels ▸ fits.opens⟩

end State.Fits

/-! ## Branches -/

theorem find?_of_nodup {α : Type} {items : List α} {name : α → String}
    (nodup : (items.map name).Nodup) {position : Nat} {item : α}
    (isItem : items[position]? = some item) :
    items.find? (fun other => name other = name item) = some item := by
  induction items generalizing position with
  | nil => simp at isItem
  | cons first rest induction =>
      rw [List.map_cons, List.nodup_cons] at nodup
      cases position with
      | zero =>
          cases isItem
          simp
      | succ position =>
          have inRest : rest[position]? = some item := by simpa using isItem
          have different : name first ≠ name item := by
            intro equal
            apply nodup.1
            rw [equal]
            exact List.mem_map_of_mem (List.mem_of_getElem? inRest)
          rw [List.find?_cons_of_neg (by simpa using different)]
          exact induction nodup.2 inRest

/-- Among open labels with different names, the name at a depth leads to the label
there. -/
theorem findLabel_named (func : String) {state : State} {names : List String}
    (named : state.labels.map (·.label.name) = names ++ [Naming.funcLabel])
    (nodup : (names ++ [Naming.funcLabel]).Nodup) {depth : Nat} {target : OpenLabel}
    (isTarget : state.labels[depth]? = some target) {name : String}
    (isName : (names ++ [Naming.funcLabel])[depth]? = some name) :
    findLabel func (.name name) state = .ok (target, state) := by
  have sameName : target.label.name = name := by
    have atDepth := congrArg (·[depth]?) named
    simpa [isTarget, isName] using atDepth
  have isFound : (if name = Naming.funcLabel then state.labels.getLast?
      else state.labels.find? (·.label.name = name)) = some target := by
    split
    · next isFunction =>
        have lengths : state.labels.length = names.length + 1 := by
          simpa using congrArg List.length named
        -- The name of the function is at the end only, so the depth is the last one.
        have atEnd : depth = names.length := by
          have inside := (List.getElem?_eq_some_iff.mp isName).1
          have last : (names ++ [Naming.funcLabel])[names.length]? = some name := by
            simp [isFunction]
          exact (List.getElem?_inj inside nodup).mp (isName.trans last.symm)
        rw [List.getLast?_eq_getElem?, lengths, Nat.add_sub_cancel, ← atEnd, isTarget]
    · rw [← sameName]
      rw [← named] at nodup
      exact find?_of_nodup nodup isTarget
  show (liftM (found _ _) : Lowering OpenLabel) state = _
  rw [isFound]
  rfl

theorem findLabel_meets (func : String) {state : State} {names : List String}
    {labels : List LabelType} (opens : Opens names labels state.labels) {depth : Nat}
    {target : OpenLabel} (isTarget : state.labels[depth]? = some target) {name : String}
    (isName : (names ++ [Naming.funcLabel])[depth]? = some name) :
    Meets lenient (findLabel func (.name name)) state fun result after =>
      result = target ∧ after = state := by
  rw [Meets, findLabel_named func opens.named opens.nodup isTarget isName]
  exact ⟨rfl, rfl⟩

theorem typeAtDepth_carried {state : State} {carried rest : List ValueType}
    (isStack : state.stack = carried.reverse ++ rest) {position : Nat} {type : ValueType}
    (isType : carried[position]? = some type) :
    state.typeAtDepth (rest.length + position) = type := by
  have inside := (List.getElem?_eq_some_iff.mp isType).1
  have height : state.height = carried.length + rest.length := by
    rw [State.height, isStack, List.length_append, List.length_reverse]
  have index : state.height - 1 - (rest.length + position) = carried.length - 1 - position := by
    omega
  rw [State.typeAtDepth, index, isStack, List.getElem?_append_left (by simp; omega),
    List.getElem?_reverse (by omega)]
  have back : carried.length - 1 - (carried.length - 1 - position) = position := by omega
  rw [back, isType, Option.getD_some]

def State.Marks (state after : State) : Prop :=
  ∃ targets mentioned, after = { state with targets, mentioned } ∧ state.targets ⊆ targets

theorem State.hasRow_of_prefix {state : State} {types : List ValueType}
    (onTop : types.reverse <+: state.stack) :
    state.HasRow (state.height - types.length) types := by
  rcases onTop with ⟨rest, isStack⟩
  have height : state.height - types.length = rest.length := by
    rw [State.height, ← isStack, List.length_append, List.length_reverse, Nat.add_sub_cancel_left]
  rw [height]
  exact fun position type => typeAtDepth_carried isStack.symm

/-- The jump of a branch to the label at a depth. It copies what the label carries
from the top of the stack down to where the construct begins, and its target is
among those that are used. -/
structure JumpsTo (labels : List LabelType) (opened : List OpenLabel) (height : Nat)
    (carried : List ValueType) (used : List Nat) (depth : Nat) (jump : C.Jump) : Prop where
  label : ∃ label target, labels[depth]? = some label ∧ opened[depth]? = some target ∧
    label.carried = carried ∧ target.label.number ∈ used ∧ jump.target = target.label ∧
    C.Copies (height - carried.length) label.below.length carried jump.copies

theorem JumpsTo.mono {labels : List LabelType} {opened : List OpenLabel} {height : Nat}
    {carried : List ValueType} {used more : List Nat} {depth : Nat} {jump : C.Jump}
    (jumps : JumpsTo labels opened height carried used depth jump) (subset : used ⊆ more) :
    JumpsTo labels opened height carried more depth jump := by
  rcases jumps.label with ⟨label, target, isLabel, isTarget, isCarried, isUsed, rest⟩
  exact ⟨label, target, isLabel, isTarget, isCarried, subset isUsed, rest⟩

theorem jumpTo_meets (func : String) {state : State} {names : List String}
    {labels : List LabelType} {label : LabelType} {above : List ValueType}
    (fits : state.Fits names labels (label.carried.reverse ++ above)) {depth : Nat}
    (isLabel : labels[depth]? = some label) {name : String}
    (isName : (names ++ [Naming.funcLabel])[depth]? = some name) :
    Meets lenient (jumpTo func (.name name)) state fun jump after =>
      JumpsTo labels state.labels state.height label.carried after.targets depth jump ∧
        state.Marks after := by
  rcases fits.opens.getElem? isLabel with ⟨target, isTarget, sameCarried, sameEntry⟩
  refine (findLabel_meets func fits.opens isTarget isName).bind ?_
  rintro result after ⟨isResult, same⟩
  subst result after
  refine (Meets.modify _ _).bind ?_
  rintro _ after same
  subst after
  refine .bind_get ?_
  have height := fits.height
  rw [List.length_append, List.length_reverse] at height
  have below : label.below.length ≤ (LabelType.floor labels).length :=
    (fits.opens.nested label (List.mem_of_getElem? isLabel)).length_le
  have row : { state with targets := target.label.number :: state.targets }.HasRow
      (state.height - label.carried.length) label.carried :=
    State.hasRow_of_prefix ⟨_, (fits.stack.trans (List.append_assoc _ _ _)).symm⟩
  refine .bind_promised ?_ ?_
  · rw [sameEntry, sameCarried]
    exact Nat.le_trans (by omega) (Nat.le_of_eq height.symm)
  · rw [sameCarried, sameEntry]
    refine (copies_meets _ _ row).bind ?_
    rintro pairs _ ⟨areCopies, mentioned, rfl⟩
    refine .pure
      ⟨⟨label, target, isLabel, isTarget, rfl, ?_, rfl, areCopies⟩, _, mentioned, rfl, ?_⟩
    · exact List.mem_cons_self
    · exact List.subset_cons_self _ _

/-! ## Opening and closing -/

structure Opened (state : State) (isLoop : Bool) (head : BlockHead) (below : List ValueType)
    (opened : OpenLabel) (after : State) : Prop where
  isOpened : opened = ⟨⟨state.labelCount, head.label⟩, isLoop, head.declaration.signature,
    below.length⟩
  after : ∃ mentioned, after = { state with
    labels := opened :: state.labels, labelCount := state.labelCount + 1, mentioned }

theorem openLabel_meets (func : String) (isLoop : Bool) {head : BlockHead} {state : State}
    {names : List String} {labels : List LabelType} {below : List ValueType}
    (fits : state.Fits names labels (head.params.reverse ++ below)) :
    Meets lenient (openLabel func isLoop head) state
      (Opened state isLoop head (below ++ LabelType.floor labels)) := by
  have height := fits.height
  rw [List.length_append, List.length_reverse] at height
  refine .bind_get (.bind_promised ?_ ?_)
  · exact fits.enough (by simp)
  · rcases state.mentions_mention (.label ⟨state.labelCount, head.label⟩) with ⟨mentioned, same⟩
    refine (Meets.set _ _).bind ?_
    rintro _ _ rfl
    refine .pure ⟨?_, mentioned, ?_⟩
    · have entry : state.height - head.params.length =
          (below ++ LabelType.floor labels).length := by
        rw [height, List.length_append]
        omega
      rw [entry]
    · rw [same]

theorem Opened.fits {state after : State} {isLoop : Bool} {head : BlockHead} {names : List String}
    {labels : List LabelType} {below : List ValueType} {opened : OpenLabel}
    (before : state.Fits names labels (head.params.reverse ++ below))
    (isOpened : Opened state isLoop head (below ++ LabelType.floor labels) opened after)
    (notOpen : head.label ∉ names) (notFunction : head.label ≠ Naming.funcLabel) :
    after.Fits (head.label :: names)
      (⟨opened.carried, below ++ LabelType.floor labels⟩ :: labels) head.params.reverse := by
  rcases isOpened with ⟨rfl, mentioned, rfl⟩
  refine ⟨?_, ?_, ?_, ?_, ?_, before.opens.nested.cons _ _⟩
  · rw [LabelType.floor_cons, ← List.append_assoc]
    exact before.stack
  · simp [before.opens.named]
  · simp [before.opens.carried]
  · simp [before.opens.entries]
  · rw [List.cons_append, List.nodup_cons]
    refine ⟨?_, before.opens.nodup⟩
    intro member
    rcases List.mem_append.mp member with member | member
    · exact notOpen member
    · exact notFunction (List.mem_singleton.mp member)

theorem labelStmts_meets (opened : OpenLabel) (state : State) :
    Meets lenient (labelStmts opened) state fun stmts after =>
      stmts = (if state.targets.contains opened.label.number then [.label opened.label] else []) ∧
        after = state :=
  .bind_get (.pure ⟨rfl, rfl⟩)

theorem closeLabel_meets (func : String) {opened : OpenLabel} {state : State}
    {above below : List ValueType} (isStack : state.stack = above ++ below)
    (isEntry : opened.entry = below.length) :
    Meets lenient (closeLabel func opened) state fun _ after =>
      after = { state with
        labels := state.labels.tail, stack := opened.signature.results.reverse ++ below } := by
  have sameStack : { state with labels := state.labels.tail }.stack = above ++ below := isStack
  refine (Meets.modify _ _).bind ?_
  rintro _ _ rfl
  refine (resetStack_meets func sameStack isEntry).bind ?_
  rintro _ _ rfl
  exact pushAll_meets _ _

end WasmLowering.Emission
