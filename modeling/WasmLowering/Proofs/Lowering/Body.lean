import WasmLowering.Proofs.Lowering.Operations

/-! Lowering typed code.

The types that are followed through a body are those that the typing rules give,
so nothing that the lowering relies on is ever missing, and the statements are
those of `Emits`. -/

namespace WasmLowering

namespace C

theorem labelsOf_append (first others : List Stmt) :
    labelsOf (first ++ others) = labelsOf first ++ labelsOf others := by
  induction first with
  | nil => rfl
  | cons stmt rest induction =>
      rw [List.cons_append, labelsOf, induction, ← List.append_assoc]
      rfl

end C

namespace Emission

open C (labelsOf)

structure Numbered (low high : Nat) (numbers : List Nat) : Prop where
  bounds : ∀ number ∈ numbers, low ≤ number ∧ number < high
  nodup : numbers.Nodup

namespace Numbered

theorem nil (low high : Nat) : Numbered low high [] := ⟨nofun, List.nodup_nil⟩

theorem append {low middle high : Nat} {numbers others : List Nat}
    (first : Numbered low middle numbers) (later : Numbered middle high others)
    (below : low ≤ middle) (above : middle ≤ high) : Numbered low high (numbers ++ others) where
  bounds := by
    intro number member
    rcases List.mem_append.mp member with member | member
    · rcases first.bounds number member with ⟨least, bound⟩
      exact ⟨least, Nat.lt_of_lt_of_le bound above⟩
    · rcases later.bounds number member with ⟨least, bound⟩
      exact ⟨Nat.le_trans below least, bound⟩
  nodup := by
    refine List.nodup_append.mpr ⟨first.nodup, later.nodup, ?_⟩
    rintro number early _ late rfl
    exact absurd (first.bounds number early).2 (Nat.not_lt.mpr (later.bounds number late).1)

theorem perm {low high : Nat} {numbers others : List Nat} (numbered : Numbered low high numbers)
    (same : others.Perm numbers) : Numbered low high others :=
  ⟨fun number member => numbered.bounds number (same.mem_iff.mp member),
    same.nodup_iff.mpr numbered.nodup⟩

theorem labelIf (isUsed : Bool) (label : C.Label) :
    Numbered label.number (label.number + 1) (labelsOf (labelIf isUsed label)) := by
  cases isUsed with
  | false => exact nil _ _
  | true => exact ⟨by simp [Emission.labelIf, labelsOf, C.Stmt.labels], List.nodup_singleton _⟩

end Numbered

def Scope.code (scope : Scope) : Code → Lowering Lowered
  | .instr instr => scope.instr instr
  | .body instrs => scope.instrs instrs

/-- What lowering typed code gives. The labels around are open as before, and new
ones have numbers of their own. Where control goes on, the stack is the one that
the typing gives; elsewhere at least what the construct cannot touch is there. -/
structure Lowers (module named : Module) (slotNames : List String) (labels : List LabelType)
    (code : Code) (before after : List ValueType) (state : State) (result : Lowered)
    (last : State) : Prop where
  sameLabels : last.labels = state.labels
  grows : state.targets ⊆ last.targets
  counts : state.labelCount ≤ last.labelCount
  stack : ∃ above, last.stack = above ++ LabelType.floor labels ∧
    (result.falls = true → above = after)
  emits : ∀ targets, Marked last.targets labels state.labels targets →
    Emits module named slotNames targets code before result.stmts result.falls after
  numbered : Numbered state.labelCount last.labelCount (labelsOf result.stmts)

def State.uses (state : State) (opened : OpenLabel) : Bool :=
  state.targets.contains opened.label.number

def State.behind (inside : State) (outer : List OpenLabel) (stack : List ValueType) : State :=
  { inside with labels := outer, stack }

namespace Lowers

variable {module named : Module} {slotNames : List String} {labels : List LabelType}
  {before middle after : List ValueType} {state mid last : State} {result first others : Lowered}

theorem fits {code : Code} {names : List String}
    (lowers : Lowers module named slotNames labels code before after state result last)
    (falls : result.falls = true) (fitted : state.Fits names labels before) :
    last.Fits names labels after := by
  rcases lowers.stack with ⟨above, isStack, isAfter⟩
  exact fitted.of_eq (isAfter falls ▸ isStack) lowers.sameLabels

theorem plain {code : Code} {stmts : List C.Stmt}
    (isLast : ∃ mentioned,
      last = { state with stack := after ++ LabelType.floor labels, mentioned })
    (unlabelled : labelsOf stmts = [])
    (emits : ∀ targets, JumpTarget.floor targets = LabelType.floor labels →
      Emits module named slotNames targets code before stmts true after) :
    Lowers module named slotNames labels code before after state (.through stmts) last := by
  rcases isLast with ⟨mentioned, rfl⟩
  refine ⟨rfl, fun _ member => member, Nat.le_refl _, ⟨after, rfl, fun _ => rfl⟩, ?_, ?_⟩
  · exact fun targets marked => emits targets marked.floor
  · rw [Lowered.through, unlabelled]
    exact .nil _ _

theorem cons {instr : Instr} {rest : List Instr}
    (lowersFirst : Lowers module named slotNames labels (.instr instr) before middle state first
      mid)
    (falls : first.falls = true)
    (lowersRest : Lowers module named slotNames labels (.body rest) middle after mid others last) :
    Lowers module named slotNames labels (.body (instr :: rest)) before after state
      ⟨first.stmts ++ others.stmts, others.falls⟩ last where
  sameLabels := lowersRest.sameLabels.trans lowersFirst.sameLabels
  grows := List.Subset.trans lowersFirst.grows lowersRest.grows
  counts := Nat.le_trans lowersFirst.counts lowersRest.counts
  stack := lowersRest.stack
  emits := by
    intro targets marked
    have emitsFirst := lowersFirst.emits targets (marked.mono lowersRest.grows)
    rw [falls] at emitsFirst
    refine .cons emitsFirst (lowersRest.emits targets ?_)
    rw [lowersFirst.sameLabels]
    exact marked
  numbered := by
    rw [C.labelsOf_append]
    exact lowersFirst.numbered.append lowersRest.numbered lowersFirst.counts lowersRest.counts

theorem stop {instr : Instr} {rest : List Instr}
    (lowersFirst : Lowers module named slotNames labels (.instr instr) before middle state first
      last)
    (falls : first.falls = false) :
    Lowers module named slotNames labels (.body (instr :: rest)) before after state first last where
  sameLabels := lowersFirst.sameLabels
  grows := lowersFirst.grows
  counts := lowersFirst.counts
  stack := by
    rcases lowersFirst.stack with ⟨above, isStack, _⟩
    refine ⟨above, isStack, fun falling => ?_⟩
    rw [falls] at falling
    cases falling
  emits := by
    intro targets marked
    have emitsFirst := lowersFirst.emits targets marked
    rw [falls] at emitsFirst ⊢
    exact .stop emitsFirst
  numbered := lowersFirst.numbered

theorem away {code : Code} {stmt : C.Stmt}
    (marks : state.Marks last)
    (isStack : state.stack = before ++ LabelType.floor labels) (unlabelled : stmt.labels = [])
    (emits : ∀ targets, Marked last.targets labels state.labels targets →
      Emits module named slotNames targets code before [stmt] false after) :
    Lowers module named slotNames labels code before after state (.final stmt) last := by
  rcases marks with ⟨targets, mentioned, rfl, grows⟩
  refine ⟨rfl, grows, Nat.le_refl _, ⟨before, isStack, nofun⟩, emits, ?_⟩
  rw [Lowered.final, labelsOf, unlabelled]
  exact .nil _ _

/-! ## Constructs -/

variable {isLoop : Bool} {head namedHead : BlockHead} {below : List ValueType}
  {opened : OpenLabel} {inner : State}

/-- A construct whose statements have the labels of what is inside, and its own if
it is used. -/
theorem construct {code : Code} {stmts : List C.Stmt} {falls : Bool}
    {results : List ValueType} {inside : List Nat}
    (isOpened : Opened state isLoop namedHead (below ++ LabelType.floor labels) opened inner)
    (grows : inner.targets ⊆ mid.targets) (counts : inner.labelCount ≤ mid.labelCount)
    (numbered : Numbered inner.labelCount mid.labelCount inside)
    (areLabels : (labelsOf stmts).Perm
      (labelsOf (labelIf (mid.uses opened) opened.label) ++ inside))
    (emits : ∀ targets, Marked mid.targets labels state.labels targets →
      Emits module named slotNames targets code before stmts falls (results.reverse ++ below)) :
    Lowers module named slotNames labels code before (results.reverse ++ below) state
      ⟨stmts, falls⟩
      (mid.behind state.labels (results.reverse ++ (below ++ LabelType.floor labels))) := by
  have own := Numbered.labelIf (mid.uses opened) opened.label
  rcases isOpened with ⟨rfl, mentioned, rfl⟩
  refine ⟨rfl, grows, Nat.le_of_succ_le counts, ⟨results.reverse ++ below, ?_, fun _ => rfl⟩,
    emits, ?_⟩
  · exact (List.append_assoc _ _ _).symm
  · exact (own.append numbered (Nat.le_succ _) counts).perm areLabels

/-- The label of a construct is marked as used if something jumps to it. -/
theorem marked {targets : List JumpTarget} (carried : List ValueType)
    (isOpened : Opened state isLoop namedHead (below ++ LabelType.floor labels) opened inner)
    (areMarked : Marked mid.targets labels state.labels targets) :
    Marked mid.targets (⟨carried, below ++ LabelType.floor labels⟩ :: labels) inner.labels
      (⟨⟨carried, below ++ JumpTarget.floor targets⟩, opened.label.number,
        mid.uses opened⟩ :: targets) := by
  rcases isOpened with ⟨rfl, mentioned, rfl⟩
  rw [areMarked.floor]
  exact .cons (fun isUsed => List.contains_iff_mem.mpr isUsed) areMarked

theorem block {body : List Instr}
    (isOpened : Opened state false namedHead (below ++ LabelType.floor labels) opened inner)
    (inside : Lowers module named slotNames
      (⟨head.results, below ++ LabelType.floor labels⟩ :: labels) (.body body)
      head.params.reverse head.results.reverse inner result mid) :
    Lowers module named slotNames labels (.instr (.block head body))
      (head.params.reverse ++ below) (head.results.reverse ++ below) state
      ⟨result.stmts ++ labelIf (mid.uses opened) opened.label,
        result.falls || mid.uses opened⟩
      (mid.behind state.labels (head.results.reverse ++ (below ++ LabelType.floor labels))) := by
  refine construct isOpened inside.grows inside.counts inside.numbered ?_ ?_
  · rw [C.labelsOf_append]
    exact List.perm_append_comm
  · exact fun targets areMarked => .block (inside.emits _ (marked _ isOpened areMarked))

theorem loop {body : List Instr}
    (isOpened : Opened state true namedHead (below ++ LabelType.floor labels) opened inner)
    (inside : Lowers module named slotNames
      (⟨head.params, below ++ LabelType.floor labels⟩ :: labels) (.body body)
      head.params.reverse head.results.reverse inner result mid) :
    Lowers module named slotNames labels (.instr (.loop head body))
      (head.params.reverse ++ below) (head.results.reverse ++ below) state
      ⟨labelIf (mid.uses opened) opened.label ++ result.stmts,
        result.falls⟩
      (mid.behind state.labels (head.results.reverse ++ (below ++ LabelType.floor labels))) := by
  refine construct isOpened inside.grows inside.counts inside.numbered ?_ ?_
  · rw [C.labelsOf_append]
  · exact fun targets areMarked => .loop (inside.emits _ (marked _ isOpened areMarked))

variable {condition : C.Slot} {thenBody elseBody : List Instr}

theorem ifThen
    (isOpened : Opened state false namedHead (below ++ LabelType.floor labels) opened inner)
    (isCondition : condition.IsAt
      (head.params.reverse ++ below ++ LabelType.floor labels).length .i32)
    (inside : Lowers module named slotNames
      (⟨head.results, below ++ LabelType.floor labels⟩ :: labels) (.body thenBody)
      head.params.reverse head.results.reverse inner result mid)
    (same : head.params = head.results) :
    Lowers module named slotNames labels (.instr (.ifElse head thenBody []))
      (.i32 :: head.params.reverse ++ below) (head.results.reverse ++ below) state
      (.through (.ifThen condition result.stmts :: labelIf (mid.uses opened) opened.label))
      (mid.behind state.labels (head.results.reverse ++ (below ++ LabelType.floor labels))) := by
  refine construct isOpened inside.grows inside.counts inside.numbered ?_ ?_
  · rw [labelsOf, C.Stmt.labels]
    exact List.perm_append_comm
  · intro targets areMarked
    exact .ifThen (areMarked.floor ▸ isCondition)
      (inside.emits _ (marked _ isOpened areMarked)) same

theorem ifThenElse {again : State}
    (isOpened : Opened state false namedHead (below ++ LabelType.floor labels) opened inner)
    (isCondition : condition.IsAt
      (head.params.reverse ++ below ++ LabelType.floor labels).length .i32)
    (thenInside : Lowers module named slotNames
      (⟨head.results, below ++ LabelType.floor labels⟩ :: labels) (.body thenBody)
      head.params.reverse head.results.reverse inner first mid)
    (isAgain : ∃ stack, again = { mid with stack })
    (elseInside : Lowers module named slotNames
      (⟨head.results, below ++ LabelType.floor labels⟩ :: labels) (.body elseBody)
      head.params.reverse head.results.reverse again others last) :
    Lowers module named slotNames labels (.instr (.ifElse head thenBody elseBody))
      (.i32 :: head.params.reverse ++ below) (head.results.reverse ++ below) state
      ⟨.ifThenElse condition first.stmts others.stmts ::
        labelIf (last.uses opened) opened.label,
        first.falls || others.falls || last.uses opened⟩
      (last.behind state.labels (head.results.reverse ++ (below ++ LabelType.floor labels))) := by
  rcases isAgain with ⟨stack, rfl⟩
  have grows : mid.targets ⊆ last.targets := elseInside.grows
  have counts : mid.labelCount ≤ last.labelCount := elseInside.counts
  have numbered := thenInside.numbered.append elseInside.numbered thenInside.counts counts
  refine construct isOpened (List.Subset.trans thenInside.grows grows)
    (Nat.le_trans thenInside.counts counts) numbered ?_ ?_
  · rw [labelsOf, C.Stmt.labels]
    exact List.perm_append_comm
  · intro targets areMarked
    have nowMarked := marked head.results isOpened areMarked
    refine .ifThenElse (areMarked.floor ▸ isCondition) ?_ ?_
    · exact thenInside.emits _ (nowMarked.mono grows)
    · refine elseInside.emits _ ?_
      show Marked _ _ mid.labels _
      rw [thenInside.sameLabels]
      exact nowMarked

theorem entered {code : Code} {stack : List ValueType} {mentioned : List C.Ident}
    (lowers : Lowers module named slotNames labels code before after { state with stack, mentioned }
      result last) :
    Lowers module named slotNames labels code before after state result last :=
  ⟨lowers.sameLabels, lowers.grows, lowers.counts, lowers.stack, lowers.emits, lowers.numbered⟩

end Lowers

section

variable {lenient : Prop} {module named : Module} {slotNames : List String}
  {state inner start mid : State}
  {names : List String} {labels : List LabelType} {head namedHead : BlockHead}
  {below : List ValueType} {isLoop : Bool} {opened : OpenLabel} {result : Lowered}

theorem openNamed_meets (func : String) (isLoop : Bool)
    (isNamed : Naming.NamedHead names head namedHead)
    (fits : state.Fits names labels (head.params.reverse ++ below)) :
    Meets lenient (openLabel func isLoop namedHead) state fun opened inner =>
      Opened state isLoop namedHead (below ++ LabelType.floor labels) opened inner ∧
        inner.Fits (namedHead.label :: names)
          (⟨if isLoop then head.params else head.results, below ++ LabelType.floor labels⟩ ::
            labels)
          head.params.reverse := by
  have sameParams : namedHead.params = head.params := congrArg Signature.params isNamed.signature
  rw [← sameParams] at fits
  refine (openLabel_meets func isLoop fits).mono ?_
  intro opened inner isOpened
  have innerFits := isOpened.fits fits isNamed.notOpen isNamed.notFunction
  have isCarried : opened.carried = if isLoop then head.params else head.results := by
    rw [isOpened.isOpened, OpenLabel.carried, isNamed.signature]
  rw [isCarried, sameParams] at innerFits
  exact ⟨isOpened, innerFits⟩

theorem Opened.innerLabels {isLoop : Bool} {height : List ValueType}
    (isOpened : Opened state isLoop head height opened inner) :
    inner.labels = opened :: state.labels := by
  rcases isOpened.after with ⟨mentioned, rfl⟩
  rfl

theorem Scope.checkEnd_meets (scope : Scope) (construct : String) {label : LabelType} {code : Code}
    {before : List ValueType} (isNamed : Naming.NamedHead names head namedHead)
    (isOpened : Opened state isLoop namedHead label.below opened inner)
    (inside : Lowers module named slotNames (label :: labels) code before head.results.reverse
      start result mid) :
    Meets lenient (scope.checkEnd construct opened result) mid fun _ after => after = mid := by
  unfold Scope.checkEnd
  split
  · next falls =>
      refine checkHeight_meets _ _ ?_
      rcases inside.stack with ⟨above, isStack, isAbove⟩
      rw [State.height, isStack, isAbove falls, isOpened.isOpened, isNamed.signature]
      simp [Nat.add_comm]
  · exact .pure rfl

/-- The end of a construct: its height is checked, its label is placed, and its
results are left. -/
theorem Scope.finish_meets (scope : Scope) (construct : String) {carried : List ValueType}
    {code : Code} {before : List ValueType} (isNamed : Naming.NamedHead names head namedHead)
    (isOpened : Opened state isLoop namedHead (below ++ LabelType.floor labels) opened inner)
    (isInner : mid.labels = opened :: state.labels)
    (inside : Lowers module named slotNames (⟨carried, below ++ LabelType.floor labels⟩ :: labels)
      code before head.results.reverse start result mid)
    {finish : List C.Stmt → Lowered} {post : Lowered → State → Prop}
    (holds : post (finish (labelIf (mid.uses opened) opened.label))
      (mid.behind state.labels (head.results.reverse ++ (below ++ LabelType.floor labels)))) :
    Meets lenient (do
      scope.checkEnd construct opened result
      let label ← labelStmts opened
      closeLabel scope.name opened
      return finish label) mid post := by
  refine (scope.checkEnd_meets construct isNamed isOpened inside).bind ?_
  rintro _ after same
  subst after
  refine (labelStmts_meets opened mid).bind ?_
  rintro label after ⟨isLabel, same⟩
  subst label after
  rcases inside.stack with ⟨above, isStack, _⟩
  have isEntry : opened.entry = (below ++ LabelType.floor labels).length := by
    rw [isOpened.isOpened]
  refine (closeLabel_meets scope.name isStack isEntry).bind ?_
  rintro _ _ rfl
  have sameResults : opened.signature.results = head.results := by
    rw [isOpened.isOpened, isNamed.signature]
  rw [isInner, List.tail_cons, sameResults]
  exact .pure holds

variable {scope : Scope} {newThen : List Instr} {thenBody : List Instr}

/-- The condition of an `if` is taken from the stack before its construct opens. -/
theorem Scope.ifThen_lowers (isNamed : Naming.NamedHead names head namedHead)
    (fits : state.Fits names labels (.i32 :: head.params.reverse ++ below))
    (lowersThen : ∀ inner : State, inner.Fits (namedHead.label :: names)
      (⟨head.results, below ++ LabelType.floor labels⟩ :: labels) head.params.reverse →
        Meets lenient (scope.instrs newThen) inner (Lowers module scope.module slotNames
          (⟨head.results, below ++ LabelType.floor labels⟩ :: labels) (.body thenBody)
          head.params.reverse head.results.reverse inner))
    (same : head.params = head.results) :
    Meets lenient (scope.instr (.ifElse namedHead newThen [])) state
      (Lowers module scope.module slotNames labels (.instr (.ifElse head thenBody []))
        (.i32 :: head.params.reverse ++ below) (head.results.reverse ++ below) state) := by
  have popped := State.Fits.popped [_] fits
  refine (fits.top scope.name rfl).bind ?_
  rintro condition _ ⟨isCondition, mentioned, rfl⟩
  refine ((fits.mentioning mentioned).pop scope.name [_] rfl rfl).bind ?_
  rintro _ _ rfl
  refine (openNamed_meets scope.name false isNamed (popped mentioned)).bind ?_
  rintro opened inner ⟨isOpened, innerFits⟩
  refine (lowersThen inner innerFits).bind ?_
  intro result mid inside
  refine scope.finish_meets "if" isNamed isOpened ?_ inside ?_
  · exact inside.sameLabels.trans isOpened.innerLabels
  · exact (inside.ifThen isOpened isCondition same).entered

/-- The other arm of an `if` starts with the stack that the first one started with. -/
theorem Scope.ifThenElse_lowers {first other : Instr} {rest others : List Instr}
    (isNamed : Naming.NamedHead names head namedHead)
    (fits : state.Fits names labels (.i32 :: head.params.reverse ++ below))
    (lowersThen : ∀ inner : State, inner.Fits (namedHead.label :: names)
      (⟨head.results, below ++ LabelType.floor labels⟩ :: labels) head.params.reverse →
        Meets lenient (scope.instrs newThen) inner (Lowers module scope.module slotNames
          (⟨head.results, below ++ LabelType.floor labels⟩ :: labels) (.body thenBody)
          head.params.reverse head.results.reverse inner))
    (lowersElse : ∀ inner : State, inner.Fits (namedHead.label :: names)
      (⟨head.results, below ++ LabelType.floor labels⟩ :: labels) head.params.reverse →
        Meets lenient (scope.instrs (other :: others)) inner (Lowers module scope.module slotNames
          (⟨head.results, below ++ LabelType.floor labels⟩ :: labels) (.body (first :: rest))
          head.params.reverse head.results.reverse inner)) :
    Meets lenient (scope.instr (.ifElse namedHead newThen (other :: others))) state
      (Lowers module scope.module slotNames labels
        (.instr (.ifElse head thenBody (first :: rest))) (.i32 :: head.params.reverse ++ below)
        (head.results.reverse ++ below) state) := by
  have popped := State.Fits.popped [_] fits
  refine (fits.top scope.name rfl).bind ?_
  rintro condition _ ⟨isCondition, mentioned, rfl⟩
  refine ((fits.mentioning mentioned).pop scope.name [_] rfl rfl).bind ?_
  rintro _ _ rfl
  refine (openNamed_meets scope.name false isNamed (popped mentioned)).bind ?_
  rintro opened inner ⟨isOpened, innerFits⟩
  refine (lowersThen inner innerFits).bind ?_
  intro thenResult mid thenInside
  refine (scope.checkEnd_meets "if" isNamed isOpened thenInside).bind ?_
  rintro _ after isAfter
  subst after
  rcases thenInside.stack with ⟨above, isStack, _⟩
  have isEntry : opened.entry = (below ++ LabelType.floor labels).length := by
    rw [isOpened.isOpened]
  have sameParams : opened.signature.params = head.params := by
    rw [isOpened.isOpened, isNamed.signature]
  refine (resetStack_meets scope.name isStack isEntry).bind ?_
  rintro _ _ rfl
  refine (pushAll_meets _ _).bind ?_
  rintro _ _ rfl
  rw [sameParams]
  refine (lowersElse _ ⟨rfl, thenInside.sameLabels ▸ innerFits.opens⟩).bind ?_
  intro elseResult last elseInside
  refine scope.finish_meets "else" isNamed isOpened ?_ elseInside ?_
  · exact elseInside.sameLabels.trans (thenInside.sameLabels.trans isOpened.innerLabels)
  · rw [labelIf_isEmpty, Bool.not_not]
    exact (thenInside.ifThenElse isOpened isCondition ⟨_, rfl⟩ elseInside).entered

end

/-! ## Branches -/

section

variable {lenient : Prop} {state : State} {names : List String} {labels : List LabelType}
  {carried above : List ValueType}

theorem State.Marks.fits {after : State} {before : List ValueType} (marks : state.Marks after)
    (fits : state.Fits names labels before) : after.Fits names labels before := by
  rcases marks with ⟨targets, mentioned, rfl, _⟩
  exact ⟨fits.stack, fits.opens⟩

theorem branch_meets (func : String) {depth : Index} {label : LabelType} {reference : Reference}
    (named : Naming.Scope.label names (.index depth) = .ok reference)
    (isLabel : labels[depth.toNat]? = some label) (isCarried : label.carried = carried)
    (fits : state.Fits names labels (carried.reverse ++ above)) :
    Meets lenient (jumpTo func reference) state fun jump after =>
      JumpsTo labels state.labels state.height carried after.targets depth.toNat jump ∧
        state.Marks after := by
  subst isCarried
  rcases Naming.Scope.label_named named with ⟨name, rfl, isName⟩
  exact jumpTo_meets func fits isLabel isName

theorem Scope.jumps_meets (scope : Scope) {sources references : List Reference}
    (named : List.Forall₂ (fun source reference => Naming.Scope.label names source = .ok reference)
      sources references)
    (areLabels : ∀ source ∈ sources, ∃ depth label, source = .index depth ∧
      labels[depth.toNat]? = some label ∧ label.carried = carried)
    (fits : state.Fits names labels (carried.reverse ++ above)) :
    Meets lenient (scope.jumps references) state fun jumps after =>
      List.Forall₂ (fun source jump => ∃ depth : Index, source = .index depth ∧
        JumpsTo labels state.labels state.height carried after.targets depth.toNat jump)
        sources jumps ∧ state.Marks after := by
  unfold Scope.jumps
  induction named generalizing state with
  | nil => exact .pure ⟨.nil, state.targets, state.mentioned, rfl, List.Subset.refl _⟩
  | cons isFirst _ induction =>
      rcases areLabels _ List.mem_cons_self with ⟨depth, label, rfl, isLabel, isCarried⟩
      rw [List.mapM_cons]
      refine (branch_meets scope.name isFirst isLabel isCarried fits).bind ?_
      rintro jump middle ⟨jumps, marks⟩
      refine (induction ?_ (marks.fits fits)).bind ?_
      · exact fun source member => areLabels source (List.mem_cons_of_mem _ member)
      rintro others after ⟨areOthers, marksLater⟩
      rcases marksLater with ⟨targets, mentioned, rfl, grows⟩
      rcases marks with ⟨marked, mentionedFirst, rfl, growsFirst⟩
      refine .pure ⟨.cons ⟨depth, rfl, jumps.mono grows⟩ areOthers, targets, mentioned, rfl, ?_⟩
      exact List.Subset.trans growsFirst grows

end

section

variable {lenient : Prop} {module : Module} {scope : Scope} {slotNames : List String}
  {state : State} {names : List String} {labels : List LabelType} {above after : List ValueType}

theorem Scope.br_lowers {depth : Index} {label : LabelType} {reference : Reference}
    (named : Naming.Scope.label names (.index depth) = .ok reference)
    (isLabel : labels[depth.toNat]? = some label)
    (fits : state.Fits names labels (label.carried.reverse ++ above)) :
    Meets lenient (scope.instr (.br reference)) state
      (Lowers module scope.module slotNames labels (.instr (.br (.index depth)))
        (label.carried.reverse ++ above) after state) := by
  refine (branch_meets scope.name named isLabel rfl fits).bind ?_
  rintro jump last ⟨jumps, marks⟩
  refine .pure (Lowers.away marks fits.stack rfl ?_)
  intro targets marked
  rcases marked.jumps jumps with ⟨target, isTarget, sameCarried, isJump⟩
  rw [State.height, fits.stack, ← marked.floor, ← sameCarried] at isJump
  rw [← sameCarried]
  exact .br isTarget isJump

theorem Scope.leave_lowers {label : LabelType} (isLast : labels.getLast? = some label)
    (fits : state.Fits names labels (label.carried.reverse ++ above)) :
    Meets lenient (scope.instr .leave) state
      (Lowers module scope.module slotNames labels (.instr .leave)
        (label.carried.reverse ++ above) after state) := by
  have lengths : labels.length = names.length + 1 := by
    have opened := congrArg List.length fits.opens.named
    have carried := congrArg List.length fits.opens.carried
    simp only [List.length_map, List.length_append, List.length_singleton] at opened carried
    rw [← carried, opened]
  have isLabel : labels[names.length]? = some label := by
    rw [← isLast, List.getLast?_eq_getElem?, lengths, Nat.add_sub_cancel]
  have isName : (names ++ [Naming.funcLabel])[names.length]? = some Naming.funcLabel := by simp
  refine (jumpTo_meets scope.name fits isLabel isName).bind ?_
  rintro jump last ⟨jumps, marks⟩
  refine .pure (Lowers.away marks fits.stack rfl ?_)
  intro targets marked
  rcases marked.jumps jumps with ⟨target, isTarget, sameCarried, isJump⟩
  have targetCount : targets.length = names.length + 1 := by
    rw [← lengths, ← marked.types, List.length_map]
  rw [State.height, fits.stack, ← marked.floor, ← sameCarried] at isJump
  rw [← sameCarried]
  refine .leave ?_ isJump
  rw [List.getLast?_eq_getElem?, targetCount, Nat.add_sub_cancel, isTarget]

theorem Scope.brIf_lowers {depth : Index} {label : LabelType} {reference : Reference}
    (named : Naming.Scope.label names (.index depth) = .ok reference)
    (isLabel : labels[depth.toNat]? = some label)
    (fits : state.Fits names labels (.i32 :: label.carried.reverse ++ above)) :
    Meets lenient (scope.instr (.brIf reference)) state
      (Lowers module scope.module slotNames labels (.instr (.brIf (.index depth)))
        (.i32 :: label.carried.reverse ++ above) (label.carried.reverse ++ above) state) := by
  refine (fits.top scope.name rfl).bind ?_
  rintro condition _ ⟨isCondition, mentioned, rfl⟩
  refine ((fits.mentioning mentioned).pop scope.name [_] rfl rfl).bind ?_
  rintro _ _ rfl
  have popped : { state with
      stack := label.carried.reverse ++ above ++ LabelType.floor labels, mentioned }.Fits names
      labels (label.carried.reverse ++ above) := ⟨rfl, fits.opens⟩
  refine (branch_meets scope.name named isLabel rfl popped).bind ?_
  rintro jump last ⟨jumps, marks⟩
  rcases marks with ⟨used, mentionedJump, rfl, grows⟩
  refine .pure ⟨rfl, grows, Nat.le_refl _, ⟨_, rfl, fun _ => rfl⟩, ?_, .nil _ _⟩
  intro targets marked
  rcases marked.jumps jumps with ⟨target, isTarget, sameCarried, isJump⟩
  rw [State.height, ← marked.floor, ← sameCarried] at isJump
  rw [← marked.floor] at isCondition
  rw [← sameCarried] at isCondition ⊢
  exact .brIf isTarget isCondition isJump

theorem Scope.brTable_lowers {sources : List Reference} {otherwise : Reference}
    {references : List Reference} {last : Reference} {carried : List ValueType}
    (named : List.Forall₂ (fun source reference => Naming.Scope.label names source = .ok reference)
      sources references)
    (namedLast : Naming.Scope.label names otherwise = .ok last)
    (areLabels : ∀ source ∈ sources ++ [otherwise], ∃ depth label, source = .index depth ∧
      labels[depth.toNat]? = some label ∧ label.carried = carried)
    (fits : state.Fits names labels (.i32 :: carried.reverse ++ above)) :
    Meets lenient (scope.instr (.brTable references last)) state
      (Lowers module scope.module slotNames labels (.instr (.brTable sources otherwise))
        (.i32 :: carried.reverse ++ above) after state) := by
  refine (fits.top scope.name rfl).bind ?_
  rintro position _ ⟨isPosition, mentioned, rfl⟩
  refine ((fits.mentioning mentioned).pop scope.name [_] rfl rfl).bind ?_
  rintro _ _ rfl
  have popped : { state with
      stack := carried.reverse ++ above ++ LabelType.floor labels, mentioned }.Fits names
      labels (carried.reverse ++ above) := ⟨rfl, fits.opens⟩
  refine (scope.jumps_meets named ?_ popped).bind ?_
  · exact fun source member => areLabels source (List.mem_append_left _ member)
  rintro cases middle ⟨areCases, marks⟩
  rcases areLabels otherwise (by simp) with ⟨depth, label, rfl, isLabel, isCarried⟩
  refine (branch_meets scope.name namedLast isLabel isCarried (marks.fits popped)).bind ?_
  rintro jump final ⟨isJump, marksLast⟩
  rcases marks with ⟨used, mentionedCases, rfl, grows⟩
  rcases marksLast with ⟨usedLast, mentionedLast, rfl, growsLast⟩
  refine .pure
    ⟨rfl, List.Subset.trans grows growsLast, Nat.le_refl _, ⟨_, rfl, nofun⟩, ?_, .nil _ _⟩
  intro targets marked
  rw [← marked.floor] at isPosition
  refine .brTable isPosition ?_
  rw [marked.floor]
  refine List.rel_append ?_ (.cons (marked.branches ⟨depth, rfl, isJump⟩) .nil)
  refine areCases.imp fun source jump ⟨depth, isSource, jumpsTo⟩ => ?_
  exact marked.branches ⟨depth, isSource, jumpsTo.mono growsLast⟩

end

/-! ## Plain instructions -/

namespace Scope

variable {lenient : Prop} {module : Module} {scope : Scope} {slotNames : List String}
  {state : State} {names : List String} {labels : List LabelType} {below : List ValueType}

theorem select_lowers {explicit : Option (List ValueType)} {type : ValueType}
    (fits : state.Fits names labels (.i32 :: type :: type :: below)) :
    Meets lenient scope.select state (Lowers module scope.module slotNames labels
      (.instr (.select explicit)) (.i32 :: type :: type :: below) (type :: below) state) := by
  have isSecond : state.stack[1]? = some type := by
    rw [fits.stack]
    rfl
  refine (typeAt_meets scope.name (fits.enough (by simp)) isSecond).bind ?_
  rintro _ after ⟨rfl, same⟩
  subst after
  refine (fits.top scope.name rfl).bind ?_
  rintro first _ ⟨isFirst, mentioned, rfl⟩
  refine ((fits.mentioning mentioned).top scope.name rfl).bind ?_
  rintro condition _ ⟨isCondition, mentionedCondition, rfl⟩
  refine ((fits.mentioning mentionedCondition).top scope.name rfl).bind ?_
  rintro second _ ⟨isSecond, mentionedSecond, rfl⟩
  refine ((fits.mentioning mentionedSecond).pop scope.name [_, _, _] rfl rfl).bind ?_
  rintro _ _ rfl
  refine (push_meets _ _).bind ?_
  rintro _ _ rfl
  refine .pure (Lowers.plain ⟨mentionedSecond, rfl⟩ rfl ?_)
  intro targets isFloor
  rw [← isFloor] at isFirst isSecond isCondition
  exact .select isFirst isSecond isCondition

theorem extension_meets {instr : Instr} (beyond : instr.isExtension = true) (state : State)
    (post : Lowered → State → Prop) : Meets lenient (scope.instr instr) state post := by
  cases instr <;> first | exact absurd beyond Bool.false_ne_true | exact Meets.unsupported _ _ _

theorem const_lowers (value : Constant) (fits : state.Fits names labels below) :
    Meets lenient (scope.const value) state (Lowers module scope.module slotNames labels
      (.instr (.const value)) below (value.type :: below) state) := by
  refine (push_meets _ _).bind ?_
  rintro _ _ rfl
  refine ((fits.pushed value.type).top scope.name rfl).bind ?_
  rintro target _ ⟨isTarget, mentioned, rfl⟩
  cases value with
  | number number =>
      refine .pure (Lowers.plain ⟨mentioned, ?_⟩ rfl ?_)
      · rw [fits.stack]
        rfl
      · intro targets isFloor
        rw [← isFloor] at isTarget
        exact .const isTarget
  | _ => exact .unsupported _ _ _

end Scope

namespace Setting

variable {lenient : Prop} {module : Module} {func : Func} {naming : Naming.Scope} {scope : Scope}
  {slotNames : List String} (setting : Setting lenient module func naming scope slotNames)
  {state : State} {names : List String} {labels : List LabelType} {below : List ValueType}
  {slot : Index} {type : ValueType} {name : String}

include setting

theorem place_meets (isName : slotNames[slot.toNat]? = some name) (state : State) :
    Meets lenient (scope.place (.name name)) state fun result after =>
      result = name ∧ after = state := by
  refine (Meets.lift (Gives.ok rfl) state).bind ?_
  rintro _ _ ⟨rfl, rfl⟩
  refine .bind_promised (setting.declared name (List.mem_of_getElem? isName)) ?_
  exact .pure ⟨rfl, rfl⟩

theorem localGet_lowers (known : func.slotType? slot = some type)
    (isName : slotNames[slot.toNat]? = some name) (fits : state.Fits names labels below) :
    Meets lenient (scope.localGet (.name name)) state (Lowers module scope.module slotNames labels
      (.instr (.localGet (.index slot))) below (type :: below) state) := by
  rcases setting.slotTypes slot type name known isName with ⟨isType, declared⟩
  unfold Scope.localGet
  rw [isType]
  refine .bind_promised declared ?_
  refine (push_meets _ _).bind ?_
  rintro _ _ rfl
  refine ((fits.pushed type).top scope.name rfl).bind ?_
  rintro target _ ⟨isTarget, mentioned, rfl⟩
  refine (setting.place_meets isName _).bind ?_
  rintro _ _ ⟨rfl, rfl⟩
  refine .pure (Lowers.plain ⟨mentioned, ?_⟩ rfl ?_)
  · rw [fits.stack]
    rfl
  · intro targets isFloor
    rw [← isFloor] at isTarget
    exact .localGet isName isTarget

theorem setPlace_meets (isName : slotNames[slot.toNat]? = some name)
    (fits : state.Fits names labels (type :: below)) :
    Meets lenient (scope.setPlace (.name name)) state fun stmts after =>
      ∃ value : C.Slot, stmts = [.setNamed name value] ∧
        value.IsAt (below ++ LabelType.floor labels).length type ∧ state.Mentions after := by
  refine (setting.place_meets isName state).bind ?_
  rintro _ after ⟨rfl, same⟩
  subst after
  refine (fits.top scope.name rfl).bind ?_
  rintro value after ⟨isValue, mentions⟩
  exact .pure ⟨value, rfl, isValue, mentions⟩

theorem localSet_lowers (isName : slotNames[slot.toNat]? = some name)
    (fits : state.Fits names labels (type :: below)) :
    Meets lenient (scope.instr (.localSet (.name name))) state
      (Lowers module scope.module slotNames labels
        (.instr (.localSet (.index slot))) (type :: below) below state) := by
  refine (setting.setPlace_meets isName fits).bind ?_
  rintro _ _ ⟨value, rfl, isValue, mentioned, rfl⟩
  refine ((fits.mentioning mentioned).pop scope.name [_] rfl rfl).bind ?_
  rintro _ _ rfl
  refine .pure (Lowers.plain ⟨mentioned, rfl⟩ rfl ?_)
  intro targets isFloor
  rw [← isFloor] at isValue
  exact .localSet isName isValue

theorem localTee_lowers (isName : slotNames[slot.toNat]? = some name)
    (fits : state.Fits names labels (type :: below)) :
    Meets lenient (scope.instr (.localTee (.name name))) state
      (Lowers module scope.module slotNames labels
        (.instr (.localTee (.index slot))) (type :: below) (type :: below) state) := by
  refine (setting.setPlace_meets isName fits).bind ?_
  rintro _ _ ⟨value, rfl, isValue, mentioned, rfl⟩
  refine .pure (Lowers.plain ⟨mentioned, ?_⟩ rfl ?_)
  · rw [← fits.stack]
  · intro targets isFloor
    rw [← isFloor] at isValue
    exact .localTee isName isValue

theorem apply_lowers {instr target : Instr} {application : Application}
    (applies : module.application? instr = some application)
    (named : naming.instr names instr = .ok target)
    (fits : state.Fits names labels (application.type.params.reverse ++ below)) :
    Meets lenient (scope.instr target) state
      (Lowers module scope.module slotNames labels (.instr instr)
        (application.type.params.reverse ++ below) (application.type.results.reverse ++ below)
        state) := by
  refine (setting.performs applies named fits).mono ?_
  rintro _ last ⟨⟨stmt, arguments, target, rfl, effect, areArguments, isTarget⟩, isLast⟩
  rw [← List.append_assoc] at isLast
  refine Lowers.plain isLast ?_ ?_
  · rw [labelsOf, C.Stmt.labels_of_effect effect]
    rfl
  · intro targets isFloor
    rw [← isFloor] at areArguments isTarget
    exact .apply applies effect areArguments isTarget

end Setting

/-! ## Typed code -/

section

variable {lenient : Prop} {module : Module} {func : Func} {naming : Naming.Scope} {scope : Scope}
  {slotNames : List String} {assign : Assignment}

/-- Lowering typed code gives the statements that are emitted for it, or meets
something that is not supported. -/
theorem typed_lowers (setting : Setting lenient module func naming scope slotNames)
    {list : Place} {number : Nat} {labels : List LabelType} {code : Code}
    {before after : List ValueType}
    (typed : Typed module func assign list number labels code before after) :
    ∀ {names : List String} {target : Code} {state : State},
      Naming.NamedCode naming names code target → state.Fits names labels before →
        Meets lenient (scope.code target) state
          (Lowers module scope.module slotNames labels code before after state) := by
  induction typed with
  | nil =>
      intro names target state named fits
      cases named.body_nil
      exact .pure (Lowers.plain ⟨state.mentioned, by rw [← fits.stack]⟩ rfl fun _ _ => .nil)
  | cons _ _ _ lowersFirst lowersRest =>
      intro names target state named fits
      rcases named.body_cons with ⟨first, others, rfl, namedFirst, namedRest⟩
      refine (lowersFirst namedFirst fits).bind ?_
      intro firstResult middle lowers
      split
      · next falls =>
          refine (lowersRest namedRest (lowers.fits falls fits)).bind ?_
          exact fun others last lowersOthers => .pure (lowers.cons falls lowersOthers)
      · next stops => exact .pure (lowers.stop (by simpa using stops))
  | apply applies =>
      intro names target state named fits
      rcases named.plain (Instr.head?_of_application applies) with ⟨first, rfl, isFirst⟩
      exact setting.apply_lowers applies isFirst fits
  | nop =>
      intro names target state named fits
      rcases named.plain rfl with ⟨first, rfl, isFirst⟩
      cases isFirst
      exact .pure (Lowers.plain ⟨state.mentioned, by rw [← fits.stack]⟩ rfl fun _ _ => .nop)
  | drop =>
      intro names target state named fits
      rcases named.plain rfl with ⟨first, rfl, isFirst⟩
      cases isFirst
      refine (fits.pop scope.name [_] rfl rfl).bind ?_
      rintro _ _ rfl
      exact .pure (Lowers.plain ⟨state.mentioned, rfl⟩ rfl fun _ _ => .drop)
  | select =>
      intro names target state named fits
      rcases named.plain rfl with ⟨first, rfl, isFirst⟩
      cases isFirst
      exact Scope.select_lowers fits
  | const =>
      intro names target state named fits
      rcases named.plain rfl with ⟨first, rfl, isFirst⟩
      cases isFirst
      exact Scope.const_lowers _ fits
  | localGet known =>
      intro names target state named fits
      rcases named.plain rfl with ⟨first, rfl, isFirst⟩
      rcases bind_eq_ok isFirst with ⟨reference, isReference, isInstr⟩
      cases isInstr
      rcases setting.slots _ _ isReference with ⟨name, rfl, isName⟩
      exact setting.localGet_lowers known isName fits
  | localSet known =>
      intro names target state named fits
      rcases named.plain rfl with ⟨first, rfl, isFirst⟩
      rcases bind_eq_ok isFirst with ⟨reference, isReference, isInstr⟩
      cases isInstr
      rcases setting.slots _ _ isReference with ⟨name, rfl, isName⟩
      exact setting.localSet_lowers isName fits
  | localTee known =>
      intro names target state named fits
      rcases named.plain rfl with ⟨first, rfl, isFirst⟩
      rcases bind_eq_ok isFirst with ⟨reference, isReference, isInstr⟩
      cases isInstr
      rcases setting.slots _ _ isReference with ⟨name, rfl, isName⟩
      exact setting.localTee_lowers isName fits
  | block _ lowersBody =>
      intro names target state named fits
      rcases named.block with ⟨newHead, newBody, rfl, namedHead, namedBody⟩
      refine (openNamed_meets scope.name false namedHead fits).bind ?_
      rintro opened inner ⟨isOpened, innerFits⟩
      refine (lowersBody namedBody innerFits).bind ?_
      intro result mid inside
      refine scope.finish_meets "block" namedHead isOpened ?_ inside ?_
      · exact inside.sameLabels.trans isOpened.innerLabels
      · rw [labelIf_isEmpty, Bool.not_not]
        exact inside.block isOpened
  | loop _ lowersBody =>
      intro names target state named fits
      rcases named.loop with ⟨newHead, newBody, rfl, namedHead, namedBody⟩
      refine (openNamed_meets scope.name true namedHead fits).bind ?_
      rintro opened inner ⟨isOpened, innerFits⟩
      refine (lowersBody namedBody innerFits).bind ?_
      intro result mid inside
      refine scope.finish_meets "loop" namedHead isOpened ?_ inside ?_
      · exact inside.sameLabels.trans isOpened.innerLabels
      · exact inside.loop isOpened
  | @ifElse list number labels head thenBody elseBody below _ typedElse lowersThen lowersElse =>
      intro names target state named fits
      rcases named.ifElse with ⟨newHead, newThen, newElse, rfl, namedHead, namedThen, namedElse⟩
      cases elseBody with
      | nil =>
          cases namedElse.body_nil
          refine Scope.ifThen_lowers namedHead fits (fun inner => lowersThen namedThen) ?_
          exact List.reverse_injective typedElse.nil_eq
      | cons first rest =>
          rcases namedElse.body_cons with ⟨other, others, isElse, _⟩
          cases isElse
          exact Scope.ifThenElse_lowers namedHead fits (fun inner => lowersThen namedThen)
            (fun inner => lowersElse namedElse)
  | br isLabel =>
      intro names target state named fits
      rcases named.plain rfl with ⟨first, rfl, isFirst⟩
      rcases bind_eq_ok isFirst with ⟨reference, isReference, isInstr⟩
      cases isInstr
      exact Scope.br_lowers isReference isLabel fits
  | brIf isLabel =>
      intro names target state named fits
      rcases named.plain rfl with ⟨first, rfl, isFirst⟩
      rcases bind_eq_ok isFirst with ⟨reference, isReference, isInstr⟩
      cases isInstr
      exact Scope.brIf_lowers isReference isLabel fits
  | brTable areLabels =>
      intro names target state named fits
      rcases named.plain rfl with ⟨first, rfl, isFirst⟩
      rcases bind_eq_ok isFirst with ⟨references, areReferences, remaining⟩
      rcases bind_eq_ok remaining with ⟨last, isLast, isInstr⟩
      cases isInstr
      exact Scope.brTable_lowers (mapM_eq_ok areReferences) isLast areLabels fits
  | leave isLast =>
      intro names target state named fits
      rcases named.plain rfl with ⟨first, rfl, isFirst⟩
      cases isFirst
      exact Scope.leave_lowers isLast fits
  | unreachable =>
      intro names target state named fits
      rcases named.plain rfl with ⟨first, rfl, isFirst⟩
      cases isFirst
      refine .pure (Lowers.away ⟨state.targets, state.mentioned, rfl, List.Subset.refl _⟩ fits.stack
        rfl fun _ _ => .unreachable)
  | extension beyond =>
      intro names target state named fits
      rcases named.sameSort with ⟨first, rfl, sameSort, _⟩
      exact Scope.extension_meets (sameSort.trans beyond) state _

end

end Emission

end WasmLowering
