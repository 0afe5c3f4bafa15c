import WasmLowering.Proofs.Lowering.Frame
import WasmLowering.Proofs.Lowering.Function
import WasmLowering.Proofs.Naming.BlockLabels

/-! Branches keep their targets.

A branch is given by a depth, then by a name, and is lowered by looking the name up
among the labels that are open. These are the labels of the constructs around the
branch, and all of them have different names, so that the name leads back to the
construct at the depth. Nothing has to be typed for this. -/

namespace WasmLowering

/-! ## Places in code -/

def Instr.arm? : Instr → (arm : Nat) → Option (BlockHead × List Instr)
  | .block head body, 0 => some (head, body)
  | .loop head body, 0 => some (head, body)
  | .ifElse head thenBody _, 0 => some (head, thenBody)
  | .ifElse head _ elseBody, 1 => some (head, elseBody)
  | _, _ => none

/-- The instruction that a path leads to, from the outside in, with the heads of the
constructs around it, the innermost first. -/
def Code.at? : Code → (path : List Nat) → Option (List BlockHead × Instr)
  | .body instrs, [number] => instrs[number]?.map fun found => ([], found)
  | .body instrs, number :: path => instrs[number]?.bind fun found => Code.at? (.instr found) path
  | .instr construct, arm :: path =>
      (construct.arm? arm).bind fun (head, inside) =>
        (Code.at? (.body inside) path).map fun (heads, found) => (heads ++ [head], found)
  | _, [] => none

namespace Emission

/-! ## The labels that are open at a point -/

variable {scope : Scope} {naming : Naming.Scope} {names : List String} {state : State}

structure LabelsNamed (scope : Scope) (state : State) (names : List String) : Prop where
  named : state.labels.map (·.label.name) = names ++ [Naming.funcLabel]
  nodup : (names ++ [Naming.funcLabel]).Nodup
  framed : Framed scope state.labels [] state

theorem LabelsNamed.behind {next : State} {known : List C.Ident}
    (isNamed : LabelsNamed scope state names)
    (framed : Framed scope state.labels known next) : LabelsNamed scope next names where
  named := framed.isOpen ▸ isNamed.named
  nodup := isNamed.nodup
  framed := framed.isOpen.symm ▸ framed.mono (List.nil_subset _)

theorem LabelsNamed.enter {inner : State} {opened : OpenLabel} {head newHead : BlockHead}
    {known : List C.Ident} (isNamed : LabelsNamed scope state names)
    (namedHead : Naming.NamedHead names head newHead)
    (isLabel : opened.label.name = newHead.label)
    (framed : Framed scope (opened :: state.labels) known inner) :
    LabelsNamed scope inner (newHead.label :: names) where
  named := by simp [framed.isOpen, isLabel, isNamed.named]
  nodup := by
    rw [List.cons_append, List.nodup_cons]
    refine ⟨?_, isNamed.nodup⟩
    intro member
    rcases List.mem_append.mp member with isOpen | isFunction
    · exact namedHead.notOpen isOpen
    · exact namedHead.notFunction (List.mem_singleton.mp isFunction)
  framed := framed.isOpen.symm ▸ framed.mono (List.nil_subset _)

theorem LabelsNamed.block {isLoop : Bool} {inner : State} {opened : OpenLabel}
    {head newHead : BlockHead} (isNamed : LabelsNamed scope state names)
    (namedHead : Naming.NamedHead names head newHead)
    (opens : openLabel scope.name isLoop newHead state = .ok (opened, inner)) :
    LabelsNamed scope inner (newHead.label :: names) := by
  have isLabel := ((openLabel_opens scope.name isLoop newHead state).of_ok opens).1
  have framed := (openLabel_frames scope.name isLoop newHead state isNamed.framed).of_ok opens
  exact isNamed.enter namedHead (by rw [isLabel]) framed

theorem enterIf_label (head : BlockHead) :
    Meets True (scope.enterIf head) state fun opened _ => opened.label.name = head.label := by
  apply (Meets.anything _ _).bind
  intro _ _ _
  apply (Meets.anything _ _).bind
  intro _ after _
  apply (openLabel_opens scope.name false head after).mono
  intro opened _ ⟨isLabel, _⟩
  rw [isLabel]

theorem enterIf_frames {labels : List OpenLabel} {known : List C.Ident} (head : BlockHead) :
    Frames scope labels known (scope.enterIf head) (fun opened => opened :: labels)
      fun opened => [.label opened.label] := by
  apply (top_frames scope.name 0).bind
  intro _
  apply (pop_frames scope.name 1).bind
  intro _
  exact openLabel_frames scope.name false head

theorem enterElse_frames {labels : List OpenLabel} {known : List C.Ident} (opened : OpenLabel) :
    Frames scope labels known (scope.enterElse opened) (fun _ => labels) fun _ => [] := by
  apply (resetStack_frames scope.name opened.entry).bind
  intro _
  exact pushAll_frames _

theorem LabelsNamed.ifElse {inner : State} {opened : OpenLabel} {head newHead : BlockHead}
    (isNamed : LabelsNamed scope state names) (namedHead : Naming.NamedHead names head newHead)
    (enters : scope.enterIf newHead state = .ok (opened, inner)) :
    LabelsNamed scope inner (newHead.label :: names) := by
  have framed := (enterIf_frames newHead state isNamed.framed).of_ok enters
  exact isNamed.enter namedHead ((enterIf_label newHead).of_ok enters) framed

/-! ## From places to open labels -/

def Reached (naming : Naming.Scope) (scope : Scope) (names : List String) (source target : Code)
    (path : List Nat) (visited : State) : Prop :=
  ∃ sourceHeads heads before after,
    source.at? path = some (sourceHeads, before) ∧ target.at? path = some (heads, after) ∧
    sourceHeads.length = heads.length ∧
    LabelsNamed scope visited (heads.map (·.label) ++ names) ∧
    Naming.NamedCode naming (heads.map (·.label) ++ names) (.instr before) (.instr after)

namespace Reached

variable {visited : State}

theorem here {before after : Instr} {rest others : List Instr}
    (isNamed : LabelsNamed scope state names)
    (named : Naming.NamedCode naming names (.instr before) (.instr after)) :
    Reached naming scope names (.body (before :: rest)) (.body (after :: others)) [0] state :=
  ⟨[], [], before, after, rfl, rfl, rfl, isNamed, named⟩

theorem first {before after : Instr} {rest others : List Instr} {path : List Nat}
    (reached : Reached naming scope names (.instr before) (.instr after) path visited) :
    Reached naming scope names (.body (before :: rest)) (.body (after :: others)) (0 :: path)
      visited := by
  cases path with
  | nil =>
      rcases reached with ⟨_, _, _, _, impossible, _⟩
      cases impossible
  | cons arm path => exact reached

theorem later {before after : Instr} {rest others : List Instr} {number : Nat} {path : List Nat}
    (reached : Reached naming scope names (.body rest) (.body others) (number :: path) visited) :
    Reached naming scope names (.body (before :: rest)) (.body (after :: others))
      ((number + 1) :: path) visited := by
  cases path with
  | nil => exact reached
  | cons arm path => exact reached

theorem inside {before after : Instr} {arm : Nat} {path : List Nat} {head newHead : BlockHead}
    {body newBody : List Instr} (isArm : before.arm? arm = some (head, body))
    (isNewArm : after.arm? arm = some (newHead, newBody))
    (reached : Reached naming scope (newHead.label :: names) (.body body) (.body newBody) path
      visited) :
    Reached naming scope names (.instr before) (.instr after) (arm :: path) visited := by
  rcases reached with ⟨sourceHeads, heads, source, target, isSource, isTarget, lengths, labels,
    named⟩
  refine ⟨sourceHeads ++ [head], heads ++ [newHead], source, target, ?_, ?_, ?_, ?_, ?_⟩
  · simp [Code.at?, isArm, isSource]
  · simp [Code.at?, isNewArm, isTarget]
  · simp [lengths]
  · simpa using labels
  · simpa using named

end Reached

variable {place : Place} {visited : State}

mutual

/-- Every point that is visited in an instruction is at a path in it. -/
theorem instr_reached (instr : Instr) {names : List String} {state : State} {list : Place}
    {number : Nat} {target : Code} (named : Naming.NamedCode naming names (.instr instr) target)
    (isNamed : LabelsNamed scope state names)
    (visits : Visits scope list number target state place visited) :
    ∃ path, place = path.reverse ++ number :: list ∧
      Reached naming scope names (.instr instr) target path visited := by
  match instr with
  | .block head body =>
      rcases named.block with ⟨newHead, newBody, rfl, namedHead, namedBody⟩
      cases visits with
      | block opens inside =>
          rcases instrs_reached body namedBody (isNamed.block namedHead opens) inside with
            ⟨first, path, isPlace, reached⟩
          exact ⟨0 :: first :: path, by simp [isPlace], .inside rfl rfl reached⟩
  | .loop head body =>
      rcases named.loop with ⟨newHead, newBody, rfl, namedHead, namedBody⟩
      cases visits with
      | loop opens inside =>
          rcases instrs_reached body namedBody (isNamed.block namedHead opens) inside with
            ⟨first, path, isPlace, reached⟩
          exact ⟨0 :: first :: path, by simp [isPlace], .inside rfl rfl reached⟩
  | .ifElse head thenBody elseBody =>
      rcases named.ifElse with ⟨newHead, newThen, newElse, rfl, namedHead, namedThen, namedElse⟩
      cases visits with
      | thenArm enters inside =>
          rcases instrs_reached thenBody namedThen (isNamed.ifElse namedHead enters) inside with
            ⟨first, path, isPlace, reached⟩
          exact ⟨0 :: first :: path, by simp [isPlace], .inside rfl rfl reached⟩
      | elseArm enters lowered returns inside =>
          have labels := isNamed.ifElse namedHead enters
          have behind := labels.behind ((Scope.instrs_frames newThen _ labels.framed).of_ok lowered)
          have again := behind.behind ((enterElse_frames _ _ behind.framed).of_ok returns)
          rcases instrs_reached elseBody namedElse again inside with
            ⟨first, path, isPlace, reached⟩
          exact ⟨1 :: first :: path, by simp [isPlace], .inside rfl rfl reached⟩
  | .br _ | .brIf _ | .brTable _ _ | .leave | .unreachable | .nop | .drop | .localSet _
  | .localTee _ | .binary _ | .compare _ | .convert _ | .unary _ | .call _ | .callIndirect _ _
  | .const _ | .select _ | .globalGet _ | .globalSet _ | .localGet _ | .load _ _ _ _
  | .store _ _ _ _ | .memoryGrow _ | .memorySize _ | .memoryFill _ | .memoryCopy _ _
  | .tryCatch .. | .throwTag _ | .rethrow _ | .ternary _ | .simd .. | .simdLane ..
  | .simdShuffle .. | .atomic .. | .refFunc _ | .other _ =>
      exact absurd visits (not_visits rfl named)

/-- Every point that is visited in a body is at a path in it. -/
theorem instrs_reached (body : List Instr) {names : List String} {state : State} {list : Place}
    {number : Nat} {target : Code} (named : Naming.NamedCode naming names (.body body) target)
    (isNamed : LabelsNamed scope state names)
    (visits : Visits scope list number target state place visited) :
    ∃ first path, place = path.reverse ++ (number + first) :: list ∧
      Reached naming scope names (.body body) target (first :: path) visited := by
  match body with
  | [] =>
      rw [named.body_nil] at visits
      cases visits
  | instr :: rest =>
      rcases named.body_cons with ⟨newInstr, others, rfl, namedInstr, namedRest⟩
      cases visits with
      | here => exact ⟨0, [], rfl, .here isNamed namedInstr⟩
      | first inside =>
          rcases instr_reached instr namedInstr isNamed inside with ⟨path, isPlace, reached⟩
          exact ⟨0, path, isPlace, .first reached⟩
      | later lowered _ behind =>
          have after := isNamed.behind ((Scope.instr_frames newInstr _ isNamed.framed).of_ok lowered)
          rcases instrs_reached rest namedRest after behind with ⟨first, path, isPlace, reached⟩
          exact ⟨first + 1, path, by rw [isPlace]; congr 2; omega, .later reached⟩

end

/-! ## Branches -/

end Emission

theorem Naming.NamedCode.branchTargets {naming : Naming.Scope} {names : List String}
    {before after : Instr} (named : NamedCode naming names (.instr before) (.instr after)) :
    List.Forall₂ (fun old new => Scope.label names old = .ok new) before.branchTargets
      after.branchTargets := by
  rcases isHead : before.head? with _ | _
  · rcases named.plain isHead with ⟨_, isAfter, succeeds⟩
    cases isAfter
    exact (Scope.instr_plain isHead succeeds).2
  · match before, isHead with
    | .block head body, _ =>
        rcases named.block with ⟨_, _, isAfter, _⟩
        cases isAfter
        exact .nil
    | .loop head body, _ =>
        rcases named.loop with ⟨_, _, isAfter, _⟩
        cases isAfter
        exact .nil
    | .ifElse head thenBody elseBody, _ =>
        rcases named.ifElse with ⟨_, _, _, isAfter, _⟩
        cases isAfter
        exact .nil
    | .tryCatch head body catches, _ =>
        rcases named with ⟨_, _, _, succeeds⟩
        rcases bind_eq_ok succeeds with ⟨_, _, remaining⟩
        rcases bind_eq_ok remaining with ⟨_, _, remaining⟩
        rcases bind_eq_ok remaining with ⟨_, _, isAll⟩
        cases isAll
        exact .nil

namespace Emission

open C (Label Jump Stmt)

variable {scope : Scope} {labels : List OpenLabel} {known : List C.Ident} {state visited : State}

def IsTarget (labels : List OpenLabel) (old : Reference) (label : Label) : Prop :=
  ∀ depth : Index, old = .index depth →
    ∃ opened, labels[depth.toNat]? = some opened ∧ opened.label = label

def FindsTarget (labels : List OpenLabel) (old new : Reference) : Prop :=
  ∀ depth : Index, old = .index depth →
    ∃ opened, labels[depth.toNat]? = some opened ∧
      ∀ func state, state.labels = labels → findLabel func new state = .ok (opened, state)

theorem LabelsNamed.findsTarget {names : List String} {old new : Reference}
    (isNamed : LabelsNamed scope visited names) (replaced : Naming.Scope.label names old = .ok new) :
    FindsTarget visited.labels old new := by
  intro depth isDepth
  subst isDepth
  rcases Naming.Scope.label_named replaced with ⟨name, rfl, isName⟩
  have isOpen : (visited.labels.map (·.label.name))[depth.toNat]? = some name := by
    rw [isNamed.named, isName]
  rw [List.getElem?_map, Option.map_eq_some_iff] at isOpen
  rcases isOpen with ⟨opened, isOpened, _⟩
  refine ⟨opened, isOpened, ?_⟩
  intro func state same
  exact findLabel_named func (same ▸ isNamed.named) isNamed.nodup (same ▸ isOpened) isName

/-! ## What branches become -/

def jumpLabels : Stmt → List Label
  | .jump branch => [branch.target]
  | .jumpIf _ branch => [branch.target]
  | .switch _ cases otherwise => cases.map (·.target) ++ [otherwise.target]
  | _ => []

theorem findLabel_target (func : String) {old new : Reference}
    (finds : FindsTarget labels old new) (isOpen : state.labels = labels) :
    Meets True (findLabel func new) state fun opened _ => IsTarget labels old opened.label := by
  apply (Gives.ofResult (findLabel func new state)).mono
  intro result isResult depth isDepth
  rcases finds depth isDepth with ⟨opened, isOpened, found⟩
  rw [found func state isOpen] at isResult
  cases isResult
  exact ⟨opened, isOpened, rfl⟩

theorem jumpTo_target (func : String) {old new : Reference} (finds : FindsTarget labels old new)
    (framed : Framed scope labels known state) :
    Meets True (jumpTo func new) state fun jump next =>
      Framed scope labels known next ∧ IsTarget labels old jump.target := by
  apply Meets.and
  · apply (jumpTo_frames func new state framed).mono
    intro _ next nextFramed
    exact nextFramed.mono (List.subset_append_left _ _)
  · apply (findLabel_target func finds framed.isOpen).bind
    intro opened _ isTarget
    apply (Meets.modify _ _).bind
    intro _ next _
    apply Meets.bind_get
    apply (Meets.anything _ _).bind
    intro _ _ _
    apply (Meets.anything _ _).bind
    intro _ _ _
    exact .pure isTarget

theorem jumps_target {olds news : List Reference}
    (finds : List.Forall₂ (FindsTarget labels) olds news) (framed : Framed scope labels known state) :
    Meets True (scope.jumps news) state fun jumps next =>
      Framed scope labels known next ∧
        List.Forall₂ (IsTarget labels) olds (jumps.map (·.target)) := by
  unfold Scope.jumps
  induction finds generalizing state with
  | nil => exact .pure ⟨framed, .nil⟩
  | cons first _ induction =>
      rw [List.mapM_cons]
      apply (jumpTo_target scope.name first framed).bind
      intro jump between ⟨betweenFramed, isFirst⟩
      apply (induction betweenFramed).bind
      intro jumps next ⟨nextFramed, areRest⟩
      exact .pure ⟨nextFramed, .cons isFirst areRest⟩

theorem branch_target {olds : List Reference} {after : Instr} (isBranch : olds ≠ [])
    (finds : List.Forall₂ (FindsTarget labels) olds after.branchTargets)
    (framed : Framed scope labels known state) :
    Meets True (scope.instr after) state fun lowered _ =>
      ∃ stmt, lowered.stmts = [stmt] ∧ List.Forall₂ (IsTarget labels) olds (jumpLabels stmt) := by
  cases after with
  | br target =>
      rcases finds with _ | ⟨first, none⟩
      cases none
      apply (jumpTo_target scope.name first framed).bind
      intro jump _ ⟨_, isTarget⟩
      exact .pure ⟨_, rfl, .cons isTarget .nil⟩
  | brIf target =>
      rcases finds with _ | ⟨first, none⟩
      cases none
      apply (top_frames scope.name 0 state framed).bind
      intro condition _ topFramed
      apply (pop_frames scope.name 1 _ topFramed).bind
      intro _ _ popFramed
      apply (jumpTo_target scope.name first popFramed).bind
      intro jump _ ⟨_, isTarget⟩
      exact .pure ⟨_, rfl, .cons isTarget .nil⟩
  | brTable targets otherwise =>
      have findsCases := List.forall₂_take_append _ _ _ finds
      have findsLast := List.forall₂_drop_append _ _ _ finds
      rw [← List.take_append_drop targets.length olds]
      generalize olds.take targets.length = cases, olds.drop targets.length = last at *
      rcases findsLast with _ | ⟨findsLast, none⟩
      cases none
      apply (top_frames scope.name 0 state framed).bind
      intro position _ topFramed
      apply (pop_frames scope.name 1 _ topFramed).bind
      intro _ _ popFramed
      apply (jumps_target findsCases popFramed).bind
      intro jumps _ ⟨jumpsFramed, areCases⟩
      apply (jumpTo_target scope.name findsLast jumpsFramed).bind
      intro jump _ ⟨_, isTarget⟩
      exact .pure ⟨_, rfl, List.rel_append areCases (.cons isTarget .nil)⟩
  | _ =>
      cases finds
      exact absurd rfl isBranch

/-- An instruction, before and after its labels have names, inside constructs with
the given heads, the innermost first. If it is a branch, its targets that were depths
are found at these depths among the labels of the constructs, that of the function
behind them, and these are what the emitted statement jumps to. -/
structure BranchKept (heads : List BlockHead) (visited : State) (before after : Instr) : Prop where
  labels : visited.labels.map (·.label.name) = heads.map (·.label) ++ [Naming.funcLabel]
  finds : List.Forall₂ (FindsTarget visited.labels) before.branchTargets after.branchTargets
  jumps : before.branchTargets ≠ [] → ∀ (scope : Scope) (lowered : Lowered) (next : State),
    scope.instr after visited = .ok (lowered, next) →
      ∃ stmt, lowered.stmts = [stmt] ∧
        List.Forall₂ (IsTarget visited.labels) before.branchTargets (jumpLabels stmt)

theorem LabelsNamed.branchKept {naming : Naming.Scope} {heads : List BlockHead}
    {before after : Instr} (isNamed : LabelsNamed scope visited (heads.map (·.label)))
    (named : Naming.NamedCode naming (heads.map (·.label)) (.instr before) (.instr after)) :
    BranchKept heads visited before after := by
  have finds : List.Forall₂ (FindsTarget visited.labels) before.branchTargets
      after.branchTargets :=
    named.branchTargets.imp fun _ _ replaced => isNamed.findsTarget replaced
  refine ⟨isNamed.named, finds, ?_⟩
  intro isBranch other lowered next run
  have framed : Framed other visited.labels [] visited :=
    ⟨rfl, isNamed.framed.mentioned, fun _ none => absurd none List.not_mem_nil⟩
  exact (branch_target isBranch finds framed).of_ok run

theorem openFunction_named {results : List ValueType} {opened : OpenLabel} {inner : State}
    (opens : openLabel scope.name false ⟨Naming.funcLabel, ⟨none, ⟨[], results⟩⟩⟩ {} =
      .ok (opened, inner)) : LabelsNamed scope inner [] := by
  have isLabel := ((openLabel_opens _ _ _ _).of_ok opens).1
  have framed := (openLabel_frames _ _ _ _ (.start scope)).of_ok opens
  refine ⟨by simp [framed.isOpen, isLabel], List.nodup_singleton _, ?_⟩
  exact framed.isOpen.symm ▸ framed.mono (List.nil_subset _)

end Emission

theorem Module.FuncApplied.distinctLabels {module : Module} {imported number : Nat}
    {func namedFunc : Func}
    (known : FuncApplied module imported number (Naming.resolveFunc func) namedFunc)
    (unlabelled : Instr.Unlabelled func.body) (isDefined : imported ≤ number) :
    (Instr.blockLabels namedFunc.body ++ [Naming.funcLabel]).Nodup ∧
      ∀ label ∈ Instr.blockLabels namedFunc.body,
        label ∉ namedFunc.paramNames ++ namedFunc.localNames := by
  have sameLabels := Naming.Scope.instrs_blockLabels _ (known.body isDefined)
  have sameParams : namedFunc.paramNames = (Naming.resolveFunc func).paramNames := by
    rw [Func.paramNames, Func.params, known.paramBindings, known.signature]
    rfl
  have sameLocals : namedFunc.localNames = (Naming.resolveFunc func).localNames := by
    rw [Func.localNames, known.localBindings, known.locals]
    rfl
  rw [sameLabels, sameParams, sameLocals]
  exact Naming.resolved_labels unlabelled

open Emission

/-- In a module without labels, branches keep their targets when everything is given
a name. The labels of a function are all different, also from those of its parameters
and locals; and wherever an instruction is lowered, the depths of a branch lead to the
constructs around the same instruction before. -/
theorem Module.branches_kept {module named : Module}
    (unlabelled : ∀ func ∈ module.definedFuncs, Instr.Unlabelled func.body)
    (applied : module.resolve.applyNames = .ok named) {number : Nat} {func : Func}
    (isFunc : module.definedFuncs[number]? = some func) :
    ∃ namedFunc, named.definedFuncs[number]? = some namedFunc ∧
      (Instr.blockLabels namedFunc.body ++ [Naming.funcLabel]).Nodup ∧
      (∀ label ∈ Instr.blockLabels namedFunc.body,
        label ∉ namedFunc.paramNames ++ namedFunc.localNames) ∧
      ∀ place visited, named.Reaches number place visited →
        ∃ sourceHeads heads before after,
          (Code.body func.body).at? place.reverse = some (sourceHeads, before) ∧
          (Code.body namedFunc.body).at? place.reverse = some (heads, after) ∧
          sourceHeads.length = heads.length ∧ BranchKept heads visited before after := by
  have isUnlabelled := unlabelled func (List.mem_of_getElem? isFunc)
  rcases Module.definedFunc_applied (Module.applyNames_applied applied) isFunc with
    ⟨own, namedFunc, isNamedFunc, known⟩
  rcases known.distinctLabels isUnlabelled (Nat.le_add_right _ _) with ⟨nodup, notSlots⟩
  refine ⟨namedFunc, isNamedFunc, nodup, notSlots, ?_⟩
  intro place visited reaches
  rcases reaches.visits with ⟨symbols, visitedFunc, params, locals, isVisited, _, _, opened, inner,
    opens, visits⟩
  cases isNamedFunc.symm.trans isVisited
  rcases (known.named isUnlabelled).body with ⟨naming, _, _, namedBody⟩
  rcases instrs_reached func.body namedBody (openFunction_named opens) visits with
    ⟨first, path, isPlace, sourceHeads, heads, before, after, isSource, isTarget, lengths,
      isNamed, namedInstr⟩
  have isPath : place.reverse = first :: path := by simp [isPlace]
  rw [List.append_nil] at isNamed namedInstr
  exact ⟨sourceHeads, heads, before, after, isPath ▸ isSource, isPath ▸ isTarget, lengths,
    isNamed.branchKept namedInstr⟩

def branchOut : Module :=
  { types := [⟨"", ⟨[], []⟩⟩]
    funcs := [{ declaration := ⟨some (.index 0), ⟨[], []⟩⟩
                body := [.block {} [.block {} [.br (.index 1)]]] }] }

def nestedBranch? (module : Module) : Option (BlockHead × BlockHead × Reference) :=
  match module.definedFuncs with
  | [⟨_, ⟨_, ⟨[], []⟩⟩, [], _, _, [.block outer [.block inner [.br target]]]⟩] =>
      some (outer, inner, target)
  | _ => none

theorem nestedBranch?_eq_some {module : Module} {outer inner : BlockHead} {target : Reference}
    (nested : nestedBranch? module = some (outer, inner, target)) :
    ∃ func, module.definedFuncs = [func] ∧ func.params = [] ∧ func.locals = [] ∧
      func.results = [] ∧ func.body = [.block outer [.block inner [.br target]]] := by
  unfold nestedBranch? at nested
  split at nested
  · next areFuncs =>
      cases nested
      exact ⟨_, areFuncs, rfl, rfl, rfl, rfl⟩
  · cases nested

theorem Module.branches_kept_branchOut : ∃ named namedFunc visited,
    branchOut.resolve.applyNames = .ok named ∧ named.definedFuncs[0]? = some namedFunc ∧
      Instr.blockLabels namedFunc.body = ["$B0", "$B1"] ∧
      named.Reaches 0 [0, 0, 0, 0, 0] visited ∧
      FindsTarget visited.labels (.index 1) (.name "$B0") := by
  rcases exists_of_run branchOut.resolve.applyNames
      (fun named => (nestedBranch? named, (checkModule named).isOk))
      (some (⟨"$B0", {}⟩, ⟨"$B1", {}⟩, .name "$B0"), true) (by decide +kernel) with
    ⟨named, applied, shown⟩
  rcases Prod.mk.inj shown with ⟨nested, passes⟩
  rcases nestedBranch?_eq_some nested with ⟨namedFunc, areFuncs, noParams, noLocals, noResults, body⟩
  have isNamedFunc : named.definedFuncs[0]? = some namedFunc := by rw [areFuncs]; rfl
  have checked : checkModule named = .ok () := by
    cases isChecked : checkModule named with
    | ok => rfl
    | error => rw [isChecked] at passes; cases passes
  have visits : ∃ visited, Scope.Reaches ⟨named, {}, namedFunc, []⟩ [0, 0, 0, 0, 0] visited := by
    unfold Scope.Reaches
    rw [body]
    exact ⟨_, _, _, rfl, .first (.block rfl (.first (.block rfl .here)))⟩
  rcases visits with ⟨visited, visits⟩
  have reaches : named.Reaches 0 [0, 0, 0, 0, 0] visited := by
    refine ⟨checked, {}, namedFunc, [], [], isNamedFunc, ?_, ?_, visits⟩
    · rw [namedParams, noParams]
      rfl
    · rw [namedLocals, noLocals]
      rfl
  have unlabelled : ∀ func ∈ branchOut.definedFuncs, Instr.Unlabelled func.body := by
    intro func member
    rw [List.mem_singleton.mp (show func ∈ [_] from member)]
    have inside : Instr.Unlabelled [.br (.index 1)] := Instr.unlabelled_plain rfl
    simp [inside]
  rcases branches_kept unlabelled applied (show branchOut.definedFuncs[0]? = some _ from rfl) with
    ⟨func, isFunc, _, _, kept⟩
  cases isFunc.symm.trans isNamedFunc
  rcases kept _ _ reaches with ⟨_, heads, before, after, isBefore, isAfter, _, branch⟩
  rw [body] at isAfter
  cases isBefore
  cases isAfter
  refine ⟨named, namedFunc, visited, applied, isNamedFunc, ?_, reaches, ?_⟩
  · simp [body, Instr.blockLabels_plain (show (Instr.br (.name "$B0")).head? = none from rfl)]
  · exact (List.forall₂_cons.mp branch.finds).1

end WasmLowering
