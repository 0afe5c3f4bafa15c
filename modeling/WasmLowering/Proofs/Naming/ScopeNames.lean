import WasmLowering.Proofs.Naming.BlockLabels

/-! The names inside a function, whatever names it comes with.

Parameters, locals and labels share one scope. Names that are given are kept as they
are, also where two of them are the same; what has no name gets one that is not taken.
So the names of a function are clean exactly if the given ones are, and a clash between
labels leads a branch astray. -/

namespace WasmLowering

namespace Naming

/-! ## Filling in names -/

/-- Given names, all of which are taken, and the names that come of them: the given ones
are kept, and the others were free and are taken now. -/
structure Fills (before after : NameSet) (given filled : List String) : Prop where
  grows : ∀ name ∈ before, name ∈ after
  known : ∀ name ∈ given, name ∈ before
  kept : given.Sublist filled
  present : ∀ name ∈ filled, name ≠ ""
  origin : ∀ name ∈ filled, name ∈ given ∨ name ∉ before ∧ name ∈ after
  nodup : given.Nodup → filled.Nodup

namespace Fills

variable {before middle after : NameSet} {given others filled added : List String}

theorem nil (taken : NameSet) : Fills taken taken [] [] :=
  ⟨fun _ => id, nofun, .slnil, nofun, nofun, id⟩

/-- Names that are filled in later differ from those that are filled in earlier. -/
theorem append (first : Fills before middle given filled) (later : Fills middle after others added)
    (known : ∀ name ∈ others, name ∈ before) :
    Fills before after (given ++ others) (filled ++ added) where
  grows name isTaken := later.grows name (first.grows name isTaken)
  known := List.forall_mem_append.mpr ⟨first.known, known⟩
  kept := first.kept.append later.kept
  present := List.forall_mem_append.mpr ⟨first.present, later.present⟩
  origin := by
    rw [List.forall_mem_append]
    constructor
    · intro name member
      rcases first.origin name member with isGiven | ⟨free, isTaken⟩
      · exact .inl (List.mem_append_left _ isGiven)
      · exact .inr ⟨free, later.grows name isTaken⟩
    · intro name member
      rcases later.origin name member with isGiven | ⟨free, isTaken⟩
      · exact .inl (List.mem_append_right _ isGiven)
      · exact .inr ⟨fun isBefore => free (first.grows name isBefore), isTaken⟩
  nodup := by
    intro areDifferent
    rw [List.nodup_append] at areDifferent ⊢
    refine ⟨first.nodup areDifferent.1, later.nodup areDifferent.2.1, ?_⟩
    intro name isFirst other isLater same
    subst same
    rcases first.origin name isFirst with isGiven | ⟨free, isTaken⟩
    · rcases later.origin name isLater with alsoGiven | ⟨laterFree, _⟩
      · exact areDifferent.2.2 name isGiven name alsoGiven rfl
      · exact laterFree (first.grows name (first.known name isGiven))
    · rcases later.origin name isLater with isGiven | ⟨laterFree, _⟩
      · exact free (known name isGiven)
      · exact laterFree isTaken

/-- Filled names are clean if the given ones are, beside a name that is taken. -/
theorem nodup_iff (fills : Fills before after given filled) {other : String}
    (isTaken : other ∈ before) : (other :: filled).Nodup ↔ (other :: given).Nodup := by
  constructor
  · exact fun areDifferent => areDifferent.sublist (fills.kept.cons_cons other)
  · intro areDifferent
    rw [List.nodup_cons] at areDifferent ⊢
    refine ⟨?_, fills.nodup areDifferent.2⟩
    intro member
    rcases fills.origin other member with isGiven | ⟨free, _⟩
    · exact areDifferent.1 isGiven
    · exact free isTaken

end Fills

/-! ## Labels -/

def ownLabels (labels : List String) : List String :=
  labels.filter fun label => label ≠ "" && label ≠ funcLabel

theorem givenLabels_eq (body : List Instr) :
    givenLabels body = ownLabels (Instr.blockLabels body) := by
  unfold givenLabels ownLabels Instr.blockLabels
  rw [List.filter_filterMap]
  congr 1
  funext instr
  cases instr.head? with
  | none => rfl
  | some head => by_cases own : head.label = "" ∨ head.label = funcLabel <;> grind

theorem ownLabels_append (labels others : List String) :
    ownLabels (labels ++ others) = ownLabels labels ++ ownLabels others := by
  simp [ownLabels]

theorem ownLabels_cons (label : String) (labels : List String) :
    ownLabels (label :: labels) = ownLabels [label] ++ ownLabels labels :=
  ownLabels_append [label] labels

theorem chooseLabel_fills {letter : String} (isLetter : letter ≠ "") (head : BlockHead)
    (state : LabelState) (known : ∀ name ∈ ownLabels [head.label], name ∈ state.taken) :
    Fills state.taken (chooseLabel letter head state).2.taken (ownLabels [head.label])
      [(chooseLabel letter head state).1.label] := by
  unfold chooseLabel
  split
  · next isFree =>
      rcases takePositional_spec state.taken isLetter state.count with ⟨nonempty, free, mem_taken⟩
      have noLabel : ownLabels [head.label] = [] := by
        simp [ownLabels]
        grind
      rw [noLabel]
      refine ⟨fun name isTaken => (mem_taken name).mpr (.inr isTaken), nofun, List.nil_sublist _,
        by simpa using nonempty, ?_, fun _ => List.nodup_singleton _⟩
      simpa using ⟨free, (mem_taken _).mpr (.inl rfl)⟩
  · next isOwn =>
      have own : head.label ≠ "" ∧ head.label ≠ funcLabel := by simpa using isOwn
      have sameLabel : ownLabels [head.label] = [head.label] := by simp [ownLabels, own]
      rw [sameLabel] at known ⊢
      exact ⟨fun _ => id, known, List.Sublist.refl _, by simpa using own.1, fun _ => .inl, id⟩

theorem Fills.construct {letter : String} (isLetter : letter ≠ "") {head : BlockHead}
    {state : LabelState} {after : NameSet} {labels filled : List String}
    (known : ∀ name ∈ ownLabels (head.label :: labels), name ∈ state.taken)
    (inside : (∀ name ∈ ownLabels labels, name ∈ (chooseLabel letter head state).2.taken) →
      Fills (chooseLabel letter head state).2.taken after (ownLabels labels) filled) :
    Fills state.taken after (ownLabels (head.label :: labels))
      ((chooseLabel letter head state).1.label :: filled) := by
  rw [ownLabels_cons, List.forall_mem_append] at known
  rw [ownLabels_cons]
  have chosen := chooseLabel_fills isLetter head state known.1
  exact chosen.append (inside fun name member => chosen.grows name (known.2 name member)) known.2

theorem Fills.parts {before middle after : NameSet} {labels others filled added : List String}
    (known : ∀ name ∈ ownLabels (labels ++ others), name ∈ before)
    (first : (∀ name ∈ ownLabels labels, name ∈ before) →
      Fills before middle (ownLabels labels) filled)
    (later : (∀ name ∈ ownLabels others, name ∈ middle) →
      Fills middle after (ownLabels others) added) :
    Fills before after (ownLabels (labels ++ others)) (filled ++ added) := by
  rw [ownLabels_append, List.forall_mem_append] at known
  rw [ownLabels_append]
  have isFirst := first known.1
  exact isFirst.append (later fun name member => isFirst.grows name (known.2 name member)) known.2

mutual

theorem labelInstr_fills (instr : Instr) (state : LabelState)
    (known : ∀ name ∈ ownLabels (Instr.blockLabels [instr]), name ∈ state.taken) :
    Fills state.taken (labelInstr instr state).2.taken (ownLabels (Instr.blockLabels [instr]))
      (Instr.blockLabels [(labelInstr instr state).1]) := by
  rcases isHead : instr.head? with _ | _
  · rw [labelInstr_plain isHead, Instr.blockLabels_plain isHead]
    exact .nil _
  · match instr, isHead with
    | .block head body, _ =>
        rw [Instr.blockLabels_block] at known ⊢
        rw [labelInstr, Instr.blockLabels_block]
        exact .construct (by decide) known fun inside => labelInstrs_fills body _ inside
    | .loop head body, _ =>
        rw [Instr.blockLabels_loop] at known ⊢
        rw [labelInstr, Instr.blockLabels_loop]
        exact .construct (by decide) known fun inside => labelInstrs_fills body _ inside
    | .ifElse head thenBody elseBody, _ =>
        rw [Instr.blockLabels_ifElse] at known ⊢
        rw [labelInstr, Instr.blockLabels_ifElse]
        exact .construct (by decide) known fun inside => .parts inside
          (fun inThen => labelInstrs_fills thenBody _ inThen)
          fun inElse => labelInstrs_fills elseBody _ inElse
    | .tryCatch head body catches, _ =>
        rw [Instr.blockLabels_tryCatch] at known ⊢
        rw [labelInstr, Instr.blockLabels_tryCatch]
        exact .construct (by decide) known fun inside => .parts inside
          (fun inBody => labelInstrs_fills body _ inBody)
          fun inCatches => labelCatches_fills catches _ inCatches

theorem labelInstrs_fills (body : List Instr) (state : LabelState)
    (known : ∀ name ∈ ownLabels (Instr.blockLabels body), name ∈ state.taken) :
    Fills state.taken (labelInstrs body state).2.taken (ownLabels (Instr.blockLabels body))
      (Instr.blockLabels (labelInstrs body state).1) := by
  match body with
  | [] =>
      rw [labelInstrs, Instr.blockLabels_nil]
      exact .nil _
  | instr :: rest =>
      rw [Instr.blockLabels_cons instr rest] at known ⊢
      rw [labelInstrs, Instr.blockLabels_cons (labelInstr instr state).1]
      exact .parts known (fun inFirst => labelInstr_fills instr state inFirst)
        fun inRest => labelInstrs_fills rest _ inRest

theorem labelCatches_fills (catches : List Catch) (state : LabelState)
    (known : ∀ name ∈ ownLabels (Catch.blockLabels catches), name ∈ state.taken) :
    Fills state.taken (labelCatches catches state).2.taken (ownLabels (Catch.blockLabels catches))
      (Catch.blockLabels (labelCatches catches state).1) := by
  match catches with
  | [] =>
      rw [labelCatches, Catch.blockLabels_nil]
      exact .nil _
  | .handler tag body :: rest =>
      rw [Catch.blockLabels_cons] at known ⊢
      rw [labelCatches, labelCatch, Catch.blockLabels_cons]
      exact .parts known (fun inBody => labelInstrs_fills body state inBody)
        fun inRest => labelCatches_fills rest _ inRest

end

/-! ## Parameters and locals -/

def givenNames (shown : List String) : List String := shown.filter (· ≠ "")

theorem givenNames_sublist {shown filled : List String}
    (cases : List.Forall₂ (fun old name => old ≠ "" → old = name) shown filled) :
    (givenNames shown).Sublist filled := by
  induction cases with
  | nil => exact .slnil
  | @cons old name _ _ same _ induction =>
      by_cases empty : old = ""
      · simpa [givenNames, empty] using induction.cons name
      · rw [← same empty]
        simpa [givenNames, empty] using induction.cons_cons old

theorem SlotsNamed.fills {shown : List String} {before after : NameSet × Bindings}
    (pass : SlotsNamed 0 shown before after) (short : shown.length ≤ UInt32.size)
    (isShown : before.2.reverse shown.length = shown)
    (isTaken : ∀ name ∈ shown, name ≠ "" → name ∈ before.1) :
    Fills before.1 after.1 (givenNames shown) (after.2.reverse shown.length) := by
  have cases := @pass.shown_cases _ _ _ short isShown isTaken
  refine ⟨pass.grows, ?_, ?_, ?_, ?_, fun _ => ?_⟩
  · intro name member
    rcases List.mem_filter.mp member with ⟨isOld, given⟩
    exact isTaken name isOld (by simpa using given)
  · apply givenNames_sublist
    rw [List.forall₂_iff_get]
    refine ⟨(Bindings.length_reverse _ _).symm, ?_⟩
    intro position inside insideAfter given
    rcases (cases (List.getElem?_eq_getElem insideAfter)).2.2 with ⟨same, _⟩ | ⟨empty, _⟩
    · rw [List.getElem?_eq_getElem inside] at same
      exact Option.some.inj same
    · rw [List.getElem?_eq_getElem inside] at empty
      exact absurd (Option.some.inj empty) given
  · intro name member
    rcases List.mem_iff_getElem?.mp member with ⟨position, has⟩
    exact (cases has).1
  · intro name member
    rcases List.mem_iff_getElem?.mp member with ⟨position, has⟩
    rcases cases has with ⟨given, _, ⟨same, _⟩ | ⟨_, free, nowTaken⟩⟩
    · exact .inl (List.mem_filter.mpr ⟨List.mem_of_getElem? same, by simpa using given⟩)
    · exact .inr ⟨free, nowTaken⟩
  · rw [List.nodup_iff_getElem?_ne_getElem?]
    intro position other before inside same
    have insideBefore := Nat.lt_trans before inside
    rw [List.getElem?_eq_getElem inside] at same
    -- A name is bound to one position only, and the positions are small enough.
    have bound := (cases same).2.1
    rw [(cases (List.getElem?_eq_getElem inside)).2.1] at bound
    rw [Bindings.length_reverse] at inside insideBefore
    have equal := congrArg UInt32.toNat (Option.some.inj bound)
    rw [Index.toNat_ofNat (Nat.lt_of_lt_of_le inside short),
      Index.toNat_ofNat (Nat.lt_of_lt_of_le insideBefore short)] at equal
    omega

end Naming

/-! ## The scope of a function -/

def Func.scopeNames (func : Func) : List String :=
  func.paramNames ++ func.localNames ++ Instr.blockLabels func.body

/-- The names that a function comes with. A construct that is called like the function
counts as one without a label. -/
def Func.givenNames (func : Func) : List String :=
  Naming.givenNames func.paramNames ++ Naming.givenNames func.localNames ++
    Naming.ownLabels (Instr.blockLabels func.body)

/-- Everything in a function has a name of its own, and none is that of the function. -/
structure Func.CleanScope (func : Func) : Prop where
  present : ∀ name ∈ func.scopeNames, name ≠ ""
  nodup : (Naming.funcLabel :: func.scopeNames).Nodup

/-- The names that a function comes with are different, none is that of the function, and
there are positions for all of its parameters and locals. -/
structure Func.Nameable (func : Func) : Prop where
  params : func.params.length ≤ UInt32.size
  locals : func.locals.length ≤ UInt32.size
  nodup : (Naming.funcLabel :: func.givenNames).Nodup

namespace Naming

theorem givenNames_taken {func : Func} {name : String} (member : name ∈ func.givenNames) :
    name ∈ takenNames func := by
  refine (mem_foldl_insert _ _ _).mpr (.inl ?_)
  simpa [Func.givenNames, givenNames, givenLabels_eq] using member

theorem resolveFunc_fills {func : Func} (params : func.params.length ≤ UInt32.size)
    (locals : func.locals.length ≤ UInt32.size) :
    ∃ after, Fills (takenNames func) after func.givenNames (resolveFunc func).scopeNames := by
  have paramCount : func.paramNames.length = func.params.length := Bindings.length_reverse _ _
  have localCount : func.localNames.length = func.locals.length := Bindings.length_reverse _ _
  have inParams := (paramPass_named func).fills (paramCount ▸ params)
    (by rw [paramCount, Func.paramNames])
    fun name member => shown_mem_takenNames (List.mem_append_left _ member)
  have inLocals := (localPass_named func).fills (localCount ▸ locals)
    (by rw [localCount, Func.localNames])
    fun name member given => inParams.grows name
      (shown_mem_takenNames (List.mem_append_right _ member) given)
  have inBody := labelInstrs_fills func.body ⟨0, (localPass func).1⟩ fun name member =>
    mem_localPass (givenNames_taken (List.mem_append_right _ member))
  rw [paramCount] at inParams
  rw [localCount] at inLocals
  refine ⟨_, (inParams.append inLocals ?_).append inBody ?_⟩
  · intro name member
    exact givenNames_taken (List.mem_append_left _ (List.mem_append_right _ member))
  · exact fun name member => givenNames_taken (List.mem_append_right _ member)

theorem reverse_far {bindings : Bindings} {count : Nat}
    (given : ∀ name ∈ bindings.reverse count, name ≠ "") : count ≤ UInt32.size := by
  by_contra far
  have inside : UInt32.size < (bindings.reverse count).length := by
    rw [Bindings.length_reverse]
    omega
  have has := List.getElem?_eq_getElem inside
  rcases (Bindings.shows_of_reverse has).bound (given _ (List.mem_of_getElem? has)) with
    ⟨place, _, isPlace⟩
  exact absurd place.toNat_lt (by rw [isPlace]; decide)

/-- The scope of a function is clean exactly if the names that it comes with allow it. -/
theorem cleanScope_iff (func : Func) : (resolveFunc func).CleanScope ↔ func.Nameable := by
  constructor
  · intro clean
    have params : func.params.length ≤ UInt32.size := reverse_far fun name member =>
      clean.present name (List.mem_append_left _ (List.mem_append_left _ member))
    have locals : func.locals.length ≤ UInt32.size := reverse_far fun name member =>
      clean.present name (List.mem_append_left _ (List.mem_append_right _ member))
    rcases resolveFunc_fills params locals with ⟨after, fills⟩
    exact ⟨params, locals, (fills.nodup_iff (funcLabel_mem_takenNames func)).mp clean.nodup⟩
  · intro nameable
    rcases resolveFunc_fills nameable.params nameable.locals with ⟨after, fills⟩
    exact ⟨fills.present, (fills.nodup_iff (funcLabel_mem_takenNames func)).mpr nameable.nodup⟩

end Naming

/-! ## Branches -/

structure Branch where
  labels : List String
  target : Reference
  deriving DecidableEq, Repr

/-- How many constructs around the branch it does not leave. A name is looked up from the
inside to the outside, and the function is behind all constructs. -/
def Branch.depth? (branch : Branch) : Option Nat :=
  match branch.target with
  | .index depth => some depth.toNat
  | .name name => (branch.labels ++ [Naming.funcLabel]).idxOf? name

mutual

def Instr.branches (labels : List String) : Instr → List Branch
  | .block head body => Instr.branchesOfList (head.label :: labels) body
  | .loop head body => Instr.branchesOfList (head.label :: labels) body
  | .ifElse head thenBody elseBody =>
      Instr.branchesOfList (head.label :: labels) thenBody ++
        Instr.branchesOfList (head.label :: labels) elseBody
  | .tryCatch head body catches =>
      Instr.branchesOfList (head.label :: labels) body ++
        Catch.branchesOfList (head.label :: labels) catches
  | .br target => [⟨labels, target⟩]
  | .brIf target => [⟨labels, target⟩]
  | .brTable targets otherwise => (targets ++ [otherwise]).map (Branch.mk labels)
  | .rethrow depth => [⟨labels, depth⟩]
  | _ => []

def Instr.branchesOfList (labels : List String) : List Instr → List Branch
  | [] => []
  | instr :: rest => instr.branches labels ++ Instr.branchesOfList labels rest

def Catch.branchesOfList (labels : List String) : List Catch → List Branch
  | [] => []
  | .handler _ body :: rest =>
      Instr.branchesOfList labels body ++ Catch.branchesOfList labels rest

end

def Func.branches (func : Func) : List Branch := Instr.branchesOfList [] func.body

structure Branch.Renamed (before after : Branch) : Prop where
  labels : after.labels = before.labels
  target : Naming.Scope.label before.labels before.target = .ok after.target

namespace Naming.Scope

variable {scope : Scope}

theorem instr_branches_plain {labels : List String} {instr named : Instr}
    (plain : instr.head? = none) (succeeds : scope.instr labels instr = .ok named) :
    List.Forall₂ Branch.Renamed (instr.branches labels) (named.branches labels) := by
  cases instr with
  | block | loop | ifElse | tryCatch => cases plain
  | br | brIf | rethrow =>
      rcases bind_eq_ok succeeds with ⟨target, isTarget, isAll⟩
      cases isAll
      exact .cons ⟨rfl, isTarget⟩ .nil
  | brTable targets otherwise =>
      rcases bind_eq_ok succeeds with ⟨namedTargets, areTargets, remaining⟩
      rcases bind_eq_ok remaining with ⟨namedOtherwise, isOtherwise, isAll⟩
      cases isAll
      have all := List.rel_append (mapM_eq_ok areTargets)
        (List.Forall₂.cons isOtherwise .nil)
      rw [Instr.branches, Instr.branches, List.forall₂_map_left_iff, List.forall₂_map_right_iff]
      exact all.imp fun _ _ isNamed => ⟨rfl, isNamed⟩
  | callIndirect | memoryCopy =>
      rcases bind_eq_ok succeeds with ⟨_, _, remaining⟩
      rcases bind_eq_ok remaining with ⟨_, _, isAll⟩
      cases isAll
      exact .nil
  | atomic =>
      rw [Scope.instr] at succeeds
      split at succeeds
      · cases succeeds
        exact .nil
      · rcases bind_eq_ok succeeds with ⟨_, _, isAll⟩
        cases isAll
        exact .nil
  | throwTag | call | globalGet | globalSet | localGet | localSet | localTee | load | store
  | memorySize | memoryGrow | memoryFill =>
      rcases bind_eq_ok succeeds with ⟨_, _, isAll⟩
      cases isAll
      exact .nil
  | _ =>
      cases succeeds
      exact .nil

mutual

theorem instr_branches {labels : List String} (instr : Instr) {named : Instr}
    (succeeds : scope.instr labels instr = .ok named) :
    List.Forall₂ Branch.Renamed (instr.branches labels) (named.branches labels) := by
  rcases isHead : instr.head? with _ | _
  · exact instr_branches_plain isHead succeeds
  · match instr, isHead with
    | .block head body, _ =>
        rcases bind_eq_ok succeeds with ⟨newHead, isHead, remaining⟩
        rcases bind_eq_ok remaining with ⟨newBody, isBody, isAll⟩
        cases isAll
        rw [head_label isHead] at isBody
        rw [Instr.branches, Instr.branches, head_label isHead]
        exact instrs_branches body isBody
    | .loop head body, _ =>
        rcases bind_eq_ok succeeds with ⟨newHead, isHead, remaining⟩
        rcases bind_eq_ok remaining with ⟨newBody, isBody, isAll⟩
        cases isAll
        rw [head_label isHead] at isBody
        rw [Instr.branches, Instr.branches, head_label isHead]
        exact instrs_branches body isBody
    | .ifElse head thenBody elseBody, _ =>
        rcases bind_eq_ok succeeds with ⟨newHead, isHead, remaining⟩
        rcases bind_eq_ok remaining with ⟨newThen, isThen, remaining⟩
        rcases bind_eq_ok remaining with ⟨newElse, isElse, isAll⟩
        cases isAll
        rw [head_label isHead] at isThen isElse
        rw [Instr.branches, Instr.branches, head_label isHead]
        exact List.rel_append (instrs_branches thenBody isThen) (instrs_branches elseBody isElse)
    | .tryCatch head body catches, _ =>
        rcases bind_eq_ok succeeds with ⟨newHead, isHead, remaining⟩
        rcases bind_eq_ok remaining with ⟨newBody, isBody, remaining⟩
        rcases bind_eq_ok remaining with ⟨newCatches, areCatches, isAll⟩
        cases isAll
        rw [head_label isHead] at isBody areCatches
        rw [Instr.branches, Instr.branches, head_label isHead]
        exact List.rel_append (instrs_branches body isBody) (catches_branches catches areCatches)

theorem instrs_branches {labels : List String} (body : List Instr) {named : List Instr}
    (succeeds : scope.instrs labels body = .ok named) :
    List.Forall₂ Branch.Renamed (Instr.branchesOfList labels body)
      (Instr.branchesOfList labels named) := by
  match body with
  | [] =>
      cases succeeds
      exact .nil
  | instr :: rest =>
      rcases bind_eq_ok succeeds with ⟨first, isFirst, remaining⟩
      rcases bind_eq_ok remaining with ⟨others, areOthers, isAll⟩
      cases isAll
      exact List.rel_append (instr_branches instr isFirst) (instrs_branches rest areOthers)

theorem catches_branches {labels : List String} (catches : List Catch) {named : List Catch}
    (succeeds : scope.catches labels catches = .ok named) :
    List.Forall₂ Branch.Renamed (Catch.branchesOfList labels catches)
      (Catch.branchesOfList labels named) := by
  match catches with
  | [] =>
      cases succeeds
      exact .nil
  | .handler tag body :: rest =>
      rcases bind_eq_ok succeeds with ⟨first, isFirst, remaining⟩
      rcases bind_eq_ok remaining with ⟨others, areOthers, isAll⟩
      cases isAll
      rcases handler_body isFirst with ⟨newTag, newBody, rfl, isBody⟩
      exact List.rel_append (instrs_branches body isBody) (catches_branches rest areOthers)

end

end Naming.Scope

/-- Something is found at a place where it stands unless it stands further in front. -/
theorem idxOf?_eq_iff {names : List String} {position : Nat} {name : String}
    (has : names[position]? = some name) :
    names.idxOf? name = some position ↔ name ∉ names.take position := by
  rcases List.getElem?_eq_some_iff.mp has with ⟨inside, isName⟩
  rw [List.idxOf?_eq_some_iff, List.mem_take_iff_getElem]
  constructor
  · rintro ⟨_, _, notBefore⟩ ⟨other, before, same⟩
    exact notBefore other (by omega) same
  · intro notBefore
    refine ⟨inside, isName, ?_⟩
    exact fun other before same => notBefore ⟨other, by omega, same⟩

/-- A branch that was given by a depth, and what becomes of it: it goes to the construct
with the label at this depth, unless the same label is open further inside. -/
structure Branch.Named (before after : Branch) : Prop where
  labels : after.labels = before.labels
  target : ∀ depth : Index, before.target = .index depth → ∃ name, after.target = .name name ∧
    (before.labels ++ [Naming.funcLabel])[depth.toNat]? = some name ∧
    (after.depth? = some depth.toNat ↔ name ∉ before.labels.take depth.toNat)

theorem Branch.Renamed.named {before after : Branch} (renamed : before.Renamed after) :
    before.Named after := by
  refine ⟨renamed.labels, ?_⟩
  intro depth isDepth
  have replaced := renamed.target
  rw [isDepth] at replaced
  rcases Naming.Scope.label_named replaced with ⟨name, isName, has⟩
  have inside := (List.getElem?_eq_some_iff.mp has).1
  refine ⟨name, isName, has, ?_⟩
  rw [Branch.depth?, isName, renamed.labels]
  dsimp only
  rw [idxOf?_eq_iff has, List.take_append_of_le_length]
  exact Nat.le_of_lt_succ (by simpa using inside)

/-- The labels that are open at a branch: some of those in the code that it stands in, the
last of them innermost, and behind them those around the code. -/
def Branch.Opens (inside around : List String) (branch : Branch) : Prop :=
  ∃ inner : List String, branch.labels = inner.reverse ++ around ∧ inner.Sublist inside

namespace Branch.Opens

variable {branch : Branch} {inside around : List String}

theorem mono {more : List String} (opens : branch.Opens inside around)
    (part : inside.Sublist more) : branch.Opens more around := by
  rcases opens with ⟨inner, isInner, isPart⟩
  exact ⟨inner, isInner, isPart.trans part⟩

theorem construct {label : String} (opens : branch.Opens inside (label :: around)) :
    branch.Opens (label :: inside) around := by
  rcases opens with ⟨inner, isInner, isPart⟩
  exact ⟨label :: inner, by simp [isInner], isPart.cons_cons label⟩

theorem nodup (opens : branch.Opens inside []) (areDifferent : inside.Nodup) :
    branch.labels.Nodup := by
  rcases opens with ⟨inner, isInner, isPart⟩
  rw [isInner, List.append_nil, List.nodup_reverse]
  exact areDifferent.sublist isPart

end Branch.Opens

mutual

theorem Instr.branches_open (instr : Instr) {labels : List String} :
    ∀ branch ∈ instr.branches labels, branch.Opens (Instr.blockLabels [instr]) labels := by
  intro branch member
  match instr with
  | .block head body =>
      rw [Instr.blockLabels_block]
      exact (Instr.branchesOfList_open body branch member).construct
  | .loop head body =>
      rw [Instr.blockLabels_loop]
      exact (Instr.branchesOfList_open body branch member).construct
  | .ifElse head thenBody elseBody =>
      rw [Instr.blockLabels_ifElse]
      rcases List.mem_append.mp member with inThen | inElse
      · exact ((Instr.branchesOfList_open thenBody branch inThen).mono
          (List.sublist_append_left _ _)).construct
      · exact ((Instr.branchesOfList_open elseBody branch inElse).mono
          (List.sublist_append_right _ _)).construct
  | .tryCatch head body catches =>
      rw [Instr.blockLabels_tryCatch]
      rcases List.mem_append.mp member with inBody | inCatches
      · exact ((Instr.branchesOfList_open body branch inBody).mono
          (List.sublist_append_left _ _)).construct
      · exact ((Catch.branchesOfList_open catches branch inCatches).mono
          (List.sublist_append_right _ _)).construct
  | .br _ | .brIf _ | .rethrow _ =>
      rw [List.mem_singleton.mp member]
      exact ⟨[], rfl, List.nil_sublist _⟩
  | .brTable targets otherwise =>
      rcases List.mem_map.mp member with ⟨target, _, rfl⟩
      exact ⟨[], rfl, List.nil_sublist _⟩
  | .leave | .unreachable | .nop | .drop | .localSet _ | .localTee _ | .binary _ | .compare _
  | .convert _ | .unary _ | .call _ | .callIndirect _ _ | .const _ | .select _ | .globalGet _
  | .globalSet _ | .localGet _ | .load _ _ _ _ | .store _ _ _ _ | .memoryGrow _ | .memorySize _
  | .memoryFill _ | .memoryCopy _ _ | .throwTag _ | .ternary _ | .simd .. | .simdLane ..
  | .simdShuffle .. | .atomic .. | .refFunc _ | .other _ => cases member

theorem Instr.branchesOfList_open (body : List Instr) {labels : List String} :
    ∀ branch ∈ Instr.branchesOfList labels body, branch.Opens (Instr.blockLabels body) labels := by
  intro branch member
  match body with
  | [] => cases member
  | instr :: rest =>
      rw [Instr.blockLabels_cons]
      rcases List.mem_append.mp member with isFirst | isLater
      · exact (Instr.branches_open instr branch isFirst).mono (List.sublist_append_left _ _)
      · exact (Instr.branchesOfList_open rest branch isLater).mono (List.sublist_append_right _ _)

theorem Catch.branchesOfList_open (catches : List Catch) {labels : List String} :
    ∀ branch ∈ Catch.branchesOfList labels catches,
      branch.Opens (Catch.blockLabels catches) labels := by
  intro branch member
  match catches with
  | [] => cases member
  | .handler tag body :: rest =>
      rw [Catch.blockLabels_cons]
      rcases List.mem_append.mp member with inBody | isLater
      · exact (Instr.branchesOfList_open body branch inBody).mono (List.sublist_append_left _ _)
      · exact (Catch.branchesOfList_open rest branch isLater).mono (List.sublist_append_right _ _)

end

/-- Where the scope of a function is clean, the labels that are open at a branch differ
from each other and from that of the function. -/
theorem Func.CleanScope.open_nodup {func : Func} (clean : func.CleanScope) :
    ∀ branch ∈ func.branches, (branch.labels ++ [Naming.funcLabel]).Nodup := by
  intro branch member
  have opens := Instr.branchesOfList_open func.body branch member
  have nodup := clean.nodup
  rw [List.nodup_cons, Func.scopeNames, List.nodup_append] at nodup
  rw [List.nodup_append]
  refine ⟨opens.nodup nodup.2.2.1, List.nodup_singleton _, ?_⟩
  rintro label isOpen other isFunction rfl
  rw [List.mem_singleton.mp isFunction] at isOpen
  rcases opens with ⟨inner, isInner, isPart⟩
  rw [isInner, List.append_nil, List.mem_reverse] at isOpen
  exact nodup.1 (List.mem_append_right _ (isPart.subset isOpen))

/-- In a clean scope every branch that was given by a depth goes to the construct at this
depth. -/
theorem Branch.Named.kept {before after : Branch} (named : before.Named after)
    (nodup : (before.labels ++ [Naming.funcLabel]).Nodup) {depth : Index}
    (isDepth : before.target = .index depth) : after.depth? = some depth.toNat := by
  rcases named.target depth isDepth with ⟨name, _, has, found_iff⟩
  rw [found_iff]
  intro isInner
  rcases List.getElem?_eq_some_iff.mp has with ⟨inside, isName⟩
  rw [← List.take_append_drop depth.toNat (_ ++ _), List.nodup_append] at nodup
  refine nodup.2.2 name ?_ name ?_ rfl
  · rw [List.take_append]
    exact List.mem_append_left _ isInner
  · rw [List.drop_eq_getElem_cons inside, isName]
    exact List.mem_cons_self

/-! ## Modules -/

/-- Whatever a module is, the scope of a function that it defines is clean after naming
exactly if the names that the function comes with are different, and not that of the
function. A branch that was given by a depth goes to the construct at this depth exactly
if no construct further inside has the same label, so always where the scope is clean. -/
theorem Module.resolve_scope_clean_iff {module : Module} {number : Nat} {func resolved : Func}
    (isFunc : module.definedFuncs[number]? = some func)
    (isResolved : module.resolve.definedFuncs[number]? = some resolved) :
    (resolved.CleanScope ↔ func.Nameable) ∧
      ∀ named namedFunc, module.resolve.applyNames = .ok named →
        named.definedFuncs[number]? = some namedFunc →
          List.Forall₂ Branch.Named resolved.branches namedFunc.branches ∧
            (resolved.CleanScope → List.Forall₂ (fun before after => ∀ depth : Index,
              before.target = .index depth → after.depth? = some depth.toNat)
              resolved.branches namedFunc.branches) := by
  rcases resolved_definedFunc isFunc isResolved with ⟨own, rfl⟩
  have sameNames : { func with name := own }.Nameable ↔ func.Nameable :=
    ⟨fun nameable => { nameable with }, fun nameable => { nameable with }⟩
  refine ⟨(Naming.cleanScope_iff _).trans sameNames, ?_⟩
  intro named namedFunc applied isNamed
  rcases definedFunc_applied (applyNames_applied applied) isFunc with
    ⟨other, otherFunc, isOther, known⟩
  cases isNamed.symm.trans isOther
  have renamed : List.Forall₂ Branch.Renamed (Naming.resolveFunc { func with name := own }).branches
      namedFunc.branches := Naming.Scope.instrs_branches _ (known.body (Nat.le_add_right _ _))
  have areNamed := renamed.imp fun _ _ => Branch.Renamed.named
  refine ⟨areNamed, fun clean => ?_⟩
  refine ((List.forall₂_and_left _ _).mpr ⟨clean.open_nodup, areNamed⟩).imp ?_
  intro before after ⟨nodup, isNamed⟩ depth isDepth
  exact isNamed.kept nodup isDepth

/-- A module with one function: a block called `$x`, and in it another one with a branch
that leaves both. -/
def nestedBlocks (inner : String) : Module :=
  { types := [⟨"", ⟨[], []⟩⟩]
    funcs := [{ declaration := ⟨some (.index 0), ⟨[], []⟩⟩
                body := [.block ⟨"$x", {}⟩ [.block ⟨inner, {}⟩ [.br (.index 1)], .unreachable]] }] }

def nestedView (module : Module) : Option (List String × List Branch × List Branch) :=
  module.resolve.definedFuncs[0]?.bind fun resolved =>
    module.resolve.applyNames.toOption.bind fun named =>
      named.definedFuncs[0]?.map fun namedFunc =>
        (resolved.scopeNames, resolved.branches, namedFunc.branches)

theorem exists_of_nestedView (module : Module) {names : List String} {before after : List Branch}
    (shown : nestedView module = some (names, before, after)) :
    ∃ resolved named namedFunc, module.resolve.definedFuncs[0]? = some resolved ∧
      module.resolve.applyNames = .ok named ∧ named.definedFuncs[0]? = some namedFunc ∧
      resolved.scopeNames = names ∧ resolved.branches = before ∧ namedFunc.branches = after := by
  rcases Option.bind_eq_some_iff.mp shown with ⟨resolved, isResolved, shown⟩
  rcases Option.bind_eq_some_iff.mp shown with ⟨named, applied, shown⟩
  rcases Option.map_eq_some_iff.mp shown with ⟨namedFunc, isNamed, same⟩
  simp only [Prod.mk.injEq] at same
  exact ⟨resolved, named, namedFunc, isResolved, eq_ok_of_toOption applied, isNamed, same⟩

/-- With two labels that differ, the branch still leaves both blocks. -/
theorem Module.resolve_scope_clean_iff_nestedBlocks : ∃ resolved named namedFunc,
    (nestedBlocks "$y").resolve.definedFuncs[0]? = some resolved ∧
      (nestedBlocks "$y").resolve.applyNames = .ok named ∧
      named.definedFuncs[0]? = some namedFunc ∧ resolved.CleanScope ∧
      resolved.branches = [⟨["$y", "$x"], .index 1⟩] ∧
      namedFunc.branches = [⟨["$y", "$x"], .name "$x"⟩] ∧
      (⟨["$y", "$x"], .name "$x"⟩ : Branch).depth? = some 1 := by
  rcases exists_of_nestedView (nestedBlocks "$y")
      (show _ = some (["$x", "$y"], [⟨["$y", "$x"], .index 1⟩], [⟨["$y", "$x"], .name "$x"⟩]) by
        decide +kernel) with
    ⟨resolved, named, namedFunc, isResolved, applied, isNamed, names, before, after⟩
  have isFunc : ∃ func, (nestedBlocks "$y").definedFuncs[0]? = some func ∧ func.Nameable := by
    refine ⟨_, rfl, ?_, ?_, ?_⟩
    · decide +kernel
    · decide +kernel
    · decide +kernel
  rcases isFunc with ⟨func, isFunc, nameable⟩
  rcases resolve_scope_clean_iff isFunc isResolved with ⟨clean_iff, branches⟩
  have clean := clean_iff.mpr nameable
  have kept := (branches named namedFunc applied isNamed).2 clean
  rw [before, after] at kept
  exact ⟨resolved, named, namedFunc, isResolved, applied, isNamed, clean, before, after,
    (List.forall₂_cons.mp kept).1 1 rfl⟩

/-- With the same label twice, the scope is not clean, and the branch that should leave both
blocks leaves the inner one only. -/
theorem Module.resolve_scope_not_clean : ∃ resolved named namedFunc,
    (nestedBlocks "$x").resolve.definedFuncs[0]? = some resolved ∧
      (nestedBlocks "$x").resolve.applyNames = .ok named ∧
      named.definedFuncs[0]? = some namedFunc ∧ ¬resolved.CleanScope ∧
      resolved.branches = [⟨["$x", "$x"], .index 1⟩] ∧
      namedFunc.branches = [⟨["$x", "$x"], .name "$x"⟩] ∧
      (⟨["$x", "$x"], .name "$x"⟩ : Branch).depth? = some 0 := by
  rcases exists_of_nestedView (nestedBlocks "$x")
      (show _ = some (["$x", "$x"], [⟨["$x", "$x"], .index 1⟩], [⟨["$x", "$x"], .name "$x"⟩]) by
        decide +kernel) with
    ⟨resolved, named, namedFunc, isResolved, applied, isNamed, names, before, after⟩
  refine ⟨resolved, named, namedFunc, isResolved, applied, isNamed, ?_, before, after, rfl⟩
  intro clean
  have nodup := clean.nodup
  rw [names] at nodup
  exact absurd nodup (by decide)

end WasmLowering
