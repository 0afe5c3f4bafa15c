import WasmLowering.Proofs.Lowering.Body

/-! The points of a body at which instructions are lowered.

`Visits` follows the lowering through a body and says from which state each
instruction is lowered. Instructions that are left out are not visited. At every
point that is visited, the state has the stack that a typing assigns to it. -/

namespace WasmLowering.Emission

def State.point (state : State) : PointType :=
  ⟨state.stack, state.labels.map (·.entry)⟩

def Scope.enterIf (scope : Scope) (head : BlockHead) : Lowering OpenLabel := do
  let _ ← top scope.name 0
  pop scope.name 1
  openLabel scope.name false head

def Scope.enterElse (scope : Scope) (opened : OpenLabel) : Lowering Unit := do
  resetStack scope.name opened.entry
  pushAll opened.signature.params

/-- While code at a place is lowered from a state, an instruction is lowered from
another one. -/
inductive Visits (scope : Scope) : (list : Place) → (number : Nat) → Code → State →
    (place : Place) → (visited : State) → Prop
  | here {list number instr rest state} :
      Visits scope list number (.body (instr :: rest)) state (number :: list) state
  | first {list number instr rest state place visited}
      (inside : Visits scope list number (.instr instr) state place visited) :
      Visits scope list number (.body (instr :: rest)) state place visited
  | later {list number instr rest state result middle place visited}
      (lowered : scope.instr instr state = .ok (result, middle)) (falls : result.falls = true)
      (behind : Visits scope list (number + 1) (.body rest) middle place visited) :
      Visits scope list number (.body (instr :: rest)) state place visited
  | block {list number head body state opened inner place visited}
      (opens : openLabel scope.name false head state = .ok (opened, inner))
      (inside : Visits scope (0 :: number :: list) 0 (.body body) inner place visited) :
      Visits scope list number (.instr (.block head body)) state place visited
  | loop {list number head body state opened inner place visited}
      (opens : openLabel scope.name true head state = .ok (opened, inner))
      (inside : Visits scope (0 :: number :: list) 0 (.body body) inner place visited) :
      Visits scope list number (.instr (.loop head body)) state place visited
  | thenArm {list number head thenBody elseBody state opened inner place visited}
      (enters : scope.enterIf head state = .ok (opened, inner))
      (inside : Visits scope (0 :: number :: list) 0 (.body thenBody) inner place visited) :
      Visits scope list number (.instr (.ifElse head thenBody elseBody)) state place visited
  | elseArm {list number head thenBody elseBody state opened inner result middle again place
        visited}
      (enters : scope.enterIf head state = .ok (opened, inner))
      (lowered : scope.instrs thenBody inner = .ok (result, middle))
      (returns : scope.enterElse opened middle = .ok ((), again))
      (inside : Visits scope (1 :: number :: list) 0 (.body elseBody) again place visited) :
      Visits scope list number (.instr (.ifElse head thenBody elseBody)) state place visited

def Scope.Reaches (scope : Scope) (place : Place) (visited : State) : Prop :=
  ∃ opened inner,
    openLabel scope.name false ⟨Naming.funcLabel, ⟨none, ⟨[], scope.func.results⟩⟩⟩ {} =
      .ok (opened, inner) ∧
    Visits scope [] 0 (.body scope.func.body) inner place visited

theorem State.Fits.point {state : State} {names : List String} {labels : List LabelType}
    {before : List ValueType} (fits : state.Fits names labels before) :
    state.point = .under labels before := by
  rw [State.point, fits.stack, fits.opens.entries, PointType.under]

section

variable {module : Module} {func : Func} {naming : Naming.Scope} {scope : Scope}
  {slotNames : List String} {assign : Assignment}

theorem Visits.isConstruct {list : Place} {number : Nat} {instr : Instr} {state visited : State}
    {place : Place} (visits : Visits scope list number (.instr instr) state place visited) :
    instr.isConstruct = true := by
  cases visits <;> rfl

theorem not_visits {list : Place} {number : Nat} {instr : Instr} {target : Code}
    {names : List String} {state visited : State} {place : Place}
    (plain : instr.isConstruct = false)
    (named : Naming.NamedCode naming names (.instr instr) target) :
    ¬Visits scope list number target state place visited := by
  intro visits
  rcases named.sameSort with ⟨first, rfl, _, sameSort⟩
  rw [visits.isConstruct, plain] at sameSort
  cases sameSort

theorem enterIf_meets {lenient : Prop} {state : State} {names : List String}
    {labels : List LabelType} {head namedHead : BlockHead} {below : List ValueType}
    (scope : Scope) (isNamed : Naming.NamedHead names head namedHead)
    (fits : state.Fits names labels (.i32 :: head.params.reverse ++ below)) :
    Meets lenient (scope.enterIf namedHead) state fun opened inner =>
      opened.entry = (below ++ LabelType.floor labels).length ∧
      opened.signature.params = head.params ∧
      inner.Fits (namedHead.label :: names)
        (⟨head.results, below ++ LabelType.floor labels⟩ :: labels) head.params.reverse := by
  have popped := State.Fits.popped [_] fits
  refine (fits.top scope.name rfl).bind ?_
  rintro condition _ ⟨-, mentioned, rfl⟩
  refine ((fits.mentioning mentioned).pop scope.name [_] rfl rfl).bind ?_
  rintro _ _ rfl
  refine (openNamed_meets scope.name false isNamed (popped mentioned)).mono ?_
  rintro opened inner ⟨isOpened, innerFits⟩
  refine ⟨by rw [isOpened.isOpened], ?_, innerFits⟩
  rw [isOpened.isOpened, isNamed.signature]

theorem enterElse_meets {lenient : Prop} {state : State} {opened : OpenLabel}
    {params above below : List ValueType} (scope : Scope) (isEntry : opened.entry = below.length)
    (isParams : opened.signature.params = params) (isStack : state.stack = above ++ below) :
    Meets lenient (scope.enterElse opened) state fun _ after =>
      after.stack = params.reverse ++ below ∧ after.labels = state.labels := by
  refine (resetStack_meets scope.name isStack isEntry).bind ?_
  rintro _ _ rfl
  refine (pushAll_meets _ _).mono ?_
  rintro _ _ rfl
  exact ⟨by rw [isParams], rfl⟩

/-- A typing assigns the state to every point from which typed code is lowered. -/
theorem typed_visits (setting : Setting True module func naming scope slotNames)
    {list : Place} {number : Nat} {labels : List LabelType} {code : Code}
    {before after : List ValueType}
    (typed : Typed module func assign list number labels code before after) :
    ∀ {names : List String} {target : Code} {state : State} {place : Place} {visited : State},
      Naming.NamedCode naming names code target → state.Fits names labels before →
        Visits scope list number target state place visited →
          assign place = some visited.point := by
  induction typed with
  | nil =>
      intro names target state place visited named fits visits
      cases named.body_nil
      cases visits
  | cons assigned typedFirst _ visitsFirst visitsRest =>
      intro names target state place visited named fits visits
      rcases named.body_cons with ⟨first, others, rfl, namedFirst, namedRest⟩
      cases visits with
      | here => rw [assigned, fits.point]
      | first inside => exact visitsFirst namedFirst fits inside
      | later lowered falls behind =>
          have lowers := (typed_lowers setting typedFirst namedFirst fits).of_ok lowered
          exact visitsRest namedRest (lowers.fits falls fits) behind
  | block _ visitsBody =>
      intro names target state place visited named fits visits
      rcases named.block with ⟨newHead, newBody, rfl, namedHead, namedBody⟩
      cases visits with
      | block opens inside =>
          have innerFits := ((openNamed_meets scope.name false namedHead fits).of_ok opens).2
          exact visitsBody namedBody innerFits inside
  | loop _ visitsBody =>
      intro names target state place visited named fits visits
      rcases named.loop with ⟨newHead, newBody, rfl, namedHead, namedBody⟩
      cases visits with
      | loop opens inside =>
          have innerFits := ((openNamed_meets scope.name true namedHead fits).of_ok opens).2
          exact visitsBody namedBody innerFits inside
  | ifElse typedThen _ visitsThen visitsElse =>
      intro names target state place visited named fits visits
      rcases named.ifElse with ⟨newHead, newThen, newElse, rfl, namedHead, namedThen, namedElse⟩
      cases visits with
      | thenArm enters inside =>
          have innerFits := ((enterIf_meets scope namedHead fits).of_ok enters).2.2
          exact visitsThen namedThen innerFits inside
      | elseArm enters lowered returns inside =>
          rcases (enterIf_meets scope namedHead fits).of_ok enters with
            ⟨isEntry, isParams, innerFits⟩
          have lowers := (typed_lowers setting typedThen namedThen innerFits).of_ok lowered
          rcases lowers.stack with ⟨above, isStack, _⟩
          have againFits := (enterElse_meets scope isEntry isParams isStack).of_ok returns
          exact visitsElse namedElse
            ⟨againFits.1, againFits.2 ▸ lowers.sameLabels ▸ innerFits.opens⟩ inside
  | apply applies =>
      intro names target state place visited named fits visits
      exact absurd visits (not_visits (Instr.isConstruct_of_application applies) named)
  | extension beyond =>
      intro names target state place visited named fits visits
      exact absurd visits (not_visits (Instr.isConstruct_of_extension beyond) named)
  | _ =>
      intro names target state place visited named fits visits
      exact absurd visits (not_visits rfl named)

end

end WasmLowering.Emission
