import WasmLowering.Proofs.Decoding.Grounded
import WasmLowering.Proofs.Lowering.BranchTargets
import WasmLowering.Proofs.Lowering.Parts

/-! Nothing that is lowered is lost.

Statements hold others only as the arms of a condition. The others are leaves, and what an
instruction is lowered to stays among the leaves of the code around it, up to the body of the
function. So a property of single statements is seen where an instruction is lowered. -/

namespace WasmLowering

namespace Instr

theorem mem_bodies_of_arm {instr : Instr} {arm : Nat} {head : BlockHead} {body : List Instr}
    (isArm : instr.arm? arm = some (head, body)) : body ∈ instr.bodies := by
  unfold arm? at isArm
  split at isArm <;> cases isArm <;> simp [bodies]

end Instr

def Code.visited : Code → List Instr
  | .instr one => one.visited fun _ => true
  | .body instrs => Instr.visitedOfList (fun _ => true) instrs

theorem Code.mem_visited_of_at {code : Code} {path : List Nat} {heads : List BlockHead}
    {found : Instr} (isAt : code.at? path = some (heads, found)) : found ∈ code.visited := by
  induction path generalizing code heads with
  | nil => cases code <;> cases isAt
  | cons step path induction =>
      cases code with
      | body instrs =>
          cases path with
          | nil =>
              rcases Option.map_eq_some_iff.mp isAt with ⟨instr, isInstr, same⟩
              cases same
              apply Instr.mem_visitedOfList (List.mem_of_getElem? isInstr)
              rw [Instr.visited_eq]
              exact List.mem_cons_self
          | cons arm path =>
              rcases Option.bind_eq_some_iff.mp isAt with ⟨instr, isInstr, inside⟩
              exact Instr.mem_visitedOfList (List.mem_of_getElem? isInstr) (induction inside)
      | instr construct =>
          rcases Option.bind_eq_some_iff.mp isAt with ⟨⟨head, body⟩, isArm, inside⟩
          rcases Option.map_eq_some_iff.mp inside with ⟨⟨others, instr⟩, isInstr, same⟩
          cases same
          rw [Code.visited, Instr.visited_eq]
          apply List.mem_cons_of_mem
          exact List.mem_flatMap.mpr ⟨body, Instr.mem_bodies_of_arm isArm, induction isInstr⟩

namespace C

mutual

def Stmt.leaves : Stmt → List Stmt
  | .ifThen _ body => Stmt.leavesOfList body
  | .ifThenElse _ thenBody elseBody =>
      Stmt.leavesOfList thenBody ++ Stmt.leavesOfList elseBody
  | leaf => [leaf]

def Stmt.leavesOfList : List Stmt → List Stmt
  | [] => []
  | stmt :: rest => stmt.leaves ++ Stmt.leavesOfList rest

end

theorem Stmt.leavesOfList_append (first others : List Stmt) :
    Stmt.leavesOfList (first ++ others) =
      Stmt.leavesOfList first ++ Stmt.leavesOfList others := by
  induction first with
  | nil => rfl
  | cons stmt rest induction => simp [Stmt.leavesOfList, induction]

end C

namespace Emission

open C (Stmt)

/-! ## Runs of steps -/

theorem Meets.skip {σ α β : Type} {first : StateT σ (Except EmitError) α}
    {next : α → StateT σ (Except EmitError) β} {state : σ} {post : β → σ → Prop}
    (later : ∀ value after, Meets True (next value) after post) :
    Meets True (first >>= next) state post :=
  (Meets.anything first state).bind fun value after _ => later value after

theorem Meets.run {σ α : Type} (action : StateT σ (Except EmitError) α) (state : σ) :
    Meets True action state fun value after => action state = .ok (value, after) :=
  Gives.ofResult (action state)

/-! ## Paths to what is lowered -/

def LeadsTo (list : Place) (number : Nat) : Code → (path : List Nat) → Place → Prop
  | .instr _, path, place => place = path.reverse ++ number :: list
  | .body _, first :: path, place => place = path.reverse ++ (number + first) :: list
  | .body _, [], _ => False

/-- From the start of a body, the path is the place read from the outside in. -/
theorem LeadsTo.path_eq {body : List Instr} {path : List Nat} {place : Place}
    (leads : LeadsTo [] 0 (.body body) path place) : place.reverse = path := by
  cases path with
  | nil => exact leads.elim
  | cons first path =>
      have isPlace : place = path.reverse ++ [0 + first] := leads
      simp [isPlace]

def Adds (scope : Scope) (list : Place) (number : Nat) (code : Code) (place : Place)
    (visited : State) (stmts : List Stmt) : Prop :=
  ∃ path heads instr result next, LeadsTo list number code path place ∧
    code.at? path = some (heads, instr) ∧ scope.instr instr visited = .ok (result, next) ∧
    Stmt.leavesOfList result.stmts ⊆ stmts

namespace Adds

variable {scope : Scope} {list place : Place} {number : Nat} {visited : State}
  {stmts more : List Stmt}

theorem mono {code : Code} (given : Adds scope list number code place visited stmts)
    (subset : stmts ⊆ more) : Adds scope list number code place visited more := by
  rcases given with ⟨path, heads, instr, result, next, leads, isAt, lowered, areStmts⟩
  exact ⟨path, heads, instr, result, next, leads, isAt, lowered, List.Subset.trans areStmts subset⟩

theorem first {instr : Instr} {rest : List Instr}
    (given : Adds scope list number (.instr instr) place visited stmts) :
    Adds scope list number (.body (instr :: rest)) place visited stmts := by
  rcases given with ⟨path, heads, found, result, next, leads, isAt, lowered, areStmts⟩
  cases path with
  | nil => cases isAt
  | cons arm path =>
      exact ⟨0 :: arm :: path, heads, found, result, next, leads, isAt, lowered, areStmts⟩

theorem later {instr : Instr} {rest : List Instr}
    (given : Adds scope list (number + 1) (.body rest) place visited stmts) :
    Adds scope list number (.body (instr :: rest)) place visited stmts := by
  rcases given with ⟨path, heads, found, result, next, leads, isAt, lowered, areStmts⟩
  cases path with
  | nil => cases isAt
  | cons step path =>
      refine ⟨(step + 1) :: path, heads, found, result, next, ?_, ?_, lowered, areStmts⟩
      · rw [LeadsTo] at leads ⊢
        rw [leads]
        congr 2
        omega
      · cases path with
        | nil => exact isAt
        | cons arm path => exact isAt

theorem inside {instr : Instr} {arm : Nat} {head : BlockHead} {body : List Instr}
    (isArm : instr.arm? arm = some (head, body))
    (given : Adds scope (arm :: number :: list) 0 (.body body) place visited stmts) :
    Adds scope list number (.instr instr) place visited stmts := by
  rcases given with ⟨path, heads, found, result, next, leads, isAt, lowered, areStmts⟩
  refine ⟨arm :: path, heads ++ [head], found, result, next, ?_, ?_, lowered, areStmts⟩
  · cases path with
    | nil => cases isAt
    | cons step path =>
        have isPlace : place = path.reverse ++ (0 + step) :: arm :: number :: list := leads
        simp [LeadsTo, isPlace]
  · simp [Code.at?, isArm, isAt]

end Adds

theorem instrs_cons_ok {scope : Scope} {instr : Instr} {rest : List Instr} {state after : State}
    {lowered : Lowered} (succeeds : scope.instrs (instr :: rest) state = .ok (lowered, after)) :
    ∃ first middle, scope.instr instr state = .ok (first, middle) ∧
      ((first.falls = false ∧ lowered = first) ∨
        ∃ others, first.falls = true ∧ scope.instrs rest middle = .ok (others, after) ∧
          lowered = ⟨first.stmts ++ others.stmts, others.falls⟩) := by
  rcases bind_eq_ok succeeds with ⟨⟨first, middle⟩, isFirst, remaining⟩
  refine ⟨first, middle, isFirst, ?_⟩
  dsimp only at remaining
  split at remaining
  · next falls =>
      rcases bind_eq_ok remaining with ⟨⟨others, last⟩, areOthers, isAll⟩
      cases isAll
      exact .inr ⟨others, falls, areOthers, rfl⟩
  · next falls =>
      cases remaining
      exact .inl ⟨by simpa using falls, rfl⟩

theorem checkEnd_same (scope : Scope) (construct : String) (opened : OpenLabel) (body : Lowered)
    (state : State) :
    Meets True (scope.checkEnd construct opened body) state fun _ after => after = state := by
  unfold Scope.checkEnd
  split
  · refine .bind_get ?_
    exact (Meets.lift (Gives.ofResult _) state).mono fun _ _ known => known.2
  · exact .pure rfl

theorem ifElse_ok {scope : Scope} {head : BlockHead} {thenBody elseBody : List Instr}
    {state after : State} {lowered : Lowered}
    (succeeds : scope.instr (.ifElse head thenBody elseBody) state = .ok (lowered, after)) :
    ∃ opened inner thenPart middle, scope.enterIf head state = .ok (opened, inner) ∧
      scope.instrs thenBody inner = .ok (thenPart, middle) ∧
      Stmt.leavesOfList thenPart.stmts ⊆ Stmt.leavesOfList lowered.stmts ∧
      (elseBody ≠ [] → ∃ again elsePart last, scope.enterElse opened middle = .ok ((), again) ∧
        scope.instrs elseBody again = .ok (elsePart, last) ∧
        Stmt.leavesOfList elsePart.stmts ⊆ Stmt.leavesOfList lowered.stmts) := by
  cases elseBody with
  | nil =>
      rw [Scope.instr] at succeeds
      rcases run_bind succeeds with ⟨condition, first, isCondition, remaining⟩
      rcases run_bind remaining with ⟨_, second, isPopped, remaining⟩
      rcases run_bind remaining with ⟨opened, inner, opens, remaining⟩
      rcases run_bind remaining with ⟨thenPart, middle, isThen, remaining⟩
      rcases run_bind remaining with ⟨_, _, _, remaining⟩
      rcases run_bind remaining with ⟨label, _, _, remaining⟩
      rcases run_bind remaining with ⟨_, _, _, isAll⟩
      cases isAll
      have enters : scope.enterIf head state = .ok (opened, inner) :=
        bind_run isCondition (bind_run isPopped opens)
      refine ⟨opened, inner, thenPart, middle, enters, isThen, ?_, fun more => absurd rfl more⟩
      exact List.subset_append_left _ _
  | cons firstElse others =>
      rw [Scope.instr] at succeeds
      rcases run_bind succeeds with ⟨condition, first, isCondition, remaining⟩
      rcases run_bind remaining with ⟨_, second, isPopped, remaining⟩
      rcases run_bind remaining with ⟨opened, inner, opens, remaining⟩
      rcases run_bind remaining with ⟨thenPart, middle, isThen, remaining⟩
      rcases run_bind remaining with ⟨_, checked, isChecked, remaining⟩
      rcases run_bind remaining with ⟨_, cut, isCut, remaining⟩
      rcases run_bind remaining with ⟨_, again, isAgain, remaining⟩
      rcases run_bind remaining with ⟨elsePart, last, isElse, remaining⟩
      rcases run_bind remaining with ⟨_, _, _, remaining⟩
      rcases run_bind remaining with ⟨label, _, _, remaining⟩
      rcases run_bind remaining with ⟨_, _, _, isAll⟩
      cases isAll
      have enters : scope.enterIf head state = .ok (opened, inner) :=
        bind_run isCondition (bind_run isPopped opens)
      have same := (checkEnd_same _ _ _ _ _).of_ok isChecked
      subst same
      have returns : scope.enterElse opened checked = .ok ((), again) := bind_run isCut isAgain
      have leaves : Stmt.leavesOfList (.ifThenElse condition thenPart.stmts elsePart.stmts ::
          label) = Stmt.leavesOfList thenPart.stmts ++
            Stmt.leavesOfList elsePart.stmts ++ Stmt.leavesOfList label := rfl
      rw [leaves]
      refine ⟨opened, inner, thenPart, checked, enters, isThen, ?_, fun _ => ?_⟩
      · exact List.subset_append_of_subset_left _ (List.subset_append_left _ _)
      · refine ⟨again, elsePart, last, returns, isElse, ?_⟩
        exact List.subset_append_of_subset_left _ (List.subset_append_right _ _)

theorem Visits.adds {scope : Scope} {list place : Place} {number : Nat} {code : Code}
    {state visited : State} (visits : Visits scope list number code state place visited) :
    ∀ lowered after, scope.code code state = .ok (lowered, after) →
      Adds scope list number code place visited
        (Stmt.leavesOfList lowered.stmts) := by
  induction visits with
  | here =>
      intro lowered after succeeds
      rcases instrs_cons_ok succeeds with ⟨first, middle, isFirst, ⟨_, rfl⟩ | ⟨others, _, _, rfl⟩⟩
      · exact ⟨[0], [], _, _, middle, rfl, rfl, isFirst, List.Subset.refl _⟩
      · refine ⟨[0], [], _, first, middle, rfl, rfl, isFirst, ?_⟩
        rw [Stmt.leavesOfList_append]
        exact List.subset_append_left _ _
  | first _ induction =>
      intro lowered after succeeds
      rcases instrs_cons_ok succeeds with ⟨first, middle, isFirst, ⟨_, rfl⟩ | ⟨others, _, _, rfl⟩⟩
      · exact (induction _ middle isFirst).first
      · apply (induction first middle isFirst).first.mono
        rw [Stmt.leavesOfList_append]
        exact List.subset_append_left _ _
  | later isFirst falls _ induction =>
      intro lowered after succeeds
      rcases instrs_cons_ok succeeds with
        ⟨first, middle, isOther, ⟨stops, _⟩ | ⟨others, _, areOthers, rfl⟩⟩
      · cases isFirst.symm.trans isOther
        rw [falls] at stops
        cases stops
      · cases isFirst.symm.trans isOther
        apply (induction others after areOthers).later.mono
        rw [Stmt.leavesOfList_append]
        exact List.subset_append_right _ _
  | block opens _ induction =>
      intro lowered after succeeds
      rcases run_bind succeeds with ⟨opened, inner, isOpened, remaining⟩
      cases opens.symm.trans isOpened
      rcases run_bind remaining with ⟨body, middle, isBody, remaining⟩
      rcases run_bind remaining with ⟨_, _, _, remaining⟩
      rcases run_bind remaining with ⟨label, _, _, remaining⟩
      rcases run_bind remaining with ⟨_, _, _, isAll⟩
      cases isAll
      apply ((induction body middle isBody).inside rfl).mono
      rw [Stmt.leavesOfList_append]
      exact List.subset_append_left _ _
  | loop opens _ induction =>
      intro lowered after succeeds
      rcases run_bind succeeds with ⟨opened, inner, isOpened, remaining⟩
      cases opens.symm.trans isOpened
      rcases run_bind remaining with ⟨body, middle, isBody, remaining⟩
      rcases run_bind remaining with ⟨_, _, _, remaining⟩
      rcases run_bind remaining with ⟨label, _, _, remaining⟩
      rcases run_bind remaining with ⟨_, _, _, isAll⟩
      cases isAll
      apply ((induction body middle isBody).inside rfl).mono
      rw [Stmt.leavesOfList_append]
      exact List.subset_append_right _ _
  | thenArm enters _ induction =>
      intro lowered after succeeds
      rcases ifElse_ok succeeds with ⟨opened, inner, thenPart, middle, isEntered, isThen, subset, _⟩
      cases enters.symm.trans isEntered
      exact ((induction thenPart middle isThen).inside rfl).mono subset
  | elseArm enters isThen returns inside induction =>
      intro lowered after succeeds
      rcases ifElse_ok succeeds with ⟨opened, inner, thenPart, middle, isEntered, isOther, _, more⟩
      cases enters.symm.trans isEntered
      cases isThen.symm.trans isOther
      rcases more (by rintro rfl; cases inside) with
        ⟨again, elsePart, last, isReturned, isElse, subset⟩
      cases returns.symm.trans isReturned
      exact ((induction elsePart last isElse).inside rfl).mono subset

/-! ## Functions -/

/-- The leaves of lowered code are among those of the body of its function. -/
theorem body_leaves (scope : Scope) :
    Meets True scope.body {} fun result _ => ∃ opened inner lowered middle,
      openLabel scope.name false ⟨Naming.funcLabel, ⟨none, ⟨[], scope.func.results⟩⟩⟩ {} =
        .ok (opened, inner) ∧
      scope.instrs scope.func.body inner = .ok (lowered, middle) ∧
      Stmt.leavesOfList lowered.stmts ⊆ Stmt.leavesOfList result.1 := by
  refine (Meets.run _ _).bind fun opened inner opens => ?_
  refine (Meets.run _ _).bind fun lowered middle isLowered => ?_
  refine Meets.mono ?_ fun result _ subset =>
    ⟨opened, inner, lowered, middle, opens, isLowered, subset⟩
  have ends : ∀ after, Meets True (do
      let label ← labelStmts opened
      closeLabel scope.name opened
      let returned ← Scope.resultSlot ((← get).height - 1) scope.func.results
      return (lowered.stmts ++ label, returned)) after fun result _ =>
        Stmt.leavesOfList lowered.stmts ⊆ Stmt.leavesOfList result.1 := by
    intro after
    refine .skip fun label _ => .skip fun _ _ => .skip fun _ _ => .skip fun _ _ => .pure ?_
    rw [Stmt.leavesOfList_append]
    exact List.subset_append_left _ _
  dsimp only
  split
  · exact .skip fun _ after => ends after
  · exact ends middle

/-- Where an instruction of a function is reached, the instruction with names in its place is
lowered, and what it becomes is in the body of the emitted function. -/
structure FuncLowered (module named : Module) (func : Func) (function : C.Function)
    (scope : Scope) : Prop where
  isModule : scope.module = named
  member : scope.func ∈ named.definedFuncs
  name : scope.func.name = function.name
  body : ∃ last, scope.body {} = .ok ((function.body, function.returned), last)
  reached : ∀ (place : Place) (visited : State) (heads : List BlockHead) (source : Instr),
    scope.Reaches place visited →
    (Code.body func.body).at? place.reverse = some (heads, source) →
      ∃ naming names instr result next, naming.module = module.resolve ∧
        Naming.NamedCode naming names (.instr source) (.instr instr) ∧
        scope.instr instr visited = .ok (result, next) ∧
        Stmt.leavesOfList result.stmts ⊆ Stmt.leavesOfList function.body

theorem lowerFunc_lowered {module named : Module} {func namedFunc : Func} {function : C.Function}
    {symbols : EntitySymbols} (isNamed : module.FuncNamed func namedFunc)
    (member : namedFunc ∈ named.definedFuncs)
    (succeeds : lowerFunc named symbols namedFunc = .ok function) :
    ∃ scope, FuncLowered module named func function scope := by
  rcases lowerFunc_eq_ok succeeds with ⟨last, lowersFunc⟩
  rcases (body_leaves _).of_ok lowersFunc.body with
    ⟨opened, inner, lowered, middle, opens, isLowered, subset⟩
  rcases isNamed.body with ⟨naming, isNaming, _, namedBody⟩
  refine ⟨_, rfl, member, lowersFunc.name.symm, ⟨last, lowersFunc.body⟩, ?_⟩
  intro place visited heads source reaches isAt
  rcases reaches with ⟨_, _, isOpened, visits⟩
  cases opens.symm.trans isOpened
  rcases instrs_reached func.body namedBody (openFunction_named opens) visits with
    ⟨first, path, isPlace, _, _, before, after, isSource, isTarget, _, _, namedInstr⟩
  rcases visits.adds lowered middle isLowered with
    ⟨route, _, instr, result, next, leads, isRoute, lowers, inLowered⟩
  have isPath : place.reverse = first :: path := by simp [isPlace]
  have samePath : place.reverse = route := leads.path_eq
  rw [isPath] at isAt samePath
  rw [← samePath] at isRoute
  cases isAt.symm.trans isSource
  cases isRoute.symm.trans isTarget
  exact ⟨naming, _, _, result, next, isNaming, namedInstr, lowers,
    List.Subset.trans inLowered subset⟩

end Emission

end WasmLowering
