import WasmLowering.Naming.Resolve
import WasmLowering.Proofs.Naming.BlockLabels
import WasmLowering.Proofs.Semantics.Source

/-! The meaning of code with names in place of positions.

Constructs and branches run as before, but a branch gives the name of the label it goes
to, which is looked up among the constructs around. Everything else refers to slots and
entities, and has the meaning of the instruction with their positions.

How a run ends depends on values, but where it can end at all does not: `Exits` are the
ways on which control can leave code if every test may go either way. -/

namespace WasmLowering

/-- How many constructs a branch leaves before it reaches the one it ends or starts again.
A name is looked up from the inside to the outside, but that of the function always means
the function. -/
def Reference.depth? (around : List String) : Reference → Option Nat
  | .index depth => some depth.toNat
  | .name text =>
      if text = Naming.funcLabel then some around.length else around.idxOf? text

/-! ## Positions -/

def Module.positionOf (module : Module) (kind : EntityKind) (reference : Reference) : Reference :=
  ((module.entityIndex? kind reference).map .index).getD reference

def Func.positionOf (func : Func) (place : Reference) : Reference :=
  ((func.slot? place).map .index).getD place

/-- An instruction with positions in place of the names of slots and entities. Those of
labels are left. -/
def Module.positioned (module : Module) (func : Func) : Instr → Instr
  | .localGet place => .localGet (func.positionOf place)
  | .localSet place => .localSet (func.positionOf place)
  | .localTee place => .localTee (func.positionOf place)
  | .globalGet place => .globalGet (module.positionOf .global place)
  | .globalSet place => .globalSet (module.positionOf .global place)
  | .load opcode memory align offset =>
      .load opcode (module.positionOf .memory memory) align offset
  | .store opcode memory align offset =>
      .store opcode (module.positionOf .memory memory) align offset
  | .memorySize memory => .memorySize (module.positionOf .memory memory)
  | .memoryGrow memory => .memoryGrow (module.positionOf .memory memory)
  | .memoryFill memory => .memoryFill (module.positionOf .memory memory)
  | .memoryCopy target source =>
      .memoryCopy (module.positionOf .memory target) (module.positionOf .memory source)
  | .call callee => .call (module.positionOf .func callee)
  | .callIndirect declaration table =>
      .callIndirect { declaration with typeRef := (module.typeIndex? declaration).map .index }
        (module.positionOf .table table)
  | instr => instr

namespace Source

variable {Value Store Trap : Type}

/-! ## Runs -/

def branchFrom (around : List String) (target : Reference) (frame : Frame Value Store) :
    Result Value Store Trap :=
  match target.depth? around with
  | some depth => .branch depth frame
  | none => .stuck

section

variable (machine : Machine Value Store Trap) (module : Module) (func : Func) (fuel : Nat)

mutual

def namedInstr (around : List String) : Instr → Frame Value Store → Result Value Store Trap
  | .block head body, frame =>
      enter head.params.length frame fun inner below =>
        (namedInstrs (head.label :: around) body inner).exit head.results.length below
  | .loop head body, frame =>
      enter head.params.length frame fun inner below =>
        (iterate (namedInstrs (head.label :: around) body) head.params.length fuel inner).exit
          head.params.length below
  | .ifElse head thenBody elseBody, frame =>
      match frame.stack with
      | condition :: rest =>
          enter head.params.length { frame with stack := rest } fun inner below =>
            (if machine.isTrue condition then namedInstrs (head.label :: around) thenBody inner
              else namedInstrs (head.label :: around) elseBody inner).exit
                head.results.length below
      | [] => .stuck
  | .br target, frame => branchFrom around target frame
  | .brIf target, frame =>
      match frame.stack with
      | condition :: rest =>
          if machine.isTrue condition then branchFrom around target { frame with stack := rest }
          else .falls { frame with stack := rest }
      | [] => .stuck
  | .brTable targets otherwise, frame =>
      match frame.stack with
      | position :: rest =>
          branchFrom around ((targets[machine.caseOf position]?).getD otherwise)
            { frame with stack := rest }
      | [] => .stuck
  | other, frame => instr machine module fuel (module.positioned func other) frame

def namedInstrs (around : List String) : List Instr → Frame Value Store →
    Result Value Store Trap
  | [], frame => .falls frame
  | first :: rest, frame => (namedInstr around first frame).andThen (namedInstrs around rest)

end

def namedCode (around : List String) : Code → Frame Value Store → Result Value Store Trap
  | .instr first => namedInstr machine module func fuel around first
  | .body body => namedInstrs machine module func fuel around body

end

end Source

/-! ## Ways out of code -/

/-- How control leaves code within a function. -/
inductive Exit where
  | falls
  | branch (depth : Nat)
  deriving DecidableEq, Repr

def Exit.outward : Exit → Exit
  | falls => falls
  | branch 0 => falls
  | branch (depth + 1) => branch depth

def Instr.isFinal : Instr → Bool
  | .br _ | .brTable .. | .leave | .unreachable => true
  | _ => false

/-- A way on which control can leave code, inside constructs with the given labels. -/
inductive Exits : (around : List String) → Code → Exit → Prop
  | plain {around instr} (isPlain : instr.isConstruct = false) (goesOn : instr.isFinal = false) :
      Exits around (.instr instr) .falls
  | branch {around instr target depth} (isTarget : target ∈ instr.branchTargets)
      (isDepth : target.depth? around = some depth) : Exits around (.instr instr) (.branch depth)
  | block {around head body inside outside}
      (isInside : Exits (head.label :: around) (.body body) inside)
      (outward : inside.outward = outside) : Exits around (.instr (.block head body)) outside
  | loop {around head body inside outside}
      (isInside : Exits (head.label :: around) (.body body) inside) (leaves : inside ≠ .branch 0)
      (outward : inside.outward = outside) : Exits around (.instr (.loop head body)) outside
  | thenArm {around head thenBody elseBody inside outside}
      (isInside : Exits (head.label :: around) (.body thenBody) inside)
      (outward : inside.outward = outside) :
      Exits around (.instr (.ifElse head thenBody elseBody)) outside
  | elseArm {around head thenBody elseBody inside outside}
      (isInside : Exits (head.label :: around) (.body elseBody) inside)
      (outward : inside.outward = outside) :
      Exits around (.instr (.ifElse head thenBody elseBody)) outside
  | nil {around} : Exits around (.body []) .falls
  | first {around instr rest exit} (isFirst : Exits around (.instr instr) exit)
      (leaves : exit ≠ .falls) : Exits around (.body (instr :: rest)) exit
  | later {around instr rest exit} (goesOn : Exits around (.instr instr) .falls)
      (behind : Exits around (.body rest) exit) : Exits around (.body (instr :: rest)) exit

/-- An instruction without a body is left where it is, or to one of its targets. -/
theorem Exits.of_plain {around : List String} {instr : Instr} {exit : Exit}
    (plain : instr.isConstruct = false) (exits : Exits around (.instr instr) exit) :
    (exit = .falls ∧ instr.isFinal = false) ∨
      ∃ target ∈ instr.branchTargets, ∃ depth, target.depth? around = some depth ∧
        exit = .branch depth := by
  cases exits with
  | plain _ goesOn => exact .inl ⟨rfl, goesOn⟩
  | branch isTarget isDepth => exact .inr ⟨_, isTarget, _, isDepth, rfl⟩
  | block | loop | thenArm | elseArm => cases plain

namespace Source

variable {Value Store Trap : Type}

def Result.way? : Result Value Store Trap → Option Exit
  | .falls _ => some .falls
  | .branch depth _ => some (.branch depth)
  | _ => none

variable {exit : Exit}

theorem Result.way?_exit {count : Nat} {below : List Value} {result : Result Value Store Trap}
    (isWay : (result.exit count below).way? = some exit) :
    ∃ inside, result.way? = some inside ∧ inside.outward = exit := by
  cases result with
  | falls frame => exact ⟨.falls, rfl, Option.some.inj isWay⟩
  | branch depth frame =>
      refine ⟨.branch depth, rfl, ?_⟩
      cases depth with
      | zero => exact Option.some.inj isWay
      | succ depth => exact Option.some.inj isWay
  | leave | trapped | unfinished | stuck => cases isWay

theorem Result.way?_andThen {next : Frame Value Store → Result Value Store Trap}
    {result : Result Value Store Trap} (isWay : (result.andThen next).way? = some exit) :
    (result.way? = some exit ∧ exit ≠ .falls) ∨
      (result.way? = some .falls ∧ ∃ frame, (next frame).way? = some exit) := by
  cases result with
  | falls frame => exact .inr ⟨rfl, frame, isWay⟩
  | branch depth frame =>
      refine .inl ⟨isWay, ?_⟩
      cases Option.some.inj isWay
      exact Exit.noConfusion
  | leave | trapped | unfinished | stuck => cases isWay

/-- A loop is left by a run of its body, and not by a branch to its own label. -/
theorem way?_iterate {body : Frame Value Store → Result Value Store Trap} {count fuel : Nat}
    {frame : Frame Value Store} (isWay : (iterate body count fuel frame).way? = some exit) :
    exit ≠ .branch 0 ∧ ∃ start, (body start).way? = some exit := by
  induction fuel generalizing frame with
  | zero => cases isWay
  | succ fuel induction =>
      rw [iterate] at isWay
      split at isWay
      · exact induction isWay
      · next notAgain =>
          refine ⟨?_, frame, isWay⟩
          rintro rfl
          cases isResult : body frame with
          | branch depth next =>
              rw [isResult] at isWay
              cases Option.some.inj isWay
              exact notAgain next isResult
          | falls | leave | trapped | unfinished | stuck =>
              rw [isResult] at isWay
              cases isWay

theorem way?_enter {count : Nat} {frame : Frame Value Store}
    {run : Frame Value Store → List Value → Result Value Store Trap}
    (isWay : (enter count frame run).way? = some exit) :
    ∃ inner below, (run inner below).way? = some exit := by
  unfold enter at isWay
  split at isWay
  · exact ⟨_, _, isWay⟩
  · cases isWay

theorem way?_branchFrom {around : List String} {target : Reference} {frame : Frame Value Store}
    (isWay : (branchFrom around target frame : Result Value Store Trap).way? = some exit) :
    ∃ depth, target.depth? around = some depth ∧ exit = .branch depth := by
  unfold branchFrom at isWay
  split at isWay
  · next depth isDepth => exact ⟨depth, isDepth, (Option.some.inj isWay).symm⟩
  · cases isWay

section

variable {machine : Machine Value Store Trap} {module : Module} {func : Func} {fuel : Nat}
  {frame : Frame Value Store}

theorem way?_applyOperation {application : Application}
    (isWay : (applyOperation machine application frame).way? = some exit) : exit = .falls := by
  unfold applyOperation at isWay
  dsimp only at isWay
  split at isWay
  · split at isWay
    · exact (Option.some.inj isWay).symm
    · cases isWay
    · cases isWay
  · cases isWay

/-- An instruction that is no construct and no branch is left on one way at most. -/
theorem way?_plain {instr : Instr} (isPlain : instr.isConstruct = false)
    (noBranch : instr.branchTargets = [])
    (isWay : (Source.instr machine module fuel instr frame).way? = some exit) :
    exit = .falls ∧ instr.isFinal = false := by
  rw [Source.instr.eq_def] at isWay
  split at isWay
  case h_1 | h_4 => exact ⟨(Option.some.inj isWay).symm, rfl⟩
  case h_2 | h_3 | h_5 | h_6 | h_7 =>
      split at isWay
      · exact ⟨(Option.some.inj isWay).symm, rfl⟩
      · cases isWay
  case h_8 | h_9 | h_10 => cases isPlain
  case h_11 | h_12 => cases noBranch
  case h_13 => exact absurd noBranch (by simp [Instr.branchTargets])
  case h_14 | h_15 => cases isWay
  case h_16 =>
      split at isWay
      · next applies =>
          refine ⟨way?_applyOperation isWay, ?_⟩
          cases instr with
          | br | brTable | leave | unreachable => cases applies
          | _ => rfl
      · cases isWay

theorem way?_positioned {instr : Instr} (isPlain : instr.isConstruct = false)
    (noBranch : instr.branchTargets = [])
    (isWay : (Source.instr machine module fuel (module.positioned func instr) frame).way? =
      some exit) : exit = .falls ∧ instr.isFinal = false := by
  cases instr with
  | block | loop | ifElse => cases isPlain
  | br | brIf => cases noBranch
  | brTable => exact absurd noBranch (by simp [Instr.branchTargets])
  | leave | unreachable => exact way?_plain rfl rfl isWay
  | _ => exact ⟨(way?_plain rfl rfl isWay).1, rfl⟩

theorem namedInstr_plain {around : List String} {instr : Instr}
    (isPlain : instr.isConstruct = false) (noBranch : instr.branchTargets = []) :
    namedInstr machine module func fuel around instr frame =
      Source.instr machine module fuel (module.positioned func instr) frame := by
  rw [namedInstr.eq_def]
  split
  case h_1 | h_2 | h_3 => cases isPlain
  case h_4 | h_5 => cases noBranch
  case h_6 => exact absurd noBranch (by simp [Instr.branchTargets])
  case h_7 => rfl

mutual

theorem namedInstr_exits {around : List String} (instr : Instr) {frame : Frame Value Store}
    {exit : Exit}
    (isWay : (namedInstr machine module func fuel around instr frame).way? = some exit) :
    Exits around (.instr instr) exit := by
  match instr with
  | .block head body =>
      rw [namedInstr] at isWay
      rcases way?_enter isWay with ⟨inner, below, isInside⟩
      rcases Result.way?_exit isInside with ⟨inside, isBody, outward⟩
      exact .block (namedInstrs_exits body isBody) outward
  | .loop head body =>
      rw [namedInstr] at isWay
      rcases way?_enter isWay with ⟨inner, below, isInside⟩
      rcases Result.way?_exit isInside with ⟨inside, isLoop, outward⟩
      rcases way?_iterate isLoop with ⟨leaves, start, isBody⟩
      exact .loop (namedInstrs_exits body isBody) leaves outward
  | .ifElse head thenBody elseBody =>
      rw [namedInstr] at isWay
      split at isWay
      · rcases way?_enter isWay with ⟨inner, below, isInside⟩
        rcases Result.way?_exit isInside with ⟨inside, isArm, outward⟩
        split at isArm
        · exact .thenArm (namedInstrs_exits thenBody isArm) outward
        · exact .elseArm (namedInstrs_exits elseBody isArm) outward
      · cases isWay
  | .br target =>
      rw [namedInstr] at isWay
      rcases way?_branchFrom isWay with ⟨depth, isDepth, rfl⟩
      exact .branch List.mem_cons_self isDepth
  | .brIf target =>
      rw [namedInstr] at isWay
      split at isWay
      · split at isWay
        · rcases way?_branchFrom isWay with ⟨depth, isDepth, rfl⟩
          exact .branch List.mem_cons_self isDepth
        · cases Option.some.inj isWay
          exact .plain rfl rfl
      · cases isWay
  | .brTable targets otherwise =>
      rw [namedInstr] at isWay
      split at isWay
      · next position rest _ =>
          rcases way?_branchFrom isWay with ⟨depth, isDepth, rfl⟩
          refine .branch ?_ isDepth
          rw [Instr.branchTargets, List.mem_append, List.mem_singleton]
          cases isCase : targets[machine.caseOf position]? with
          | none => exact .inr rfl
          | some target => exact .inl (List.mem_of_getElem? isCase)
      · cases isWay
  | .leave | .unreachable | .nop | .drop | .localSet _
  | .localTee _ | .binary _ | .compare _ | .convert _ | .unary _ | .call _ | .callIndirect _ _
  | .const _ | .select _ | .globalGet _ | .globalSet _ | .localGet _ | .load _ _ _ _
  | .store _ _ _ _ | .memoryGrow _ | .memorySize _ | .memoryFill _ | .memoryCopy _ _
  | .tryCatch .. | .throwTag _ | .rethrow _ | .ternary _ | .simd .. | .simdLane ..
  | .simdShuffle .. | .atomic .. | .refFunc _ | .other _ =>
      rw [namedInstr_plain rfl rfl] at isWay
      rcases way?_positioned rfl rfl isWay with ⟨rfl, goesOn⟩
      exact .plain rfl goesOn

theorem namedInstrs_exits {around : List String} (body : List Instr) {frame : Frame Value Store}
    {exit : Exit}
    (isWay : (namedInstrs machine module func fuel around body frame).way? = some exit) :
    Exits around (.body body) exit := by
  match body with
  | [] =>
      rw [namedInstrs] at isWay
      cases Option.some.inj isWay
      exact .nil
  | instr :: rest =>
      rw [namedInstrs] at isWay
      rcases Result.way?_andThen isWay with ⟨isFirst, leaves⟩ | ⟨goesOn, start, isRest⟩
      · exact .first (namedInstr_exits instr isFirst) leaves
      · exact .later (namedInstr_exits instr goesOn) (namedInstrs_exits rest isRest)

end

theorem namedCode_exits {around : List String} {code : Code} {last : Frame Value Store}
    (isLast : namedCode machine module func fuel around code frame = .falls last) :
    Exits around code .falls := by
  cases code with
  | instr first => exact namedInstr_exits first (congrArg Result.way? isLast)
  | body body => exact namedInstrs_exits body (congrArg Result.way? isLast)

end

end Source

end WasmLowering
