import WasmLowering.Proofs.Semantics.Machine
import WasmLowering.Proofs.Typing.Rules

/-! The meaning of decoded code: a machine with an operand stack and structured
control.

Every construct runs on a stack of its own, which holds its parameters at first;
what is below it is out of reach until it ends. A branch hands the stack to the
construct it leaves for, which takes from it what its label carries. Fuel bounds
how often each loop starts again, so running out of it means nothing yet. -/

namespace WasmLowering

namespace Source

variable {Value Store Trap : Type}

/-- The operand stack of the innermost construct, the top first, the parameters and
locals of the function, and the world. -/
structure Frame (Value Store : Type) where
  stack : List Value
  locals : List Value
  world : World Value Store

/-- How code ends: by going on behind it, by a branch to a label around it, by
leaving the function, or by a trap. It may also not have ended yet; and code that
is not well typed may be stuck. -/
inductive Result (Value Store Trap : Type) where
  | falls (frame : Frame Value Store)
  | branch (depth : Nat) (frame : Frame Value Store)
  | leave (frame : Frame Value Store)
  | trapped (cause : Trap) (world : World Value Store)
  | unfinished (world : World Value Store)
  | stuck

def Result.andThen (next : Frame Value Store → Result Value Store Trap) :
    Result Value Store Trap → Result Value Store Trap
  | .falls frame => next frame
  | result => result

/-- Leaves a construct. What it gives, or what its label carries, is put on top of
what was below it. -/
def Result.exit (count : Nat) (below : List Value) :
    Result Value Store Trap → Result Value Store Trap
  | .falls frame => .falls { frame with stack := frame.stack ++ below }
  | .branch 0 frame => .falls { frame with stack := frame.stack.take count ++ below }
  | .branch (depth + 1) frame => .branch depth frame
  | result => result

def iterate (body : Frame Value Store → Result Value Store Trap) (count : Nat) :
    (fuel : Nat) → Frame Value Store → Result Value Store Trap
  | 0, frame => .unfinished frame.world
  | fuel + 1, frame =>
      match body frame with
      | .branch 0 next => iterate body count fuel { next with stack := next.stack.take count }
      | result => result

def applyOperation (machine : Machine Value Store Trap) (application : Application)
    (frame : Frame Value Store) : Result Value Store Trap :=
  let count := application.type.params.length
  if count ≤ frame.stack.length then
    let arguments := (frame.stack.take count).reverse
    let world := frame.world.after application.operation arguments
    match machine.perform application.operation arguments frame.world.store with
    | .done results store =>
        .falls { frame with
          stack := results.reverse ++ frame.stack.drop count, world := world store }
    | .trap cause store => .trapped cause (world store)
    | .hang => .unfinished (world frame.world.store)
  else .stuck

def branchTo (target : Reference) (frame : Frame Value Store) : Result Value Store Trap :=
  match target with
  | .index depth => .branch depth.toNat frame
  | .name _ => .stuck

def enter (count : Nat) (frame : Frame Value Store)
    (run : Frame Value Store → List Value → Result Value Store Trap) : Result Value Store Trap :=
  if count ≤ frame.stack.length then
    run { frame with stack := frame.stack.take count } (frame.stack.drop count)
  else .stuck

section

variable (machine : Machine Value Store Trap) (module : Module) (fuel : Nat)

mutual

def instr : Instr → Frame Value Store → Result Value Store Trap
  | .nop, frame => .falls frame
  | .drop, frame =>
      match frame.stack with
      | _ :: rest => .falls { frame with stack := rest }
      | [] => .stuck
  | .select _, frame =>
      match frame.stack with
      | condition :: second :: first :: rest =>
          let chosen := if machine.isTrue condition then first else second
          .falls { frame with stack := chosen :: rest }
      | _ => .stuck
  | .const (.number value), frame =>
      .falls { frame with stack := machine.literal value :: frame.stack }
  | .localGet (.index slot), frame =>
      match frame.locals[slot.toNat]? with
      | some value => .falls { frame with stack := value :: frame.stack }
      | none => .stuck
  | .localSet (.index slot), frame =>
      match frame.stack with
      | value :: rest =>
          .falls { frame with stack := rest, locals := frame.locals.set slot.toNat value }
      | [] => .stuck
  | .localTee (.index slot), frame =>
      match frame.stack with
      | value :: _ => .falls { frame with locals := frame.locals.set slot.toNat value }
      | [] => .stuck
  | .block head body, frame =>
      enter head.params.length frame fun inner below =>
        (instrs body inner).exit head.results.length below
  | .loop head body, frame =>
      enter head.params.length frame fun inner below =>
        (iterate (instrs body) head.params.length fuel inner).exit head.params.length below
  | .ifElse head thenBody elseBody, frame =>
      match frame.stack with
      | condition :: rest =>
          enter head.params.length { frame with stack := rest } fun inner below =>
            (if machine.isTrue condition then instrs thenBody inner
              else instrs elseBody inner).exit head.results.length below
      | [] => .stuck
  | .br target, frame => branchTo target frame
  | .brIf target, frame =>
      match frame.stack with
      | condition :: rest =>
          if machine.isTrue condition then branchTo target { frame with stack := rest }
          else .falls { frame with stack := rest }
      | [] => .stuck
  | .brTable targets otherwise, frame =>
      match frame.stack with
      | position :: rest =>
          branchTo ((targets[machine.caseOf position]?).getD otherwise) { frame with stack := rest }
      | [] => .stuck
  | .leave, frame => .leave frame
  | .unreachable, frame => .trapped machine.unreachable frame.world
  | other, frame =>
      match module.application? other with
      | some application => applyOperation machine application frame
      | none => .stuck

def instrs : List Instr → Frame Value Store → Result Value Store Trap
  | [], frame => .falls frame
  | first :: rest, frame => (instr first frame).andThen (instrs rest)

end

variable {module} in
theorem instr_of_application {other : Instr} {application : Application}
    (applies : module.application? other = some application) (frame : Frame Value Store) :
    instr machine module fuel other frame = applyOperation machine application frame := by
  rw [instr.eq_def]
  split
  case h_16 => rw [applies]
  all_goals cases applies

theorem instr_nop (frame : Frame Value Store) :
    instr machine module fuel .nop frame = .falls frame := by
  rw [instr]

theorem instrs_nil (frame : Frame Value Store) :
    instrs machine module fuel [] frame = .falls frame := by
  rw [instrs]

def code : Code → Frame Value Store → Result Value Store Trap
  | .instr first => instr machine module fuel first
  | .body body => instrs machine module fuel body

end

end Source

namespace Func

variable {Value Store Trap : Type} (machine : Machine Value Store Trap) (module : Module)
  (func : Func)

def startFrame (arguments : List Value) (store : Store) : Source.Frame Value Store :=
  ⟨[], arguments ++ func.locals.map machine.zero, ⟨store, []⟩⟩

/-- Runs the body of a function as far as the fuel goes. -/
def runBody (arguments : List Value) (store : Store) (fuel : Nat) :
    Source.Result Value Store Trap :=
  Source.instrs machine module fuel func.body (func.startFrame machine arguments store)

def resultsOf (stack : List Value) : List Value :=
  (stack.take func.results.length).reverse

def outcome? : Source.Result Value Store Trap → Option (Outcome Value Store Trap)
  | .falls frame | .branch 0 frame | .leave frame =>
      some (.returned (func.resultsOf frame.stack) frame.world)
  | .trapped cause world => some (.trapped cause world)
  | _ => none

def Ends (arguments : List Value) (store : Store) (outcome : Outcome Value Store Trap) : Prop :=
  ∃ fuel, func.outcome? (func.runBody machine module arguments store fuel) = some outcome

/-- However much fuel there is, the function has not ended with it; `worlds` are the
worlds at that point. -/
def Diverges (arguments : List Value) (store : Store) (worlds : Nat → World Value Store) : Prop :=
  ∀ fuel, func.runBody machine module arguments store fuel = .unfinished (worlds fuel)

end Func

end WasmLowering
