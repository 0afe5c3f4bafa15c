import Mathlib.Logic.Function.Basic
import WasmLowering.C.Statement
import WasmLowering.Proofs.Semantics.Machine

/-! The meaning of C statements: a machine with variables and jumps.

A position in a body is what is left to do: the rest of the innermost list of
statements, and behind it the rests of the lists around it. A jump goes to the
position behind its label, wherever in the body the label is. -/

namespace WasmLowering.C

/-! ## What statements ask for -/

def External.position? (module : Module) (external : External) : Option Index :=
  (EntityKind.ofExtern? external.kind).bind fun kind =>
    module.entityIndex? kind (.name external.name)

structure Effect where
  operation : Operation
  arguments : List Slot
  target : Option Slot
  deriving DecidableEq, Repr

def resultsFor (target : Option Slot) : Nat := if target.isSome then 1 else 0

/-- The operation that a statement applies, if it applies one. Entities are found by
their names in the module. -/
def Stmt.effect? (module : Module) : Stmt → Option Effect
  | .assign target (.unary opcode operand) => some ⟨.numeric opcode, [operand], target⟩
  | .assign target (.binary opcode left right) => some ⟨.numeric opcode, [left, right], target⟩
  | .assign target (.global global) =>
      (global.position? module).map fun position => ⟨.globalGet position, [], target⟩
  | .assign target (.load opcode memory address offset) =>
      (memory.position? module).map fun position =>
        ⟨.load opcode position offset, [address], target⟩
  | .assign target (.size memory) =>
      (memory.position? module).map fun position => ⟨.memorySize position, [], target⟩
  | .assign target (.grow memory pages) =>
      (memory.position? module).map fun position => ⟨.memoryGrow position, [pages], target⟩
  | .setGlobal global value =>
      (global.position? module).map fun position => ⟨.globalSet position, [value], none⟩
  | .store opcode memory address offset value =>
      (memory.position? module).map fun position =>
        ⟨.store opcode position offset, [address, value], none⟩
  | .fill memory start value count =>
      (memory.position? module).map fun position =>
        ⟨.memoryFill position, [start, value, count], none⟩
  | .copy target source start origin count =>
      (target.position? module).bind fun left => (source.position? module).map fun right =>
        ⟨.memoryCopy left right, [start, origin, count], none⟩
  | .call target callee arguments =>
      (callee.position? module).map fun position =>
        ⟨.call position (resultsFor target), arguments, target⟩
  | .callIndirect target table _ typeIndex position arguments =>
      (table.position? module).map fun tablePosition =>
        ⟨.callIndirect tablePosition typeIndex (resultsFor target), arguments ++ [position], target⟩
  | _ => none

/-! ## Labels -/

mutual

def Stmt.labels : Stmt → List Nat
  | .label label => [label.number]
  | .ifThen _ body => labelsOf body
  | .ifThenElse _ thenBody elseBody => labelsOf thenBody ++ labelsOf elseBody
  | _ => []

def labelsOf : List Stmt → List Nat
  | [] => []
  | stmt :: rest => stmt.labels ++ labelsOf rest

end

abbrev Position := List (List Stmt)

mutual

/-- The position behind a label in a statement, if the label is in it. -/
def Stmt.seek (number : Nat) : Stmt → Option Position
  | .label label => if label.number = number then some [] else none
  | .ifThen _ body => seekIn number body
  | .ifThenElse _ thenBody elseBody =>
      match seekIn number thenBody with
      | some position => some position
      | none => seekIn number elseBody
  | _ => none

def seekIn (number : Nat) : List Stmt → Option Position
  | [] => none
  | stmt :: rest =>
      match stmt.seek number with
      | some position => some (position ++ [rest])
      | none => seekIn number rest

end

/-! ## Running -/

variable {Value Store Trap : Type}

/-- What is left to do, the values of slots and of named parameters and locals, and
the world. -/
structure Config (Value Store : Type) where
  position : Position
  slots : Slot → Value
  places : String → Value
  world : World Value Store

inductive Progress (Value Store Trap : Type) where
  | going (config : Config Value Store)
  | hanging (world : World Value Store)
  | ended (outcome : Outcome Value Store Trap)
  | stuck

def Progress.pending? : Progress Value Store Trap → Option (World Value Store)
  | .going config => some config.world
  | .hanging world => some world
  | _ => none

def copySlots (slots : Slot → Value) (copies : List (Slot × Slot)) : Slot → Value :=
  copies.foldl (fun slots (target, source) => Function.update slots target (slots source)) slots

def storeResult (slots : Slot → Value) : Option Slot → List Value → Slot → Value
  | some target, value :: _ => Function.update slots target value
  | _, _ => slots

namespace Function

section

variable (machine : Machine Value Store Trap) (module : Module) (function : Function)

def jumpFrom (config : Config Value Store) (jump : Jump) : Progress Value Store Trap :=
  match seekIn jump.target.number function.body with
  | some position => .going { config with position, slots := copySlots config.slots jump.copies }
  | none => .stuck

def perform (config : Config Value Store) (effect : Effect) (next : Position) :
    Progress Value Store Trap :=
  let arguments := effect.arguments.map config.slots
  let world := config.world.after effect.operation arguments
  match machine.perform effect.operation arguments config.world.store with
  | .done results store =>
      .going { config with
        position := next
        slots := storeResult config.slots effect.target results
        world := world store }
  | .trap cause store => .ended (.trapped cause (world store))
  | .hang => .hanging (world config.world.store)

def runStmt (config : Config Value Store) (next : Position) : Stmt → Progress Value Store Trap
  | .assign target (.literal value) =>
      .going { config with
        position := next, slots := Function.update config.slots target (machine.literal value) }
  | .assign target (.named name) =>
      .going { config with
        position := next, slots := Function.update config.slots target (config.places name) }
  | .assign target (.select condition first second) =>
      let chosen := if machine.isTrue (config.slots condition) then first else second
      .going { config with
        position := next, slots := Function.update config.slots target (config.slots chosen) }
  | .setNamed name value =>
      .going { config with
        position := next, places := Function.update config.places name (config.slots value) }
  | .trap => .ended (.trapped machine.unreachable config.world)
  | .jump jump => function.jumpFrom config jump
  | .jumpIf condition jump =>
      if machine.isTrue (config.slots condition) then function.jumpFrom config jump
      else .going { config with position := next }
  | .switch position cases otherwise =>
      function.jumpFrom config ((cases[machine.caseOf (config.slots position)]?).getD otherwise)
  | .label _ => .going { config with position := next }
  | .ifThen condition body =>
      .going { config with
        position := if machine.isTrue (config.slots condition) then body :: next else next }
  | .ifThenElse condition thenBody elseBody =>
      let chosen := if machine.isTrue (config.slots condition) then thenBody else elseBody
      .going { config with position := chosen :: next }
  | stmt =>
      match stmt.effect? module with
      | some effect => perform machine config effect next
      | none => .stuck

def step (config : Config Value Store) : Progress Value Store Trap :=
  match config.position with
  | [] => .ended (.returned (function.returned.toList.map config.slots) config.world)
  | [] :: outer => .going { config with position := outer }
  | (stmt :: rest) :: outer => function.runStmt machine module config (rest :: outer) stmt

def advance : Progress Value Store Trap → Progress Value Store Trap
  | .going config => function.step machine module config
  | progress => progress

def run : (count : Nat) → Progress Value Store Trap → Progress Value Store Trap
  | 0, progress => progress
  | count + 1, progress => run count (function.advance machine module progress)

/-- Where a function starts: parameters hold the arguments, declared locals are
zero, and nothing is known of slots and of names that are not declared. -/
def start (arguments : List Value) (store : Store) (slots : Slot → Value)
    (places : String → Value) : Config Value Store where
  position := [function.body]
  slots := slots
  places :=
    ((function.params.map (·.2)).zip arguments ++
      function.locals.map fun entry => (entry.2, machine.zero entry.1.toValueType)).foldl
      (fun places (name, value) => Function.update places name value) places
  world := ⟨store, []⟩

end

end Function

end WasmLowering.C
