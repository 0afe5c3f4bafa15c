import WasmLowering.Proofs.Typing.InstrTypes

/-! What both sides of the lowering are interpreted with.

A machine gives a meaning to constants and operations without saying which. Code
before and after the lowering is run with the same machine, so that the two can
only differ in which operations they ask for, when, and with which values. -/

namespace WasmLowering

/-- What an operation answers: results and a new store, a trap, or nothing at all,
as a call that never returns. -/
inductive Response (Value Store Trap : Type) where
  | done (results : List Value) (store : Store)
  | trap (cause : Trap) (store : Store)
  | hang

/-- A meaning of constants and operations. -/
structure Machine (Value Store Trap : Type) where
  literal : Number → Value
  /-- What locals hold at first. -/
  zero : ValueType → Value
  isTrue : Value → Bool
  /-- The case of a table that a value selects. -/
  caseOf : Value → Nat
  /-- The trap of code that must not be reached. -/
  unreachable : Trap
  perform : Operation → List Value → Store → Response Value Store Trap
  /-- Operations give as many results as they should. -/
  counted : ∀ operation arguments before results after,
    perform operation arguments before = .done results after →
      results.length = operation.resultCount

/-- What can be observed: the store, and the operations so far with their
arguments, the newest first. -/
structure World (Value Store : Type) where
  store : Store
  history : List (Operation × List Value)

def World.after {Value Store : Type} (world : World Value Store) (operation : Operation)
    (arguments : List Value) (store : Store) : World Value Store :=
  ⟨store, (operation, arguments) :: world.history⟩

inductive Outcome (Value Store Trap : Type) where
  | returned (results : List Value) (world : World Value Store)
  | trapped (cause : Trap) (world : World Value Store)

end WasmLowering
