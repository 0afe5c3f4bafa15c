import WasmLowering.Binary.DecodeError

/-! Reading bytes. A reader knows the position of its next byte in the outermost
input and the bytes that are left to it. Reading that fails still leaves a
reader behind, so that errors can tell how far it came. -/

namespace WasmLowering.Binary

structure Reader where
  position : Nat
  rest : List UInt8
  deriving DecidableEq, Repr, Inhabited

namespace Reader

def ofBytes (bytes : List UInt8) : Reader := ⟨0, bytes⟩

def remaining (reader : Reader) : Nat := reader.rest.length

def atEnd (reader : Reader) : Bool := reader.rest.isEmpty

def skip (reader : Reader) (count : Nat) : Reader :=
  ⟨reader.position + count, reader.rest.drop count⟩

def window (reader : Reader) (count : Nat) : Reader :=
  ⟨reader.position, reader.rest.take count⟩

end Reader

/-- A reading step: a value or an error, and in both cases where it stopped. -/
abbrev Decoder := EStateM DecodeError Reader

namespace Decoder

def remaining : Decoder Nat := do return (← get).remaining

def atEnd : Decoder Bool := do return (← get).atEnd

def byte : Decoder UInt8 := fun reader =>
  match reader.rest with
  | [] => .error .endOfData reader
  | byte :: rest => .ok byte ⟨reader.position + 1, rest⟩

/-- Reads `count` bytes, or none at all if there are fewer. -/
def bytes (count : Nat) : Decoder (List UInt8) := fun reader =>
  if count ≤ reader.remaining then .ok (reader.rest.take count) (reader.skip count)
  else .error .endOfData reader

def sub (count : Nat) : Decoder Reader := fun reader =>
  if count ≤ reader.remaining then .ok (reader.window count) (reader.skip count)
  else .error .endOfData reader

def locate {α : Type} (place : Place) (decoder : Decoder α) : Decoder α := fun reader =>
  match decoder reader with
  | .ok value after => .ok value after
  | .error error after => .error (.within place error) after

def locateBy {α : Type} (place : Reader → Place) (decoder : Decoder α) : Decoder α :=
  fun reader =>
    match decoder reader with
    | .ok value after => .ok value after
    | .error error after => .error (.within (place after) error) after

def inside {α : Type} (inner : Reader) (decoder : Decoder α) : Decoder (α × Reader) :=
  fun reader =>
    match decoder inner with
    | .ok value after => .ok (value, after) reader
    | .error error _ => .error error reader

def repeated {α : Type} (step : Nat → Decoder α) : (count : Nat) → (number : Nat) → Decoder (List α)
  | 0, _ => pure []
  | count + 1, number => do
      let value ← step number
      let others ← repeated step count (number + 1)
      return value :: others

def repeatedFrom {α : Type} (step : Nat → α → Decoder α) :
    (count : Nat) → (number : Nat) → α → Decoder α
  | 0, _, state => pure state
  | count + 1, number, state => do
      repeatedFrom step count (number + 1) (← step number state)

/-! Little-endian words of fixed width. -/

def littleEndian : List UInt8 → Nat
  | [] => 0
  | byte :: rest => byte.toNat + 256 * littleEndian rest

def word32 : Decoder UInt32 := do
  return .ofNat (littleEndian (← bytes 4))

def word64 : Decoder UInt64 := do
  return .ofNat (littleEndian (← bytes 8))

end Decoder

end WasmLowering.Binary
