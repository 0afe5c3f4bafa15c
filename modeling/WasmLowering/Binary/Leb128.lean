import WasmLowering.Binary.Reader

/-! LEB128 integers: seven bits a byte, least significant first, the top bit set
on every byte but the last. The signed form sign-extends the last group.

A reader for `bits` bits takes at most as many groups as hold that many bits and
refuses values that do not fit; padding within that length is allowed. Writers
give the shortest form. -/

namespace WasmLowering.Binary

namespace Leb128

def group (byte : UInt8) : Nat := byte.toNat % 128

def continues (byte : UInt8) : Bool := 128 ≤ byte.toNat

def unsignedFrom (bits shift value position : Nat) :
    List UInt8 → EStateM.Result DecodeError Reader Nat
  | [] => .error .endOfData ⟨position, []⟩
  | byte :: rest =>
      let after : Reader := ⟨position + 1, rest⟩
      if bits < shift + 7 && byte.toNat >>> (bits - shift) ≠ 0 then
        .error (.overflow after.position) after
      else
        let value := value + group byte * Nat.pow 2 shift
        if continues byte then unsignedFrom bits (shift + 7) value (position + 1) rest
        else .ok value after

def groups (bits : Nat) : Nat := (bits + 6) / 7

def fitsSigned (bits : Nat) (value : Int) : Bool :=
  -(Nat.pow 2 (bits - 1) : Int) ≤ value && value < (Nat.pow 2 (bits - 1) : Int)

def signedFrom (bits count value position : Nat) :
    List UInt8 → EStateM.Result DecodeError Reader Int
  | [] => .error .endOfData ⟨position, []⟩
  | byte :: rest =>
      let after : Reader := ⟨position + 1, rest⟩
      let value := value + group byte * Nat.pow 2 (7 * count)
      if continues byte then
        if groups bits ≤ count + 1 then .error (.overflow after.position) after
        else signedFrom bits (count + 1) value (position + 1) rest
      else
        let extended : Int :=
          if 64 ≤ byte.toNat then value - Nat.pow 2 (7 * (count + 1)) else value
        if fitsSigned bits extended then .ok extended after
        else .error (.overflow after.position) after

end Leb128

namespace Decoder

def unsigned (bits : Nat) : Decoder Nat := fun reader =>
  Leb128.unsignedFrom bits 0 0 reader.position reader.rest

def signed (bits : Nat) : Decoder Int := fun reader =>
  Leb128.signedFrom bits 0 0 reader.position reader.rest

def u32 : Decoder UInt32 := do return .ofNat (← unsigned 32)
def u64 : Decoder UInt64 := do return .ofNat (← unsigned 64)
def s32 : Decoder Int := signed 32
def s33 : Decoder Int := signed 33
def s64 : Decoder Int := signed 64

def name : Decoder String := do
  let size ← u32
  let content ← bytes size.toNat
  match String.fromUTF8? content.toByteArray with
  | some text => return text
  | none => throw (.invalidName (← get).position)

end Decoder

/-! Writers. -/

namespace Leb128

/-- The shortest unsigned form of a number, in at most `fuel` bytes and one more. -/
def writeUnsigned : (fuel : Nat) → Nat → List UInt8
  | 0, value => [.ofNat (value % 128)]
  | fuel + 1, value =>
      if value < 128 then [.ofNat value]
      else .ofNat (value % 128 + 128) :: writeUnsigned fuel (value / 128)

def writeSigned : (fuel : Nat) → Int → List UInt8
  | 0, value => [.ofNat (value % 128).toNat]
  | fuel + 1, value =>
      if -64 ≤ value && value < 64 then [.ofNat (value % 128).toNat]
      else .ofNat ((value % 128).toNat + 128) :: writeSigned fuel (value / 128)

end Leb128

def encodeU32 (value : UInt32) : List UInt8 :=
  Leb128.writeUnsigned 4 value.toNat

def encodeS64 (value : Int64) : List UInt8 :=
  Leb128.writeSigned 9 value.toInt

example : encodeU32 16384 = [0x80, 0x80, 0x01] := by decide
example : encodeS64 (-65) = [0xBF, 0x7F] := by decide

end WasmLowering.Binary
