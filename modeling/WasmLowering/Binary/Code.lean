import WasmLowering.Binary.Leb128
import WasmLowering.Module

/-! Instructions of the binary format.

Bodies nest, and a body ends at the first byte that is not an instruction but one
of four terminators; the instruction that the body belongs to decides which of
them it accepts. -/

namespace WasmLowering.Binary

inductive Terminator where
  | finish
  | elseArm
  | catchTag
  | catchAll
  deriving DecidableEq, Repr, Inhabited

namespace Terminator

def opcode : Terminator → Opcode
  | finish => .endOp
  | elseArm => .elseOp
  | catchTag => .catchOp
  | catchAll => .catchAll

def ofOpcode? : Opcode → Option Terminator
  | .endOp => some finish
  | .elseOp => some elseArm
  | .catchOp => some catchTag
  | .catchAll => some catchAll
  | _ => none

end Terminator

abbrev Body := List Instr × Terminator

structure CodeContext where
  types : List FuncType
  isConstant : Bool

namespace Decoder

def valueTypeOf (byte : UInt8) : Decoder ValueType :=
  match ValueType.declared? byte with
  | some type => pure type
  | none => throw (.valueType byte)

def valueType : Decoder ValueType := do
  valueTypeOf (← byte)

/-- Reads a list of value types. A length beyond the remaining bytes is refused
before reading any of them. -/
def valueTypes : Decoder (List ValueType) := do
  let count ← u32
  let left ← remaining
  if left < count.toNat then throw (.outOfBounds "types" count.toNat left)
  repeated (fun _ => valueType) count.toNat 0

def referenceType : Decoder ValueType := do
  let type ← valueType
  if type.isReference then return type
  throw (.notReference type)

def declarationOf (types : List FuncType) (position : Index) : Decoder Declaration :=
  match types[position.toNat]? with
  | some type => pure ⟨some (.index position), type.signature⟩
  | none => throw (.outOfBounds "type" position.toNat types.length)

def reference : Decoder Reference := do
  return .index (← u32)

/-- Reads the type of a block: nothing, one result, or an entry of the type
section. The three are told apart by the sign of a 33-bit number. -/
def blockDeclaration (types : List FuncType) : Decoder Declaration := do
  let number ← s33
  if number = -64 then return {}
  else if number < 0 then
    let type ← valueTypeOf (.ofNat (number % 128).toNat)
    return { signature := ⟨[], [type]⟩ }
  else declarationOf types (.ofNat number.toNat)

structure MemoryArgument where
  align : UInt32
  memory : Reference
  offset : UInt64

def memoryArgument : Decoder MemoryArgument := do
  let flags ← u32
  let memory ← if flags &&& 0x40 ≠ 0 then reference else pure (.index 0)
  let exponent := flags &&& ~~~0x40
  if 32 ≤ exponent then throw (.alignment exponent.toNat)
  let offset ← u64
  return ⟨1 <<< exponent, memory, offset⟩

def miscInstr : Decoder Instr := do
  let number ← u32
  let opcode := Opcode.behind Opcode.miscByte number
  match opcode with
  | .i32TruncSatF32S | .i32TruncSatF32U | .i32TruncSatF64S | .i32TruncSatF64U
  | .i64TruncSatF32S | .i64TruncSatF32U | .i64TruncSatF64S | .i64TruncSatF64U =>
      return .convert opcode
  | .memoryInit | .tableInit | .tableCopy =>
      let _ ← u32
      let _ ← u32
      return .other opcode
  | .dataDrop | .elemDrop | .tableGrow | .tableSize | .tableFill =>
      let _ ← u32
      return .other opcode
  | .memoryCopy =>
      let target ← reference
      let source ← reference
      return .memoryCopy target source
  | .memoryFill => return .memoryFill (← reference)
  | _ => throw (.unknownMisc number.toNat)

/-- Reads what follows the byte `0xFD`. Vector instructions are not lowered, so
most of them only keep their opcode. -/
def vectorInstr : Decoder Instr := do
  let number ← u32
  let opcode := Opcode.behind Opcode.vectorByte number
  if number ≤ 11 || number = 92 || number = 93 then
    return .simd opcode (← memoryArgument).offset
  else if 84 ≤ number && number ≤ 91 then
    let argument ← memoryArgument
    return .simdLane opcode argument.offset (← byte)
  else if opcode = .v128Const then return .const (.v128 (← bytes 16))
  else if opcode = .i8x16Shuffle then return .simdShuffle opcode (← bytes 16)
  else if 21 ≤ number && number ≤ 34 then return .simdLane opcode 0 (← byte)
  else if opcode = .v128Bitselect then return .ternary opcode
  else return .simd opcode 0

def atomicInstr : Decoder Instr := do
  let number ← u32
  let opcode := Opcode.behind Opcode.atomicByte number
  if opcode = .atomicFence then
    let _ ← byte
    return .atomic opcode (.index 0) 0
  else
    let argument ← memoryArgument
    return .atomic opcode argument.memory argument.offset

def finished (construct : String) (body : Decoder Body) : Decoder (List Instr) := do
  let (instrs, terminator) ← body
  if terminator = .finish then return instrs
  throw (.wrongEnd construct terminator.opcode)

/-- Reads the handlers of a `try` whose body ended with the terminator. Each of
them takes a byte at least, so the remaining bytes bound their number. -/
def catches (body : Decoder Body) : (fuel : Nat) → Terminator → Decoder (List Catch)
  | 0, _ => throw .endOfData
  | _ + 1, .finish => pure []
  | _ + 1, .elseArm => throw (.wrongEnd "try" .elseOp)
  | fuel + 1, .catchTag => do
      let tag ← reference
      let (instrs, next) ← body
      let others ← catches body fuel next
      return .handler (some tag) instrs :: others
  | fuel + 1, .catchAll => do
      let (instrs, next) ← body
      let others ← catches body fuel next
      return .handler none instrs :: others

def classInstr (opcode : Opcode) (byte : UInt8) : Decoder Instr := do
  match opcode.info.opcodeClass with
  | .load =>
      let argument ← memoryArgument
      return .load opcode argument.memory argument.align argument.offset
  | .store =>
      let argument ← memoryArgument
      return .store opcode argument.memory argument.align argument.offset
  | .compare => return .compare opcode
  | .binary => return .binary opcode
  | .unary => return .unary opcode
  | .convert => return .convert opcode
  | _ => throw (.unknownOpcode byte)

/-- Reads the instruction that starts with `byte`, which is already read. `body`
reads the bodies inside it, and `fuel` bounds the number of handlers. -/
def instr (context : CodeContext) (body : Decoder Body) (fuel : Nat) (byte : UInt8) :
    Decoder Instr := do
  if byte = Opcode.miscByte then miscInstr
  else if byte = Opcode.vectorByte then vectorInstr
  else if byte = Opcode.atomicByte then atomicInstr
  else
    let opcode := Opcode.ofByte byte
    match opcode with
    | .unreachable => return .unreachable
    | .nop => return .nop
    | .block =>
        let declaration ← blockDeclaration context.types
        return .block { declaration } (← finished "block" body)
    | .loop =>
        let declaration ← blockDeclaration context.types
        return .loop { declaration } (← finished "loop" body)
    | .ifOp =>
        let declaration ← blockDeclaration context.types
        let (thenBody, terminator) ← body
        match terminator with
        | .finish => return .ifElse { declaration } thenBody []
        | .elseArm => return .ifElse { declaration } thenBody (← finished "else" body)
        | terminator => throw (.wrongEnd "if" terminator.opcode)
    | .tryOp =>
        let declaration ← blockDeclaration context.types
        let (instrs, terminator) ← body
        return .tryCatch { declaration } instrs (← catches body fuel terminator)
    | .throwOp => return .throwTag (← reference)
    | .rethrow => return .rethrow (← reference)
    | .br => return .br (← reference)
    | .brIf => return .brIf (← reference)
    | .brTable =>
        let count ← u32
        let left ← remaining
        if left < count.toNat then throw (.outOfBounds "br_table" count.toNat left)
        let targets ← repeated (fun _ => reference) count.toNat 0
        return .brTable targets (← reference)
    | .returnOp => return .leave
    | .call => return .call (← reference)
    | .callIndirect =>
        let declaration ← declarationOf context.types (← u32)
        return .callIndirect declaration (← reference)
    | .drop => return .drop
    | .select => return .select none
    | .typedSelect =>
        let types ← valueTypes
        if types.length ≠ 1 then throw (.selectTypes types.length)
        return .select (some types)
    | .localGet => return .localGet (← reference)
    | .localSet => return .localSet (← reference)
    | .localTee => return .localTee (← reference)
    | .globalGet => return .globalGet (← reference)
    | .globalSet => return .globalSet (← reference)
    | .tableGet | .tableSet =>
        let _ ← reference
        return .other opcode
    | .memorySize => return .memorySize (← reference)
    | .memoryGrow => return .memoryGrow (← reference)
    | .i32Const => return .const (.number (.i32 (.ofInt (← s32))))
    | .i64Const => return .const (.number (.i64 (.ofInt (← s64))))
    | .f32Const => return .const (.number (.f32 (← word32)))
    | .f64Const => return .const (.number (.f64 (← word64)))
    | .refNull =>
        let _ ← referenceType
        return .other opcode
    | .refIsNull => return .other opcode
    | .refFunc =>
        let callee ← u32
        return if context.isConstant then .refFunc callee else .other opcode
    | _ => classInstr opcode byte

def isConstantOpcode : Opcode → Bool
  | .i32Const | .i64Const | .f32Const | .f64Const | .v128Const
  | .globalGet | .refFunc | .refNull => true
  | _ => false

/-- Reads instructions up to a terminator. Each level of the recursion has read
one byte more, so fuel beyond the number of remaining bytes is never used up. -/
def instrs (context : CodeContext) : (fuel : Nat) → Decoder Body
  | 0 => throw .endOfData
  | fuel + 1 => do
      let first ← byte
      match Terminator.ofOpcode? (.ofByte first) with
      | some terminator => return ([], terminator)
      | none =>
          if Opcode.ofByte first = .delegate then throw .delegate
          let head ← locateBy (fun reader => .instruction reader.position)
            (instr context (instrs context fuel) fuel first)
          if context.isConstant && !isConstantOpcode head.opcode then
            throw (.notConstant head.opcode)
          let (others, terminator) ← instrs context fuel
          return (head :: others, terminator)

def code (context : CodeContext) : Decoder Body := do
  instrs context ((← remaining) + 1)

def constantCode (types : List FuncType) : Decoder (List Instr) := do
  let (instrs, terminator) ← code ⟨types, true⟩
  if terminator = .finish then return instrs
  throw (.constantEnd terminator.opcode)

end Decoder

end WasmLowering.Binary
