import WasmLowering.ValueType

/-! Opcodes: their numbers, and a table of their names, classes and operand
types.

A one-byte opcode is its byte. An opcode behind one of the bytes `0xFC`, `0xFD`
and `0xFE` puts that byte above the low sixteen bits of the number that follows
it. -/

namespace WasmLowering

structure Opcode where
  code : UInt32
  deriving DecidableEq, Repr, Inhabited

namespace Opcode

def miscByte : UInt8 := 0xFC

def vectorByte : UInt8 := 0xFD

def atomicByte : UInt8 := 0xFE

def ofByte (byte : UInt8) : Opcode := ⟨byte.toUInt32⟩

def behind (lead : UInt8) (number : UInt32) : Opcode :=
  ⟨lead.toUInt32 <<< 16 ||| (number &&& 0xFFFF)⟩

def lead (opcode : Opcode) : UInt8 := (opcode.code >>> 16).toUInt8

def number (opcode : Opcode) : UInt32 := opcode.code &&& 0xFFFF

/-! The opcodes that have a name. -/

@[match_pattern] def unreachable : Opcode := ⟨0x00⟩
@[match_pattern] def nop : Opcode := ⟨0x01⟩
@[match_pattern] def block : Opcode := ⟨0x02⟩
@[match_pattern] def loop : Opcode := ⟨0x03⟩
@[match_pattern] def ifOp : Opcode := ⟨0x04⟩
@[match_pattern] def elseOp : Opcode := ⟨0x05⟩
@[match_pattern] def tryOp : Opcode := ⟨0x06⟩
@[match_pattern] def catchOp : Opcode := ⟨0x07⟩
@[match_pattern] def throwOp : Opcode := ⟨0x08⟩
@[match_pattern] def rethrow : Opcode := ⟨0x09⟩
@[match_pattern] def endOp : Opcode := ⟨0x0B⟩
@[match_pattern] def br : Opcode := ⟨0x0C⟩
@[match_pattern] def brIf : Opcode := ⟨0x0D⟩
@[match_pattern] def brTable : Opcode := ⟨0x0E⟩
@[match_pattern] def returnOp : Opcode := ⟨0x0F⟩
@[match_pattern] def call : Opcode := ⟨0x10⟩
@[match_pattern] def callIndirect : Opcode := ⟨0x11⟩
@[match_pattern] def delegate : Opcode := ⟨0x18⟩
@[match_pattern] def catchAll : Opcode := ⟨0x19⟩
@[match_pattern] def drop : Opcode := ⟨0x1A⟩
@[match_pattern] def select : Opcode := ⟨0x1B⟩
@[match_pattern] def typedSelect : Opcode := ⟨0x1C⟩
@[match_pattern] def localGet : Opcode := ⟨0x20⟩
@[match_pattern] def localSet : Opcode := ⟨0x21⟩
@[match_pattern] def localTee : Opcode := ⟨0x22⟩
@[match_pattern] def globalGet : Opcode := ⟨0x23⟩
@[match_pattern] def globalSet : Opcode := ⟨0x24⟩
@[match_pattern] def tableGet : Opcode := ⟨0x25⟩
@[match_pattern] def tableSet : Opcode := ⟨0x26⟩
@[match_pattern] def i32Load : Opcode := ⟨0x28⟩
@[match_pattern] def i64Load : Opcode := ⟨0x29⟩
@[match_pattern] def f32Load : Opcode := ⟨0x2A⟩
@[match_pattern] def f64Load : Opcode := ⟨0x2B⟩
@[match_pattern] def i32Load8S : Opcode := ⟨0x2C⟩
@[match_pattern] def i32Load8U : Opcode := ⟨0x2D⟩
@[match_pattern] def i32Load16S : Opcode := ⟨0x2E⟩
@[match_pattern] def i32Load16U : Opcode := ⟨0x2F⟩
@[match_pattern] def i64Load8S : Opcode := ⟨0x30⟩
@[match_pattern] def i64Load8U : Opcode := ⟨0x31⟩
@[match_pattern] def i64Load16S : Opcode := ⟨0x32⟩
@[match_pattern] def i64Load16U : Opcode := ⟨0x33⟩
@[match_pattern] def i64Load32S : Opcode := ⟨0x34⟩
@[match_pattern] def i64Load32U : Opcode := ⟨0x35⟩
@[match_pattern] def i32Store : Opcode := ⟨0x36⟩
@[match_pattern] def i64Store : Opcode := ⟨0x37⟩
@[match_pattern] def f32Store : Opcode := ⟨0x38⟩
@[match_pattern] def f64Store : Opcode := ⟨0x39⟩
@[match_pattern] def i32Store8 : Opcode := ⟨0x3A⟩
@[match_pattern] def i32Store16 : Opcode := ⟨0x3B⟩
@[match_pattern] def i64Store8 : Opcode := ⟨0x3C⟩
@[match_pattern] def i64Store16 : Opcode := ⟨0x3D⟩
@[match_pattern] def i64Store32 : Opcode := ⟨0x3E⟩
@[match_pattern] def memorySize : Opcode := ⟨0x3F⟩
@[match_pattern] def memoryGrow : Opcode := ⟨0x40⟩
@[match_pattern] def i32Const : Opcode := ⟨0x41⟩
@[match_pattern] def i64Const : Opcode := ⟨0x42⟩
@[match_pattern] def f32Const : Opcode := ⟨0x43⟩
@[match_pattern] def f64Const : Opcode := ⟨0x44⟩
@[match_pattern] def i32Eqz : Opcode := ⟨0x45⟩
@[match_pattern] def i32Eq : Opcode := ⟨0x46⟩
@[match_pattern] def i32Ne : Opcode := ⟨0x47⟩
@[match_pattern] def i32LtS : Opcode := ⟨0x48⟩
@[match_pattern] def i32LtU : Opcode := ⟨0x49⟩
@[match_pattern] def i32GtS : Opcode := ⟨0x4A⟩
@[match_pattern] def i32GtU : Opcode := ⟨0x4B⟩
@[match_pattern] def i32LeS : Opcode := ⟨0x4C⟩
@[match_pattern] def i32LeU : Opcode := ⟨0x4D⟩
@[match_pattern] def i32GeS : Opcode := ⟨0x4E⟩
@[match_pattern] def i32GeU : Opcode := ⟨0x4F⟩
@[match_pattern] def i64Eqz : Opcode := ⟨0x50⟩
@[match_pattern] def i64Eq : Opcode := ⟨0x51⟩
@[match_pattern] def i64Ne : Opcode := ⟨0x52⟩
@[match_pattern] def i64LtS : Opcode := ⟨0x53⟩
@[match_pattern] def i64LtU : Opcode := ⟨0x54⟩
@[match_pattern] def i64GtS : Opcode := ⟨0x55⟩
@[match_pattern] def i64GtU : Opcode := ⟨0x56⟩
@[match_pattern] def i64LeS : Opcode := ⟨0x57⟩
@[match_pattern] def i64LeU : Opcode := ⟨0x58⟩
@[match_pattern] def i64GeS : Opcode := ⟨0x59⟩
@[match_pattern] def i64GeU : Opcode := ⟨0x5A⟩
@[match_pattern] def f32Eq : Opcode := ⟨0x5B⟩
@[match_pattern] def f32Ne : Opcode := ⟨0x5C⟩
@[match_pattern] def f32Lt : Opcode := ⟨0x5D⟩
@[match_pattern] def f32Gt : Opcode := ⟨0x5E⟩
@[match_pattern] def f32Le : Opcode := ⟨0x5F⟩
@[match_pattern] def f32Ge : Opcode := ⟨0x60⟩
@[match_pattern] def f64Eq : Opcode := ⟨0x61⟩
@[match_pattern] def f64Ne : Opcode := ⟨0x62⟩
@[match_pattern] def f64Lt : Opcode := ⟨0x63⟩
@[match_pattern] def f64Gt : Opcode := ⟨0x64⟩
@[match_pattern] def f64Le : Opcode := ⟨0x65⟩
@[match_pattern] def f64Ge : Opcode := ⟨0x66⟩
@[match_pattern] def i32Clz : Opcode := ⟨0x67⟩
@[match_pattern] def i32Ctz : Opcode := ⟨0x68⟩
@[match_pattern] def i32Popcnt : Opcode := ⟨0x69⟩
@[match_pattern] def i32Add : Opcode := ⟨0x6A⟩
@[match_pattern] def i32Sub : Opcode := ⟨0x6B⟩
@[match_pattern] def i32Mul : Opcode := ⟨0x6C⟩
@[match_pattern] def i32DivS : Opcode := ⟨0x6D⟩
@[match_pattern] def i32DivU : Opcode := ⟨0x6E⟩
@[match_pattern] def i32RemS : Opcode := ⟨0x6F⟩
@[match_pattern] def i32RemU : Opcode := ⟨0x70⟩
@[match_pattern] def i32And : Opcode := ⟨0x71⟩
@[match_pattern] def i32Or : Opcode := ⟨0x72⟩
@[match_pattern] def i32Xor : Opcode := ⟨0x73⟩
@[match_pattern] def i32Shl : Opcode := ⟨0x74⟩
@[match_pattern] def i32ShrS : Opcode := ⟨0x75⟩
@[match_pattern] def i32ShrU : Opcode := ⟨0x76⟩
@[match_pattern] def i32Rotl : Opcode := ⟨0x77⟩
@[match_pattern] def i32Rotr : Opcode := ⟨0x78⟩
@[match_pattern] def i64Clz : Opcode := ⟨0x79⟩
@[match_pattern] def i64Ctz : Opcode := ⟨0x7A⟩
@[match_pattern] def i64Popcnt : Opcode := ⟨0x7B⟩
@[match_pattern] def i64Add : Opcode := ⟨0x7C⟩
@[match_pattern] def i64Sub : Opcode := ⟨0x7D⟩
@[match_pattern] def i64Mul : Opcode := ⟨0x7E⟩
@[match_pattern] def i64DivS : Opcode := ⟨0x7F⟩
@[match_pattern] def i64DivU : Opcode := ⟨0x80⟩
@[match_pattern] def i64RemS : Opcode := ⟨0x81⟩
@[match_pattern] def i64RemU : Opcode := ⟨0x82⟩
@[match_pattern] def i64And : Opcode := ⟨0x83⟩
@[match_pattern] def i64Or : Opcode := ⟨0x84⟩
@[match_pattern] def i64Xor : Opcode := ⟨0x85⟩
@[match_pattern] def i64Shl : Opcode := ⟨0x86⟩
@[match_pattern] def i64ShrS : Opcode := ⟨0x87⟩
@[match_pattern] def i64ShrU : Opcode := ⟨0x88⟩
@[match_pattern] def i64Rotl : Opcode := ⟨0x89⟩
@[match_pattern] def i64Rotr : Opcode := ⟨0x8A⟩
@[match_pattern] def f32Abs : Opcode := ⟨0x8B⟩
@[match_pattern] def f32Neg : Opcode := ⟨0x8C⟩
@[match_pattern] def f32Ceil : Opcode := ⟨0x8D⟩
@[match_pattern] def f32Floor : Opcode := ⟨0x8E⟩
@[match_pattern] def f32Trunc : Opcode := ⟨0x8F⟩
@[match_pattern] def f32Nearest : Opcode := ⟨0x90⟩
@[match_pattern] def f32Sqrt : Opcode := ⟨0x91⟩
@[match_pattern] def f32Add : Opcode := ⟨0x92⟩
@[match_pattern] def f32Sub : Opcode := ⟨0x93⟩
@[match_pattern] def f32Mul : Opcode := ⟨0x94⟩
@[match_pattern] def f32Div : Opcode := ⟨0x95⟩
@[match_pattern] def f32Min : Opcode := ⟨0x96⟩
@[match_pattern] def f32Max : Opcode := ⟨0x97⟩
@[match_pattern] def f32Copysign : Opcode := ⟨0x98⟩
@[match_pattern] def f64Abs : Opcode := ⟨0x99⟩
@[match_pattern] def f64Neg : Opcode := ⟨0x9A⟩
@[match_pattern] def f64Ceil : Opcode := ⟨0x9B⟩
@[match_pattern] def f64Floor : Opcode := ⟨0x9C⟩
@[match_pattern] def f64Trunc : Opcode := ⟨0x9D⟩
@[match_pattern] def f64Nearest : Opcode := ⟨0x9E⟩
@[match_pattern] def f64Sqrt : Opcode := ⟨0x9F⟩
@[match_pattern] def f64Add : Opcode := ⟨0xA0⟩
@[match_pattern] def f64Sub : Opcode := ⟨0xA1⟩
@[match_pattern] def f64Mul : Opcode := ⟨0xA2⟩
@[match_pattern] def f64Div : Opcode := ⟨0xA3⟩
@[match_pattern] def f64Min : Opcode := ⟨0xA4⟩
@[match_pattern] def f64Max : Opcode := ⟨0xA5⟩
@[match_pattern] def f64Copysign : Opcode := ⟨0xA6⟩
@[match_pattern] def i32WrapI64 : Opcode := ⟨0xA7⟩
@[match_pattern] def i32TruncF32S : Opcode := ⟨0xA8⟩
@[match_pattern] def i32TruncF32U : Opcode := ⟨0xA9⟩
@[match_pattern] def i32TruncF64S : Opcode := ⟨0xAA⟩
@[match_pattern] def i32TruncF64U : Opcode := ⟨0xAB⟩
@[match_pattern] def i64ExtendI32S : Opcode := ⟨0xAC⟩
@[match_pattern] def i64ExtendI32U : Opcode := ⟨0xAD⟩
@[match_pattern] def i64TruncF32S : Opcode := ⟨0xAE⟩
@[match_pattern] def i64TruncF32U : Opcode := ⟨0xAF⟩
@[match_pattern] def i64TruncF64S : Opcode := ⟨0xB0⟩
@[match_pattern] def i64TruncF64U : Opcode := ⟨0xB1⟩
@[match_pattern] def f32ConvertI32S : Opcode := ⟨0xB2⟩
@[match_pattern] def f32ConvertI32U : Opcode := ⟨0xB3⟩
@[match_pattern] def f32ConvertI64S : Opcode := ⟨0xB4⟩
@[match_pattern] def f32ConvertI64U : Opcode := ⟨0xB5⟩
@[match_pattern] def f32DemoteF64 : Opcode := ⟨0xB6⟩
@[match_pattern] def f64ConvertI32S : Opcode := ⟨0xB7⟩
@[match_pattern] def f64ConvertI32U : Opcode := ⟨0xB8⟩
@[match_pattern] def f64ConvertI64S : Opcode := ⟨0xB9⟩
@[match_pattern] def f64ConvertI64U : Opcode := ⟨0xBA⟩
@[match_pattern] def f64PromoteF32 : Opcode := ⟨0xBB⟩
@[match_pattern] def i32ReinterpretF32 : Opcode := ⟨0xBC⟩
@[match_pattern] def i64ReinterpretF64 : Opcode := ⟨0xBD⟩
@[match_pattern] def f32ReinterpretI32 : Opcode := ⟨0xBE⟩
@[match_pattern] def f64ReinterpretI64 : Opcode := ⟨0xBF⟩
@[match_pattern] def i32Extend8S : Opcode := ⟨0xC0⟩
@[match_pattern] def i32Extend16S : Opcode := ⟨0xC1⟩
@[match_pattern] def i64Extend8S : Opcode := ⟨0xC2⟩
@[match_pattern] def i64Extend16S : Opcode := ⟨0xC3⟩
@[match_pattern] def i64Extend32S : Opcode := ⟨0xC4⟩
@[match_pattern] def refNull : Opcode := ⟨0xD0⟩
@[match_pattern] def refIsNull : Opcode := ⟨0xD1⟩
@[match_pattern] def refFunc : Opcode := ⟨0xD2⟩
@[match_pattern] def i32TruncSatF32S : Opcode := ⟨0xFC0000⟩
@[match_pattern] def i32TruncSatF32U : Opcode := ⟨0xFC0001⟩
@[match_pattern] def i32TruncSatF64S : Opcode := ⟨0xFC0002⟩
@[match_pattern] def i32TruncSatF64U : Opcode := ⟨0xFC0003⟩
@[match_pattern] def i64TruncSatF32S : Opcode := ⟨0xFC0004⟩
@[match_pattern] def i64TruncSatF32U : Opcode := ⟨0xFC0005⟩
@[match_pattern] def i64TruncSatF64S : Opcode := ⟨0xFC0006⟩
@[match_pattern] def i64TruncSatF64U : Opcode := ⟨0xFC0007⟩
@[match_pattern] def memoryInit : Opcode := ⟨0xFC0008⟩
@[match_pattern] def dataDrop : Opcode := ⟨0xFC0009⟩
@[match_pattern] def memoryCopy : Opcode := ⟨0xFC000A⟩
@[match_pattern] def memoryFill : Opcode := ⟨0xFC000B⟩
@[match_pattern] def tableInit : Opcode := ⟨0xFC000C⟩
@[match_pattern] def elemDrop : Opcode := ⟨0xFC000D⟩
@[match_pattern] def tableCopy : Opcode := ⟨0xFC000E⟩
@[match_pattern] def tableGrow : Opcode := ⟨0xFC000F⟩
@[match_pattern] def tableSize : Opcode := ⟨0xFC0010⟩
@[match_pattern] def tableFill : Opcode := ⟨0xFC0011⟩
@[match_pattern] def v128Const : Opcode := ⟨0xFD000C⟩
@[match_pattern] def i8x16Shuffle : Opcode := ⟨0xFD000D⟩
@[match_pattern] def i8x16ExtractLaneS : Opcode := ⟨0xFD0015⟩
@[match_pattern] def i8x16ExtractLaneU : Opcode := ⟨0xFD0016⟩
@[match_pattern] def i8x16ReplaceLane : Opcode := ⟨0xFD0017⟩
@[match_pattern] def i16x8ExtractLaneS : Opcode := ⟨0xFD0018⟩
@[match_pattern] def i16x8ExtractLaneU : Opcode := ⟨0xFD0019⟩
@[match_pattern] def i16x8ReplaceLane : Opcode := ⟨0xFD001A⟩
@[match_pattern] def i32x4ExtractLane : Opcode := ⟨0xFD001B⟩
@[match_pattern] def i32x4ReplaceLane : Opcode := ⟨0xFD001C⟩
@[match_pattern] def i64x2ExtractLane : Opcode := ⟨0xFD001D⟩
@[match_pattern] def i64x2ReplaceLane : Opcode := ⟨0xFD001E⟩
@[match_pattern] def f32x4ExtractLane : Opcode := ⟨0xFD001F⟩
@[match_pattern] def f32x4ReplaceLane : Opcode := ⟨0xFD0020⟩
@[match_pattern] def f64x2ExtractLane : Opcode := ⟨0xFD0021⟩
@[match_pattern] def f64x2ReplaceLane : Opcode := ⟨0xFD0022⟩
@[match_pattern] def v128Bitselect : Opcode := ⟨0xFD0052⟩
@[match_pattern] def atomicFence : Opcode := ⟨0xFE0003⟩

end Opcode

inductive OpcodeClass where
  | unknown
  | control
  | parametric
  | variable
  | load
  | store
  | memory
  | const
  | compare
  | binary
  | unary
  | convert
  | ternary
  | reference
  | table
  | bulk
  | simd
  | atomic
  | exception
  deriving DecidableEq, Repr, Inhabited

def OpcodeClass.position (opcodeClass : OpcodeClass) : Nat := opcodeClass.ctorIdx

structure OpcodeInfo where
  name : String
  opcodeClass : OpcodeClass := .unknown
  result : ValueType := .any
  first : ValueType := .any
  second : ValueType := .any
  width : Nat := 0
  deriving DecidableEq, Repr, Inhabited

namespace Opcode

def table : List (Opcode × OpcodeInfo) :=
  [(unreachable, ⟨"unreachable", .control, .any, .any, .any, 0⟩),
    (nop, ⟨"nop", .control, .any, .any, .any, 0⟩),
    (block, ⟨"block", .control, .any, .any, .any, 0⟩),
    (loop, ⟨"loop", .control, .any, .any, .any, 0⟩),
    (ifOp, ⟨"if", .control, .any, .any, .any, 0⟩),
    (elseOp, ⟨"else", .control, .any, .any, .any, 0⟩),
    (tryOp, ⟨"try", .exception, .any, .any, .any, 0⟩),
    (catchOp, ⟨"catch", .exception, .any, .any, .any, 0⟩),
    (throwOp, ⟨"throw", .exception, .any, .any, .any, 0⟩),
    (rethrow, ⟨"rethrow", .exception, .any, .any, .any, 0⟩),
    (endOp, ⟨"end", .control, .any, .any, .any, 0⟩),
    (br, ⟨"br", .control, .any, .any, .any, 0⟩),
    (brIf, ⟨"br_if", .control, .any, .any, .any, 0⟩),
    (brTable, ⟨"br_table", .control, .any, .any, .any, 0⟩),
    (returnOp, ⟨"return", .control, .any, .any, .any, 0⟩),
    (call, ⟨"call", .control, .any, .any, .any, 0⟩),
    (callIndirect, ⟨"call_indirect", .control, .any, .any, .any, 0⟩),
    (delegate, ⟨"delegate", .exception, .any, .any, .any, 0⟩),
    (catchAll, ⟨"catch_all", .exception, .any, .any, .any, 0⟩),
    (drop, ⟨"drop", .parametric, .any, .any, .any, 0⟩),
    (select, ⟨"select", .parametric, .any, .any, .any, 0⟩),
    (typedSelect, ⟨"select", .parametric, .any, .any, .any, 0⟩),
    (localGet, ⟨"local.get", .variable, .any, .any, .any, 0⟩),
    (localSet, ⟨"local.set", .variable, .any, .any, .any, 0⟩),
    (localTee, ⟨"local.tee", .variable, .any, .any, .any, 0⟩),
    (globalGet, ⟨"global.get", .variable, .any, .any, .any, 0⟩),
    (globalSet, ⟨"global.set", .variable, .any, .any, .any, 0⟩),
    (tableGet, ⟨"table.get", .table, .any, .any, .any, 0⟩),
    (tableSet, ⟨"table.set", .table, .any, .any, .any, 0⟩),
    (i32Load, ⟨"i32.load", .load, .i32, .i32, .any, 4⟩),
    (i64Load, ⟨"i64.load", .load, .i64, .i32, .any, 8⟩),
    (f32Load, ⟨"f32.load", .load, .f32, .i32, .any, 4⟩),
    (f64Load, ⟨"f64.load", .load, .f64, .i32, .any, 8⟩),
    (i32Load8S, ⟨"i32.load8_s", .load, .i32, .i32, .any, 1⟩),
    (i32Load8U, ⟨"i32.load8_u", .load, .i32, .i32, .any, 1⟩),
    (i32Load16S, ⟨"i32.load16_s", .load, .i32, .i32, .any, 2⟩),
    (i32Load16U, ⟨"i32.load16_u", .load, .i32, .i32, .any, 2⟩),
    (i64Load8S, ⟨"i64.load8_s", .load, .i64, .i32, .any, 1⟩),
    (i64Load8U, ⟨"i64.load8_u", .load, .i64, .i32, .any, 1⟩),
    (i64Load16S, ⟨"i64.load16_s", .load, .i64, .i32, .any, 2⟩),
    (i64Load16U, ⟨"i64.load16_u", .load, .i64, .i32, .any, 2⟩),
    (i64Load32S, ⟨"i64.load32_s", .load, .i64, .i32, .any, 4⟩),
    (i64Load32U, ⟨"i64.load32_u", .load, .i64, .i32, .any, 4⟩),
    (i32Store, ⟨"i32.store", .store, .any, .i32, .i32, 4⟩),
    (i64Store, ⟨"i64.store", .store, .any, .i32, .i64, 8⟩),
    (f32Store, ⟨"f32.store", .store, .any, .i32, .f32, 4⟩),
    (f64Store, ⟨"f64.store", .store, .any, .i32, .f64, 8⟩),
    (i32Store8, ⟨"i32.store8", .store, .any, .i32, .i32, 1⟩),
    (i32Store16, ⟨"i32.store16", .store, .any, .i32, .i32, 2⟩),
    (i64Store8, ⟨"i64.store8", .store, .any, .i32, .i64, 1⟩),
    (i64Store16, ⟨"i64.store16", .store, .any, .i32, .i64, 2⟩),
    (i64Store32, ⟨"i64.store32", .store, .any, .i32, .i64, 4⟩),
    (memorySize, ⟨"memory.size", .memory, .i32, .any, .any, 0⟩),
    (memoryGrow, ⟨"memory.grow", .memory, .i32, .i32, .any, 0⟩),
    (i32Const, ⟨"i32.const", .const, .i32, .any, .any, 0⟩),
    (i64Const, ⟨"i64.const", .const, .i64, .any, .any, 0⟩),
    (f32Const, ⟨"f32.const", .const, .f32, .any, .any, 0⟩),
    (f64Const, ⟨"f64.const", .const, .f64, .any, .any, 0⟩),
    (i32Eqz, ⟨"i32.eqz", .convert, .i32, .i32, .any, 0⟩),
    (i32Eq, ⟨"i32.eq", .compare, .i32, .i32, .i32, 0⟩),
    (i32Ne, ⟨"i32.ne", .compare, .i32, .i32, .i32, 0⟩),
    (i32LtS, ⟨"i32.lt_s", .compare, .i32, .i32, .i32, 0⟩),
    (i32LtU, ⟨"i32.lt_u", .compare, .i32, .i32, .i32, 0⟩),
    (i32GtS, ⟨"i32.gt_s", .compare, .i32, .i32, .i32, 0⟩),
    (i32GtU, ⟨"i32.gt_u", .compare, .i32, .i32, .i32, 0⟩),
    (i32LeS, ⟨"i32.le_s", .compare, .i32, .i32, .i32, 0⟩),
    (i32LeU, ⟨"i32.le_u", .compare, .i32, .i32, .i32, 0⟩),
    (i32GeS, ⟨"i32.ge_s", .compare, .i32, .i32, .i32, 0⟩),
    (i32GeU, ⟨"i32.ge_u", .compare, .i32, .i32, .i32, 0⟩),
    (i64Eqz, ⟨"i64.eqz", .convert, .i32, .i64, .any, 0⟩),
    (i64Eq, ⟨"i64.eq", .compare, .i32, .i64, .i64, 0⟩),
    (i64Ne, ⟨"i64.ne", .compare, .i32, .i64, .i64, 0⟩),
    (i64LtS, ⟨"i64.lt_s", .compare, .i32, .i64, .i64, 0⟩),
    (i64LtU, ⟨"i64.lt_u", .compare, .i32, .i64, .i64, 0⟩),
    (i64GtS, ⟨"i64.gt_s", .compare, .i32, .i64, .i64, 0⟩),
    (i64GtU, ⟨"i64.gt_u", .compare, .i32, .i64, .i64, 0⟩),
    (i64LeS, ⟨"i64.le_s", .compare, .i32, .i64, .i64, 0⟩),
    (i64LeU, ⟨"i64.le_u", .compare, .i32, .i64, .i64, 0⟩),
    (i64GeS, ⟨"i64.ge_s", .compare, .i32, .i64, .i64, 0⟩),
    (i64GeU, ⟨"i64.ge_u", .compare, .i32, .i64, .i64, 0⟩),
    (f32Eq, ⟨"f32.eq", .compare, .i32, .f32, .f32, 0⟩),
    (f32Ne, ⟨"f32.ne", .compare, .i32, .f32, .f32, 0⟩),
    (f32Lt, ⟨"f32.lt", .compare, .i32, .f32, .f32, 0⟩),
    (f32Gt, ⟨"f32.gt", .compare, .i32, .f32, .f32, 0⟩),
    (f32Le, ⟨"f32.le", .compare, .i32, .f32, .f32, 0⟩),
    (f32Ge, ⟨"f32.ge", .compare, .i32, .f32, .f32, 0⟩),
    (f64Eq, ⟨"f64.eq", .compare, .i32, .f64, .f64, 0⟩),
    (f64Ne, ⟨"f64.ne", .compare, .i32, .f64, .f64, 0⟩),
    (f64Lt, ⟨"f64.lt", .compare, .i32, .f64, .f64, 0⟩),
    (f64Gt, ⟨"f64.gt", .compare, .i32, .f64, .f64, 0⟩),
    (f64Le, ⟨"f64.le", .compare, .i32, .f64, .f64, 0⟩),
    (f64Ge, ⟨"f64.ge", .compare, .i32, .f64, .f64, 0⟩),
    (i32Clz, ⟨"i32.clz", .unary, .i32, .i32, .any, 0⟩),
    (i32Ctz, ⟨"i32.ctz", .unary, .i32, .i32, .any, 0⟩),
    (i32Popcnt, ⟨"i32.popcnt", .unary, .i32, .i32, .any, 0⟩),
    (i32Add, ⟨"i32.add", .binary, .i32, .i32, .i32, 0⟩),
    (i32Sub, ⟨"i32.sub", .binary, .i32, .i32, .i32, 0⟩),
    (i32Mul, ⟨"i32.mul", .binary, .i32, .i32, .i32, 0⟩),
    (i32DivS, ⟨"i32.div_s", .binary, .i32, .i32, .i32, 0⟩),
    (i32DivU, ⟨"i32.div_u", .binary, .i32, .i32, .i32, 0⟩),
    (i32RemS, ⟨"i32.rem_s", .binary, .i32, .i32, .i32, 0⟩),
    (i32RemU, ⟨"i32.rem_u", .binary, .i32, .i32, .i32, 0⟩),
    (i32And, ⟨"i32.and", .binary, .i32, .i32, .i32, 0⟩),
    (i32Or, ⟨"i32.or", .binary, .i32, .i32, .i32, 0⟩),
    (i32Xor, ⟨"i32.xor", .binary, .i32, .i32, .i32, 0⟩),
    (i32Shl, ⟨"i32.shl", .binary, .i32, .i32, .i32, 0⟩),
    (i32ShrS, ⟨"i32.shr_s", .binary, .i32, .i32, .i32, 0⟩),
    (i32ShrU, ⟨"i32.shr_u", .binary, .i32, .i32, .i32, 0⟩),
    (i32Rotl, ⟨"i32.rotl", .binary, .i32, .i32, .i32, 0⟩),
    (i32Rotr, ⟨"i32.rotr", .binary, .i32, .i32, .i32, 0⟩),
    (i64Clz, ⟨"i64.clz", .unary, .i64, .i64, .any, 0⟩),
    (i64Ctz, ⟨"i64.ctz", .unary, .i64, .i64, .any, 0⟩),
    (i64Popcnt, ⟨"i64.popcnt", .unary, .i64, .i64, .any, 0⟩),
    (i64Add, ⟨"i64.add", .binary, .i64, .i64, .i64, 0⟩),
    (i64Sub, ⟨"i64.sub", .binary, .i64, .i64, .i64, 0⟩),
    (i64Mul, ⟨"i64.mul", .binary, .i64, .i64, .i64, 0⟩),
    (i64DivS, ⟨"i64.div_s", .binary, .i64, .i64, .i64, 0⟩),
    (i64DivU, ⟨"i64.div_u", .binary, .i64, .i64, .i64, 0⟩),
    (i64RemS, ⟨"i64.rem_s", .binary, .i64, .i64, .i64, 0⟩),
    (i64RemU, ⟨"i64.rem_u", .binary, .i64, .i64, .i64, 0⟩),
    (i64And, ⟨"i64.and", .binary, .i64, .i64, .i64, 0⟩),
    (i64Or, ⟨"i64.or", .binary, .i64, .i64, .i64, 0⟩),
    (i64Xor, ⟨"i64.xor", .binary, .i64, .i64, .i64, 0⟩),
    (i64Shl, ⟨"i64.shl", .binary, .i64, .i64, .i64, 0⟩),
    (i64ShrS, ⟨"i64.shr_s", .binary, .i64, .i64, .i64, 0⟩),
    (i64ShrU, ⟨"i64.shr_u", .binary, .i64, .i64, .i64, 0⟩),
    (i64Rotl, ⟨"i64.rotl", .binary, .i64, .i64, .i64, 0⟩),
    (i64Rotr, ⟨"i64.rotr", .binary, .i64, .i64, .i64, 0⟩),
    (f32Abs, ⟨"f32.abs", .unary, .f32, .f32, .any, 0⟩),
    (f32Neg, ⟨"f32.neg", .unary, .f32, .f32, .any, 0⟩),
    (f32Ceil, ⟨"f32.ceil", .unary, .f32, .f32, .any, 0⟩),
    (f32Floor, ⟨"f32.floor", .unary, .f32, .f32, .any, 0⟩),
    (f32Trunc, ⟨"f32.trunc", .unary, .f32, .f32, .any, 0⟩),
    (f32Nearest, ⟨"f32.nearest", .unary, .f32, .f32, .any, 0⟩),
    (f32Sqrt, ⟨"f32.sqrt", .unary, .f32, .f32, .any, 0⟩),
    (f32Add, ⟨"f32.add", .binary, .f32, .f32, .f32, 0⟩),
    (f32Sub, ⟨"f32.sub", .binary, .f32, .f32, .f32, 0⟩),
    (f32Mul, ⟨"f32.mul", .binary, .f32, .f32, .f32, 0⟩),
    (f32Div, ⟨"f32.div", .binary, .f32, .f32, .f32, 0⟩),
    (f32Min, ⟨"f32.min", .binary, .f32, .f32, .f32, 0⟩),
    (f32Max, ⟨"f32.max", .binary, .f32, .f32, .f32, 0⟩),
    (f32Copysign, ⟨"f32.copysign", .binary, .f32, .f32, .f32, 0⟩),
    (f64Abs, ⟨"f64.abs", .unary, .f64, .f64, .any, 0⟩),
    (f64Neg, ⟨"f64.neg", .unary, .f64, .f64, .any, 0⟩),
    (f64Ceil, ⟨"f64.ceil", .unary, .f64, .f64, .any, 0⟩),
    (f64Floor, ⟨"f64.floor", .unary, .f64, .f64, .any, 0⟩),
    (f64Trunc, ⟨"f64.trunc", .unary, .f64, .f64, .any, 0⟩),
    (f64Nearest, ⟨"f64.nearest", .unary, .f64, .f64, .any, 0⟩),
    (f64Sqrt, ⟨"f64.sqrt", .unary, .f64, .f64, .any, 0⟩),
    (f64Add, ⟨"f64.add", .binary, .f64, .f64, .f64, 0⟩),
    (f64Sub, ⟨"f64.sub", .binary, .f64, .f64, .f64, 0⟩),
    (f64Mul, ⟨"f64.mul", .binary, .f64, .f64, .f64, 0⟩),
    (f64Div, ⟨"f64.div", .binary, .f64, .f64, .f64, 0⟩),
    (f64Min, ⟨"f64.min", .binary, .f64, .f64, .f64, 0⟩),
    (f64Max, ⟨"f64.max", .binary, .f64, .f64, .f64, 0⟩),
    (f64Copysign, ⟨"f64.copysign", .binary, .f64, .f64, .f64, 0⟩),
    (i32WrapI64, ⟨"i32.wrap_i64", .convert, .i32, .i64, .any, 0⟩),
    (i32TruncF32S, ⟨"i32.trunc_f32_s", .convert, .i32, .f32, .any, 0⟩),
    (i32TruncF32U, ⟨"i32.trunc_f32_u", .convert, .i32, .f32, .any, 0⟩),
    (i32TruncF64S, ⟨"i32.trunc_f64_s", .convert, .i32, .f64, .any, 0⟩),
    (i32TruncF64U, ⟨"i32.trunc_f64_u", .convert, .i32, .f64, .any, 0⟩),
    (i64ExtendI32S, ⟨"i64.extend_i32_s", .convert, .i64, .i32, .any, 0⟩),
    (i64ExtendI32U, ⟨"i64.extend_i32_u", .convert, .i64, .i32, .any, 0⟩),
    (i64TruncF32S, ⟨"i64.trunc_f32_s", .convert, .i64, .f32, .any, 0⟩),
    (i64TruncF32U, ⟨"i64.trunc_f32_u", .convert, .i64, .f32, .any, 0⟩),
    (i64TruncF64S, ⟨"i64.trunc_f64_s", .convert, .i64, .f64, .any, 0⟩),
    (i64TruncF64U, ⟨"i64.trunc_f64_u", .convert, .i64, .f64, .any, 0⟩),
    (f32ConvertI32S, ⟨"f32.convert_i32_s", .convert, .f32, .i32, .any, 0⟩),
    (f32ConvertI32U, ⟨"f32.convert_i32_u", .convert, .f32, .i32, .any, 0⟩),
    (f32ConvertI64S, ⟨"f32.convert_i64_s", .convert, .f32, .i64, .any, 0⟩),
    (f32ConvertI64U, ⟨"f32.convert_i64_u", .convert, .f32, .i64, .any, 0⟩),
    (f32DemoteF64, ⟨"f32.demote_f64", .convert, .f32, .f64, .any, 0⟩),
    (f64ConvertI32S, ⟨"f64.convert_i32_s", .convert, .f64, .i32, .any, 0⟩),
    (f64ConvertI32U, ⟨"f64.convert_i32_u", .convert, .f64, .i32, .any, 0⟩),
    (f64ConvertI64S, ⟨"f64.convert_i64_s", .convert, .f64, .i64, .any, 0⟩),
    (f64ConvertI64U, ⟨"f64.convert_i64_u", .convert, .f64, .i64, .any, 0⟩),
    (f64PromoteF32, ⟨"f64.promote_f32", .convert, .f64, .f32, .any, 0⟩),
    (i32ReinterpretF32, ⟨"i32.reinterpret_f32", .convert, .i32, .f32, .any, 0⟩),
    (i64ReinterpretF64, ⟨"i64.reinterpret_f64", .convert, .i64, .f64, .any, 0⟩),
    (f32ReinterpretI32, ⟨"f32.reinterpret_i32", .convert, .f32, .i32, .any, 0⟩),
    (f64ReinterpretI64, ⟨"f64.reinterpret_i64", .convert, .f64, .i64, .any, 0⟩),
    (i32Extend8S, ⟨"i32.extend8_s", .unary, .i32, .i32, .any, 0⟩),
    (i32Extend16S, ⟨"i32.extend16_s", .unary, .i32, .i32, .any, 0⟩),
    (i64Extend8S, ⟨"i64.extend8_s", .unary, .i64, .i64, .any, 0⟩),
    (i64Extend16S, ⟨"i64.extend16_s", .unary, .i64, .i64, .any, 0⟩),
    (i64Extend32S, ⟨"i64.extend32_s", .unary, .i64, .i64, .any, 0⟩),
    (refNull, ⟨"ref.null", .reference, .any, .any, .any, 0⟩),
    (refIsNull, ⟨"ref.is_null", .reference, .any, .any, .any, 0⟩),
    (refFunc, ⟨"ref.func", .reference, .any, .any, .any, 0⟩),
    (i32TruncSatF32S, ⟨"i32.trunc_sat_f32_s", .convert, .i32, .f32, .any, 0⟩),
    (i32TruncSatF32U, ⟨"i32.trunc_sat_f32_u", .convert, .i32, .f32, .any, 0⟩),
    (i32TruncSatF64S, ⟨"i32.trunc_sat_f64_s", .convert, .i32, .f64, .any, 0⟩),
    (i32TruncSatF64U, ⟨"i32.trunc_sat_f64_u", .convert, .i32, .f64, .any, 0⟩),
    (i64TruncSatF32S, ⟨"i64.trunc_sat_f32_s", .convert, .i64, .f32, .any, 0⟩),
    (i64TruncSatF32U, ⟨"i64.trunc_sat_f32_u", .convert, .i64, .f32, .any, 0⟩),
    (i64TruncSatF64S, ⟨"i64.trunc_sat_f64_s", .convert, .i64, .f64, .any, 0⟩),
    (i64TruncSatF64U, ⟨"i64.trunc_sat_f64_u", .convert, .i64, .f64, .any, 0⟩),
    (memoryInit, ⟨"memory.init", .bulk, .any, .any, .any, 0⟩),
    (dataDrop, ⟨"data.drop", .bulk, .any, .any, .any, 0⟩),
    (memoryCopy, ⟨"memory.copy", .memory, .any, .any, .any, 0⟩),
    (memoryFill, ⟨"memory.fill", .memory, .any, .any, .any, 0⟩),
    (tableInit, ⟨"table.init", .table, .any, .any, .any, 0⟩),
    (elemDrop, ⟨"elem.drop", .table, .any, .any, .any, 0⟩),
    (tableCopy, ⟨"table.copy", .table, .any, .any, .any, 0⟩),
    (tableGrow, ⟨"table.grow", .table, .any, .any, .any, 0⟩),
    (tableSize, ⟨"table.size", .table, .any, .any, .any, 0⟩),
    (tableFill, ⟨"table.fill", .table, .any, .any, .any, 0⟩),
    (v128Const, ⟨"v128.const", .simd, .any, .any, .any, 0⟩),
    (i8x16Shuffle, ⟨"i8x16.shuffle", .simd, .any, .any, .any, 0⟩),
    (i8x16ExtractLaneS, ⟨"i8x16.extract_lane_s", .simd, .any, .any, .any, 0⟩),
    (i8x16ExtractLaneU, ⟨"i8x16.extract_lane_u", .simd, .any, .any, .any, 0⟩),
    (i8x16ReplaceLane, ⟨"i8x16.replace_lane", .simd, .any, .any, .any, 0⟩),
    (i16x8ExtractLaneS, ⟨"i16x8.extract_lane_s", .simd, .any, .any, .any, 0⟩),
    (i16x8ExtractLaneU, ⟨"i16x8.extract_lane_u", .simd, .any, .any, .any, 0⟩),
    (i16x8ReplaceLane, ⟨"i16x8.replace_lane", .simd, .any, .any, .any, 0⟩),
    (i32x4ExtractLane, ⟨"i32x4.extract_lane", .simd, .any, .any, .any, 0⟩),
    (i32x4ReplaceLane, ⟨"i32x4.replace_lane", .simd, .any, .any, .any, 0⟩),
    (i64x2ExtractLane, ⟨"i64x2.extract_lane", .simd, .any, .any, .any, 0⟩),
    (i64x2ReplaceLane, ⟨"i64x2.replace_lane", .simd, .any, .any, .any, 0⟩),
    (f32x4ExtractLane, ⟨"f32x4.extract_lane", .simd, .any, .any, .any, 0⟩),
    (f32x4ReplaceLane, ⟨"f32x4.replace_lane", .simd, .any, .any, .any, 0⟩),
    (f64x2ExtractLane, ⟨"f64x2.extract_lane", .simd, .any, .any, .any, 0⟩),
    (f64x2ReplaceLane, ⟨"f64x2.replace_lane", .simd, .any, .any, .any, 0⟩),
    (v128Bitselect, ⟨"v128.bitselect", .ternary, .any, .any, .any, 0⟩),
    (atomicFence, ⟨"atomic.fence", .atomic, .any, .any, .any, 0⟩)]

def known? (opcode : Opcode) : Option OpcodeInfo :=
  (table.find? (·.1 = opcode)).map (·.2)

/-- What is known of any opcode. Vector and atomic instructions outside the table
are named by their number, everything else by its code. -/
def info (opcode : Opcode) : OpcodeInfo :=
  match opcode.known? with
  | some info => info
  | none =>
      if opcode.lead = vectorByte then
        { name := "simd.0x" ++ Text.hex 2 opcode.number.toNat, opcodeClass := .simd }
      else if opcode.lead = atomicByte then
        { name := "atomic.0x" ++ Text.hex 2 opcode.number.toNat, opcodeClass := .atomic }
      else
        { name := "opcode(0x" ++ Text.hex 1 opcode.code.toNat ++ ")" }

def name (opcode : Opcode) : String := opcode.info.name

def isKnown (opcode : Opcode) : Bool := opcode.known?.isSome

/-- The C helper of a load or store: its name with underscores for dots. -/
def accessor (opcode : Opcode) : String :=
  String.ofList (opcode.name.toList.map fun char => if char = '.' then '_' else char)

example : name i32Add = "i32.add" := by decide
example : accessor i64Load16U = "i64_load16_u" := by decide
example : name (behind vectorByte 0x10) = "simd.0x10" := by decide

end Opcode

end WasmLowering
