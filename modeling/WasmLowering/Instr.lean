import WasmLowering.Constant
import WasmLowering.Opcode
import WasmLowering.Reference

/-! Instructions. Structured instructions hold their bodies, so a function body is
a list of trees. -/

namespace WasmLowering

/-- The signature of a function, a block or an indirect call, with the entry of
the type section it was taken from, if any. -/
structure Declaration where
  typeRef : Option Reference := none
  signature : Signature := {}
  deriving DecidableEq, Repr, Inhabited

/-- What stands before the body of a structured instruction: the label that
branches name, empty until it is chosen, and the declaration. -/
structure BlockHead where
  label : String := ""
  declaration : Declaration := {}
  deriving DecidableEq, Repr, Inhabited

mutual

inductive Instr where
  | unreachable
  | nop
  | drop
  | leave
  | block (head : BlockHead) (body : List Instr)
  | loop (head : BlockHead) (body : List Instr)
  | ifElse (head : BlockHead) (thenBody elseBody : List Instr)
  | tryCatch (head : BlockHead) (body : List Instr) (catches : List Catch)
  | throwTag (tag : Reference)
  | rethrow (depth : Reference)
  | br (target : Reference)
  | brIf (target : Reference)
  | brTable (targets : List Reference) (otherwise : Reference)
  | call (callee : Reference)
  | callIndirect (declaration : Declaration) (table : Reference)
  | select (types : Option (List ValueType))
  | const (value : Constant)
  | unary (opcode : Opcode)
  | binary (opcode : Opcode)
  | compare (opcode : Opcode)
  | convert (opcode : Opcode)
  | ternary (opcode : Opcode)
  | localGet (place : Reference)
  | localSet (place : Reference)
  | localTee (place : Reference)
  | globalGet (place : Reference)
  | globalSet (place : Reference)
  | load (opcode : Opcode) (memory : Reference) (align : UInt32) (offset : UInt64)
  | store (opcode : Opcode) (memory : Reference) (align : UInt32) (offset : UInt64)
  | memorySize (memory : Reference)
  | memoryGrow (memory : Reference)
  | memoryFill (memory : Reference)
  | memoryCopy (target source : Reference)
  | simd (opcode : Opcode) (offset : UInt64)
  | simdLane (opcode : Opcode) (offset : UInt64) (lane : UInt8)
  | simdShuffle (opcode : Opcode) (lanes : List UInt8)
  | atomic (opcode : Opcode) (memory : Reference) (offset : UInt64)
  | refFunc (callee : Index)
  | other (opcode : Opcode)

inductive Catch where
  | handler (tag : Option Reference) (body : List Instr)

end

deriving instance Repr, Inhabited for Instr, Catch

namespace Catch

def tag : Catch → Option Reference
  | handler tag _ => tag

def body : Catch → List Instr
  | handler _ body => body

end Catch

namespace Instr

/-- The opcode of an instruction. Constants of types that have none count as
32-bit integers. -/
def opcode : Instr → Opcode
  | unreachable => .unreachable
  | nop => .nop
  | drop => .drop
  | leave => .returnOp
  | block .. => .block
  | loop .. => .loop
  | ifElse .. => .ifOp
  | tryCatch .. => .tryOp
  | throwTag _ => .throwOp
  | rethrow _ => .rethrow
  | br _ => .br
  | brIf _ => .brIf
  | brTable .. => .brTable
  | call _ => .call
  | callIndirect .. => .callIndirect
  | select none => .select
  | select (some _) => .typedSelect
  | const value =>
      match value.type with
      | .i64 => .i64Const
      | .f32 => .f32Const
      | .f64 => .f64Const
      | .v128 => .v128Const
      | _ => .i32Const
  | unary opcode => opcode
  | binary opcode => opcode
  | compare opcode => opcode
  | convert opcode => opcode
  | ternary opcode => opcode
  | localGet _ => .localGet
  | localSet _ => .localSet
  | localTee _ => .localTee
  | globalGet _ => .globalGet
  | globalSet _ => .globalSet
  | load opcode .. => opcode
  | store opcode .. => opcode
  | memorySize _ => .memorySize
  | memoryGrow _ => .memoryGrow
  | memoryFill _ => .memoryFill
  | memoryCopy .. => .memoryCopy
  | simd opcode _ => opcode
  | simdLane opcode .. => opcode
  | simdShuffle opcode _ => opcode
  | atomic opcode .. => opcode
  | refFunc _ => .refFunc
  | other opcode => opcode

def head? : Instr → Option BlockHead
  | block head _ => some head
  | loop head _ => some head
  | ifElse head .. => some head
  | tryCatch head .. => some head
  | _ => none

end Instr

end WasmLowering
