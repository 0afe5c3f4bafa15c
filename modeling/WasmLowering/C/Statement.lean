import WasmLowering.Instr
import WasmLowering.Module

/-! Statements of C functions.

Every position of the operand stack is a variable. A position that is used with
several types is a variable for each of them. Statements refer to variables and
labels by what they stand for; symbols are chosen for them when all of them are
known. -/

namespace WasmLowering.C

/-- A variable for a position of the operand stack, counted from the bottom. -/
structure Slot where
  depth : Nat
  type : Scalar
  deriving DecidableEq, Repr, Inhabited

/-- A label of a function. Labels are numbered in the order in which their
constructs begin; number zero is the end of the function. -/
structure Label where
  number : Nat
  name : String
  deriving DecidableEq, Repr, Inhabited

inductive Ident where
  | named (name : String)
  | slot (slot : Slot)
  | label (label : Label)
  deriving DecidableEq, Repr, Inhabited

structure External where
  kind : ExternKind
  name : String
  symbol : String
  isImported : Bool
  deriving DecidableEq, Repr, Inhabited

namespace External

def dereference (symbol : String) : String := "(*" ++ symbol ++ ")"

def addressOf (symbol : String) : String := "(&" ++ symbol ++ ")"

def value (external : External) : String :=
  if external.isImported then dereference external.symbol else external.symbol

def pointer (external : External) : String :=
  if external.isImported then external.symbol else addressOf external.symbol

end External

structure Prototype where
  params : List Scalar
  result : Option Scalar
  deriving DecidableEq, Repr, Inhabited

/-! An expression applies one instruction to slots. -/

inductive Expr where
  | literal (value : Number)
  | named (name : String)
  | global (global : External)
  | unary (opcode : Opcode) (operand : Slot)
  | binary (opcode : Opcode) (left right : Slot)
  | select (condition first second : Slot)
  | load (opcode : Opcode) (memory : External) (address : Slot) (offset : UInt64)
  | size (memory : External)
  | grow (memory : External) (pages : Slot)
  deriving DecidableEq, Repr

/-- A jump, after the values it carries have been copied in order: to the first
slot of each pair, from the second. -/
structure Jump where
  copies : List (Slot × Slot)
  target : Label
  deriving DecidableEq, Repr

inductive Stmt where
  | assign (target : Slot) (value : Expr)
  | setNamed (name : String) (value : Slot)
  | setGlobal (global : External) (value : Slot)
  | store (opcode : Opcode) (memory : External) (address : Slot) (offset : UInt64) (value : Slot)
  | fill (memory : External) (start value count : Slot)
  | copy (target source : External) (start origin count : Slot)
  | call (target : Option Slot) (callee : External) (arguments : List Slot)
  | callIndirect (target : Option Slot) (table : External) (prototype : Prototype)
      (typeIndex : Index) (position : Slot) (arguments : List Slot)
  | trap
  | jump (jump : Jump)
  | jumpIf (condition : Slot) (jump : Jump)
  | switch (position : Slot) (cases : List Jump) (otherwise : Jump)
  | label (label : Label)
  | ifThen (condition : Slot) (body : List Stmt)
  | ifThenElse (condition : Slot) (thenBody elseBody : List Stmt)

structure Function where
  /-- The name in the module. -/
  name : String
  symbol : String
  result : Option Scalar
  params : List (Scalar × String)
  /-- The locals in the order in which they are declared. -/
  locals : List (Scalar × String)
  body : List Stmt
  /-- The slot that is returned after the body. -/
  returned : Option Slot
  /-- The slots and labels in the order in which they get symbols. -/
  mentioned : List Ident

end WasmLowering.C
