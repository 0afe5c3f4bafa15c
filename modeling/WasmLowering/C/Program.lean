import WasmLowering.C.Statement
import WasmLowering.Symbol.Reserved

/-! A module as C: what its header declares and what its source defines. -/

namespace WasmLowering.C

inductive ObjectType where
  | func (prototype : Prototype)
  | number (type : Scalar)
  | memory
  | table
  deriving DecidableEq, Repr, Inhabited

structure ImportedObject where
  entry : Import
  symbol : String
  type : ObjectType
  deriving Repr

structure ExportedObject where
  name : String
  symbol : String
  type : ObjectType
  kind : ExternKind
  entity : String
  deriving Repr

inductive Initial where
  | literal (value : Number)
  | global (global : External)
  deriving DecidableEq, Repr

structure Allocation where
  external : External
  initial : UInt64
  maximum : UInt64
  deriving DecidableEq, Repr

structure DataArray where
  symbol : String
  bytes : List UInt8
  deriving Repr

structure DataCopy where
  memory : External
  offset : Initial
  source : DataArray
  deriving Repr

structure Element where
  typeIndex : Index
  func : External
  deriving DecidableEq, Repr

structure ElementCopy where
  table : External
  offset : Initial
  elements : List Element
  deriving Repr

structure Program where
  imports : List ImportedObject
  exports : List ExportedObject
  /-- Parameters and results of every entry of the type section. -/
  types : List (List Scalar × List Scalar)
  prototypes : List (String × Prototype)
  globals : List (String × Scalar)
  globalValues : List (String × Initial)
  memories : List String
  tables : List String
  memoryAllocation : Option Allocation
  dataArrays : List DataArray
  dataCopies : List DataCopy
  tableAllocation : Option Allocation
  elementCopies : List ElementCopy
  functions : List Function
  /-- The entities that the exports point to. -/
  exportTargets : List External
  starts : List External
  /-- All symbols at file scope, and those that cannot be used there. -/
  taken : Symbol.SymbolSet

end WasmLowering.C
