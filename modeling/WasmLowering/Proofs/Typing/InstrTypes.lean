import WasmLowering.C.Operator
import WasmLowering.Module

/-! The types of instructions, as WebAssembly gives them.

Instructions that compute, access memories and globals or call functions apply an
operation to operands. The types of numeric instructions and of memory accesses
are given here by ranges of opcodes, and not taken from the table that the
lowering uses; that the two agree where code is lowered is proved below. -/

namespace WasmLowering

structure OpcodeRange where
  first : Opcode
  last : Opcode
  type : Signature
  deriving DecidableEq, Repr

namespace Opcode

def numericTypes : List OpcodeRange :=
  [⟨.i32Eqz, .i32Eqz, ⟨[.i32], [.i32]⟩⟩, ⟨.i32Eq, .i32GeU, ⟨[.i32, .i32], [.i32]⟩⟩,
    ⟨.i64Eqz, .i64Eqz, ⟨[.i64], [.i32]⟩⟩, ⟨.i64Eq, .i64GeU, ⟨[.i64, .i64], [.i32]⟩⟩,
    ⟨.f32Eq, .f32Ge, ⟨[.f32, .f32], [.i32]⟩⟩, ⟨.f64Eq, .f64Ge, ⟨[.f64, .f64], [.i32]⟩⟩,
    ⟨.i32Clz, .i32Popcnt, ⟨[.i32], [.i32]⟩⟩, ⟨.i32Add, .i32Rotr, ⟨[.i32, .i32], [.i32]⟩⟩,
    ⟨.i64Clz, .i64Popcnt, ⟨[.i64], [.i64]⟩⟩, ⟨.i64Add, .i64Rotr, ⟨[.i64, .i64], [.i64]⟩⟩,
    ⟨.f32Abs, .f32Sqrt, ⟨[.f32], [.f32]⟩⟩, ⟨.f32Add, .f32Copysign, ⟨[.f32, .f32], [.f32]⟩⟩,
    ⟨.f64Abs, .f64Sqrt, ⟨[.f64], [.f64]⟩⟩, ⟨.f64Add, .f64Copysign, ⟨[.f64, .f64], [.f64]⟩⟩,
    ⟨.i32WrapI64, .i32WrapI64, ⟨[.i64], [.i32]⟩⟩,
    ⟨.i32TruncF32S, .i32TruncF32U, ⟨[.f32], [.i32]⟩⟩,
    ⟨.i32TruncF64S, .i32TruncF64U, ⟨[.f64], [.i32]⟩⟩,
    ⟨.i64ExtendI32S, .i64ExtendI32U, ⟨[.i32], [.i64]⟩⟩,
    ⟨.i64TruncF32S, .i64TruncF32U, ⟨[.f32], [.i64]⟩⟩,
    ⟨.i64TruncF64S, .i64TruncF64U, ⟨[.f64], [.i64]⟩⟩,
    ⟨.f32ConvertI32S, .f32ConvertI32U, ⟨[.i32], [.f32]⟩⟩,
    ⟨.f32ConvertI64S, .f32ConvertI64U, ⟨[.i64], [.f32]⟩⟩,
    ⟨.f32DemoteF64, .f32DemoteF64, ⟨[.f64], [.f32]⟩⟩,
    ⟨.f64ConvertI32S, .f64ConvertI32U, ⟨[.i32], [.f64]⟩⟩,
    ⟨.f64ConvertI64S, .f64ConvertI64U, ⟨[.i64], [.f64]⟩⟩,
    ⟨.f64PromoteF32, .f64PromoteF32, ⟨[.f32], [.f64]⟩⟩,
    ⟨.i32ReinterpretF32, .i32ReinterpretF32, ⟨[.f32], [.i32]⟩⟩,
    ⟨.i64ReinterpretF64, .i64ReinterpretF64, ⟨[.f64], [.i64]⟩⟩,
    ⟨.f32ReinterpretI32, .f32ReinterpretI32, ⟨[.i32], [.f32]⟩⟩,
    ⟨.f64ReinterpretI64, .f64ReinterpretI64, ⟨[.i64], [.f64]⟩⟩,
    ⟨.i32Extend8S, .i32Extend16S, ⟨[.i32], [.i32]⟩⟩,
    ⟨.i64Extend8S, .i64Extend32S, ⟨[.i64], [.i64]⟩⟩,
    ⟨.i32TruncSatF32S, .i32TruncSatF32U, ⟨[.f32], [.i32]⟩⟩,
    ⟨.i32TruncSatF64S, .i32TruncSatF64U, ⟨[.f64], [.i32]⟩⟩,
    ⟨.i64TruncSatF32S, .i64TruncSatF32U, ⟨[.f32], [.i64]⟩⟩,
    ⟨.i64TruncSatF64S, .i64TruncSatF64U, ⟨[.f64], [.i64]⟩⟩]

def loadTypes : List OpcodeRange :=
  [⟨.i32Load, .i32Load, ⟨[.i32], [.i32]⟩⟩, ⟨.i64Load, .i64Load, ⟨[.i32], [.i64]⟩⟩,
    ⟨.f32Load, .f32Load, ⟨[.i32], [.f32]⟩⟩, ⟨.f64Load, .f64Load, ⟨[.i32], [.f64]⟩⟩,
    ⟨.i32Load8S, .i32Load16U, ⟨[.i32], [.i32]⟩⟩, ⟨.i64Load8S, .i64Load32U, ⟨[.i32], [.i64]⟩⟩]

def storeTypes : List OpcodeRange :=
  [⟨.i32Store, .i32Store, ⟨[.i32, .i32], []⟩⟩, ⟨.i64Store, .i64Store, ⟨[.i32, .i64], []⟩⟩,
    ⟨.f32Store, .f32Store, ⟨[.i32, .f32], []⟩⟩, ⟨.f64Store, .f64Store, ⟨[.i32, .f64], []⟩⟩,
    ⟨.i32Store8, .i32Store16, ⟨[.i32, .i32], []⟩⟩, ⟨.i64Store8, .i64Store32, ⟨[.i32, .i64], []⟩⟩]

def typeIn? (ranges : List OpcodeRange) (opcode : Opcode) : Option Signature :=
  (ranges.find? fun range =>
    range.first.code ≤ opcode.code ∧ opcode.code ≤ range.last.code).map (·.type)

end Opcode

/-! ## Operations -/

inductive Operation where
  | numeric (opcode : Opcode)
  | load (opcode : Opcode) (memory : Index) (offset : UInt64)
  | store (opcode : Opcode) (memory : Index) (offset : UInt64)
  | globalGet (global : Index)
  | globalSet (global : Index)
  | memorySize (memory : Index)
  | memoryGrow (memory : Index)
  | memoryFill (memory : Index)
  | memoryCopy (target source : Index)
  | call (callee : Index) (results : Nat)
  | callIndirect (table type : Index) (results : Nat)
  deriving DecidableEq, Repr

def Operation.resultCount : Operation → Nat
  | numeric _ => 1
  | load .. => 1
  | store .. => 0
  | globalGet _ => 1
  | globalSet _ => 0
  | memorySize _ => 1
  | memoryGrow _ => 1
  | memoryFill _ => 0
  | memoryCopy .. => 0
  | call _ results => results
  | callIndirect _ _ results => results

structure Application where
  operation : Operation
  type : Signature
  deriving DecidableEq, Repr

namespace Module

def access? (module : Module) (memory : Index) (operation : Operation) (type : Signature) :
    Option Application :=
  if memory.toNat < module.memories.length then some ⟨operation, type⟩ else none

/-- What an instruction applies, if it applies an operation. Entities are given by
their positions and have to exist, and the signature of an indirect call has to be
that of its type entry. -/
def application? (module : Module) : Instr → Option Application
  | .unary opcode => (opcode.typeIn? Opcode.numericTypes).map (⟨.numeric opcode, ·⟩)
  | .binary opcode => (opcode.typeIn? Opcode.numericTypes).map (⟨.numeric opcode, ·⟩)
  | .compare opcode => (opcode.typeIn? Opcode.numericTypes).map (⟨.numeric opcode, ·⟩)
  | .convert opcode => (opcode.typeIn? Opcode.numericTypes).map (⟨.numeric opcode, ·⟩)
  | .load opcode (.index memory) _ offset =>
      (opcode.typeIn? Opcode.loadTypes).bind (module.access? memory (.load opcode memory offset))
  | .store opcode (.index memory) _ offset =>
      (opcode.typeIn? Opcode.storeTypes).bind (module.access? memory (.store opcode memory offset))
  | .memorySize (.index memory) => module.access? memory (.memorySize memory) ⟨[], [.i32]⟩
  | .memoryGrow (.index memory) => module.access? memory (.memoryGrow memory) ⟨[.i32], [.i32]⟩
  | .memoryFill (.index memory) =>
      module.access? memory (.memoryFill memory) ⟨[.i32, .i32, .i32], []⟩
  | .memoryCopy (.index target) (.index source) =>
      if source.toNat < module.memories.length then
        module.access? target (.memoryCopy target source) ⟨[.i32, .i32, .i32], []⟩
      else none
  | .globalGet (.index position) =>
      module.globals[position.toNat]?.map fun global =>
        ⟨.globalGet position, ⟨[], [global.type]⟩⟩
  | .globalSet (.index position) =>
      module.globals[position.toNat]?.map fun global =>
        ⟨.globalSet position, ⟨[global.type], []⟩⟩
  | .call (.index callee) =>
      module.funcs[callee.toNat]?.map fun func =>
        ⟨.call callee func.results.length, func.declaration.signature⟩
  | .callIndirect ⟨some (.index type), signature⟩ (.index table) =>
      if module.types[type.toNat]?.map (·.signature) = some signature ∧
          table.toNat < module.tables.length then
        some ⟨.callIndirect table type signature.results.length,
          ⟨signature.params ++ [.i32], signature.results⟩⟩
      else none
  | _ => none

end Module

/-! ## Agreement with the tables of the lowering -/

namespace Opcode

/-- Forms other than comparisons give their result the type of the operands, and
signed forms exist for integers only. -/
def fitsForm (operand result : ValueType) : C.BinaryForm → Bool
  | .relation => true
  | .signedRelation => operand = .i32 ∨ operand = .i64
  | .signedShift => result = operand ∧ (operand = .i32 ∨ operand = .i64)
  | _ => result = operand

theorem binaryTable_typed : ∀ entry ∈ C.binaryTable, ∀ opcode ∈ entry.1,
    ∃ operand ∈ [ValueType.i32, .i64, .f32, .f64],
      opcode.typeIn? numericTypes = some ⟨[operand, operand], [opcode.info.result]⟩ ∧
        fitsForm operand opcode.info.result entry.2.form = true := by
  decide +kernel

theorem unaryTable_typed : ∀ entry ∈ C.unaryTable, ∀ opcode ∈ entry.1,
    ∃ operand ∈ [ValueType.i32, .i64, .f32, .f64],
      opcode.typeIn? numericTypes = some ⟨[operand], [opcode.info.result]⟩ := by
  decide +kernel

theorem binary_typed {opcode : Opcode} {operator : C.BinaryOperator}
    (isOperator : C.binaryOperator? opcode = some operator) :
    ∃ operand, opcode.typeIn? numericTypes = some ⟨[operand, operand], [opcode.info.result]⟩ ∧
      fitsForm operand opcode.info.result operator.form = true := by
  rcases Option.map_eq_some_iff.mp isOperator with ⟨entry, found, rfl⟩
  have listed : opcode ∈ entry.1 := by simpa using List.find?_some found
  rcases binaryTable_typed entry (List.mem_of_find?_eq_some found) opcode listed with
    ⟨operand, _, typed⟩
  exact ⟨operand, typed⟩

theorem unary_typed {opcode : Opcode} {function : String}
    (isFunction : C.unaryFunction? opcode = some function) :
    ∃ operand, opcode.typeIn? numericTypes = some ⟨[operand], [opcode.info.result]⟩ := by
  rcases Option.map_eq_some_iff.mp isFunction with ⟨entry, found, rfl⟩
  have listed : opcode ∈ entry.1 := by simpa using List.find?_some found
  rcases unaryTable_typed entry (List.mem_of_find?_eq_some found) opcode listed with
    ⟨operand, _, typed⟩
  exact ⟨operand, typed⟩

/-- An opcode with a type is between the first and the last opcode of a range. -/
theorem typeIn?_range {ranges : List OpcodeRange} {opcode : Opcode} {type : Signature}
    (typed : opcode.typeIn? ranges = some type) :
    ∃ range ∈ ranges, range.type = type ∧ range.first.code ≤ opcode.code ∧
      opcode.code ≤ range.last.code := by
  rcases Option.map_eq_some_iff.mp typed with ⟨range, found, isType⟩
  have inside : range.first.code ≤ opcode.code ∧ opcode.code ≤ range.last.code := by
    simpa using List.find?_some found
  exact ⟨range, List.mem_of_find?_eq_some found, isType, inside⟩

theorem load_typed {opcode : Opcode} {type : Signature}
    (typed : opcode.typeIn? loadTypes = some type) : type = ⟨[.i32], [opcode.info.result]⟩ := by
  have table : ∀ offset < 14, (⟨.ofNat (0x28 + offset)⟩ : Opcode).typeIn? loadTypes =
      some ⟨[.i32], [(⟨.ofNat (0x28 + offset)⟩ : Opcode).info.result]⟩ := by
    decide +kernel
  have bounds : ∀ range ∈ loadTypes, 0x28 ≤ range.first.code ∧ range.last.code ≤ 0x35 := by
    decide +kernel
  rcases typeIn?_range typed with ⟨range, member, _, low, high⟩
  rcases bounds range member with ⟨lowest, highest⟩
  have least : 0x28 ≤ opcode.code.toNat := UInt32.le_iff_toNat_le.mp (UInt32.le_trans lowest low)
  have upTo : opcode.code.toNat ≤ 0x35 := UInt32.le_iff_toNat_le.mp (UInt32.le_trans high highest)
  have isOpcode : (⟨.ofNat (0x28 + (opcode.code.toNat - 0x28))⟩ : Opcode) = opcode := by
    rw [Nat.add_sub_cancel' least, UInt32.ofNat_toNat]
  have known := table (opcode.code.toNat - 0x28) (by omega)
  rw [isOpcode, typed] at known
  exact Option.some.inj known

theorem store_typed {opcode : Opcode} {type : Signature}
    (typed : opcode.typeIn? storeTypes = some type) : ∃ value, type = ⟨[.i32, value], []⟩ := by
  have shapes : ∀ range ∈ storeTypes, ∃ value ∈ [ValueType.i32, .i64, .f32, .f64],
      range.type = ⟨[.i32, value], []⟩ := by
    decide +kernel
  rcases typeIn?_range typed with ⟨range, member, rfl, _⟩
  rcases shapes range member with ⟨value, _, shape⟩
  exact ⟨value, shape⟩

end Opcode

end WasmLowering
