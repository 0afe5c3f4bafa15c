import WasmLowering.Opcode

/-! What C code does for the numeric instructions: an operator, or a function or
cast that is applied to the operands. -/

namespace WasmLowering.C

inductive BinaryForm where
  /-- The operator updates the left operand. -/
  | compound
  /-- The operator compares, so that the result has a type of its own. -/
  | relation
  /-- The operator compares the operands as signed integers. -/
  | signedRelation
  /-- A helper computes the new value of the left operand. -/
  | helper
  /-- The operator shifts the left operand by a count that is cut to its width. -/
  | shift
  /-- The left operand is shifted as a signed integer. -/
  | signedShift
  deriving DecidableEq, Repr

structure BinaryOperator where
  form : BinaryForm
  text : String
  deriving DecidableEq, Repr

def binaryTable : List (List Opcode × BinaryOperator) :=
  [([.i32Add, .i64Add, .f32Add, .f64Add], ⟨.compound, "+"⟩),
    ([.i32Sub, .i64Sub, .f32Sub, .f64Sub], ⟨.compound, "-"⟩),
    ([.i32Mul, .i64Mul, .f32Mul, .f64Mul], ⟨.compound, "*"⟩),
    ([.f32Div, .f64Div], ⟨.compound, "/"⟩),
    ([.i32And, .i64And], ⟨.compound, "&"⟩),
    ([.i32Or, .i64Or], ⟨.compound, "|"⟩),
    ([.i32Xor, .i64Xor], ⟨.compound, "^"⟩),
    ([.i32DivS], ⟨.helper, "I32_DIV_S"⟩),
    ([.i64DivS], ⟨.helper, "I64_DIV_S"⟩),
    ([.i32DivU, .i64DivU], ⟨.helper, "DIV_U"⟩),
    ([.i32RemS], ⟨.helper, "I32_REM_S"⟩),
    ([.i64RemS], ⟨.helper, "I64_REM_S"⟩),
    ([.i32RemU, .i64RemU], ⟨.helper, "REM_U"⟩),
    ([.i32Rotl], ⟨.helper, "I32_ROTL"⟩),
    ([.i64Rotl], ⟨.helper, "I64_ROTL"⟩),
    ([.i32Rotr], ⟨.helper, "I32_ROTR"⟩),
    ([.i64Rotr], ⟨.helper, "I64_ROTR"⟩),
    ([.f32Min, .f64Min], ⟨.helper, "FMIN"⟩),
    ([.f32Max, .f64Max], ⟨.helper, "FMAX"⟩),
    ([.f32Copysign], ⟨.helper, "copysignf"⟩),
    ([.f64Copysign], ⟨.helper, "copysign"⟩),
    ([.i32Shl, .i64Shl], ⟨.shift, "<<"⟩),
    ([.i32ShrU, .i64ShrU], ⟨.shift, ">>"⟩),
    ([.i32ShrS, .i64ShrS], ⟨.signedShift, ">>"⟩),
    ([.i32Eq, .i64Eq, .f32Eq, .f64Eq], ⟨.relation, "=="⟩),
    ([.i32Ne, .i64Ne, .f32Ne, .f64Ne], ⟨.relation, "!="⟩),
    ([.i32LtU, .i64LtU, .f32Lt, .f64Lt], ⟨.relation, "<"⟩),
    ([.i32LeU, .i64LeU, .f32Le, .f64Le], ⟨.relation, "<="⟩),
    ([.i32GtU, .i64GtU, .f32Gt, .f64Gt], ⟨.relation, ">"⟩),
    ([.i32GeU, .i64GeU, .f32Ge, .f64Ge], ⟨.relation, ">="⟩),
    ([.i32LtS, .i64LtS], ⟨.signedRelation, "<"⟩),
    ([.i32LeS, .i64LeS], ⟨.signedRelation, "<="⟩),
    ([.i32GtS, .i64GtS], ⟨.signedRelation, ">"⟩),
    ([.i32GeS, .i64GeS], ⟨.signedRelation, ">="⟩)]

def binaryOperator? (opcode : Opcode) : Option BinaryOperator :=
  (binaryTable.find? (·.1.contains opcode)).map (·.2)

def unaryTable : List (List Opcode × String) :=
  [([.i32Eqz, .i64Eqz], "!"),
    ([.i32Clz], "I32_CLZ"),
    ([.i64Clz], "I64_CLZ"),
    ([.i32Ctz], "I32_CTZ"),
    ([.i64Ctz], "I64_CTZ"),
    ([.i32Popcnt], "I32_POPCNT"),
    ([.i64Popcnt], "I64_POPCNT"),
    ([.f32Neg, .f64Neg], "-"),
    ([.f32Abs], "fabsf"),
    ([.f64Abs], "fabs"),
    ([.f32Sqrt], "sqrtf"),
    ([.f64Sqrt], "sqrt"),
    ([.f32Ceil], "ceilf"),
    ([.f64Ceil], "ceil"),
    ([.f32Floor], "floorf"),
    ([.f64Floor], "floor"),
    ([.f32Trunc], "truncf"),
    ([.f64Trunc], "trunc"),
    ([.f32Nearest], "nearbyintf"),
    ([.f64Nearest], "nearbyint"),
    ([.i32Extend8S], "(u32)(s32)(s8)"),
    ([.i32Extend16S], "(u32)(s32)(s16)"),
    ([.i64Extend8S], "(u64)(s64)(s8)"),
    ([.i64Extend16S], "(u64)(s64)(s16)"),
    ([.i64Extend32S, .i64ExtendI32S], "(u64)(s64)(s32)"),
    ([.i64ExtendI32U], "(u64)"),
    ([.i32WrapI64], "(u32)"),
    ([.i32TruncF32S], "I32_TRUNC_S_F32"),
    ([.i64TruncF32S], "I64_TRUNC_S_F32"),
    ([.i32TruncF64S], "I32_TRUNC_S_F64"),
    ([.i64TruncF64S], "I64_TRUNC_S_F64"),
    ([.i32TruncF32U], "I32_TRUNC_U_F32"),
    ([.i64TruncF32U], "I64_TRUNC_U_F32"),
    ([.i32TruncF64U], "I32_TRUNC_U_F64"),
    ([.i64TruncF64U], "I64_TRUNC_U_F64"),
    ([.i32TruncSatF32S], "I32_TRUNC_SAT_S_F32"),
    ([.i64TruncSatF32S], "I64_TRUNC_SAT_S_F32"),
    ([.i32TruncSatF64S], "I32_TRUNC_SAT_S_F64"),
    ([.i64TruncSatF64S], "I64_TRUNC_SAT_S_F64"),
    ([.i32TruncSatF32U], "I32_TRUNC_SAT_U_F32"),
    ([.i64TruncSatF32U], "I64_TRUNC_SAT_U_F32"),
    ([.i32TruncSatF64U], "I32_TRUNC_SAT_U_F64"),
    ([.i64TruncSatF64U], "I64_TRUNC_SAT_U_F64"),
    ([.f32ConvertI32S], "(f32)(s32)"),
    ([.f32ConvertI64S], "(f32)(s64)"),
    ([.f32ConvertI32U, .f32ConvertI64U, .f32DemoteF64], "(f32)"),
    ([.f64ConvertI32S], "(f64)(s32)"),
    ([.f64ConvertI64S], "(f64)(s64)"),
    ([.f64ConvertI32U, .f64ConvertI64U, .f64PromoteF32], "(f64)"),
    ([.f32ReinterpretI32], "f32_reinterpret_i32"),
    ([.i32ReinterpretF32], "i32_reinterpret_f32"),
    ([.f64ReinterpretI64], "f64_reinterpret_i64"),
    ([.i64ReinterpretF64], "i64_reinterpret_f64")]

def unaryFunction? (opcode : Opcode) : Option String :=
  (unaryTable.find? (·.1.contains opcode)).map (·.2)

example : binaryOperator? .i64ShrU = some ⟨.shift, ">>"⟩ := by decide
example : binaryOperator? .i32Load = none := by decide
example : unaryFunction? .i32WrapI64 = some "(u32)" := by decide

end WasmLowering.C
