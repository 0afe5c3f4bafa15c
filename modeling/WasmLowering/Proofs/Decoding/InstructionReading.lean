import Mathlib.Tactic.IntervalCases
import WasmLowering.Proofs.Decoding.InstructionForms

/-! Reading code inverts its grammar.

Each rule of the grammar is read back as what it stands for, whatever follows. Bodies
nest, so the bytes that are left bound the recursion, and the induction is on that. -/

namespace WasmLowering.Binary.Decoder

open Leb128 (Unsigned Signed)

variable {types : List FuncType}

/-! ## Immediates -/

theorem index_reads {used : List UInt8} {index : Index} (form : Unsigned 32 used index.toNat) :
    u32.Reads used index := u32_exact.reads form

theorem u32_reads {used : List UInt8} {value : Nat} (form : Unsigned 32 used value) :
    u32.Reads used (.ofNat value) := by
  apply u32_exact.reads
  show Unsigned 32 used (UInt32.ofNat value).toNat
  rw [UInt32.toNat_ofNat_of_lt' form.lt]
  exact form

theorem reference_reads {used : List UInt8} {index : Index}
    (form : Unsigned 32 used index.toNat) : reference.Reads used (.index index) :=
  (index_reads form).map _

theorem valueTypeOf_reads {byte : UInt8} {type : ValueType}
    (isType : ValueType.declared? byte = some type) : (valueTypeOf byte).Reads [] type := by
  unfold valueTypeOf
  rw [isType]
  exact .pure type

theorem valueType_reads {byte : UInt8} {type : ValueType}
    (isType : ValueType.declared? byte = some type) : valueType.Reads [byte] type :=
  (byte_exact.reads rfl).bind (valueTypeOf_reads isType)

theorem Reads.bounded {α : Type} {next : Decoder α} {used : List UInt8} {value : α} {count : Nat}
    {error : Nat → DecodeError} (given : next.Reads used value) (enough : count ≤ used.length) :
    Reads (remaining >>= fun left =>
      if left < count then (throw (error left) : Decoder PUnit) >>= fun _ => next else next)
      used value := by
  intro start rest
  refine bind_eq_ok_iff.mpr ⟨_, _, remaining_eq_ok_iff.mpr ⟨rfl, rfl⟩, ?_⟩
  have noError : ¬(used ++ rest).length < count := by
    rw [List.length_append]
    omega
  rw [if_neg noError]
  exact given start rest

theorem valueTypes_reads {countForm : List UInt8} {byte : UInt8} {type : ValueType}
    (count : Unsigned 32 countForm 1) (isType : ValueType.declared? byte = some type) :
    valueTypes.Reads (countForm ++ [byte]) [type] := by
  have typeRead : (repeated (fun _ => valueType) 1 0).Reads [byte] [type] :=
    Reads.repeated (.cons (fun _ => valueType_reads isType) .nil) 0
  exact (u32_reads count).bind (typeRead.bounded (Nat.le_refl 1))

theorem declarationOf_reads {position : Index} {type : FuncType}
    (isType : types[position.toNat]? = some type) :
    (declarationOf types position).Reads [] ⟨some (.index position), type.signature⟩ := by
  unfold declarationOf
  rw [isType]
  exact .pure _

/-- The bytes of types are those of negative numbers, and none is that of an empty
block. -/
theorem declared_bounds {byte : UInt8} {type : ValueType}
    (isType : ValueType.declared? byte = some type) : 64 < byte.toNat ∧ byte.toNat < 128 := by
  rw [← ValueType.byte_ofByte byte]
  unfold ValueType.declared? at isType
  cases isByte : ValueType.ofByte byte with
  | any | unknown => simp [isByte] at isType
  | _ => decide

theorem blockDeclaration_reads {used : List UInt8} {declaration : Declaration}
    (form : DeclarationForm types used declaration) :
    (blockDeclaration types).Reads used declaration := by
  have s33_reads : ∀ {used : List UInt8} {value : Int}, Signed 33 used value →
      s33.Reads used value := (signed_exact (by decide)).reads
  intro start rest
  cases form with
  | empty =>
      have form : Signed 33 [0x40] (-64) := .negative (by decide) (by decide) (by decide)
      exact bind_eq_ok_iff.mpr ⟨-64, _, s33_reads form start rest, rfl⟩
  | @result byte type isType =>
      have bounds := declared_bounds isType
      have form : Signed 33 [byte] (byte.toNat - 128) :=
        .negative (Nat.le_of_lt bounds.1) bounds.2 (by omega)
      refine bind_eq_ok_iff.mpr ⟨_, _, s33_reads form start rest, ?_⟩
      have isByte : UInt8.ofNat (((byte.toNat : Int) - 128) % 128).toNat = byte := by
        have low : (((byte.toNat : Int) - 128) % 128).toNat = byte.toNat := by omega
        rw [low, UInt8.ofNat_toNat]
      rw [if_neg (by omega), if_pos (by omega), isByte]
      exact (valueTypeOf_reads isType).map _ _ rest
  | @entry used position type form isType =>
      refine bind_eq_ok_iff.mpr ⟨_, _, s33_reads form start rest, ?_⟩
      rw [if_neg (by omega), if_neg (by omega), Int.toNat_natCast, UInt32.ofNat_toNat]
      exact declarationOf_reads isType _ rest

theorem memoryArgument_reads {used : List UInt8} {argument : MemoryArgument}
    (form : MemoryForm used argument) : memoryArgument.Reads used argument := by
  have flag : ∀ exponent < 32, (UInt32.ofNat exponent) &&& 0x40 = 0 ∧
      (UInt32.ofNat exponent) &&& ~~~0x40 = .ofNat exponent ∧
      (UInt32.ofNat (exponent + 64)) &&& 0x40 ≠ 0 ∧
      (UInt32.ofNat (exponent + 64)) &&& ~~~0x40 = .ofNat exponent ∧
      ¬32 ≤ UInt32.ofNat exponent := by
    decide
  cases form with
  | @first exponent flagsForm offsetForm offset small flags isOffset =>
      rcases flag exponent small with ⟨noFlag, isExponent, -, -, inRange⟩
      refine (u32_reads flags).bind ?_
      dsimp only
      rw [if_neg (not_not.mpr noFlag), isExponent, pure_bind, if_neg inRange]
      exact (u64_exact.reads isOffset).map _
  | @given exponent memory flagsForm memoryForm offsetForm offset small flags isMemory isOffset =>
      rcases flag exponent small with ⟨-, -, hasFlag, isExponent, inRange⟩
      refine (u32_reads flags).bind ?_
      dsimp only
      rw [if_pos hasFlag, isExponent]
      refine (reference_reads isMemory).bind ?_
      rw [if_neg inRange]
      exact (u64_exact.reads isOffset).map _

/-! ## Instructions without bodies -/

theorem numeric_reads {opcode : Opcode} {build : Opcode → Instr}
    (isBuild : numeric? opcode.info.opcodeClass = some build) (byte : UInt8) :
    (classInstr opcode byte).Reads [] (build opcode) := by
  unfold classInstr
  cases isClass : opcode.info.opcodeClass with
  | unary | binary | compare | convert =>
      rw [isClass] at isBuild
      cases isBuild
      exact .pure _
  | _ =>
      rw [isClass] at isBuild
      cases isBuild

theorem access_reads {opcode : Opcode} {build : Opcode → Reference → UInt32 → UInt64 → Instr}
    (isBuild : access? opcode.info.opcodeClass = some build) {used : List UInt8}
    {argument : MemoryArgument} (form : MemoryForm used argument) (byte : UInt8) :
    (classInstr opcode byte).Reads used
      (build opcode argument.memory argument.align argument.offset) := by
  unfold classInstr
  cases isClass : opcode.info.opcodeClass with
  | load | store =>
      rw [isClass] at isBuild
      cases isBuild
      exact (memoryArgument_reads form).map _
  | _ =>
      rw [isClass] at isBuild
      cases isBuild

def toldByClass (opcode : Opcode) : Bool :=
  (numeric? opcode.info.opcodeClass).isSome || (access? opcode.info.opcodeClass).isSome

theorem instr_of_class {byte : UInt8} (isClass : toldByClass (.ofByte byte)) (context : CodeContext)
    (body : Decoder Body) (fuel : Nat) :
    instr context body fuel byte = classInstr (.ofByte byte) byte := by
  have different : ∀ other : UInt8, toldByClass (.ofByte other) = false → byte ≠ other := by
    rintro other notClass rfl
    rw [notClass] at isClass
    cases isClass
  unfold instr
  rw [if_neg (different _ (by decide)), if_neg (different _ (by decide)),
    if_neg (different _ (by decide))]
  dsimp only
  split
  all_goals first
    | rfl
    | next isOpcode =>
        rw [isOpcode] at isClass
        exact absurd isClass (by decide)

theorem saturating_reads {used : List UInt8} {number : Nat} (form : Unsigned 32 used number)
    (small : number < 8) :
    miscInstr.Reads used (.convert (.behind Opcode.miscByte (.ofNat number))) := by
  intro start rest
  refine bind_eq_ok_iff.mpr ⟨_, _, u32_reads form start rest, ?_⟩
  interval_cases number <;> rfl

theorem memoryCopy_reads {numberForm targetForm sourceForm : List UInt8} {target source : Index}
    (number : Unsigned 32 numberForm 10) (isTarget : Unsigned 32 targetForm target.toNat)
    (isSource : Unsigned 32 sourceForm source.toNat) :
    miscInstr.Reads (numberForm ++ (targetForm ++ sourceForm))
      (.memoryCopy (.index target) (.index source)) := by
  have operands : Reads (do
      let target ← reference
      let source ← reference
      return Instr.memoryCopy target source) (targetForm ++ sourceForm) _ :=
    (reference_reads isTarget).bind ((reference_reads isSource).map _)
  exact (u32_reads number).bind operands

theorem memoryFill_reads {numberForm memoryForm : List UInt8} {memory : Index}
    (number : Unsigned 32 numberForm 11) (isMemory : Unsigned 32 memoryForm memory.toNat) :
    miscInstr.Reads (numberForm ++ memoryForm) (.memoryFill (.index memory)) := by
  have operand : Reads (do return Instr.memoryFill (← reference)) memoryForm _ :=
    (reference_reads isMemory).map _
  exact (u32_reads number).bind operand

theorem v128_reads {numberForm content : List UInt8} (number : Unsigned 32 numberForm 12)
    (isLength : content.length = 16) :
    vectorInstr.Reads (numberForm ++ content) (.const (.v128 content)) := by
  have operand : Reads (do return Instr.const (.v128 (← bytes 16))) content _ :=
    ((bytes_exact 16).reads ⟨rfl, isLength⟩).map _
  exact (u32_reads number).bind operand

theorem brTable_reads {countForm lastForm : List UInt8} {forms : List (List UInt8)}
    {targets : List Index} {otherwise : Index} (count : Unsigned 32 countForm targets.length)
    (each : List.Forall₂ (fun form target => Unsigned 32 form (UInt32.toNat target)) forms targets)
    (last : Unsigned 32 lastForm otherwise.toNat) :
    Reads (do
      let count ← u32
      let left ← remaining
      if left < count.toNat then throw (.outOfBounds "br_table" count.toNat left)
      let targets ← repeated (fun _ => reference) count.toNat 0
      return Instr.brTable targets (← reference))
    (countForm ++ (forms.flatten ++ lastForm))
    (.brTable (targets.map .index) (.index otherwise)) := by
  have targetsRead : (repeated (fun _ => reference) (targets.map Reference.index).length 0).Reads
      forms.flatten (targets.map .index) := by
    apply Reads.repeated
    rw [List.forall₂_map_right_iff]
    exact each.imp fun form target isTarget number => reference_reads isTarget
  have enough : targets.length ≤ forms.flatten.length := by
    clear count targetsRead
    induction each with
    | nil => exact Nat.le_refl _
    | cons first _ induction =>
        have notEmpty := List.length_pos_iff.mpr first.ne_nil
        simp only [List.length_cons, List.flatten_cons, List.length_append]
        omega
  rw [List.length_map] at targetsRead
  refine (u32_reads count).bind ?_
  rw [UInt32.toNat_ofNat_of_lt' count.lt]
  apply Reads.bounded (targetsRead.bind ((reference_reads last).map _))
  rw [List.length_append]
  exact Nat.le_add_right_of_le enough

variable {body : Decoder Body} {fuel : Nat}

theorem plain_reads {byte : UInt8} {used : List UInt8} {result : Instr}
    (form : PlainForm types byte used result) :
    (instr ⟨types, false⟩ body fuel byte).Reads used result := by
  cases form with
  | @bare byte _ isInstr =>
      unfold bare? at isInstr
      split at isInstr <;> cases isInstr <;> exact .pure _
  | @single byte build used index isBuild form =>
      have single : Reads (do return build (← reference)) used _ := (reference_reads form).map _
      unfold single? at isBuild
      split at isBuild <;> cases isBuild <;> exact single
  | brTable count each last => exact brTable_reads count each last
  | callIndirect isPosition isType isTable =>
      refine (index_reads isPosition).bind ?_
      exact (declarationOf_reads isType).bind ((reference_reads isTable).map _)
  | @typedSelect countForm byte type count isType =>
      intro start rest
      show (valueTypes >>= _) _ = _
      exact bind_eq_ok_iff.mpr ⟨[type], _, valueTypes_reads count isType start rest, rfl⟩
  | i32 form => exact ((signed_exact (by decide)).reads form).map _
  | i64 form => exact ((signed_exact (by decide)).reads form).map _
  | f32 bits => exact (word32_exact.reads rfl).map _
  | f64 bits => exact (word64_exact.reads rfl).map _
  | v128 number isLength => exact v128_reads number isLength
  | numeric isBuild =>
      rw [instr_of_class (by rw [toldByClass, isBuild]; rfl)]
      exact numeric_reads isBuild _
  | saturating form small => exact saturating_reads form small
  | access isBuild form =>
      rw [instr_of_class (by rw [toldByClass, isBuild]; simp)]
      exact access_reads isBuild form _
  | memoryCopy number isTarget isSource => exact memoryCopy_reads number isTarget isSource
  | memoryFill number isMemory => exact memoryFill_reads number isMemory

/-! ## Code -/

def Opens (byte : UInt8) : Prop :=
  Terminator.ofOpcode? (.ofByte byte) = none ∧ Opcode.ofByte byte ≠ .delegate

instance (byte : UInt8) : Decidable (Opens byte) := inferInstanceAs (Decidable (_ ∧ _))

theorem opens_of_class {byte : UInt8} (isClass : toldByClass (.ofByte byte)) : Opens byte := by
  constructor
  · unfold Terminator.ofOpcode?
    split
    all_goals first
      | rfl
      | next isOpcode =>
          rw [isOpcode] at isClass
          exact absurd isClass (by decide)
  · intro isOpcode
    rw [isOpcode] at isClass
    exact absurd isClass (by decide)

theorem opens_of_form {byte : UInt8} {used : List UInt8} {result : Instr}
    (form : InstrForm types byte used result) : Opens byte := by
  cases form with
  | plain form =>
      cases form with
      | bare isInstr =>
          unfold bare? at isInstr
          split at isInstr <;> cases isInstr <;> decide
      | single isBuild =>
          unfold single? at isBuild
          split at isBuild <;> cases isBuild <;> decide
      | numeric isBuild => exact opens_of_class (by rw [toldByClass, isBuild]; rfl)
      | access isBuild => exact opens_of_class (by rw [toldByClass, isBuild]; simp)
      | _ => decide
  | _ => decide

def ReadsBodies (types : List FuncType) (body : Decoder Body) (limit : Nat) : Prop :=
  ∀ {used : List UInt8} {instrs : List Instr}, BodyForm types used instrs → used.length < limit →
    ∀ terminator : Terminator, body.Reads (used ++ [terminator.byte]) (instrs, terminator)

section Bodies

variable {limit : Nat} (reads : ReadsBodies types body limit)
include reads

theorem finished_reads {used : List UInt8} {instrs : List Instr}
    (form : BodyForm types used instrs) (short : used.length < limit) (construct : String) :
    (finished construct body).Reads (used ++ [Terminator.finish.byte]) instrs := by
  intro start rest
  exact bind_eq_ok_iff.mpr ⟨_, _, reads form short .finish start rest, rfl⟩

/-- Handlers begin with the byte of what ends the body before them, and are read once
that is known. -/
theorem catches_reads {used : List UInt8} {handlers : List Catch}
    (form : CatchesForm types used handlers) (short : used.length < limit) (fuel : Nat)
    (enough : used.length < fuel) :
    ∃ (terminator : Terminator) (more : List UInt8),
      used ++ [Terminator.finish.byte] = terminator.byte :: more ∧
        (catches body fuel terminator).Reads more handlers := by
  induction fuel generalizing used handlers with
  | zero => exact absurd enough (Nat.not_lt_zero _)
  | succ fuel induction =>
      cases form with
      | nil => exact ⟨.finish, [], rfl, .pure []⟩
      | @tagged tagForm inner rest tag instrs others isTag isBody later =>
          simp only [List.length_cons, List.length_append] at short enough
          rcases induction later (by omega) (by omega) with ⟨next, more, isNext, othersRead⟩
          refine ⟨.catchTag, tagForm ++ (inner ++ [next.byte] ++ more), ?_, ?_⟩
          · simp [isNext]
          · refine (reference_reads isTag).bind ((reads isBody (by omega) next).bind ?_)
            exact othersRead.map _
      | @all inner rest instrs others isBody later =>
          simp only [List.length_cons, List.length_append] at short enough
          rcases induction later (by omega) (by omega) with ⟨next, more, isNext, othersRead⟩
          refine ⟨.catchAll, inner ++ [next.byte] ++ more, ?_, ?_⟩
          · simp [isNext]
          · exact (reads isBody (by omega) next).bind (othersRead.map _)

theorem instr_reads {byte : UInt8} {used : List UInt8} {result : Instr}
    (form : InstrForm types byte used result) (short : used.length < limit) :
    (instr ⟨types, false⟩ body limit byte).Reads used result := by
  cases form with
  | plain form => exact plain_reads form
  | block isHead isBody =>
      simp only [List.length_append] at short
      refine (blockDeclaration_reads isHead).bind ?_
      exact (finished_reads reads isBody (by omega) "block").map _
  | loop isHead isBody =>
      simp only [List.length_append] at short
      refine (blockDeclaration_reads isHead).bind ?_
      exact (finished_reads reads isBody (by omega) "loop").map _
  | ifThen isHead isBody =>
      simp only [List.length_append] at short
      refine (blockDeclaration_reads isHead).bind fun start rest => ?_
      exact bind_eq_ok_iff.mpr ⟨_, _, reads isBody (by omega) .finish start rest, rfl⟩
  | ifElse isHead isBody isElse =>
      simp only [List.length_append] at short
      refine (blockDeclaration_reads isHead).bind ((reads isBody (by omega) .elseArm).bind ?_)
      exact (finished_reads reads isElse (by omega) "else").map _
  | @tryCatch head inner handlers declaration instrs catches isHead isBody areCatches =>
      simp only [List.length_append] at short
      rcases catches_reads reads areCatches (by omega) limit (by omega) with
        ⟨next, more, isNext, handlersRead⟩
      refine (blockDeclaration_reads isHead).bind ?_
      have isInner : inner ++ (handlers ++ [Terminator.finish.byte]) =
          inner ++ [next.byte] ++ more := by simp [isNext]
      rw [isInner]
      exact (reads isBody (by omega) next).bind (handlersRead.map _)

end Bodies

theorem instrs_reads (fuel : Nat) : ReadsBodies types (instrs ⟨types, false⟩ fuel) fuel := by
  induction fuel with
  | zero =>
      intro used instrs form short
      exact absurd short (Nat.not_lt_zero _)
  | succ fuel induction =>
      intro used result form short terminator
      cases form with
      | nil => cases terminator <;> exact (byte_exact.reads rfl).bind (.pure _)
      | @cons byte used rest head others first later =>
          rcases opens_of_form first with ⟨notTerminator, notDelegate⟩
          simp only [List.length_cons, List.length_append] at short
          have isUsed : byte :: (used ++ rest) ++ [terminator.byte] =
              [byte] ++ (used ++ (rest ++ [terminator.byte])) := by simp
          rw [isUsed]
          refine (byte_exact.reads rfl).bind ?_
          rw [notTerminator]
          dsimp only
          rw [if_neg notDelegate]
          refine ((instr_reads induction first (by omega)).locateBy _).bind ?_
          exact (induction later (by omega) terminator).map _

/-- Code of which every instruction keeps its immediates has a form, and every form of it
is read back, with the `end` behind it and not a byte further. -/
theorem code_inverts (types : List FuncType) (body : List Instr)
    (encodable : Instr.EncodableBody types body) :
    (∃ used, BodyForm types used body) ∧
      ∀ used, BodyForm types used body → ∀ start rest,
        code ⟨types, false⟩ ⟨start, used ++ 0x0B :: rest⟩ =
          .ok (body, .finish) ⟨start + used.length + 1, rest⟩ := by
  refine ⟨exists_bodyForm body encodable, fun used form start rest => ?_⟩
  refine bind_eq_ok_iff.mpr ⟨_, _, remaining_eq_ok_iff.mpr ⟨rfl, rfl⟩, ?_⟩
  have enough : used.length < (used ++ 0x0B :: rest).length + 1 := by
    simp only [List.length_append]
    omega
  have read := instrs_reads _ form enough .finish start rest
  simpa [Terminator.byte, Nat.add_assoc] using read

def countingLoop : List Instr := [.loop {} [.localGet (.index 0), .brIf (.index 0)]]

/-- A form of it in which the local has a longer number than it needs. -/
theorem countingLoop_form :
    BodyForm [] [0x03, 0x40, 0x20, 0x80, 0x00, 0x0D, 0x00, 0x0B] countingLoop := by
  have zero : Unsigned 32 [0] (0 : Index).toNat := .last (by decide) (by decide)
  have padded : Unsigned 32 [0x80, 0] (0 : Index).toNat :=
    .more (by decide) (by decide) (.last (by decide) (by decide))
  have inner :
      BodyForm [] [0x20, 0x80, 0x00, 0x0D, 0x00] [.localGet (.index 0), .brIf (.index 0)] :=
    .cons (.plain (.single rfl padded)) (.cons (.plain (.single rfl zero)) .nil)
  exact .cons (.loop .empty inner) .nil

theorem code_inverts_countingLoop :
    code ⟨[], false⟩ ⟨0, [0x03, 0x40, 0x20, 0x80, 0x00, 0x0D, 0x00, 0x0B] ++ 0x0B :: [0xFF]⟩ =
      .ok (countingLoop, .finish) ⟨9, [0xFF]⟩ := by
  have encodable : Instr.EncodableBody [] countingLoop := by
    simp [countingLoop, Instr.EncodableBody, Instr.visitedOfList, Instr.visited, Instr.Encodable,
      BlockHead.Encodable, Declaration.IsBlockType, Reference.isIndex]
  exact (code_inverts [] countingLoop encodable).2 _ countingLoop_form 0 [0xFF]

end WasmLowering.Binary.Decoder
