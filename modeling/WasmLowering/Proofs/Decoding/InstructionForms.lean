import WasmLowering.Instr.Traversal
import WasmLowering.Proofs.Decoding.Numbers

/-! The grammar of code.

An instruction is written as a byte and its immediates; numbers among these may have
any of their forms. Structured instructions are followed by their bodies, each closed
by the byte of what ends it. Only those instructions have forms here of which decoding
keeps all immediates. -/

namespace WasmLowering

namespace Binary

open Leb128 (Unsigned Signed)

/-! ## Immediates -/

inductive DeclarationForm (types : List FuncType) : List UInt8 → Declaration → Prop where
  | empty : DeclarationForm types [0x40] {}
  | result {byte : UInt8} {type : ValueType} (isType : ValueType.declared? byte = some type) :
      DeclarationForm types [byte] { signature := ⟨[], [type]⟩ }
  | entry {used : List UInt8} {position : Index} {type : FuncType}
      (form : Signed 33 used position.toNat) (isType : types[position.toNat]? = some type) :
      DeclarationForm types used ⟨some (.index position), type.signature⟩

inductive MemoryForm : List UInt8 → Decoder.MemoryArgument → Prop where
  | first {exponent : Nat} {flagsForm offsetForm : List UInt8} {offset : UInt64}
      (small : exponent < 32) (flags : Unsigned 32 flagsForm exponent)
      (isOffset : Unsigned 64 offsetForm offset.toNat) :
      MemoryForm (flagsForm ++ offsetForm) ⟨1 <<< UInt32.ofNat exponent, .index 0, offset⟩
  | given {exponent : Nat} {memory : Index} {flagsForm memoryForm offsetForm : List UInt8}
      {offset : UInt64} (small : exponent < 32) (flags : Unsigned 32 flagsForm (exponent + 64))
      (isMemory : Unsigned 32 memoryForm memory.toNat)
      (isOffset : Unsigned 64 offsetForm offset.toNat) :
      MemoryForm (flagsForm ++ (memoryForm ++ offsetForm))
        ⟨1 <<< UInt32.ofNat exponent, .index memory, offset⟩

/-! ## Instructions without bodies -/

def bare? : UInt8 → Option Instr
  | 0x00 => some .unreachable
  | 0x01 => some .nop
  | 0x0F => some .leave
  | 0x1A => some .drop
  | 0x1B => some (.select none)
  | _ => none

def single? : UInt8 → Option (Reference → Instr)
  | 0x08 => some .throwTag
  | 0x09 => some .rethrow
  | 0x0C => some .br
  | 0x0D => some .brIf
  | 0x10 => some .call
  | 0x20 => some .localGet
  | 0x21 => some .localSet
  | 0x22 => some .localTee
  | 0x23 => some .globalGet
  | 0x24 => some .globalSet
  | 0x3F => some .memorySize
  | 0x40 => some .memoryGrow
  | _ => none

def numeric? : OpcodeClass → Option (Opcode → Instr)
  | .unary => some .unary
  | .binary => some .binary
  | .compare => some .compare
  | .convert => some .convert
  | _ => none

def access? : OpcodeClass → Option (Opcode → Reference → UInt32 → UInt64 → Instr)
  | .load => some .load
  | .store => some .store
  | _ => none

inductive PlainForm (types : List FuncType) : UInt8 → List UInt8 → Instr → Prop where
  | bare {byte : UInt8} {instr : Instr} (isInstr : bare? byte = some instr) :
      PlainForm types byte [] instr
  | single {byte : UInt8} {build : Reference → Instr} {used : List UInt8} {index : Index}
      (isBuild : single? byte = some build) (form : Unsigned 32 used index.toNat) :
      PlainForm types byte used (build (.index index))
  | brTable {countForm lastForm : List UInt8} {forms : List (List UInt8)} {targets : List Index}
      {otherwise : Index} (count : Unsigned 32 countForm targets.length)
      (each : List.Forall₂ (fun form target => Unsigned 32 form target.toNat) forms targets)
      (last : Unsigned 32 lastForm otherwise.toNat) :
      PlainForm types 0x0E (countForm ++ (forms.flatten ++ lastForm))
        (.brTable (targets.map .index) (.index otherwise))
  | callIndirect {positionForm tableForm : List UInt8} {position table : Index} {type : FuncType}
      (isPosition : Unsigned 32 positionForm position.toNat)
      (isType : types[position.toNat]? = some type)
      (isTable : Unsigned 32 tableForm table.toNat) :
      PlainForm types 0x11 (positionForm ++ tableForm)
        (.callIndirect ⟨some (.index position), type.signature⟩ (.index table))
  | typedSelect {countForm : List UInt8} {byte : UInt8} {type : ValueType}
      (count : Unsigned 32 countForm 1) (isType : ValueType.declared? byte = some type) :
      PlainForm types 0x1C (countForm ++ [byte]) (.select (some [type]))
  | i32 {used : List UInt8} {value : Int} (form : Signed 32 used value) :
      PlainForm types 0x41 used (.const (.number (.i32 (.ofInt value))))
  | i64 {used : List UInt8} {value : Int} (form : Signed 64 used value) :
      PlainForm types 0x42 used (.const (.number (.i64 (.ofInt value))))
  | f32 (bits : UInt32) :
      PlainForm types 0x43 (Encode.littleEndian 4 bits.toNat) (.const (.number (.f32 bits)))
  | f64 (bits : UInt64) :
      PlainForm types 0x44 (Encode.littleEndian 8 bits.toNat) (.const (.number (.f64 bits)))
  | v128 {numberForm content : List UInt8} (number : Unsigned 32 numberForm 12)
      (isLength : content.length = 16) :
      PlainForm types Opcode.vectorByte (numberForm ++ content) (.const (.v128 content))
  | numeric {byte : UInt8} {build : Opcode → Instr}
      (isBuild : numeric? (Opcode.ofByte byte).info.opcodeClass = some build) :
      PlainForm types byte [] (build (.ofByte byte))
  | saturating {numberForm : List UInt8} {number : Nat} (form : Unsigned 32 numberForm number)
      (small : number < 8) :
      PlainForm types Opcode.miscByte numberForm
        (.convert (.behind Opcode.miscByte (.ofNat number)))
  | access {byte : UInt8} {build : Opcode → Reference → UInt32 → UInt64 → Instr}
      {used : List UInt8} {argument : Decoder.MemoryArgument}
      (isBuild : access? (Opcode.ofByte byte).info.opcodeClass = some build)
      (form : MemoryForm used argument) :
      PlainForm types byte used
        (build (.ofByte byte) argument.memory argument.align argument.offset)
  | memoryCopy {numberForm targetForm sourceForm : List UInt8} {target source : Index}
      (number : Unsigned 32 numberForm 10) (isTarget : Unsigned 32 targetForm target.toNat)
      (isSource : Unsigned 32 sourceForm source.toNat) :
      PlainForm types Opcode.miscByte (numberForm ++ (targetForm ++ sourceForm))
        (.memoryCopy (.index target) (.index source))
  | memoryFill {numberForm memoryForm : List UInt8} {memory : Index}
      (number : Unsigned 32 numberForm 11) (isMemory : Unsigned 32 memoryForm memory.toNat) :
      PlainForm types Opcode.miscByte (numberForm ++ memoryForm) (.memoryFill (.index memory))

/-! ## Code -/

def Terminator.byte : Terminator → UInt8
  | finish => 0x0B
  | elseArm => 0x05
  | catchTag => 0x07
  | catchAll => 0x19

mutual

/-- The forms of an instruction: the first byte and what follows it, up to the `end` of
a structured instruction. -/
inductive InstrForm (types : List FuncType) : UInt8 → List UInt8 → Instr → Prop where
  | plain {byte : UInt8} {used : List UInt8} {instr : Instr}
      (form : PlainForm types byte used instr) :
      InstrForm types byte used instr
  | block {head inner : List UInt8} {declaration : Declaration} {body : List Instr}
      (isHead : DeclarationForm types head declaration) (isBody : BodyForm types inner body) :
      InstrForm types 0x02 (head ++ (inner ++ [Terminator.finish.byte])) (.block { declaration } body)
  | loop {head inner : List UInt8} {declaration : Declaration} {body : List Instr}
      (isHead : DeclarationForm types head declaration) (isBody : BodyForm types inner body) :
      InstrForm types 0x03 (head ++ (inner ++ [Terminator.finish.byte])) (.loop { declaration } body)
  | ifThen {head inner : List UInt8} {declaration : Declaration} {body : List Instr}
      (isHead : DeclarationForm types head declaration) (isBody : BodyForm types inner body) :
      InstrForm types 0x04 (head ++ (inner ++ [Terminator.finish.byte]))
        (.ifElse { declaration } body [])
  | ifElse {head inner otherInner : List UInt8} {declaration : Declaration}
      {body elseBody : List Instr} (isHead : DeclarationForm types head declaration)
      (isBody : BodyForm types inner body) (isElse : BodyForm types otherInner elseBody) :
      InstrForm types 0x04
        (head ++ (inner ++ [Terminator.elseArm.byte] ++ (otherInner ++ [Terminator.finish.byte])))
        (.ifElse { declaration } body elseBody)
  | tryCatch {head inner handlers : List UInt8} {declaration : Declaration} {body : List Instr}
      {catches : List Catch} (isHead : DeclarationForm types head declaration)
      (isBody : BodyForm types inner body) (areCatches : CatchesForm types handlers catches) :
      InstrForm types 0x06 (head ++ (inner ++ (handlers ++ [Terminator.finish.byte])))
        (.tryCatch { declaration } body catches)

inductive BodyForm (types : List FuncType) : List UInt8 → List Instr → Prop where
  | nil : BodyForm types [] []
  | cons {byte : UInt8} {used rest : List UInt8} {instr : Instr} {others : List Instr}
      (first : InstrForm types byte used instr) (later : BodyForm types rest others) :
      BodyForm types (byte :: (used ++ rest)) (instr :: others)

inductive CatchesForm (types : List FuncType) : List UInt8 → List Catch → Prop where
  | nil : CatchesForm types [] []
  | tagged {tagForm inner rest : List UInt8} {tag : Index} {body : List Instr}
      {others : List Catch} (isTag : Unsigned 32 tagForm tag.toNat)
      (isBody : BodyForm types inner body) (later : CatchesForm types rest others) :
      CatchesForm types (Terminator.catchTag.byte :: (tagForm ++ (inner ++ rest)))
        (.handler (some (.index tag)) body :: others)
  | all {inner rest : List UInt8} {body : List Instr} {others : List Catch}
      (isBody : BodyForm types inner body) (later : CatchesForm types rest others) :
      CatchesForm types (Terminator.catchAll.byte :: (inner ++ rest)) (.handler none body :: others)

end

end Binary

/-! ## What has a form -/

def ValueType.IsDeclared (type : ValueType) : Prop := ValueType.declared? type.byte = some type

def Declaration.IsEntry (types : List FuncType) (declaration : Declaration) : Prop :=
  ∃ (position : Index) (type : FuncType), types[position.toNat]? = some type ∧
    declaration = ⟨some (.index position), type.signature⟩

def Declaration.IsBlockType (types : List FuncType) (declaration : Declaration) : Prop :=
  declaration = {} ∨
    (∃ type : ValueType, type.IsDeclared ∧ declaration = { signature := ⟨[], [type]⟩ }) ∨
    declaration.IsEntry types

def BlockHead.Encodable (types : List FuncType) (head : BlockHead) : Prop :=
  head.label = "" ∧ head.declaration.IsBlockType types

/-- An instruction that keeps all its immediates, as far as it does not lie in its
bodies: references are positions, opcodes are of the class of their instruction, and
alignments are powers of two. -/
def Instr.Encodable (types : List FuncType) : Instr → Prop
  | .unreachable | .nop | .drop | .leave | .select none => True
  | .select (some selected) => ∃ type : ValueType, selected = [type] ∧ type.IsDeclared
  | .block head _ | .loop head _ | .ifElse head _ _ => head.Encodable types
  | .tryCatch head _ catches =>
      head.Encodable types ∧ ∀ handler ∈ catches, ∀ tag ∈ handler.tag, tag.isIndex
  | .throwTag reference | .rethrow reference | .br reference | .brIf reference | .call reference
  | .localGet reference | .localSet reference | .localTee reference
  | .globalGet reference | .globalSet reference
  | .memorySize reference | .memoryGrow reference | .memoryFill reference => reference.isIndex
  | .memoryCopy target source => target.isIndex ∧ source.isIndex
  | .brTable targets otherwise =>
      targets.length < UInt32.size ∧ (∀ target ∈ targets, target.isIndex) ∧ otherwise.isIndex
  | .callIndirect declaration table => declaration.IsEntry types ∧ table.isIndex
  | .const (.number _) => True
  | .const (.v128 content) => content.length = 16
  | .unary opcode => opcode.info.opcodeClass = .unary
  | .binary opcode => opcode.info.opcodeClass = .binary
  | .compare opcode => opcode.info.opcodeClass = .compare
  | .convert opcode => opcode.info.opcodeClass = .convert
  | .load opcode memory align _ =>
      opcode.info.opcodeClass = .load ∧ memory.isIndex ∧ ∃ exponent < 32, align.toNat = 2 ^ exponent
  | .store opcode memory align _ =>
      opcode.info.opcodeClass = .store ∧ memory.isIndex ∧ ∃ exponent < 32, align.toNat = 2 ^ exponent
  | .const (.other ..) | .ternary _ | .simd .. | .simdLane .. | .simdShuffle .. | .atomic ..
  | .refFunc _ | .other _ => False

def Instr.EncodableBody (types : List FuncType) (body : List Instr) : Prop :=
  ∀ instr ∈ visitedOfList (fun _ => true) body, instr.Encodable types

/-! ## Every such body has a form -/

namespace Opcode

theorem mem_table {opcode : Opcode} (notUnknown : opcode.info.opcodeClass ≠ .unknown)
    (notVector : opcode.info.opcodeClass ≠ .simd) (notAtomic : opcode.info.opcodeClass ≠ .atomic) :
    (opcode, opcode.info) ∈ table := by
  cases found : opcode.known? with
  | some info =>
      have isInfo : opcode.info = info := by rw [Opcode.info, found]
      rw [isInfo]
      rcases Option.map_eq_some_iff.mp found with ⟨entry, isEntry, rfl⟩
      have same : entry.1 = opcode := by simpa using List.find?_some isEntry
      rw [← same]
      exact List.mem_of_find?_eq_some isEntry
  | none =>
      unfold Opcode.info at notUnknown notVector notAtomic
      rw [found] at notUnknown notVector notAtomic
      dsimp only at notUnknown notVector notAtomic
      split at notVector
      · exact absurd rfl notVector
      · next notLead =>
          rw [if_neg notLead] at notUnknown notAtomic
          split at notAtomic
          · exact absurd rfl notAtomic
          · next notLeadAtomic =>
              rw [if_neg notLeadAtomic] at notUnknown
              exact absurd rfl notUnknown

theorem exists_ofByte {opcode : Opcode} (small : opcode.code < 256) :
    ∃ byte, opcode = .ofByte byte := by
  refine ⟨opcode.code.toUInt8, ?_⟩
  rcases opcode with ⟨code⟩
  have small : code.toNat < 256 := small
  simp only [ofByte, Opcode.mk.injEq, ← UInt32.toNat_inj]
  simp
  omega

theorem exists_of_numeric {opcode : Opcode}
    (isNumeric : (Binary.numeric? opcode.info.opcodeClass).isSome) :
    (∃ byte, opcode = .ofByte byte) ∨
      opcode.info.opcodeClass = .convert ∧
        ∃ number < 8, opcode = .behind miscByte (.ofNat number) := by
  have inTable : ∀ entry ∈ table, (Binary.numeric? entry.2.opcodeClass).isSome →
      entry.1.code < 256 ∨
        entry.2.opcodeClass = .convert ∧
          ∃ number < 8, entry.1 = .behind miscByte (.ofNat number) := by
    decide +kernel
  have member : (opcode, opcode.info) ∈ table := by
    apply mem_table <;> intro isClass <;> rw [isClass] at isNumeric <;> cases isNumeric
  exact (inTable _ member isNumeric).imp_left exists_ofByte

theorem exists_of_access {opcode : Opcode}
    (isAccess : (Binary.access? opcode.info.opcodeClass).isSome) :
    ∃ byte, opcode = .ofByte byte := by
  have inTable : ∀ entry ∈ table, (Binary.access? entry.2.opcodeClass).isSome →
      entry.1.code < 256 := by
    decide +kernel
  have member : (opcode, opcode.info) ∈ table := by
    apply mem_table <;> intro isClass <;> rw [isClass] at isAccess <;> cases isAccess
  exact exists_ofByte (inTable _ member isAccess)

end Opcode

namespace Binary

open Leb128 (exists_unsigned exists_signed exists_signed_residue)

theorem exists_index {reference : Reference} (isIndex : reference.isIndex) :
    ∃ index, reference = .index index := by
  cases reference with
  | name text => cases isIndex
  | index index => exact ⟨index, rfl⟩

theorem exists_indexForm (index : Index) : ∃ used, Leb128.Unsigned 32 used index.toNat :=
  exists_unsigned index.toNat_lt

theorem exists_declarationForm {types : List FuncType} {declaration : Declaration}
    (encodable : declaration.IsBlockType types) :
    ∃ used, DeclarationForm types used declaration := by
  rcases encodable with rfl | ⟨type, declared, rfl⟩ | ⟨position, type, isType, rfl⟩
  · exact ⟨_, .empty⟩
  · exact ⟨_, .result declared⟩
  · have small := position.toNat_lt
    have fits : (position.toNat : Int) < 2 ^ (33 - 1) := by omega
    rcases exists_signed (by decide) (by omega) fits with ⟨used, form⟩
    exact ⟨used, .entry form isType⟩

theorem toNat_shiftLeft_one : ∀ exponent < 32,
    ((1 : UInt32) <<< UInt32.ofNat exponent).toNat = 2 ^ exponent := by
  decide

theorem exists_memoryForm {memory : Reference} {align : UInt32} (isIndex : memory.isIndex)
    (isPower : ∃ exponent < 32, align.toNat = 2 ^ exponent) (offset : UInt64) :
    ∃ used, MemoryForm used ⟨align, memory, offset⟩ := by
  rcases isPower with ⟨exponent, small, isAlign⟩
  have isShift : align = 1 <<< UInt32.ofNat exponent := by
    rw [← UInt32.toNat_inj, toNat_shiftLeft_one exponent small, isAlign]
  have fits : exponent + 64 < 2 ^ 32 := by omega
  rcases exists_index isIndex with ⟨memory, rfl⟩
  rcases exists_unsigned fits with ⟨flagsForm, flags⟩
  rcases exists_indexForm memory with ⟨memoryForm, isMemory⟩
  rcases exists_unsigned offset.toNat_lt with ⟨offsetForm, isOffset⟩
  rw [isShift]
  exact ⟨_, .given small flags isMemory isOffset⟩

variable {types : List FuncType}

theorem exists_singleForm (byte : UInt8) {build : Reference → Instr} {reference : Reference}
    (isBuild : single? byte = some build) (isIndex : reference.isIndex) :
    ∃ byte used, PlainForm types byte used (build reference) := by
  rcases exists_index isIndex with ⟨index, rfl⟩
  rcases exists_indexForm index with ⟨used, form⟩
  exact ⟨byte, used, .single isBuild form⟩

theorem exists_numberForm (number : Number) :
    ∃ byte used, PlainForm types byte used (.const (.number number)) := by
  cases number with
  | i32 bits =>
      rcases exists_signed_residue (by decide) bits.toNat_lt with ⟨used, value, form, isBits⟩
      have same : UInt32.ofInt value = bits := by rw [UInt32.ofInt, isBits, UInt32.ofNat_toNat]
      exact ⟨_, used, same ▸ PlainForm.i32 form⟩
  | i64 bits =>
      rcases exists_signed_residue (by decide) bits.toNat_lt with ⟨used, value, form, isBits⟩
      have same : UInt64.ofInt value = bits := by rw [UInt64.ofInt, isBits, UInt64.ofNat_toNat]
      exact ⟨_, used, same ▸ PlainForm.i64 form⟩
  | f32 bits => exact ⟨_, _, .f32 bits⟩
  | f64 bits => exact ⟨_, _, .f64 bits⟩

theorem exists_numericForm {opcode : Opcode} {build : Opcode → Instr}
    (isBuild : numeric? opcode.info.opcodeClass = some build) :
    ∃ byte used, PlainForm types byte used (build opcode) := by
  rcases Opcode.exists_of_numeric (by rw [isBuild]; rfl) with
    ⟨byte, rfl⟩ | ⟨isConvert, number, small, rfl⟩
  · exact ⟨byte, [], .numeric isBuild⟩
  · rw [isConvert] at isBuild
    cases isBuild
    rcases exists_unsigned (Nat.lt_trans small (by decide : 8 < 2 ^ 32)) with ⟨used, form⟩
    exact ⟨_, used, .saturating form small⟩

theorem exists_accessForm {opcode : Opcode}
    {build : Opcode → Reference → UInt32 → UInt64 → Instr} {memory : Reference} {align : UInt32}
    (isBuild : access? opcode.info.opcodeClass = some build) (isIndex : memory.isIndex)
    (isPower : ∃ exponent < 32, align.toNat = 2 ^ exponent) (offset : UInt64) :
    ∃ byte used, PlainForm types byte used (build opcode memory align offset) := by
  rcases Opcode.exists_of_access (by rw [isBuild]; rfl) with ⟨byte, rfl⟩
  rcases exists_memoryForm isIndex isPower offset with ⟨used, form⟩
  exact ⟨byte, used, .access isBuild form⟩

theorem exists_indices {references : List Reference}
    (areIndices : ∀ reference ∈ references, reference.isIndex) :
    ∃ indices : List Index, references = indices.map .index := by
  induction references with
  | nil => exact ⟨[], rfl⟩
  | cons first others induction =>
      rcases List.forall_mem_cons.mp areIndices with ⟨isIndex, othersIndices⟩
      rcases exists_index isIndex with ⟨index, rfl⟩
      rcases induction othersIndices with ⟨indices, rfl⟩
      exact ⟨index :: indices, rfl⟩

theorem exists_indexForms (indices : List Index) :
    ∃ forms, List.Forall₂ (fun form index => Leb128.Unsigned 32 form (UInt32.toNat index))
      forms indices := by
  induction indices with
  | nil => exact ⟨[], .nil⟩
  | cons index others induction =>
      rcases exists_indexForm index with ⟨form, isForm⟩
      rcases induction with ⟨forms, each⟩
      exact ⟨form :: forms, .cons isForm each⟩

theorem exists_plainForm {instr : Instr} (isPlain : instr.head? = none)
    (encodable : instr.Encodable types) : ∃ byte used, PlainForm types byte used instr := by
  cases instr with
  | block | loop | ifElse | tryCatch => cases isPlain
  | unreachable => exact ⟨0x00, [], .bare rfl⟩
  | nop => exact ⟨0x01, [], .bare rfl⟩
  | drop => exact ⟨0x1A, [], .bare rfl⟩
  | leave => exact ⟨0x0F, [], .bare rfl⟩
  | throwTag => exact exists_singleForm 0x08 rfl encodable
  | rethrow => exact exists_singleForm 0x09 rfl encodable
  | br => exact exists_singleForm 0x0C rfl encodable
  | brIf => exact exists_singleForm 0x0D rfl encodable
  | call => exact exists_singleForm 0x10 rfl encodable
  | localGet => exact exists_singleForm 0x20 rfl encodable
  | localSet => exact exists_singleForm 0x21 rfl encodable
  | localTee => exact exists_singleForm 0x22 rfl encodable
  | globalGet => exact exists_singleForm 0x23 rfl encodable
  | globalSet => exact exists_singleForm 0x24 rfl encodable
  | memorySize => exact exists_singleForm 0x3F rfl encodable
  | memoryGrow => exact exists_singleForm 0x40 rfl encodable
  | brTable targets otherwise =>
      rcases encodable with ⟨few, areIndices, isIndex⟩
      rcases exists_indices areIndices with ⟨indices, rfl⟩
      rcases exists_indexForms indices with ⟨forms, each⟩
      rw [List.length_map] at few
      rcases exists_unsigned (show indices.length < 2 ^ 32 from few) with ⟨countForm, count⟩
      rcases exists_index isIndex with ⟨otherwise, rfl⟩
      rcases exists_indexForm otherwise with ⟨lastForm, last⟩
      exact ⟨_, _, .brTable count each last⟩
  | callIndirect declaration table =>
      rcases encodable with ⟨⟨position, type, isType, rfl⟩, isIndex⟩
      rcases exists_index isIndex with ⟨table, rfl⟩
      rcases exists_indexForm position with ⟨positionForm, isPosition⟩
      rcases exists_indexForm table with ⟨tableForm, isTable⟩
      exact ⟨_, _, .callIndirect isPosition isType isTable⟩
  | select types =>
      cases types with
      | none => exact ⟨0x1B, [], .bare rfl⟩
      | some selected =>
          rcases encodable with ⟨type, rfl, declared⟩
          rcases exists_unsigned (by decide : 1 < 2 ^ 32) with ⟨countForm, count⟩
          exact ⟨_, _, .typedSelect count declared⟩
  | const value =>
      cases value with
      | number value => exact exists_numberForm value
      | v128 content =>
          rcases exists_unsigned (by decide : 12 < 2 ^ 32) with ⟨numberForm, number⟩
          exact ⟨_, _, .v128 number encodable⟩
      | other => cases encodable
  | unary opcode => exact exists_numericForm (congrArg numeric? encodable)
  | binary opcode => exact exists_numericForm (congrArg numeric? encodable)
  | compare opcode => exact exists_numericForm (congrArg numeric? encodable)
  | convert opcode => exact exists_numericForm (congrArg numeric? encodable)
  | load opcode memory align offset =>
      rcases encodable with ⟨isClass, isIndex, isPower⟩
      exact exists_accessForm (congrArg access? isClass) isIndex isPower offset
  | store opcode memory align offset =>
      rcases encodable with ⟨isClass, isIndex, isPower⟩
      exact exists_accessForm (congrArg access? isClass) isIndex isPower offset
  | memoryFill memory =>
      rcases exists_index encodable with ⟨memory, rfl⟩
      rcases exists_unsigned (by decide : 11 < 2 ^ 32) with ⟨numberForm, number⟩
      rcases exists_indexForm memory with ⟨memoryForm, isMemory⟩
      exact ⟨_, _, .memoryFill number isMemory⟩
  | memoryCopy target source =>
      rcases encodable with ⟨isTarget, isSource⟩
      rcases exists_index isTarget with ⟨target, rfl⟩
      rcases exists_index isSource with ⟨source, rfl⟩
      rcases exists_unsigned (by decide : 10 < 2 ^ 32) with ⟨numberForm, number⟩
      rcases exists_indexForm target with ⟨targetForm, targetIs⟩
      rcases exists_indexForm source with ⟨sourceForm, sourceIs⟩
      exact ⟨_, _, .memoryCopy number targetIs sourceIs⟩
  | ternary | simd | simdLane | simdShuffle | atomic | refFunc | other => cases encodable

theorem exists_headForm {head : BlockHead} (encodable : head.Encodable types) :
    ∃ declaration used, head = { declaration } ∧ DeclarationForm types used declaration := by
  rcases head with ⟨label, declaration⟩
  rcases encodable with ⟨isEmpty, isBlockType⟩
  rcases exists_declarationForm isBlockType with ⟨used, form⟩
  have isEmpty : label = "" := isEmpty
  exact ⟨declaration, used, by rw [isEmpty], form⟩

theorem exists_instrForm_of_plain {instr : Instr} (isPlain : instr.head? = none)
    (encodable : ∀ visited ∈ instr.visited (fun _ => true), visited.Encodable types) :
    ∃ byte used, InstrForm types byte used instr := by
  rw [Instr.visited_of_head?_eq_none isPlain, List.forall_mem_singleton] at encodable
  rcases exists_plainForm isPlain encodable with ⟨byte, used, form⟩
  exact ⟨byte, used, .plain form⟩

mutual

theorem exists_instrForm (instr : Instr)
    (encodable : ∀ visited ∈ instr.visited (fun _ => true), visited.Encodable types) :
    ∃ byte used, InstrForm types byte used instr := by
  match instr with
  | .block head body =>
      rw [Instr.visited, if_pos rfl, List.forall_mem_cons] at encodable
      rcases exists_headForm encodable.1 with ⟨declaration, used, rfl, isHead⟩
      rcases exists_bodyForm body encodable.2 with ⟨inner, isBody⟩
      exact ⟨_, _, .block isHead isBody⟩
  | .loop head body =>
      rw [Instr.visited, if_pos rfl, List.forall_mem_cons] at encodable
      rcases exists_headForm encodable.1 with ⟨declaration, used, rfl, isHead⟩
      rcases exists_bodyForm body encodable.2 with ⟨inner, isBody⟩
      exact ⟨_, _, .loop isHead isBody⟩
  | .ifElse head thenBody elseBody =>
      rw [Instr.visited, if_pos rfl, List.forall_mem_cons, List.forall_mem_append] at encodable
      rcases exists_headForm encodable.1 with ⟨declaration, used, rfl, isHead⟩
      rcases exists_bodyForm thenBody encodable.2.1 with ⟨inner, isBody⟩
      rcases exists_bodyForm elseBody encodable.2.2 with ⟨otherInner, isElse⟩
      exact ⟨_, _, .ifElse isHead isBody isElse⟩
  | .tryCatch head body catches =>
      rw [Instr.visited, if_pos rfl, List.forall_mem_cons, List.forall_mem_append] at encodable
      rcases encodable with ⟨⟨encodableHead, areIndices⟩, inBody, inCatches⟩
      rcases exists_headForm encodableHead with ⟨declaration, used, rfl, isHead⟩
      rcases exists_bodyForm body inBody with ⟨inner, isBody⟩
      rcases exists_catchesForm catches areIndices inCatches with ⟨handlers, areCatches⟩
      exact ⟨_, _, .tryCatch isHead isBody areCatches⟩
  | .unreachable | .nop | .drop | .leave | .throwTag _ | .rethrow _ | .br _ | .brIf _ | .brTable ..
  | .call _ | .callIndirect .. | .select _ | .const _ | .unary _ | .binary _ | .compare _
  | .convert _ | .ternary _ | .localGet _ | .localSet _ | .localTee _ | .globalGet _ | .globalSet _
  | .load .. | .store .. | .memorySize _ | .memoryGrow _ | .memoryFill _ | .memoryCopy ..
  | .simd .. | .simdLane .. | .simdShuffle .. | .atomic .. | .refFunc _ | .other _ =>
      exact exists_instrForm_of_plain rfl encodable

theorem exists_bodyForm (body : List Instr) (encodable : Instr.EncodableBody types body) :
    ∃ used, BodyForm types used body := by
  match body with
  | [] => exact ⟨[], .nil⟩
  | instr :: others =>
      rw [Instr.EncodableBody, Instr.visitedOfList, List.forall_mem_append] at encodable
      rcases exists_instrForm instr encodable.1 with ⟨byte, used, first⟩
      rcases exists_bodyForm others encodable.2 with ⟨rest, later⟩
      exact ⟨_, .cons first later⟩

theorem exists_catchesForm (catches : List Catch)
    (areIndices : ∀ handler ∈ catches, ∀ tag ∈ handler.tag, tag.isIndex)
    (encodable : ∀ visited ∈ Catch.visitedOfList (fun _ => true) catches, visited.Encodable types) :
    ∃ used, CatchesForm types used catches := by
  match catches with
  | [] => exact ⟨[], .nil⟩
  | .handler tag body :: others =>
      rw [Catch.visitedOfList, List.forall_mem_append, Catch.visited] at encodable
      rcases List.forall_mem_cons.mp areIndices with ⟨isIndex, othersIndices⟩
      rcases exists_bodyForm body encodable.1 with ⟨inner, isBody⟩
      rcases exists_catchesForm others othersIndices encodable.2 with ⟨rest, later⟩
      cases tag with
      | none => exact ⟨_, .all isBody later⟩
      | some tag =>
          rcases exists_index (isIndex tag rfl) with ⟨tag, rfl⟩
          rcases exists_indexForm tag with ⟨tagForm, isTag⟩
          exact ⟨_, .tagged isTag isBody later⟩

end

end Binary

end WasmLowering
