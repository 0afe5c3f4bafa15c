import WasmLowering.Proofs.Decoding.InstructionForms
import WasmLowering.Proofs.Decoding.Postcondition

/-! Decoded code stands by itself: it has no labels, refers to everything by position,
takes the signatures of its blocks and indirect calls from the type section, and its loads
and stores from the opcodes that access memory.

These are properties of single instructions, and what is known of every instruction
that is read is known of all that are visited in a body. So the decoder of instructions is
followed once, and all that is said of decoded code comes from `code_known`. -/

namespace WasmLowering

/-! ## Instructions by themselves -/

theorem Declaration.IsEntry.typeRef_isIndex {types : List FuncType} {declaration : Declaration}
    (isEntry : declaration.IsEntry types) :
    ∀ reference ∈ declaration.typeRef, reference.isIndex := by
  rcases isEntry with ⟨position, type, _, rfl⟩
  simp [Reference.isIndex]

theorem Declaration.IsBlockType.typeRef_isIndex {types : List FuncType} {declaration : Declaration}
    (isBlockType : declaration.IsBlockType types) :
    ∀ reference ∈ declaration.typeRef, reference.isIndex := by
  rcases isBlockType with rfl | ⟨type, _, rfl⟩ | isEntry
  · exact nofun
  · exact nofun
  · exact isEntry.typeRef_isIndex

def Opcode.constants : List Opcode :=
  [i32Const, i64Const, f32Const, f64Const, v128Const, globalGet, refFunc, refNull]

def Opcode.IsAccess (opcode : Opcode) : Prop :=
  opcode.info.opcodeClass = .load ∨ opcode.info.opcodeClass = .store

namespace Instr

def references : Instr → List Reference
  | .block head _ | .loop head _ | .ifElse head _ _ => head.declaration.typeRef.toList
  | .tryCatch head _ catches =>
      head.declaration.typeRef.toList ++ catches.filterMap Catch.tag
  | .throwTag reference | .rethrow reference | .br reference | .brIf reference | .call reference
  | .localGet reference | .localSet reference | .localTee reference
  | .globalGet reference | .globalSet reference
  | .memorySize reference | .memoryGrow reference | .memoryFill reference
  | .load _ reference _ _ | .store _ reference _ _ | .atomic _ reference _ => [reference]
  | .memoryCopy target source => [target, source]
  | .brTable targets otherwise => targets ++ [otherwise]
  | .callIndirect declaration table => declaration.typeRef.toList ++ [table]
  | .unreachable | .nop | .drop | .leave | .select _ | .const _ | .unary _ | .binary _
  | .compare _ | .convert _ | .ternary _ | .simd .. | .simdLane .. | .simdShuffle ..
  | .refFunc _ | .other _ => []

def called? : Instr → Option Declaration
  | .callIndirect declaration _ => some declaration
  | _ => none

def access? : Instr → Option (Opcode × UInt64)
  | .load opcode _ _ offset => some (opcode, offset)
  | .store opcode _ _ offset => some (opcode, offset)
  | _ => none

def AccessKnown (instr : Instr) : Prop :=
  ∀ opcode offset, instr.access? = some (opcode, offset) → opcode.IsAccess

structure Grounded (types : List FuncType) (instr : Instr) : Prop where
  heads : ∀ head ∈ instr.head?, head.Encodable types
  calls : ∀ declaration ∈ instr.called?, declaration.IsEntry types
  references : ∀ reference ∈ instr.references, reference.isIndex

structure Known (types : List FuncType) (instr : Instr) : Prop where
  grounded : instr.Grounded types
  access : instr.AccessKnown

def Each (property : Instr → Prop) (body : List Instr) : Prop :=
  ∀ instr ∈ visitedOfList (fun _ => true) body, property instr

def GroundedBody (types : List FuncType) (body : List Instr) : Prop :=
  ∀ instr ∈ visitedOfList (fun _ => true) body, instr.Grounded types

def AllConstant (body : List Instr) : Prop :=
  ∀ instr ∈ visitedOfList (fun _ => true) body, instr.opcode ∈ Opcode.constants

structure ConstantBody (types : List FuncType) (body : List Instr) : Prop where
  grounded : GroundedBody types body
  constant : AllConstant body

theorem ConstantBody.nil (types : List FuncType) : ConstantBody types [] := ⟨nofun, nofun⟩

variable {types : List FuncType} {instr : Instr}

theorem AccessKnown.of_none (noAccess : instr.access? = none) : instr.AccessKnown := by
  intro opcode offset isAccess
  rw [noAccess] at isAccess
  cases isAccess

theorem Grounded.plain (isPlain : instr.head? = none) (notCall : instr.called? = none)
    (areIndices : ∀ reference ∈ instr.references, reference.isIndex) : instr.Grounded types where
  heads := by simp [isPlain]
  calls := by simp [notCall]
  references := areIndices

theorem Grounded.structured {declaration : Declaration} (isBlockType : declaration.IsBlockType types)
    (isHead : instr.head? = some { declaration })
    (areIndices : ∀ reference ∈ instr.references,
      reference ∈ declaration.typeRef.toList ∨ reference.isIndex) : instr.Grounded types where
  heads := by
    rintro head isOther
    rw [isHead] at isOther
    cases isOther
    exact ⟨rfl, isBlockType⟩
  calls := by
    cases instr with
    | callIndirect => cases isHead
    | _ => exact nofun
  references reference member := by
    rcases areIndices reference member with isType | isIndex
    · exact isBlockType.typeRef_isIndex reference (Option.mem_toList.mp isType)
    · exact isIndex

theorem Each.mono {weak strong : Instr → Prop} {body : List Instr} (each : Each strong body)
    (weaker : ∀ instr, strong instr → weak instr) : Each weak body :=
  fun instr member => weaker instr (each instr member)

/-- A body has it if its first instruction has, by itself and in its bodies, and the
rest has. -/
theorem each_cons_iff {property : Instr → Prop} {rest : List Instr} :
    Each property (instr :: rest) ↔
      property instr ∧ (∀ body ∈ instr.bodies, Each property body) ∧ Each property rest := by
  unfold Each
  rw [visitedOfList, visited_eq, List.forall_mem_append, List.forall_mem_cons,
    List.forall_mem_flatMap, and_assoc]

end Instr

/-! ## Immediates -/

namespace Binary.Decoder

open Instr (Each Known GroundedBody ConstantBody)

theorem declarationOf_entry (types : List FuncType) (position : Index) :
    (declarationOf types position).Yields fun declaration => declaration.IsEntry types := by
  unfold declarationOf
  split
  · next type isType => exact .pure ⟨position, type, isType, rfl⟩
  · exact .throw _ _

theorem valueTypeOf_declared (byte : UInt8) :
    (valueTypeOf byte).Yields ValueType.IsDeclared := by
  unfold valueTypeOf
  split
  · next type isType =>
      refine .pure ?_
      have isByte : type.byte = byte := by
        unfold ValueType.declared? at isType
        split at isType <;> cases isType
        exact ValueType.byte_ofByte byte
      rw [ValueType.IsDeclared, isByte, isType]
  · exact .throw _ _

theorem blockDeclaration_blockType (types : List FuncType) :
    (blockDeclaration types).Yields fun declaration => declaration.IsBlockType types := by
  refine .bind' fun number => .ite (.pure (.inl rfl)) (.ite ?_ ?_)
  · refine (valueTypeOf_declared _).bind fun type declared => ?_
    exact .pure (.inr (.inl ⟨type, declared, rfl⟩))
  · exact (declarationOf_entry types _).mono fun declaration isEntry => .inr (.inr isEntry)

theorem reference_index : reference.Yields fun reference => reference.isIndex :=
  .bind' fun _ => .pure rfl

theorem memoryArgument_index :
    memoryArgument.Yields fun argument => argument.memory.isIndex := by
  refine .bind' fun flags => ?_
  have offset : ∀ memory : Reference, memory.isIndex → Yields
      (do
        let exponent := flags &&& ~~~0x40
        if 32 ≤ exponent then throw (.alignment exponent.toNat)
        let offset ← u64
        return MemoryArgument.mk (1 <<< exponent) memory offset)
      (fun argument => argument.memory.isIndex) :=
    fun memory isIndex => .ite (.throw _ _) (.bind' fun _ => .pure isIndex)
  have first : Yields (pure (.index 0)) fun memory : Reference => memory.isIndex := .pure rfl
  exact .ite (reference_index.bind offset) (first.bind offset)

/-! ## Instructions and their bodies -/

structure Nested (types : List FuncType) (post : List Instr → Prop) (instr : Instr) : Prop where
  known : instr.Known types
  bodies : ∀ inner ∈ instr.bodies, post inner

variable {types : List FuncType} {post : List Instr → Prop}

namespace Nested

variable {instr : Instr}

theorem plain (isPlain : instr.head? = none) (notCall : instr.called? = none)
    (access : instr.AccessKnown) (areIndices : ∀ reference ∈ instr.references, reference.isIndex) :
    Nested types post instr where
  known := ⟨.plain isPlain notCall areIndices, access⟩
  bodies := by simp [Instr.bodies_of_head?_eq_none isPlain]

theorem single {reference : Reference} (isPlain : instr.head? = none)
    (notCall : instr.called? = none) (access : instr.AccessKnown)
    (isReference : instr.references = [reference]) (isIndex : reference.isIndex) :
    Nested types post instr :=
  .plain isPlain notCall access (by simpa [isReference] using isIndex)

theorem structured (grounded : instr.Grounded types) (noAccess : instr.access? = none)
    (bodies : ∀ inner ∈ instr.bodies, post inner) : Nested types post instr :=
  ⟨⟨grounded, .of_none noAccess⟩, bodies⟩

end Nested

theorem pure_nested {instr : Instr} (isPlain : instr.head? = none) (notCall : instr.called? = none)
    (noAccess : instr.access? = none) (noReferences : instr.references = []) :
    Yields (pure instr) (Nested types post) :=
  .pure (.plain isPlain notCall (.of_none noAccess) (by simp [noReferences]))

theorem single_nested {build : Reference → Instr}
    (isPlain : ∀ reference, (build reference).head? = none)
    (notCall : ∀ reference, (build reference).called? = none)
    (noAccess : ∀ reference, (build reference).access? = none)
    (isReference : ∀ reference, (build reference).references = [reference]) :
    Yields (do return build (← reference)) (Nested types post) :=
  reference_index.bind fun reference isIndex => .pure (.single (isPlain reference)
    (notCall reference) (.of_none (noAccess reference)) (isReference reference) isIndex)

theorem miscInstr_nested : miscInstr.Yields (Nested types post) := by
  refine .bind' fun number => ?_
  dsimp only
  split
  all_goals first
    | exact .throw _ _
    | exact pure_nested rfl rfl rfl rfl
    | exact .bind' fun _ => pure_nested rfl rfl rfl rfl
    | exact .bind' fun _ => .bind' fun _ => pure_nested rfl rfl rfl rfl
    | exact single_nested (fun _ => rfl) (fun _ => rfl) (fun _ => rfl) fun _ => rfl
    | skip
  · refine reference_index.bind fun target isTarget => ?_
    refine reference_index.bind fun source isSource => .pure (.plain rfl rfl (.of_none rfl) ?_)
    simp [Instr.references, isTarget, isSource]

theorem vectorInstr_nested : vectorInstr.Yields (Nested types post) := by
  refine .bind' fun number => .ite ?_ (.ite ?_ (.ite ?_ (.ite ?_ (.ite ?_ (.ite ?_ ?_)))))
  · exact .bind' fun _ => pure_nested rfl rfl rfl rfl
  · exact .bind' fun _ => .bind' fun _ => pure_nested rfl rfl rfl rfl
  · exact .bind' fun _ => pure_nested rfl rfl rfl rfl
  · exact .bind' fun _ => pure_nested rfl rfl rfl rfl
  · exact .bind' fun _ => pure_nested rfl rfl rfl rfl
  · exact pure_nested rfl rfl rfl rfl
  · exact pure_nested rfl rfl rfl rfl

theorem atomicInstr_nested : atomicInstr.Yields (Nested types post) := by
  refine .bind' fun number => .ite ?_ ?_
  · exact .bind' fun _ => .pure (.single rfl rfl (.of_none rfl) rfl rfl)
  · refine memoryArgument_index.bind fun argument isIndex => .pure ?_
    exact .single rfl rfl (.of_none rfl) rfl isIndex

theorem classInstr_nested (opcode : Opcode) (byte : UInt8) :
    (classInstr opcode byte).Yields (Nested types post) := by
  unfold classInstr
  split
  · next isLoad =>
      refine memoryArgument_index.bind fun argument isIndex => .pure (.single rfl rfl ?_ rfl isIndex)
      rintro _ _ ⟨⟩
      exact .inl isLoad
  · next isStore =>
      refine memoryArgument_index.bind fun argument isIndex => .pure (.single rfl rfl ?_ rfl isIndex)
      rintro _ _ ⟨⟩
      exact .inr isStore
  all_goals first
    | exact pure_nested rfl rfl rfl rfl
    | exact .throw _ _

variable {body : Decoder Body}

theorem finished_yields (given : body.Yields fun result => post result.1) (construct : String) :
    (finished construct body).Yields post :=
  given.bind fun _ holds => .ite (.pure holds) (.throw _ _)

theorem catches_yields (given : body.Yields fun result => post result.1) (fuel : Nat)
    (terminator : Terminator) :
    (catches body fuel terminator).Yields fun handlers =>
      (∀ tag ∈ handlers.filterMap Catch.tag, tag.isIndex) ∧
        ∀ inner ∈ handlers.map Catch.body, post inner := by
  induction fuel generalizing terminator with
  | zero => exact .throw _ _
  | succ fuel induction =>
      cases terminator with
      | finish => exact .pure ⟨nofun, nofun⟩
      | elseArm => exact .throw _ _
      | catchTag =>
          refine reference_index.bind fun tag isIndex => given.bind fun result holds => ?_
          refine (induction result.2).bind fun others known => .pure ⟨?_, ?_⟩
          · simpa [Catch.tag, isIndex] using known.1
          · exact List.forall_mem_cons.mpr ⟨holds, known.2⟩
      | catchAll =>
          refine given.bind fun result holds => ?_
          refine (induction result.2).bind fun others known => .pure ⟨?_, ?_⟩
          · simpa [Catch.tag] using known.1
          · exact List.forall_mem_cons.mpr ⟨holds, known.2⟩

theorem instr_nested (empty : post []) (given : body.Yields fun result => post result.1)
    (context : CodeContext) (fuel : Nat) (byte : UInt8) :
    (instr context body fuel byte).Yields (Nested context.types post) := by
  have block := blockDeclaration_blockType context.types
  unfold instr
  refine .ite miscInstr_nested (.ite vectorInstr_nested (.ite atomicInstr_nested ?_))
  dsimp only
  split
  all_goals first
    | exact pure_nested rfl rfl rfl rfl
    | exact single_nested (fun _ => rfl) (fun _ => rfl) (fun _ => rfl) fun _ => rfl
    | exact .bind' fun _ => pure_nested rfl rfl rfl rfl
    | exact classInstr_nested _ _
    | skip
  -- Structured instructions are left, and those with several references or a condition.
  · refine block.bind fun declaration isBlockType => ?_
    refine (finished_yields given "block").bind fun instrs holds => .pure (.structured ?_ rfl ?_)
    · exact .structured isBlockType rfl fun _ => .inl
    · exact List.forall_mem_singleton.mpr holds
  · refine block.bind fun declaration isBlockType => ?_
    refine (finished_yields given "loop").bind fun instrs holds => .pure (.structured ?_ rfl ?_)
    · exact .structured isBlockType rfl fun _ => .inl
    · exact List.forall_mem_singleton.mpr holds
  · refine block.bind fun declaration isBlockType => given.bind fun result holds => ?_
    have arms {elseBody : List Instr} (elseHolds : post elseBody) :
        Nested context.types post (.ifElse { declaration } result.1 elseBody) :=
      .structured (.structured isBlockType rfl fun _ => .inl) rfl
        (List.forall_mem_cons.mpr ⟨holds, List.forall_mem_singleton.mpr elseHolds⟩)
    split
    · exact .pure (arms empty)
    · exact (finished_yields given "else").bind fun instrs elseHolds => .pure (arms elseHolds)
    · exact .throw _ _
  · refine block.bind fun declaration isBlockType => given.bind fun result holds => ?_
    refine (catches_yields given _ _).bind fun handlers known => .pure (.structured ?_ rfl ?_)
    · refine .structured isBlockType rfl fun reference member => ?_
      exact (List.mem_append.mp member).imp_right (known.1 reference)
    · exact List.forall_mem_cons.mpr ⟨holds, known.2⟩
  · refine .bind' fun count => .bind' fun left => .ite (.throw _ _) ?_
    refine .bind (Yields.repeated (fun _ => reference_index) _ _) fun targets areIndices => ?_
    refine reference_index.bind fun otherwise isIndex => .pure (.plain rfl rfl (.of_none rfl) ?_)
    exact List.forall_mem_append.mpr ⟨areIndices.2, List.forall_mem_singleton.mpr isIndex⟩
  · refine .bind' fun position => (declarationOf_entry _ _).bind fun declaration isEntry => ?_
    refine reference_index.bind fun table isIndex => .pure ⟨⟨⟨nofun, ?_, ?_⟩, .of_none rfl⟩, nofun⟩
    · rintro _ ⟨⟩
      exact isEntry
    · refine List.forall_mem_append.mpr ⟨?_, List.forall_mem_singleton.mpr isIndex⟩
      simpa using isEntry.typeRef_isIndex
  · exact .bind' fun types => .ite (.throw _ _) (pure_nested rfl rfl rfl rfl)
  · refine .bind' fun callee => ?_
    split
    · exact pure_nested rfl rfl rfl rfl
    · exact pure_nested rfl rfl rfl rfl

/-! ## Code -/

theorem instrs_known (context : CodeContext) (fuel : Nat) :
    (instrs context fuel).Yields fun result => Each (Known context.types) result.1 := by
  induction fuel with
  | zero => exact .throw _ _
  | succ fuel induction =>
      refine .bind' fun first => ?_
      split
      · exact .pure nofun
      · refine .ite (.throw _ _) ?_
        refine .bind ((instr_nested nofun induction context fuel first).locateBy _)
          fun head nested => .ite (.throw _ _) ?_
        refine induction.bind fun result others => .pure ?_
        exact Instr.each_cons_iff.mpr ⟨nested.known, nested.bodies, others⟩

theorem code_known (context : CodeContext) :
    (code context).Yields fun result => Each (Known context.types) result.1 :=
  .bind' fun left => instrs_known context (left + 1)

theorem code_grounded (context : CodeContext) :
    (code context).Yields fun result => GroundedBody context.types result.1 :=
  (code_known context).mono fun _ known => known.mono fun _ instr => instr.grounded

/-! ## Constant code -/

theorem mem_constants {opcode : Opcode} (isConstant : isConstantOpcode opcode) :
    opcode ∈ Opcode.constants := by
  unfold isConstantOpcode at isConstant
  split at isConstant <;> first | decide | cases isConstant

theorem head?_of_constant {instr : Instr} (isConstant : isConstantOpcode instr.opcode) :
    instr.head? = none := by
  cases instr with
  | block | loop | ifElse | tryCatch => cases isConstant
  | _ => rfl

theorem allConstant_cons {instr : Instr} {rest : List Instr}
    (isConstant : isConstantOpcode instr.opcode) (others : Instr.AllConstant rest) :
    Instr.AllConstant (instr :: rest) := by
  refine List.forall_mem_append.mpr ⟨?_, others⟩
  rw [Instr.visited_of_head?_eq_none (head?_of_constant isConstant)]
  exact List.forall_mem_singleton.mpr (mem_constants isConstant)

theorem instrs_constant (types : List FuncType) (fuel : Nat) :
    (instrs ⟨types, true⟩ fuel).Yields fun result => Instr.AllConstant result.1 := by
  induction fuel with
  | zero => exact .throw _ _
  | succ fuel induction =>
      refine .bind' fun first => ?_
      split
      · exact .pure nofun
      · refine .ite (.throw _ _) (.bind' fun head => ?_)
        split
        · exact .throw _ _
        · next isConstant =>
            refine induction.bind fun result others => .pure ?_
            exact allConstant_cons (by simpa using isConstant) others

theorem constantCode_constant (types : List FuncType) :
    (constantCode types).Yields (ConstantBody types) := by
  have known : (code ⟨types, true⟩).Yields fun result => ConstantBody types result.1 := by
    intro reader result after ran
    refine ⟨code_grounded _ _ _ _ ran, ?_⟩
    exact Yields.bind' (fun left => instrs_constant types (left + 1)) _ _ _ ran
  exact known.bind fun _ holds => .ite (.pure holds) (.throw _ _)

end Binary.Decoder

end WasmLowering
