import WasmLowering.Proofs.Decoding.Numbers

/-! Reading the same bytes elsewhere, with others behind them.

What is read of some bytes is read of them too wherever they stand and when others follow,
although some decoders look at the number of bytes that are left: a list may not be longer
than that, and code is read with as much fuel. So code is steady, and what is said of code
that is read to its last byte holds of the same code inside a section. -/

namespace WasmLowering.Binary.Decoder

variable {α β : Type}

/-- What the first decoder reads the second reads too, wherever the bytes stand, and leaves
further bytes behind them. -/
def ExtendsTo (decoder wider : Decoder α) : Prop :=
  ∀ start other bytes extra value after, decoder ⟨start, bytes⟩ = .ok value after →
    ∃ used rest, bytes = used ++ rest ∧ after = ⟨start + used.length, rest⟩ ∧
      wider ⟨other, bytes ++ extra⟩ = .ok value ⟨other + used.length, rest ++ extra⟩

namespace ExtendsTo

theorem pure (value : α) : ExtendsTo (Pure.pure value : Decoder α) (Pure.pure value) := by
  intro start other bytes extra result after succeeds
  rcases pure_eq_ok_iff.mp succeeds with ⟨rfl, rfl⟩
  exact ⟨[], bytes, rfl, rfl, rfl⟩

theorem throw (error : DecodeError) (wider : Decoder α) :
    ExtendsTo (MonadExcept.throw error) wider :=
  nofun

theorem bind {first wider : Decoder α} {next widerNext : α → Decoder β}
    (given : first.ExtendsTo wider) (later : ∀ value, (next value).ExtendsTo (widerNext value)) :
    ExtendsTo (first >>= next) (wider >>= widerNext) := by
  intro start other bytes extra result after succeeds
  rcases bind_eq_ok_iff.mp succeeds with ⟨value, between, ran, goesOn⟩
  rcases given start other bytes extra value between ran with ⟨used, left, rfl, rfl, ranWider⟩
  rcases later value _ (other + used.length) left extra result after goesOn with
    ⟨more, rest, rfl, rfl, goesOnWider⟩
  refine ⟨used ++ more, rest, by simp, by simp [Nat.add_assoc], ?_⟩
  refine bind_eq_ok_iff.mpr ⟨value, _, ranWider, ?_⟩
  simpa [Nat.add_assoc] using goesOnWider

theorem ite {condition : Prop} [Decidable condition] {yes no widerYes widerNo : Decoder α}
    (ifYes : yes.ExtendsTo widerYes) (ifNo : no.ExtendsTo widerNo) :
    ExtendsTo (if condition then yes else no) (if condition then widerYes else widerNo) := by
  split
  · exact ifYes
  · exact ifNo

theorem locateBy {decoder wider : Decoder α} (given : decoder.ExtendsTo wider)
    (place : Reader → Place) :
    ExtendsTo (Decoder.locateBy place decoder) (Decoder.locateBy place wider) := by
  intro start other bytes extra value after succeeds
  simp only [locateBy_eq_ok_iff] at succeeds ⊢
  exact given start other bytes extra value after succeeds

theorem repeated {step : Nat → Decoder α} (given : ∀ number, (step number).ExtendsTo (step number))
    (count number : Nat) :
    ExtendsTo (Decoder.repeated step count number) (Decoder.repeated step count number) := by
  induction count generalizing number with
  | zero => exact .pure []
  | succ count induction =>
      exact (given number).bind fun value => (induction _).bind fun others => .pure _

theorem bounded {next wider : Decoder α} {count : Nat} {error : Nat → DecodeError}
    (given : next.ExtendsTo wider) :
    ExtendsTo
      (remaining >>= fun left =>
        if left < count then (MonadExcept.throw (error left) : Decoder PUnit) >>= fun _ => next
        else next)
      (remaining >>= fun left =>
        if left < count then (MonadExcept.throw (error left) : Decoder PUnit) >>= fun _ => wider
        else wider) := by
  intro start other bytes extra value after succeeds
  rcases bind_eq_ok_iff.mp succeeds with ⟨left, between, isLeft, ran⟩
  rcases remaining_eq_ok_iff.mp isLeft with ⟨rfl, rfl⟩
  split at ran
  · cases ran
  · next enough =>
      rcases given start other bytes extra value after ran with
        ⟨used, rest, isBytes, isAfter, ranWider⟩
      refine ⟨used, rest, isBytes, isAfter, ?_⟩
      refine bind_eq_ok_iff.mpr ⟨_, _, remaining_eq_ok_iff.mpr ⟨rfl, rfl⟩, ?_⟩
      have stillEnough : ¬(bytes ++ extra).length < count := by
        rw [List.length_append]
        exact fun short => enough (Nat.lt_of_le_of_lt (Nat.le_add_right _ _) short)
      rwa [if_neg stillEnough]

theorem steady {decoder : Decoder α} (given : decoder.ExtendsTo decoder) : decoder.Steady := by
  intro start other bytes value after succeeds
  simpa using given start other bytes [] value after succeeds

end ExtendsTo

theorem Exact.extends {decoder : Decoder α} {grammar : List UInt8 → α → Prop}
    (exact : decoder.Exact grammar) : decoder.ExtendsTo decoder := by
  intro start other bytes extra value after succeeds
  rcases (exact start bytes value after).mp succeeds with ⟨used, rest, rfl, derived, rfl⟩
  refine ⟨used, rest, rfl, rfl, ?_⟩
  rw [List.append_assoc]
  exact exact.reads derived other (rest ++ extra)

theorem Consumes.reads {decoder : Decoder α} (given : decoder.ExtendsTo decoder)
    {bytes : List UInt8} {value : α} (consumed : decoder.Consumes bytes value) :
    decoder.Reads bytes value := by
  intro start extra
  rcases given start start bytes extra value _ (consumed start) with
    ⟨used, rest, rfl, isAfter, ran⟩
  have noRest : [] = rest := congrArg Reader.rest isAfter
  simpa [← noRest] using ran

/-! ## Immediates -/

theorem byte_extends : byte.ExtendsTo byte := byte_exact.extends
theorem bytes_extends (count : Nat) : (bytes count).ExtendsTo (bytes count) :=
  (bytes_exact count).extends
theorem u32_extends : u32.ExtendsTo u32 := u32_exact.extends
theorem u64_extends : u64.ExtendsTo u64 := u64_exact.extends
theorem s32_extends : s32.ExtendsTo s32 := (signed_exact (by decide)).extends
theorem s33_extends : s33.ExtendsTo s33 := (signed_exact (by decide)).extends
theorem s64_extends : s64.ExtendsTo s64 := (signed_exact (by decide)).extends
theorem word32_extends : word32.ExtendsTo word32 := word32_exact.extends
theorem word64_extends : word64.ExtendsTo word64 := word64_exact.extends

theorem reference_extends : reference.ExtendsTo reference :=
  u32_extends.bind fun _ => .pure _

theorem valueTypeOf_extends (byte : UInt8) : (valueTypeOf byte).ExtendsTo (valueTypeOf byte) := by
  unfold valueTypeOf
  split
  · exact .pure _
  · exact .throw _ _

theorem valueType_extends : valueType.ExtendsTo valueType :=
  byte_extends.bind valueTypeOf_extends

theorem valueTypes_extends : valueTypes.ExtendsTo valueTypes :=
  u32_extends.bind fun _ => .bounded (.repeated (fun _ => valueType_extends) _ _)

theorem referenceType_extends : referenceType.ExtendsTo referenceType :=
  valueType_extends.bind fun _ => .ite (.pure _) (.throw _ _)

theorem declarationOf_extends (types : List FuncType) (position : Index) :
    (declarationOf types position).ExtendsTo (declarationOf types position) := by
  unfold declarationOf
  split
  · exact .pure _
  · exact .throw _ _

theorem blockDeclaration_extends (types : List FuncType) :
    (blockDeclaration types).ExtendsTo (blockDeclaration types) :=
  s33_extends.bind fun _ => .ite (.pure _)
    (.ite ((valueTypeOf_extends _).bind fun _ => .pure _) (declarationOf_extends types _))

theorem memoryArgument_extends : memoryArgument.ExtendsTo memoryArgument := by
  apply u32_extends.bind
  intro flags
  have offset : ∀ memory : Reference, ExtendsTo
      (do
        let exponent := flags &&& ~~~0x40
        if 32 ≤ exponent then throw (.alignment exponent.toNat)
        let offset ← u64
        return MemoryArgument.mk (1 <<< exponent) memory offset)
      (do
        let exponent := flags &&& ~~~0x40
        if 32 ≤ exponent then throw (.alignment exponent.toNat)
        let offset ← u64
        return MemoryArgument.mk (1 <<< exponent) memory offset) :=
    fun memory => .ite (.throw _ _) (u64_extends.bind fun _ => .pure _)
  exact .ite (reference_extends.bind offset) (.bind (.pure _) offset)

/-! ## Instructions -/

theorem miscInstr_extends : miscInstr.ExtendsTo miscInstr := by
  apply u32_extends.bind
  intro number
  dsimp only
  split
  all_goals first
    | exact .throw _ _
    | exact .pure _
    | exact u32_extends.bind fun _ => .pure _
    | exact u32_extends.bind fun _ => u32_extends.bind fun _ => .pure _
    | exact reference_extends.bind fun _ => .pure _
    | exact reference_extends.bind fun _ => reference_extends.bind fun _ => .pure _

theorem vectorInstr_extends : vectorInstr.ExtendsTo vectorInstr := by
  apply u32_extends.bind
  intro number
  apply ExtendsTo.ite (memoryArgument_extends.bind fun _ => .pure _)
  apply ExtendsTo.ite
  · exact memoryArgument_extends.bind fun _ => byte_extends.bind fun _ => .pure _
  apply ExtendsTo.ite ((bytes_extends 16).bind fun _ => .pure _)
  apply ExtendsTo.ite ((bytes_extends 16).bind fun _ => .pure _)
  apply ExtendsTo.ite (byte_extends.bind fun _ => .pure _)
  exact .ite (.pure _) (.pure _)

theorem atomicInstr_extends : atomicInstr.ExtendsTo atomicInstr :=
  u32_extends.bind fun _ => .ite (byte_extends.bind fun _ => .pure _)
    (memoryArgument_extends.bind fun _ => .pure _)

theorem classInstr_extends (opcode : Opcode) (byte : UInt8) :
    (classInstr opcode byte).ExtendsTo (classInstr opcode byte) := by
  unfold classInstr
  split
  all_goals first
    | exact .pure _
    | exact .throw _ _
    | exact memoryArgument_extends.bind fun _ => .pure _

section Bodies

variable {body wider : Decoder Body}

theorem finished_extends (given : body.ExtendsTo wider) (construct : String) :
    (finished construct body).ExtendsTo (finished construct wider) :=
  given.bind fun _ => .ite (.pure _) (.throw _ _)

theorem catches_extends (given : body.ExtendsTo wider) (fuel more : Nat)
    (terminator : Terminator) :
    (catches body fuel terminator).ExtendsTo (catches wider (fuel + more) terminator) := by
  induction fuel generalizing terminator with
  | zero => exact .throw _ _
  | succ fuel induction =>
      rw [Nat.succ_add]
      cases terminator with
      | finish => exact .pure _
      | elseArm => exact .throw _ _
      | catchTag =>
          apply reference_extends.bind
          intro tag
          apply given.bind
          intro result
          exact (induction result.2).bind fun others => .pure _
      | catchAll =>
          apply given.bind
          intro result
          exact (induction result.2).bind fun others => .pure _

theorem ifBodies_extends (given : body.ExtendsTo wider) (head : BlockHead) : ExtendsTo
    (do
      let (thenBody, terminator) ← body
      match terminator with
      | .finish => return Instr.ifElse head thenBody []
      | .elseArm => return .ifElse head thenBody (← finished "else" body)
      | terminator => throw (.wrongEnd "if" terminator.opcode))
    (do
      let (thenBody, terminator) ← wider
      match terminator with
      | .finish => return Instr.ifElse head thenBody []
      | .elseArm => return .ifElse head thenBody (← finished "else" wider)
      | terminator => throw (.wrongEnd "if" terminator.opcode)) := by
  apply given.bind
  intro ⟨thenBody, terminator⟩
  cases terminator with
  | finish => exact .pure _
  | elseArm => exact (finished_extends given "else").bind fun _ => .pure _
  | catchTag | catchAll => exact .throw _ _

theorem instr_extends (given : body.ExtendsTo wider) (context : CodeContext) (fuel more : Nat)
    (byte : UInt8) :
    (instr context body fuel byte).ExtendsTo (instr context wider (fuel + more) byte) := by
  have block := blockDeclaration_extends context.types
  have single : ∀ build : Reference → Instr,
      ExtendsTo (do return build (← reference)) (do return build (← reference)) :=
    fun build => reference_extends.bind fun _ => .pure _
  unfold instr
  apply ExtendsTo.ite miscInstr_extends
  apply ExtendsTo.ite vectorInstr_extends
  apply ExtendsTo.ite atomicInstr_extends
  dsimp only
  split
  all_goals first
    | exact .pure _
    | exact single _
    | exact u32_extends.bind fun _ => .pure _
    | exact s32_extends.bind fun _ => .pure _
    | exact s64_extends.bind fun _ => .pure _
    | exact word32_extends.bind fun _ => .pure _
    | exact word64_extends.bind fun _ => .pure _
    | exact referenceType_extends.bind fun _ => .pure _
    | exact valueTypes_extends.bind fun _ => .ite (.throw _ _) (.pure _)
    | exact block.bind fun _ => (finished_extends given _).bind fun _ => .pure _
    | exact block.bind fun _ => ifBodies_extends given _
    | exact block.bind fun _ => given.bind fun _ =>
        (catches_extends given _ _ _).bind fun _ => .pure _
    | exact u32_extends.bind fun _ => (declarationOf_extends _ _).bind fun _ => single _
    | exact u32_extends.bind fun _ =>
        .bounded ((ExtendsTo.repeated (fun _ => reference_extends) _ _).bind fun _ => single _)
    | exact classInstr_extends _ _

end Bodies

theorem instrs_extends (context : CodeContext) (fuel more : Nat) :
    (instrs context fuel).ExtendsTo (instrs context (fuel + more)) := by
  induction fuel with
  | zero => exact .throw _ _
  | succ fuel induction =>
      rw [Nat.succ_add]
      apply byte_extends.bind
      intro first
      split
      · exact .pure _
      · apply ExtendsTo.ite (.throw _ _)
        apply ((instr_extends induction context fuel more first).locateBy _).bind
        intro head
        exact .ite (.throw _ _) (induction.bind fun _ => .pure _)

theorem code_extends (context : CodeContext) : (code context).ExtendsTo (code context) := by
  intro start other bytes extra value after succeeds
  rcases bind_eq_ok_iff.mp succeeds with ⟨left, between, isLeft, ran⟩
  rcases remaining_eq_ok_iff.mp isLeft with ⟨rfl, rfl⟩
  rcases instrs_extends context (bytes.length + 1) extra.length _ other _ extra _ _ ran with
    ⟨used, rest, isBytes, isAfter, ranWider⟩
  refine ⟨used, rest, isBytes, isAfter, ?_⟩
  refine bind_eq_ok_iff.mpr ⟨_, _, remaining_eq_ok_iff.mpr ⟨rfl, rfl⟩, ?_⟩
  have fuel : (bytes ++ extra).length + 1 = bytes.length + 1 + extra.length := by
    rw [List.length_append]
    omega
  rwa [fuel]

end WasmLowering.Binary.Decoder
