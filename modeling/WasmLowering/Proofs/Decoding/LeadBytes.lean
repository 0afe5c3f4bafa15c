import WasmLowering.Proofs.Decoding.InstructionReading
import WasmLowering.Proofs.Decoding.Postcondition

/-! Instructions behind a leading byte.

Such an instruction is told by a number, of which its opcode keeps the low sixteen bits.
So two numbers give the same opcode exactly if these bits agree, and a number that is not
defined is read as the one that is left of it. -/

namespace WasmLowering

namespace Opcode

theorem toNat_code_behind (lead : UInt8) (number : UInt32) :
    (behind lead number).code.toNat = 2 ^ 16 * lead.toNat + number.toNat % 2 ^ 16 := by
  have small := lead.toNat_lt
  have isLow : number.toNat &&& 0xFFFF = number.toNat % 2 ^ 16 :=
    Nat.and_two_pow_sub_one_eq_mod number.toNat 16
  have isHigh : lead.toNat <<< 16 % 2 ^ 32 = 2 ^ 16 * lead.toNat := by
    rw [Nat.shiftLeft_eq]
    omega
  have below : number.toNat % 2 ^ 16 < 2 ^ 16 := Nat.mod_lt _ (by decide)
  calc (behind lead number).code.toNat
      = lead.toNat <<< 16 % 2 ^ 32 ||| number.toNat &&& 0xFFFF := rfl
    _ = 2 ^ 16 * lead.toNat ||| number.toNat % 2 ^ 16 := by rw [isLow, isHigh]
    _ = 2 ^ 16 * lead.toNat + number.toNat % 2 ^ 16 :=
        (Nat.two_pow_add_eq_or_of_lt below lead.toNat).symm

theorem behind_eq_iff {lead : UInt8} {first second : UInt32} :
    behind lead first = behind lead second ↔ first.toNat % 2 ^ 16 = second.toNat % 2 ^ 16 := by
  have isFirst := toNat_code_behind lead first
  have isSecond := toNat_code_behind lead second
  constructor
  · intro equal
    rw [equal] at isFirst
    omega
  · intro equal
    have sameCode : (behind lead first).code = (behind lead second).code := by
      apply UInt32.toNat_inj.mp
      rw [isFirst, isSecond, equal]
    exact congrArg Opcode.mk sameCode

theorem behind_mod (lead : UInt8) (number : UInt32) :
    behind lead number = behind lead (.ofNat (number.toNat % 2 ^ 16)) := by
  rw [behind_eq_iff, UInt32.toNat_ofNat_of_lt']
  · exact (Nat.mod_mod _ _).symm
  · exact Nat.lt_trans (Nat.mod_lt _ (by decide)) (by decide)

theorem mod_of_behind_eq {lead : UInt8} {number : UInt32} {opcode : Opcode}
    (isOpcode : behind lead number = opcode) :
    number.toNat % 2 ^ 16 = opcode.code.toNat % 2 ^ 16 := by
  rw [← isOpcode, toNat_code_behind]
  omega

def leadBytes : List UInt8 := [miscByte, vectorByte, atomicByte]

end Opcode

namespace Binary.Decoder

open Leb128 (Unsigned)

def Begins (decoder : Decoder Instr) (used : List UInt8) (found : Instr) : Prop :=
  ∃ start rest after, decoder ⟨start, used ++ rest⟩ = .ok found after

/-! ## Decoders that read a number first -/

section Numbered

variable {next : UInt32 → Decoder Instr} {used : List UInt8} {number : UInt32} {found : Instr}

/-- Whatever the form of the number is, the decoder goes on with the number. -/
theorem Begins.yields (post : UInt32 → Instr → Prop)
    (given : ∀ number, (next number).Yields (post number)) (form : Unsigned 32 used number.toNat)
    (begins : Begins (u32 >>= next) used found) : post number found := by
  rcases begins with ⟨start, rest, after, succeeds⟩
  rcases bind_eq_ok_iff.mp succeeds with ⟨value, between, ran, later⟩
  have isNumber := ran.symm.trans (u32_exact.reads form start rest)
  rw [(EStateM.Result.ok.inj isNumber).1] at later
  exact given number between found after later

theorem Begins.of_number (form : Unsigned 32 used number.toNat) (operands : List UInt8)
    (later : ∃ found after, next number ⟨0 + used.length, operands⟩ = .ok found after) :
    ∃ found, Begins (u32 >>= next) used found := by
  rcases later with ⟨found, after, succeeds⟩
  exact ⟨found, 0, operands, after,
    bind_eq_ok_iff.mpr ⟨number, _, u32_exact.reads form 0 operands, succeeds⟩⟩

end Numbered

/-! ## Opcodes -/

variable {used : List UInt8} {number : UInt32} {found : Instr}

/-- A number behind the first leading byte is read only if it leaves one of the eighteen
that are defined. -/
theorem miscInstr_opcode (form : Unsigned 32 used number.toNat)
    (begins : miscInstr.Begins used found) :
    found.opcode = .behind Opcode.miscByte number ∧ number.toNat % 2 ^ 16 ≤ 17 := by
  refine Begins.yields (fun number found => found.opcode = .behind Opcode.miscByte number ∧
    number.toNat % 2 ^ 16 ≤ 17) ?_ form begins
  intro number
  have low : ∀ {opcode}, Opcode.behind Opcode.miscByte number = opcode →
      opcode.code.toNat % 2 ^ 16 ≤ 17 → number.toNat % 2 ^ 16 ≤ 17 :=
    fun isOpcode small => (Opcode.mod_of_behind_eq isOpcode).trans_le small
  dsimp only
  split
  all_goals first
    | exact .throw _ _
    | next isOpcode =>
        have small := low isOpcode (by decide)
        first
          | exact .pure ⟨rfl, small⟩
          | exact .bind' fun _ => .pure ⟨rfl, small⟩
          | exact .bind' fun _ => .bind' fun _ => .pure ⟨rfl, small⟩
          | exact .bind' fun _ => .pure ⟨isOpcode.symm, small⟩
          | exact .bind' fun _ => .bind' fun _ => .pure ⟨isOpcode.symm, small⟩

theorem miscInstr_begins (form : Unsigned 32 used number.toNat)
    (defined : number.toNat % 2 ^ 16 ≤ 17) : ∃ found, miscInstr.Begins used found := by
  -- None of the eighteen needs more than two operands, and a zero byte is one.
  refine Begins.of_number form [0, 0] ?_
  rw [Opcode.behind_mod]
  generalize number.toNat % 2 ^ 16 = left at defined
  interval_cases left
  all_goals exact ⟨_, _, rfl⟩

theorem vectorInstr_opcode (form : Unsigned 32 used number.toNat)
    (begins : vectorInstr.Begins used found) : found.opcode = .behind Opcode.vectorByte number := by
  refine Begins.yields (fun number found => found.opcode = .behind Opcode.vectorByte number)
    ?_ form begins
  intro number
  dsimp only
  split
  · exact .bind' fun _ => .pure rfl
  · split
    · exact .bind' fun _ => .bind' fun _ => .pure rfl
    · split
      · next isConst => exact .bind' fun _ => .pure isConst.symm
      · split
        · exact .bind' fun _ => .pure rfl
        · split
          · exact .bind' fun _ => .pure rfl
          · split
            · exact .pure rfl
            · exact .pure rfl

theorem atomicInstr_opcode (form : Unsigned 32 used number.toNat)
    (begins : atomicInstr.Begins used found) : found.opcode = .behind Opcode.atomicByte number := by
  refine Begins.yields (fun number found => found.opcode = .behind Opcode.atomicByte number)
    ?_ form begins
  intro number
  dsimp only
  split
  · exact .bind' fun _ => .pure rfl
  · exact .bind' fun _ => .pure rfl

variable {context : CodeContext} {body : Decoder Body} {fuel : Nat}

theorem leadInstr_opcode {lead : UInt8} (isLead : lead ∈ Opcode.leadBytes)
    (form : Unsigned 32 used number.toNat)
    (begins : (instr context body fuel lead).Begins used found) :
    found.opcode = .behind lead number := by
  simp only [Opcode.leadBytes, List.mem_cons, List.not_mem_nil, or_false] at isLead
  rcases isLead with rfl | rfl | rfl
  · exact (miscInstr_opcode form begins).1
  · exact vectorInstr_opcode form begins
  · exact atomicInstr_opcode form begins

/-- Numbers behind a leading byte are told apart by their low sixteen bits alone: these
decide whether a number is one of the eighteen behind the first leading byte, and numbers
of instructions that are read give the same opcode exactly if these bits agree. -/
theorem leadInstr_modulo (context : CodeContext) (body : Decoder Body) (fuel : Nat) :
    (∀ (used : List UInt8) (number : UInt32), Unsigned 32 used number.toNat →
      ((∃ found, (instr context body fuel Opcode.miscByte).Begins used found) ↔
        number.toNat % 2 ^ 16 ≤ 17)) ∧
    ∀ lead ∈ Opcode.leadBytes, ∀ (used others : List UInt8) (number other : UInt32),
      Unsigned 32 used number.toNat → Unsigned 32 others other.toNat →
        ∀ found different, (instr context body fuel lead).Begins used found →
          (instr context body fuel lead).Begins others different →
            (found.opcode = different.opcode ↔
              number.toNat % 2 ^ 16 = other.toNat % 2 ^ 16) := by
  constructor
  · intro used number form
    constructor
    · rintro ⟨found, begins⟩
      exact (miscInstr_opcode form begins).2
    · exact miscInstr_begins form
  · intro lead isLead used others number other form otherForm found different begins otherBegins
    rw [leadInstr_opcode isLead form begins, leadInstr_opcode isLead otherForm otherBegins]
    exact Opcode.behind_eq_iff

/-- The number 65536 is accepted behind the first leading byte, and behind the second one
it has the opcode of the number 0, although that one reads operands and this one none. -/
theorem leadInstr_modulo_aliased :
    Unsigned 32 [0x80, 0x80, 0x04] (65536 : UInt32).toNat ∧ Unsigned 32 [0x00] (0 : UInt32).toNat ∧
      (∃ found, (instr ⟨[], false⟩ (instrs ⟨[], false⟩ 0) 0 Opcode.miscByte).Begins
        [0x80, 0x80, 0x04] found) ∧
      (instr ⟨[], false⟩ (instrs ⟨[], false⟩ 0) 0 Opcode.vectorByte).Begins [0x80, 0x80, 0x04]
        (.simd (.behind Opcode.vectorByte 65536) 0) ∧
      (instr ⟨[], false⟩ (instrs ⟨[], false⟩ 0) 0 Opcode.vectorByte).Begins [0x00]
        (.simd (.behind Opcode.vectorByte 0) 5) ∧
      (Instr.simd (.behind Opcode.vectorByte 65536) 0).opcode =
        (Instr.simd (.behind Opcode.vectorByte 0) 5).opcode := by
  have form : Unsigned 32 [0x80, 0x80, 0x04] (65536 : UInt32).toNat :=
    .more (by decide) (by decide) (.more (by decide) (by decide) (.last (by decide) (by decide)))
  have zeroForm : Unsigned 32 [0x00] (0 : UInt32).toNat := .last (by decide) (by decide)
  have begins : (instr ⟨[], false⟩ (instrs ⟨[], false⟩ 0) 0 Opcode.vectorByte).Begins
      [0x80, 0x80, 0x04] (.simd (.behind Opcode.vectorByte 65536) 0) := ⟨0, [], _, rfl⟩
  have zeroBegins : (instr ⟨[], false⟩ (instrs ⟨[], false⟩ 0) 0 Opcode.vectorByte).Begins [0x00]
      (.simd (.behind Opcode.vectorByte 0) 5) := ⟨0, [0, 5], _, rfl⟩
  have holds := leadInstr_modulo ⟨[], false⟩ (instrs ⟨[], false⟩ 0) 0
  refine ⟨form, zeroForm, (holds.1 _ _ form).mpr (by decide), begins, zeroBegins, ?_⟩
  exact (holds.2 Opcode.vectorByte (by decide) _ _ _ _ form zeroForm _ _ begins zeroBegins).mpr
    (by decide)

/-- A number that is not defined is read as one that is, behind each of the leading
bytes. -/
theorem leadInstr_aliases :
    (Unsigned 32 [0x80, 0x80, 0x04] 65536 ∧ ¬65536 ≤ 17) ∧
      miscInstr ⟨0, [0x80, 0x80, 0x04]⟩ = .ok (.convert .i32TruncSatF32S) ⟨3, []⟩ ∧
      miscInstr ⟨0, [0x00]⟩ = .ok (.convert .i32TruncSatF32S) ⟨1, []⟩ ∧
      vectorInstr ⟨0, [0xCE, 0x80, 0x04]⟩ = .ok (.simd (.behind Opcode.vectorByte 0x4E) 0) ⟨3, []⟩ ∧
      vectorInstr ⟨0, [0x4E]⟩ = .ok (.simd (.behind Opcode.vectorByte 0x4E) 0) ⟨1, []⟩ ∧
      atomicInstr ⟨0, [0x83, 0x80, 0x04, 0]⟩ = .ok (.atomic .atomicFence (.index 0) 0) ⟨4, []⟩ ∧
      atomicInstr ⟨0, [0x03, 0]⟩ = .ok (.atomic .atomicFence (.index 0) 0) ⟨2, []⟩ := by
  have form : Unsigned 32 [0x80, 0x80, 0x04] 65536 :=
    .more (by decide) (by decide) (.more (by decide) (by decide) (.last (by decide) (by decide)))
  exact ⟨⟨form, by decide⟩, rfl, rfl, rfl, rfl, rfl, rfl⟩

end Binary.Decoder

end WasmLowering
