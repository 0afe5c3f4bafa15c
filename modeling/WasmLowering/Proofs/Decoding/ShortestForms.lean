import WasmLowering.Proofs.Decoding.Sketches

/-! What is written for a number is the shortest form that is read as it.

The writers take off groups until the rest fits into one. Every form ends in a group that
holds what the groups in front of it leave, so none ends earlier, and one that ends with the
written form has the same groups. -/

namespace WasmLowering.Binary

namespace Leb128

def Undercuts (bytes other : List UInt8) : Prop :=
  other = bytes ∨ bytes.length < other.length

theorem Undercuts.cons {bytes other : List UInt8} (undercuts : Undercuts bytes other)
    (byte : UInt8) : Undercuts (byte :: bytes) (byte :: other) := by
  rcases undercuts with same | shorter
  · exact .inl (congrArg (byte :: ·) same)
  · exact .inr (Nat.succ_lt_succ shorter)

theorem Undercuts.single (byte first : UInt8) {others : List UInt8} (more : others ≠ []) :
    Undercuts [byte] (first :: others) :=
  .inr (Nat.succ_lt_succ (List.length_pos_iff.mpr more))

/-! ## Unsigned numbers -/

theorem writeUnsigned_small (fuel : Nat) {value : Nat} (small : value < 128) :
    writeUnsigned fuel value = [.ofNat value] := by
  cases fuel with
  | zero => rw [writeUnsigned, Nat.mod_eq_of_lt small]
  | succ fuel => rw [writeUnsigned, if_pos small]

theorem Unsigned.undercut {bits : Nat} {used : List UInt8} {value : Nat}
    (form : Unsigned bits used value) {fuel : Nat} (enough : value < 128 ^ (fuel + 1)) :
    Undercuts (writeUnsigned fuel value) used := by
  induction form generalizing fuel with
  | @last bits byte ends fits =>
      rw [writeUnsigned_small fuel ends, UInt8.ofNat_toNat]
      exact .inl rfl
  | @more bits byte others high goesOn wide later induction =>
      have isByte := byte.toNat_lt
      by_cases small : byte.toNat - 128 + 128 * high < 128
      · rw [writeUnsigned_small fuel small]
        exact .single _ byte later.ne_nil
      · cases fuel with
        | zero => exact absurd enough small
        | succ fuel =>
            have isLow : (byte.toNat - 128 + 128 * high) % 128 + 128 = byte.toNat := by omega
            have isHigh : (byte.toNat - 128 + 128 * high) / 128 = high := by omega
            rw [Nat.pow_succ] at enough
            rw [writeUnsigned, if_neg small, isLow, isHigh, UInt8.ofNat_toNat]
            exact (induction (by omega)).cons byte

theorem Unsigned.widen {bits wider : Nat} {used : List UInt8} {value : Nat}
    (form : Unsigned bits used value) (atLeast : bits ≤ wider) : Unsigned wider used value := by
  induction form generalizing wider with
  | last ends fits =>
      exact .last ends (Nat.lt_of_lt_of_le fits (Nat.pow_le_pow_right Nat.two_pos atLeast))
  | more goesOn wide later induction =>
      exact .more goesOn (by omega) (induction (by omega))

/-! ## Signed numbers -/

theorem writeSigned_small (fuel : Nat) {value : Int} (small : -64 ≤ value ∧ value < 64) :
    writeSigned fuel value = [.ofNat (value % 128).toNat] := by
  cases fuel with
  | zero => rw [writeSigned]
  | succ fuel => rw [writeSigned, if_pos (by simpa using small)]

theorem Signed.undercut {bits : Nat} {used : List UInt8} {value : Int}
    (form : Signed bits used value) {fuel : Nat}
    (enough : -64 * 128 ^ fuel ≤ value ∧ value < 64 * 128 ^ fuel) :
    Undercuts (writeSigned fuel value) used := by
  induction form generalizing fuel with
  | @nonnegative bits byte ends fits =>
      have isByte : ((byte.toNat : Int) % 128).toNat = byte.toNat := by omega
      rw [writeSigned_small fuel (by omega), isByte, UInt8.ofNat_toNat]
      exact .inl rfl
  | @negative bits byte isNegative ends fits =>
      have isByte : (((byte.toNat : Int) - 128) % 128).toNat = byte.toNat := by omega
      rw [writeSigned_small fuel (by omega), isByte, UInt8.ofNat_toNat]
      exact .inl rfl
  | @more bits byte others high goesOn wide later induction =>
      have isByte := byte.toNat_lt
      by_cases small : -64 ≤ (byte.toNat : Int) - 128 + 128 * high ∧
          (byte.toNat : Int) - 128 + 128 * high < 64
      · rw [writeSigned_small fuel small]
        exact .single _ byte later.ne_nil
      · cases fuel with
        | zero => exact absurd (by simpa using enough) small
        | succ fuel =>
            have isLow : (((byte.toNat : Int) - 128 + 128 * high) % 128).toNat + 128 =
                byte.toNat := by omega
            have isHigh : ((byte.toNat : Int) - 128 + 128 * high) / 128 = high := by omega
            rw [pow_succ] at enough
            rw [writeSigned, if_neg (by simpa using small), isLow, isHigh, UInt8.ofNat_toNat]
            exact (induction (by omega)).cons byte

end Leb128

namespace Decoder

open Leb128 (Unsigned Signed Undercuts)

variable {α : Type} {decoder : Decoder α}

structure ReadsShortest (decoder : Decoder α) (bytes : List UInt8) (value : α) : Prop where
  reads : decoder.Reads bytes value
  shortest : ∀ start other rest,
    decoder ⟨start, other ++ rest⟩ = .ok value ⟨start + other.length, rest⟩ →
      other = bytes ∨ bytes.length < other.length

theorem Exact.readsShortest {grammar : List UInt8 → α → Prop} (exact : decoder.Exact grammar)
    {bytes : List UInt8} {value : α} (derived : grammar bytes value)
    (undercuts : ∀ other, grammar other value → Undercuts bytes other) :
    decoder.ReadsShortest bytes value where
  reads := exact.reads derived
  shortest start other rest read := by
    rcases (exact start _ value _).mp read with ⟨used, left, isBytes, isForm, isAfter⟩
    have sameRest : rest = left := congrArg Reader.rest isAfter
    rw [sameRest] at isBytes
    rw [List.append_cancel_right isBytes]
    exact undercuts used isForm

theorem u32_readsShortest (value : UInt32) : u32.ReadsShortest (encodeU32 value) value :=
  u32_exact.readsShortest (encodeU32_form value) fun _ form =>
    form.undercut (Nat.lt_trans value.toNat_lt (by decide))

theorem u64_readsShortest (value : UInt32) :
    u64.ReadsShortest (encodeU32 value) value.toUInt64 := by
  have same : value.toUInt64.toNat = value.toNat := UInt32.toNat_toUInt64 value
  apply u64_exact.readsShortest
  · rw [same]
    exact (encodeU32_form value).widen (by decide)
  · rw [same]
    exact fun _ form => form.undercut (Nat.lt_trans value.toNat_lt (by decide))

/-- The signed readers differ in the numbers that fit, and the writer gives ten bytes room. -/
theorem signed_readsShortest {bits : Nat} (positive : 0 < bits) (narrow : bits ≤ 70)
    {value : Int64} (fits : -2 ^ (bits - 1) ≤ value.toInt ∧ value.toInt < 2 ^ (bits - 1)) :
    (signed bits).ReadsShortest (encodeS64 value) value.toInt := by
  have least := value.le_toInt
  have most := value.toInt_lt
  exact (signed_exact positive).readsShortest
    (Leb128.writeSigned_signed positive fits.1 fits.2 narrow)
    fun _ form => form.undercut (by omega)

/-- What is written for a number is read as it by every reader that it fits, and is the shortest
that is. -/
theorem numbers_written_shortest :
    (∀ value : UInt32, u32.ReadsShortest (encodeU32 value) value ∧
      u64.ReadsShortest (encodeU32 value) value.toUInt64) ∧
    ∀ value : Int64, s64.ReadsShortest (encodeS64 value) value.toInt ∧
      (-2 ^ 31 ≤ value.toInt ∧ value.toInt < 2 ^ 31 →
        s32.ReadsShortest (encodeS64 value) value.toInt) ∧
      (-2 ^ 32 ≤ value.toInt ∧ value.toInt < 2 ^ 32 →
        s33.ReadsShortest (encodeS64 value) value.toInt) := by
  refine ⟨fun value => ⟨u32_readsShortest value, u64_readsShortest value⟩, fun value => ?_⟩
  refine ⟨?_, fun fits => ?_, fun fits => ?_⟩
  · show (signed 64).ReadsShortest _ _
    exact signed_readsShortest (by decide) (by decide) ⟨value.le_toInt, value.toInt_lt⟩
  · show (signed 32).ReadsShortest _ _
    exact signed_readsShortest (by decide) (by decide) fits
  · show (signed 33).ReadsShortest _ _
    exact signed_readsShortest (by decide) (by decide) fits

/-- The least number of 33 bits takes five bytes. -/
theorem numbers_written_shortest_least :
    (-2 ^ 32 ≤ (-4294967296 : Int64).toInt ∧ (-4294967296 : Int64).toInt < 2 ^ 32) ∧
      encodeS64 (-4294967296) = [0x80, 0x80, 0x80, 0x80, 0x70] ∧
      s33.ReadsShortest (encodeS64 (-4294967296)) (-4294967296) := by
  rcases numbers_written_shortest with ⟨_, signed⟩
  have fits : -2 ^ 32 ≤ (-4294967296 : Int64).toInt ∧ (-4294967296 : Int64).toInt < 2 ^ 32 := by
    decide
  exact ⟨fits, by decide, (signed (-4294967296)).2.2 fits⟩

end Decoder

end WasmLowering.Binary
