import WasmLowering.Proofs.Decoding.InstructionReading

/-! The types of blocks.

The type of a block is a number: a negative one stands for nothing or for a value type,
and every other one for an entry of the type section. Of a negative number only the low
seven bits are compared with the bytes of types. So besides the forms of the grammar
there are others that are read, in which a number goes on behind the byte of a type;
these are all. -/

namespace WasmLowering.Binary

open Leb128 (Signed)

namespace Leb128

variable {bits : Nat} {used others : List UInt8} {value high : Int}

theorem Signed.lt (form : Signed bits used value) : value < 2 ^ (bits - 1) := by
  induction form with
  | nonnegative ends fits => exact fits
  | @negative bits byte isNegative ends fits =>
      have positive : (0 : Int) < 2 ^ (bits - 1) := by positivity
      omega
  | @more bits byte others high goesOn wide later induction =>
      have split : (2 : Int) ^ (bits - 1) = 128 * 2 ^ (bits - 7 - 1) := by
        rw [show (128 : Int) = 2 ^ 7 from rfl, ← pow_add]
        congr 1
        omega
      have small := byte.toNat_lt
      omega

theorem toNat_marked {byte : UInt8} (ends : byte.toNat < 128) :
    (byte + 0x80).toNat = byte.toNat + 128 := by
  rw [UInt8.toNat_add]
  exact Nat.mod_eq_of_lt (Nat.add_lt_add_right ends 128)

/-- The first byte of a negative number holds its low seven bits. Either it is the only
one, or the bits above it are a negative number too. -/
theorem Signed.low (form : Signed bits used value) (isNegative : value < 0) :
    ∃ byte : UInt8, byte.toNat < 128 ∧ (value % 128).toNat = byte.toNat ∧
      (used = [byte] ∨ ∃ others high, used = (byte + 0x80) :: others ∧
        value = byte.toNat + 128 * high ∧ Signed (bits - 7) others high ∧ high < 0) := by
  cases form with
  | nonnegative => omega
  | @negative _ byte _ ends =>
      refine ⟨byte, ends, ?_, .inl rfl⟩
      omega
  | @more _ byte others high goesOn wide later =>
      have small := byte.toNat_lt
      have isLow : (byte - 0x80).toNat = byte.toNat - 128 :=
        UInt8.toNat_sub_of_le _ _ (UInt8.le_iff_toNat_le.mpr goesOn)
      refine ⟨byte - 0x80, by omega, by omega, .inr ⟨others, high, ?_, by omega, later, by omega⟩⟩
      rw [UInt8.sub_add_cancel]

theorem Signed.marked {byte : UInt8} (ends : byte.toNat < 128) (wide : 7 < bits)
    (later : Signed (bits - 7) others high) :
    Signed bits ((byte + 0x80) :: others) (byte.toNat + 128 * high) := by
  have isMarked := toNat_marked ends
  have form : Signed bits ((byte + 0x80) :: others) _ := .more (by omega) wide later
  have isValue : ((byte + 0x80).toNat : Int) - 128 + 128 * high = byte.toNat + 128 * high := by
    omega
  rwa [isValue] at form

end Leb128

/-- What is read as the type of a block although the grammar does not have it: the byte of
an empty block or of a value type, marked to go on, and a negative number behind it. -/
inductive LongDeclarationForm : List UInt8 → Declaration → Prop where
  | empty {others : List UInt8} (later : Signed 26 others (-1)) :
      LongDeclarationForm ((0x40 + 0x80) :: others) {}
  | result {byte : UInt8} {type : ValueType} {others : List UInt8} {high : Int}
      (isType : ValueType.declared? byte = some type) (later : Signed 26 others high)
      (isNegative : high < 0) :
      LongDeclarationForm ((byte + 0x80) :: others) { signature := ⟨[], [type]⟩ }

namespace Decoder

variable {types : List FuncType} {declaration : Declaration}

theorem valueTypeOf_eq_ok_iff {byte : UInt8} {type : ValueType} {reader after : Reader} :
    valueTypeOf byte reader = .ok type after ↔
      ValueType.declared? byte = some type ∧ reader = after := by
  unfold valueTypeOf
  cases ValueType.declared? byte with
  | none => simp [not_throw_eq_ok]
  | some found => simp [pure_eq_ok_iff]

theorem declarationOf_eq_ok_iff {position : Index} {reader after : Reader} :
    declarationOf types position reader = .ok declaration after ↔
      (∃ type, types[position.toNat]? = some type ∧
        ⟨some (.index position), type.signature⟩ = declaration) ∧ reader = after := by
  unfold declarationOf
  cases types[position.toNat]? with
  | none => simp [not_throw_eq_ok]
  | some found => simp [pure_eq_ok_iff]

/-! ## What numbers stand for -/

theorem emptyForm {used : List UInt8} (form : Signed 33 used (-64)) :
    DeclarationForm types used {} ∨ LongDeclarationForm used {} := by
  rcases form.low (by decide) with ⟨byte, _, isLow, isSingle⟩
  have isByte : byte = 0x40 := UInt8.toNat_inj.mp isLow.symm
  subst isByte
  rcases isSingle with rfl | ⟨others, high, rfl, isValue, later, _⟩
  · exact .inl .empty
  · have isHigh : high = -1 := by
      simp only [UInt8.reduceToNat] at isValue
      omega
    exact .inr (.empty (isHigh ▸ later))

/-- Forms of a negative number whose low bits are the byte of a type. -/
theorem resultForm {used : List UInt8} {number : Int} {type : ValueType}
    (form : Signed 33 used number) (isNegative : number < 0)
    (isType : ValueType.declared? (.ofNat (number % 128).toNat) = some type) :
    DeclarationForm types used { signature := ⟨[], [type]⟩ } ∨
      LongDeclarationForm used { signature := ⟨[], [type]⟩ } := by
  rcases form.low isNegative with ⟨byte, _, isLow, isSingle⟩
  rw [isLow, UInt8.ofNat_toNat] at isType
  rcases isSingle with rfl | ⟨others, high, rfl, _, later, highNegative⟩
  · exact .inl (.result isType)
  · exact .inr (.result isType later highNegative)

theorem entryForm {used : List UInt8} {number : Int} {type : FuncType}
    (form : Signed 33 used number) (isPosition : 0 ≤ number)
    (isType : types[(UInt32.ofNat number.toNat).toNat]? = some type) :
    DeclarationForm types used ⟨some (.index (.ofNat number.toNat)), type.signature⟩ := by
  have below := form.lt
  have small : number.toNat < UInt32.size := by
    rw [UInt32.size]
    omega
  have isNumber : ((UInt32.ofNat number.toNat).toNat : Int) = number := by
    rw [UInt32.toNat_ofNat_of_lt' small]
    omega
  exact .entry (isNumber.symm ▸ form) isType

theorem longDeclaration_reads {used : List UInt8} (form : LongDeclarationForm used declaration) :
    (blockDeclaration types).Reads used declaration := by
  intro start rest
  cases form with
  | empty later =>
      have form : Signed 33 _ _ :=
        .marked (show (0x40 : UInt8).toNat < 128 by decide) (by decide) later
      exact bind_eq_ok_iff.mpr ⟨_, _, (signed_exact (by decide)).reads form start rest, rfl⟩
  | @result byte type others high isType later isNegative =>
      have bounds := declared_bounds isType
      have form : Signed 33 _ _ := .marked bounds.2 (by decide) later
      refine bind_eq_ok_iff.mpr ⟨_, _, (signed_exact (by decide)).reads form start rest, ?_⟩
      have isByte : UInt8.ofNat (((byte.toNat : Int) + 128 * high) % 128).toNat = byte := by
        have low : (((byte.toNat : Int) + 128 * high) % 128).toNat = byte.toNat := by omega
        rw [low, UInt8.ofNat_toNat]
      rw [if_neg (by omega), if_pos (by omega), isByte]
      exact (valueTypeOf_reads isType).map _ _ rest

/-- A block type is read from the forms of the grammar, and from those that go on behind
the byte of a type. -/
theorem blockDeclaration_exact (types : List FuncType) :
    (blockDeclaration types).Exact fun used declaration =>
      DeclarationForm types used declaration ∨ LongDeclarationForm used declaration := by
  intro start bytes declaration after
  constructor
  · intro succeeds
    rcases bind_eq_ok_iff.mp succeeds with ⟨number, between, ran, chosen⟩
    rcases (signed_exact (by decide) _ _ _ _).mp ran with ⟨used, rest, rfl, form, rfl⟩
    split at chosen
    · next isEmpty =>
        rcases pure_eq_ok_iff.mp chosen with ⟨rfl, rfl⟩
        exact ⟨used, rest, rfl, emptyForm (isEmpty ▸ form), rfl⟩
    · split at chosen
      · next isNegative =>
          rcases bind_eq_ok_iff.mp chosen with ⟨type, last, isRead, isResult⟩
          rcases valueTypeOf_eq_ok_iff.mp isRead with ⟨isType, rfl⟩
          rcases pure_eq_ok_iff.mp isResult with ⟨rfl, rfl⟩
          exact ⟨used, rest, rfl, resultForm form isNegative isType, rfl⟩
      · next isPosition =>
          rcases declarationOf_eq_ok_iff.mp chosen with ⟨⟨type, isType, rfl⟩, rfl⟩
          exact ⟨used, rest, rfl, .inl (entryForm form (Int.not_lt.mp isPosition) isType), rfl⟩
  · rintro ⟨used, rest, rfl, form | form, rfl⟩
    · exact blockDeclaration_reads form start rest
    · exact longDeclaration_reads form start rest

/-- Two bytes that are no type of a block in a module with one type: they are a form of
−129, and are read as the value type `i32`, which is −1. -/
theorem blockDeclaration_reads_beyond :
    blockDeclaration [{}] ⟨0, [0xFF, 0x7E]⟩ = .ok { signature := ⟨[], [.i32]⟩ } ⟨2, []⟩ ∧
      ¬∃ used rest declaration, [0xFF, 0x7E] = used ++ rest ∧
        DeclarationForm [{}] used declaration := by
  refine ⟨rfl, ?_⟩
  rintro ⟨used, rest, declaration, isBytes, form⟩
  cases form with
  | empty => cases isBytes
  | result isType =>
      cases isBytes
      exact absurd (declared_bounds isType).2 (by decide)
  | @entry _ position _ form _ =>
      have read := (signed_exact (by decide : 0 < 33)).reads form 0 rest
      rw [← isBytes] at read
      have isNumber : -129 = (position.toNat : Int) := (EStateM.Result.ok.inj read).1
      omega

end Decoder

end WasmLowering.Binary
