import WasmLowering.Proofs.Decoding.Numbers

/-! Which bytes are numbers, and what reading makes of all others.

The forms of `Numbers` follow the groups one by one. Here a number is what its digits to the
base 128 say, with as many bytes as its width has room for. Bytes begin in one of three
ways: they end while each of them calls for another one, there are as many such bytes
as a number may have at all, or a number stands there. The readers tell these apart and
refuse a number that does not fit. -/

namespace WasmLowering.Binary

namespace Leb128

/-! ## Digits -/

def AllContinue (bytes : List UInt8) : Prop :=
  ∀ byte ∈ bytes, 128 ≤ byte.toNat

def IsNumber (bytes : List UInt8) : Prop :=
  ∃ front last, bytes = front ++ [last] ∧ AllContinue front ∧ last.toNat < 128

def unsignedValue : List UInt8 → Nat
  | [] => 0
  | byte :: rest => group byte + 128 * unsignedValue rest

def signedValue (bytes : List UInt8) : Int :=
  (unsignedValue bytes : Int).bmod (128 ^ bytes.length)

namespace AllContinue

variable {byte : UInt8} {rest : List UInt8}

theorem nil : AllContinue [] :=
  nofun

theorem cons (continues : 128 ≤ byte.toNat) (others : AllContinue rest) :
    AllContinue (byte :: rest) := by
  intro other member
  cases member with
  | head => exact continues
  | tail _ member => exact others other member

theorem head (continuing : AllContinue (byte :: rest)) : 128 ≤ byte.toNat :=
  continuing byte List.mem_cons_self

theorem tail (continuing : AllContinue (byte :: rest)) : AllContinue rest :=
  fun other member => continuing other (List.mem_cons_of_mem byte member)

theorem left {front : List UInt8} (continuing : AllContinue (front ++ rest)) : AllContinue front :=
  fun other member => continuing other (List.mem_append_left rest member)

end AllContinue

theorem unsignedValue_append (front rest : List UInt8) :
    unsignedValue (front ++ rest) =
      unsignedValue front + unsignedValue rest * 128 ^ front.length := by
  induction front with
  | nil => simp [unsignedValue]
  | cons byte front induction =>
      rw [List.cons_append, unsignedValue, induction, unsignedValue, List.length_cons]
      ring

theorem unsignedValue_lt (bytes : List UInt8) : unsignedValue bytes < 2 ^ (7 * bytes.length) := by
  induction bytes with
  | nil => decide
  | cons byte rest induction =>
      have small : group byte < 128 := Nat.mod_lt _ (by decide)
      rw [unsignedValue, List.length_cons, pow_group]
      omega

theorem unsignedValue_concat (front : List UInt8) {last : UInt8} (ends : last.toNat < 128) :
    unsignedValue (front ++ [last]) =
      unsignedValue front + last.toNat * 2 ^ (7 * front.length) := by
  rw [unsignedValue_append, Nat.pow_mul]
  simp [unsignedValue, group, Nat.mod_eq_of_lt ends]

theorem signedValue_concat (front : List UInt8) {last : UInt8} (ends : last.toNat < 128) :
    signedValue (front ++ [last]) =
      unsignedValue front + lastValue last * 2 ^ (7 * front.length) := by
  have isModulus : 128 ^ (front ++ [last]).length = 128 * 2 ^ (7 * front.length) := by
    rw [List.length_append, List.length_singleton, ← pow_group, Nat.pow_mul]
  have isUnit : (2 : Int) ^ (7 * front.length) = (2 ^ (7 * front.length) : Nat) := by norm_cast
  have small := unsignedValue_lt front
  rw [signedValue, unsignedValue_concat front ends, isModulus, lastValue, isUnit]
  generalize (2 : Nat) ^ (7 * front.length) = unit at *
  push_cast
  split
  · next isNonnegative =>
      refine Int.bmod_eq_of_le_mul_two ?_ ?_
      · push_cast
        nlinarith
      · push_cast
        nlinarith
  · next isNegative =>
      have shifted : (unsignedValue front : Int) + last.toNat * unit =
          unsignedValue front + (last.toNat - 128) * unit + (128 * unit : Nat) := by
        push_cast
        ring
      rw [shifted, Int.add_bmod_right]
      refine Int.bmod_eq_of_le_mul_two ?_ ?_
      · push_cast
        nlinarith
      · push_cast
        nlinarith

/-! ## How bytes begin -/

/-- A format of numbers: how many bytes they have at most, what these stand for, and the
numbers that belong to it, from `least` on and below `bound`. -/
structure Format where
  limit : Nat
  value : List UInt8 → Int
  least : Int
  bound : Int

namespace Format

def unsigned (bits : Nat) : Format where
  limit := groups bits
  value bytes := unsignedValue bytes
  least := 0
  bound := 2 ^ bits

def signed (bits : Nat) : Format where
  limit := groups bits
  value := signedValue
  least := -2 ^ (bits - 1)
  bound := 2 ^ (bits - 1)

variable (format : Format)

/-- A number of no more bytes than the format allows, whatever its value. It need not be the
shortest form. -/
def Encodes (bytes : List UInt8) : Prop :=
  IsNumber bytes ∧ bytes.length ≤ format.limit

def InRange (bytes : List UInt8) : Prop :=
  format.least ≤ format.value bytes ∧ format.value bytes < format.bound

instance (bytes : List UInt8) : Decidable (format.InRange bytes) :=
  inferInstanceAs (Decidable (_ ∧ _))

def Overflows (bytes : List UInt8) : Prop :=
  AllContinue bytes ∧ bytes.length = format.limit ∨ format.Encodes bytes ∧ ¬format.InRange bytes

theorem begins (limit : Nat) (bytes : List UInt8) :
    (AllContinue bytes ∧ bytes.length < limit) ∨
      (∃ used rest, bytes = used ++ rest ∧ AllContinue used ∧ used.length = limit) ∨
      ∃ used rest, bytes = used ++ rest ∧ IsNumber used ∧ used.length ≤ limit := by
  induction limit generalizing bytes with
  | zero => exact .inr (.inl ⟨[], bytes, rfl, .nil, rfl⟩)
  | succ limit induction =>
      cases bytes with
      | nil => exact .inl ⟨.nil, Nat.succ_pos limit⟩
      | cons byte bytes =>
          by_cases continues : 128 ≤ byte.toNat
          · rcases induction bytes with unfinished | long | number
            · exact .inl ⟨.cons continues unfinished.1, Nat.succ_lt_succ unfinished.2⟩
            · rcases long with ⟨used, rest, rfl, continuing, isLimit⟩
              exact .inr (.inl ⟨byte :: used, rest, rfl, .cons continues continuing,
                congrArg Nat.succ isLimit⟩)
            · rcases number with ⟨_, rest, rfl, ⟨front, last, rfl, continuing, ends⟩, within⟩
              exact .inr (.inr ⟨byte :: (front ++ [last]), rest, rfl,
                ⟨byte :: front, last, rfl, .cons continues continuing, ends⟩,
                Nat.succ_le_succ within⟩)
          · exact .inr (.inr ⟨[byte], bytes, rfl,
              ⟨[], byte, rfl, .nil, Nat.lt_of_not_le continues⟩, by simp⟩)

/-! ## Readers that follow a format -/

variable {α : Type} (decoder : Decoder α) (number : α → Int)

structure Answers : Prop where
  unfinished : ∀ start bytes, AllContinue bytes → bytes.length < format.limit →
    decoder ⟨start, bytes⟩ = .error .endOfData ⟨start + bytes.length, []⟩
  overflow : ∀ start used rest, format.Overflows used →
    decoder ⟨start, used ++ rest⟩ =
      .error (.overflow (start + used.length)) ⟨start + used.length, rest⟩
  number : ∀ start used rest, format.Encodes used → format.InRange used →
    ∃ result, number result = format.value used ∧
      decoder ⟨start, used ++ rest⟩ = .ok result ⟨start + used.length, rest⟩

/-- A reader follows the format: it succeeds on bytes that begin with a number of it, with
that number, and fails on all others. The kind of failure tells bytes that end inside
a number from what is too long or too large. -/
structure ReadBy : Prop where
  ok_iff : ∀ start bytes result after, decoder ⟨start, bytes⟩ = .ok result after ↔
    ∃ used rest, bytes = used ++ rest ∧ format.Encodes used ∧ format.InRange used ∧
      number result = format.value used ∧ after = ⟨start + used.length, rest⟩
  endOfData_iff : ∀ start bytes after, decoder ⟨start, bytes⟩ = .error .endOfData after ↔
    AllContinue bytes ∧ bytes.length < format.limit ∧ after = ⟨start + bytes.length, []⟩
  overflow_iff : ∀ start bytes position after,
    decoder ⟨start, bytes⟩ = .error (.overflow position) after ↔
      ∃ used rest, bytes = used ++ rest ∧ format.Overflows used ∧
        position = start + used.length ∧ after = ⟨start + used.length, rest⟩
  no_other_error : ∀ start bytes error after, decoder ⟨start, bytes⟩ = .error error after →
    error = .endOfData ∨ ∃ position, error = .overflow position

variable {format decoder number}

namespace Answers

/-- It is enough to know what the reader makes of the last byte behind others that continue. -/
theorem ofLast (positive : 0 < format.limit)
    (unfinished : ∀ start front, AllContinue front → front.length < format.limit →
      decoder ⟨start, front⟩ = .error .endOfData ⟨start + front.length, []⟩)
    (tooMany : ∀ start front last rest, AllContinue front → 128 ≤ last.toNat →
      front.length + 1 = format.limit → decoder ⟨start, front ++ last :: rest⟩ =
        .error (.overflow (start + front.length + 1)) ⟨start + front.length + 1, rest⟩)
    (complete : ∀ start front last rest, AllContinue front → last.toNat < 128 →
      front.length < format.limit → ∃ result, number result = format.value (front ++ [last]) ∧
        decoder ⟨start, front ++ last :: rest⟩ =
          if format.InRange (front ++ [last]) then .ok result ⟨start + front.length + 1, rest⟩
          else .error (.overflow (start + front.length + 1)) ⟨start + front.length + 1, rest⟩) :
    format.Answers decoder number where
  unfinished := unfinished
  overflow start used rest overflows := by
    rcases overflows with ⟨continuing, isLimit⟩ | ⟨⟨isNumber, within⟩, outside⟩
    · rcases List.eq_nil_or_concat' used with rfl | ⟨front, last, rfl⟩
      · rw [← isLimit] at positive
        cases positive
      · have failed := tooMany start front last rest continuing.left
          (continuing last (by simp)) (by simpa using isLimit)
        simpa [Nat.add_assoc] using failed
    · rcases isNumber with ⟨front, last, rfl, continuing, ends⟩
      rw [List.length_append, List.length_singleton] at within
      rcases complete start front last rest continuing ends within with ⟨result, -, read⟩
      rw [if_neg outside] at read
      simpa [Nat.add_assoc] using read
  number start used rest encodes inRange := by
    rcases encodes with ⟨⟨front, last, rfl, continuing, ends⟩, within⟩
    rw [List.length_append, List.length_singleton] at within
    rcases complete start front last rest continuing ends within with ⟨result, isValue, read⟩
    rw [if_pos inRange] at read
    exact ⟨result, isValue, by simpa [Nat.add_assoc] using read⟩

variable (answers : format.Answers decoder number)
include answers

theorem outcome (start : Nat) (bytes : List UInt8) :
    (AllContinue bytes ∧ bytes.length < format.limit ∧
        decoder ⟨start, bytes⟩ = .error .endOfData ⟨start + bytes.length, []⟩) ∨
      (∃ used rest, bytes = used ++ rest ∧ format.Overflows used ∧ decoder ⟨start, bytes⟩ =
        .error (.overflow (start + used.length)) ⟨start + used.length, rest⟩) ∨
      ∃ used rest result, bytes = used ++ rest ∧ format.Encodes used ∧ format.InRange used ∧
        number result = format.value used ∧
        decoder ⟨start, bytes⟩ = .ok result ⟨start + used.length, rest⟩ := by
  rcases begins format.limit bytes with ⟨continuing, short⟩ | tooMany | isNumber
  · exact .inl ⟨continuing, short, answers.unfinished start bytes continuing short⟩
  · rcases tooMany with ⟨used, rest, rfl, continuing, isLimit⟩
    have overflows : format.Overflows used := .inl ⟨continuing, isLimit⟩
    exact .inr (.inl ⟨used, rest, rfl, overflows, answers.overflow start used rest overflows⟩)
  · rcases isNumber with ⟨used, rest, rfl, encodes⟩
    by_cases inRange : format.InRange used
    · rcases answers.number start used rest encodes inRange with ⟨result, isValue, ran⟩
      exact .inr (.inr ⟨used, rest, result, rfl, encodes, inRange, isValue, ran⟩)
    · have overflows : format.Overflows used := .inr ⟨encodes, inRange⟩
      exact .inr (.inl ⟨used, rest, rfl, overflows, answers.overflow start used rest overflows⟩)

theorem readBy (injective : Function.Injective number) : format.ReadBy decoder number where
  ok_iff start bytes result after := by
    constructor
    · intro ran
      rcases answers.outcome start bytes with ⟨-, -, failed⟩ | failed | succeeded
      · cases ran.symm.trans failed
      · rcases failed with ⟨used, rest, -, -, failed⟩
        cases ran.symm.trans failed
      · rcases succeeded with ⟨used, rest, other, isBytes, encodes, inRange, isValue, succeeded⟩
        cases ran.symm.trans succeeded
        exact ⟨used, rest, isBytes, encodes, inRange, isValue, rfl⟩
    · rintro ⟨used, rest, rfl, encodes, inRange, isValue, rfl⟩
      rcases answers.number start used rest encodes inRange with ⟨other, isOther, ran⟩
      rw [ran, injective (isOther.trans isValue.symm)]
  endOfData_iff start bytes after := by
    constructor
    · intro ran
      rcases answers.outcome start bytes with unfinished | failed | succeeded
      · rcases unfinished with ⟨continuing, short, failed⟩
        cases ran.symm.trans failed
        exact ⟨continuing, short, rfl⟩
      · rcases failed with ⟨used, rest, -, -, failed⟩
        cases ran.symm.trans failed
      · rcases succeeded with ⟨used, rest, other, -, -, -, -, succeeded⟩
        cases ran.symm.trans succeeded
    · rintro ⟨continuing, short, rfl⟩
      exact answers.unfinished start bytes continuing short
  overflow_iff start bytes position after := by
    constructor
    · intro ran
      rcases answers.outcome start bytes with ⟨-, -, failed⟩ | failed | succeeded
      · cases ran.symm.trans failed
      · rcases failed with ⟨used, rest, isBytes, overflows, failed⟩
        cases ran.symm.trans failed
        exact ⟨used, rest, isBytes, overflows, rfl, rfl⟩
      · rcases succeeded with ⟨used, rest, other, -, -, -, -, succeeded⟩
        cases ran.symm.trans succeeded
    · rintro ⟨used, rest, rfl, overflows, rfl, rfl⟩
      exact answers.overflow start used rest overflows
  no_other_error start bytes error after ran := by
    rcases answers.outcome start bytes with ⟨-, -, failed⟩ | failed | succeeded
    · cases ran.symm.trans failed
      exact .inl rfl
    · rcases failed with ⟨used, rest, -, -, failed⟩
      cases ran.symm.trans failed
      exact .inr ⟨_, rfl⟩
    · rcases succeeded with ⟨used, rest, other, -, -, -, -, succeeded⟩
      cases ran.symm.trans succeeded

theorem map {β : Type} {change : α → β} {other : β → Int}
    (same : ∀ used result, format.InRange used → number result = format.value used →
      other (change result) = format.value used) :
    format.Answers (do return change (← decoder)) other where
  unfinished start bytes continuing short := by
    have failed := answers.unfinished start bytes continuing short
    simp only [bind, EStateM.bind, failed]
  overflow start used rest overflows := by
    have failed := answers.overflow start used rest overflows
    simp only [bind, EStateM.bind, failed]
  number start used rest encodes inRange := by
    rcases answers.number start used rest encodes inRange with ⟨result, isValue, ran⟩
    refine ⟨change result, same used result inRange isValue, ?_⟩
    simp only [bind, EStateM.bind, ran]
    rfl

end Answers

end Format

/-! ## Unsigned numbers -/

section Unsigned

variable {bits shift : Nat}

/-- Bytes that others follow are gathered as long as there is room for the next group. -/
theorem unsignedFrom_append {front : List UInt8} (continuing : AllContinue front)
    (room : shift + 7 * front.length ≤ bits) (low start : Nat) (rest : List UInt8) :
    unsignedFrom bits shift low start (front ++ rest) =
      unsignedFrom bits (shift + 7 * front.length) (low + unsignedValue front * 2 ^ shift)
        (start + front.length) rest := by
  induction front generalizing shift low start with
  | nil => simp [unsignedValue]
  | cons byte front induction =>
      rw [List.length_cons] at room
      have wide : ¬bits < shift + 7 := by omega
      have isValue : low + group byte * 2 ^ shift + unsignedValue front * 2 ^ (shift + 7) =
          low + unsignedValue (byte :: front) * 2 ^ shift := by
        rw [unsignedValue, Nat.pow_add]
        ring
      have isShift : shift + 7 + 7 * front.length = shift + 7 * (byte :: front).length := by
        rw [List.length_cons]
        ring
      simp only [List.cons_append, unsignedFrom, wide, decide_false, Bool.false_and, continues,
        decide_eq_true continuing.head, if_true]
      rw [if_neg Bool.false_ne_true, Nat.pow_eq, induction continuing.tail (by omega), isValue,
        isShift, List.length_cons, Nat.add_assoc, Nat.add_comm 1]

theorem unsignedFrom_last (inside : shift ≤ bits) {low : Nat} (small : low < 2 ^ shift)
    (start : Nat) {last : UInt8} (ends : last.toNat < 128) (rest : List UInt8) :
    unsignedFrom bits shift low start (last :: rest) =
      if low + last.toNat * 2 ^ shift < 2 ^ bits then
        .ok (low + last.toNat * 2 ^ shift) ⟨start + 1, rest⟩
      else .error (.overflow (start + 1)) ⟨start + 1, rest⟩ := by
  have split : 2 ^ bits = 2 ^ (bits - shift) * 2 ^ shift := by
    rw [← Nat.pow_add, Nat.sub_add_cancel inside]
  have roomy : ¬bits < shift + 7 → 2 ^ 7 ≤ 2 ^ (bits - shift) :=
    fun isRoomy => Nat.pow_le_pow_right Nat.two_pos (by omega)
  have fits_iff : low + last.toNat * 2 ^ shift < 2 ^ bits ↔ last.toNat < 2 ^ (bits - shift) := by
    rw [split]
    constructor
    · intro fits
      by_contra large
      nlinarith
    · intro fits
      nlinarith
  have notContinues : continues last = false := decide_eq_false (Nat.not_le.mpr ends)
  simp only [unsignedFrom, overflows_iff, fits_iff, notContinues, group, Nat.mod_eq_of_lt ends,
    Nat.pow_eq]
  split
  · next overflows => rw [if_neg (Nat.not_lt.mpr overflows.2)]
  · next fits =>
      rw [if_neg Bool.false_ne_true, if_pos (by omega)]

/-- The last group for which there is room has no bit that calls for another one. -/
theorem unsignedFrom_tooLong (narrow : bits < shift + 7) {low start : Nat} {last : UInt8}
    (continuing : 128 ≤ last.toNat) (rest : List UInt8) :
    unsignedFrom bits shift low start (last :: rest) =
      .error (.overflow (start + 1)) ⟨start + 1, rest⟩ := by
  have least : 2 ^ (bits - shift) ≤ 2 ^ 7 := Nat.pow_le_pow_right Nat.two_pos (by omega)
  simp only [unsignedFrom, overflows_iff]
  rw [if_pos ⟨narrow, by omega⟩]

theorem Format.unsigned_inRange_iff {bytes : List UInt8} :
    (Format.unsigned bits).InRange bytes ↔ unsignedValue bytes < 2 ^ bits := by
  constructor
  · intro inRange
    have below : (unsignedValue bytes : Int) < 2 ^ bits := inRange.2
    exact_mod_cast below
  · intro fits
    have below : (unsignedValue bytes : Int) < 2 ^ bits := by exact_mod_cast fits
    exact ⟨Int.natCast_nonneg _, below⟩

/-- The width is no multiple of seven, so the last group is never full. -/
theorem Format.unsigned_answers (uneven : bits % 7 ≠ 0) :
    (Format.unsigned bits).Answers (Decoder.unsigned bits) Nat.cast := by
  have isLimit : (Format.unsigned bits).limit = (bits + 6) / 7 := rfl
  have gathered : ∀ start {front : List UInt8} (rest : List UInt8), AllContinue front →
      front.length < (Format.unsigned bits).limit →
      Decoder.unsigned bits ⟨start, front ++ rest⟩ =
        unsignedFrom bits (7 * front.length) (unsignedValue front) (start + front.length) rest := by
    intro start front rest continuing room
    have roomy : 0 + 7 * front.length ≤ bits := by omega
    have read := unsignedFrom_append continuing roomy 0 start rest
    simpa [Decoder.unsigned] using read
  refine .ofLast (by omega) ?_ ?_ ?_
  · intro start front continuing short
    have read := gathered start [] continuing short
    rwa [List.append_nil] at read
  · intro start front last rest continuing continues isLast
    rw [gathered start _ continuing (by omega), unsignedFrom_tooLong (by omega) continues]
  · intro start front last rest continuing ends within
    refine ⟨unsignedValue (front ++ [last]), rfl, ?_⟩
    rw [gathered start _ continuing (by omega),
      unsignedFrom_last (by omega) (unsignedValue_lt front) _ ends,
      ← unsignedValue_concat front ends]
    simp only [Format.unsigned_inRange_iff]

end Unsigned

/-! ## Signed numbers -/

section Signed

variable {bits count : Nat}

/-- Bytes that others follow are gathered as long as there may be another group. -/
theorem signedFrom_append {front : List UInt8} (continuing : AllContinue front)
    (room : count + front.length < groups bits) (low start : Nat) (rest : List UInt8) :
    signedFrom bits count low start (front ++ rest) =
      signedFrom bits (count + front.length) (low + unsignedValue front * 2 ^ (7 * count))
        (start + front.length) rest := by
  induction front generalizing count low start with
  | nil => simp [unsignedValue]
  | cons byte front induction =>
      rw [List.length_cons] at room
      have isValue : low + group byte * 2 ^ (7 * count) +
          unsignedValue front * 2 ^ (7 * (count + 1)) =
            low + unsignedValue (byte :: front) * 2 ^ (7 * count) := by
        rw [unsignedValue, pow_group]
        ring
      simp only [List.cons_append, signedFrom, continues, decide_eq_true continuing.head, if_true]
      rw [if_neg (show ¬groups bits ≤ count + 1 by omega), Nat.pow_eq,
        induction continuing.tail (by omega), isValue, List.length_cons, Nat.add_assoc count,
        Nat.add_assoc start, Nat.add_comm 1]

theorem signedFrom_last (low start : Nat) {last : UInt8} (ends : last.toNat < 128)
    (rest : List UInt8) :
    signedFrom bits count low start (last :: rest) =
      if fitsSigned bits (low + lastValue last * 2 ^ (7 * count)) then
        .ok (low + lastValue last * 2 ^ (7 * count)) ⟨start + 1, rest⟩
      else .error (.overflow (start + 1)) ⟨start + 1, rest⟩ := by
  have notContinues : continues last = false := decide_eq_false (Nat.not_le.mpr ends)
  simp only [signedFrom, notContinues, extended_eq low count ends]
  rfl

theorem signedFrom_tooLong (narrow : groups bits ≤ count + 1) {low start : Nat} {last : UInt8}
    (continuing : 128 ≤ last.toNat) (rest : List UInt8) :
    signedFrom bits count low start (last :: rest) =
      .error (.overflow (start + 1)) ⟨start + 1, rest⟩ := by
  simp only [signedFrom, continues, decide_eq_true continuing, if_true]
  rw [if_pos narrow]

theorem Format.signed_answers (positive : 0 < bits) :
    (Format.signed bits).Answers (Decoder.signed bits) id := by
  have isLimit : (Format.signed bits).limit = groups bits := rfl
  have isGroups : groups bits = (bits + 6) / 7 := rfl
  have gathered : ∀ start {front : List UInt8} (rest : List UInt8), AllContinue front →
      front.length < (Format.signed bits).limit →
      Decoder.signed bits ⟨start, front ++ rest⟩ =
        signedFrom bits front.length (unsignedValue front) (start + front.length) rest := by
    intro start front rest continuing room
    have roomy : 0 + front.length < groups bits := by omega
    have read := signedFrom_append continuing roomy 0 start rest
    simpa [Decoder.signed] using read
  refine .ofLast (by omega) ?_ ?_ ?_
  · intro start front continuing short
    have read := gathered start [] continuing short
    rwa [List.append_nil] at read
  · intro start front last rest continuing continues isLast
    rw [gathered start _ continuing (by omega), signedFrom_tooLong (by omega) continues]
  · intro start front last rest continuing ends within
    refine ⟨signedValue (front ++ [last]), rfl, ?_⟩
    have inRange : fitsSigned bits (signedValue (front ++ [last])) = true ↔
        (Format.signed bits).InRange (front ++ [last]) := by
      simp [InRange, Format.signed, fitsSigned]
    rw [gathered start _ continuing within, signedFrom_last _ _ ends,
      ← signedValue_concat front ends]
    simp only [inRange]

end Signed

end Leb128

/-! ## The readers of a module -/

namespace Decoder

open Leb128 (Format Unsigned Signed unsignedValue signedValue)

theorem u32_readBy : (Format.unsigned 32).ReadBy u32 fun result => result.toNat := by
  have answers : (Format.unsigned 32).Answers (unsigned 32) Nat.cast :=
    Format.unsigned_answers (by decide)
  refine (answers.map ?_).readBy ?_
  · intro used result inRange isValue
    have fits := Format.unsigned_inRange_iff.mp inRange
    rw [← Int.ofNat.inj isValue] at fits
    rw [UInt32.toNat_ofNat_of_lt' fits, isValue]
  · intro first second same
    exact UInt32.toNat_inj.mp (Int.ofNat.inj same)

theorem u64_readBy : (Format.unsigned 64).ReadBy u64 fun result => result.toNat := by
  have answers : (Format.unsigned 64).Answers (unsigned 64) Nat.cast :=
    Format.unsigned_answers (by decide)
  refine (answers.map ?_).readBy ?_
  · intro used result inRange isValue
    have fits := Format.unsigned_inRange_iff.mp inRange
    rw [← Int.ofNat.inj isValue] at fits
    rw [UInt64.toNat_ofNat_of_lt' fits, isValue]
  · intro first second same
    exact UInt64.toNat_inj.mp (Int.ofNat.inj same)

theorem signed_readBy {bits : Nat} (positive : 0 < bits) :
    (Format.signed bits).ReadBy (signed bits) id :=
  (Format.signed_answers positive).readBy Function.injective_id

/-- Every reader of numbers succeeds on just the bytes that begin with a number of its width, in
any form of as many bytes as hold that width, and gives that number. -/
theorem number_readers_follow_formats :
    ((Format.unsigned 32).ReadBy u32 fun result => result.toNat) ∧
      ((Format.unsigned 64).ReadBy u64 fun result => result.toNat) ∧
      (Format.signed 32).ReadBy s32 id ∧ (Format.signed 33).ReadBy s33 id ∧
      (Format.signed 64).ReadBy s64 id :=
  ⟨u32_readBy, u64_readBy, signed_readBy (by decide), signed_readBy (by decide),
    signed_readBy (by decide)⟩

example : u32 ⟨0, [0x83, 0x80, 0x00]⟩ = .ok 3 ⟨3, []⟩ := rfl

end Decoder

end WasmLowering.Binary
