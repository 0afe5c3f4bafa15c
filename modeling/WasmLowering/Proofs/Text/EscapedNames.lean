import Mathlib.Data.FinEnum
import Mathlib.Data.List.Chain
import WasmLowering.C.Comment
import WasmLowering.Proofs.Text.Hexadecimal
import WasmLowering.Text.Utf8

/-! Names in comments: an escaped name does not end the comment, stays on its line, and can be
read back.

Whether a slash is escaped depends on what stands in front of it in the name. The escapes do not
change that: the last character that is written is a star only if the name has one there. -/

namespace WasmLowering.C

/-! ## Reading escapes -/

def isHexDigit (byte : UInt8) : Bool :=
  (0x30 ≤ byte && byte ≤ 0x39) || (0x61 ≤ byte && byte ≤ 0x66)

def hexByte? (high low : UInt8) : Option UInt8 :=
  if isHexDigit high && isHexDigit low then
    some (.ofNat (Text.hexValue [Char.ofUInt8 high, Char.ofUInt8 low]))
  else none

/-- Replaces every escape of a backslash, an x and two digits by the byte that it stands for. -/
def unescape : List UInt8 → List UInt8
  | 0x5C :: 0x78 :: high :: low :: rest =>
      match hexByte? high low with
      | some byte => byte :: unescape rest
      | none => 0x5C :: unescape (0x78 :: high :: low :: rest)
  | byte :: rest => byte :: unescape rest
  | [] => []

theorem unescape_cons {byte : UInt8} (plain : byte ≠ 0x5C) (rest : List UInt8) :
    unescape (byte :: rest) = byte :: unescape rest := by
  conv_lhs => unfold unescape
  split <;> simp_all

/-! ## What is written -/

def escapeOf (byte : UInt8) : List Char :=
  ['\\', 'x', Nat.digitChar (byte.toNat / 16), Nat.digitChar (byte.toNat % 16)]

theorem escapeOf_plain (byte : UInt8) :
    ∀ char ∈ escapeOf byte, 0x20 ≤ char.toNat ∧ char.toNat < 0x7F ∧ char ≠ '*' ∧ char ≠ '/' := by
  have all : ∀ byte : UInt8, (escapeOf byte).all (fun char =>
      decide (0x20 ≤ char.toNat ∧ char.toNat < 0x7F ∧ char ≠ '*' ∧ char ≠ '/')) = true := by
    decide +kernel
  intro char isIn
  exact of_decide_eq_true (List.all_eq_true.mp (all byte) char isIn)

theorem unescape_escapeOf (byte : UInt8) (rest : List UInt8) :
    unescape ((escapeOf byte).map Char.toUInt8 ++ rest) = byte :: unescape rest := by
  have digits : ∀ byte : UInt8, hexByte? (Nat.digitChar (byte.toNat / 16)).toUInt8
      (Nat.digitChar (byte.toNat % 16)).toUInt8 = some byte := by decide +kernel
  show unescape (0x5C :: 0x78 :: _ :: _ :: rest) = _
  rw [unescape, digits byte]

section

variable {previous : Option Char} {char : Char}

theorem lt_of_needsEscape (escaped : needsEscape previous char = true) : char.toNat < 0x80 := by
  simp only [needsEscape, Bool.or_eq_true, Bool.and_eq_true, decide_eq_true_eq] at escaped
  rcases escaped with ((control | delete) | rfl) | ⟨rfl, -⟩
  · omega
  · omega
  · decide
  · decide

theorem toNat_toUInt8 (isByte : char.toNat < 0x100) : char.toUInt8.toNat = char.toNat := by
  show char.val.toUInt8.toNat = char.val.toNat
  rw [UInt32.toNat_toUInt8]
  exact Nat.mod_eq_of_lt isByte

theorem ofUInt8_toUInt8 (isByte : char.toNat < 0x100) : Char.ofUInt8 char.toUInt8 = char := by
  apply Char.toNat_inj.mp
  exact toNat_toUInt8 isByte

theorem commentChar_cases (previous : Option Char) (char : Char) :
    commentChar previous char = escapeOf char.toUInt8 ∨
      needsEscape previous char = false ∧ commentChar previous char = [char] := by
  unfold commentChar
  split
  · next escaped =>
      have small := lt_of_needsEscape escaped
      have isByte : char.toUInt8.toNat = char.toNat := toNat_toUInt8 (by omega)
      left
      rw [Text.toList_hex_two (by omega), escapeOf, isByte]
  · next plain => exact .inr ⟨by simpa using plain, rfl⟩

end

theorem commentChars_plain (previous : Option Char) (chars : List Char) :
    ∀ char ∈ commentChars previous chars, 0x20 ≤ char.toNat ∧ char.toNat ≠ 0x7F := by
  induction chars generalizing previous with
  | nil => exact fun _ member => absurd member List.not_mem_nil
  | cons first rest induction =>
      intro char member
      rw [commentChars] at member
      rcases List.mem_append.mp member with here | behind
      · rcases commentChar_cases previous first with isText | ⟨plain, isText⟩
        · have known := escapeOf_plain first.toUInt8 char (isText ▸ here)
          exact ⟨known.1, known.2.1.ne⟩
        · rw [isText, List.mem_singleton] at here
          rw [here]
          simp [needsEscape] at plain
          exact ⟨plain.1.1.1, plain.1.1.2⟩
      · exact induction (some first) char behind

def StayOpen (first second : Char) : Prop := first = '*' → second ≠ '/'

/-- What is written does not end the comment, nor does it together with what stands in front
of it. A star there has to be one in the name as well. -/
theorem isChain_commentChars {previous : Option Char} {last : Char}
    (isStar : last = '*' → previous = some '*') (chars : List Char) :
    (last :: commentChars previous chars).IsChain StayOpen := by
  induction chars generalizing previous last with
  | nil => exact List.isChain_singleton last
  | cons char rest induction =>
      rw [commentChars]
      rcases commentChar_cases previous char with isText | ⟨plain, isText⟩
      · have known := escapeOf_plain char.toUInt8
        simp only [escapeOf, List.forall_mem_cons] at known
        rw [isText]
        refine .cons_cons (fun _ => known.1.2.2.2) (.cons_cons (fun _ => known.2.1.2.2.2) ?_)
        refine .cons_cons (fun _ => known.2.2.1.2.2.2) ?_
        refine .cons_cons (fun _ => known.2.2.2.1.2.2.2) ?_
        exact induction fun star => absurd star known.2.2.2.1.2.2.1
      · rw [isText]
        refine .cons_cons (fun star slash => ?_) (induction fun star => congrArg some star)
        rw [slash, isStar star] at plain
        exact absurd plain (by decide)

theorem not_infix_of_isChain {chars : List Char} (chain : chars.IsChain StayOpen) :
    ¬ ['*', '/'] <:+: chars := by
  intro closes
  have two := chain.infix closes
  simp [StayOpen] at two

/-! ## Bytes -/

theorem commentChars_bytes (previous : Option Char) {chars : List Char}
    (areBytes : ∀ char ∈ chars, char.toNat < 0x100) :
    ∀ char ∈ commentChars previous chars, char.toNat < 0x100 := by
  induction chars generalizing previous with
  | nil => exact fun _ member => absurd member List.not_mem_nil
  | cons first rest induction =>
      rw [List.forall_mem_cons] at areBytes
      rw [commentChars, List.forall_mem_append]
      refine ⟨?_, induction (some first) areBytes.2⟩
      rcases commentChar_cases previous first with isText | ⟨-, isText⟩
      · intro char member
        have known := escapeOf_plain first.toUInt8 char (isText ▸ member)
        omega
      · rw [isText]
        intro char member
        rw [List.mem_singleton.mp member]
        exact areBytes.1

/-- An escape is read as the byte that was written, and all else stands for itself. -/
theorem unescape_commentChars (previous : Option Char) {chars : List Char}
    (areBytes : ∀ char ∈ chars, char.toNat < 0x100) :
    unescape ((commentChars previous chars).map Char.toUInt8) = chars.map Char.toUInt8 := by
  induction chars generalizing previous with
  | nil => rfl
  | cons char rest induction =>
      rw [List.forall_mem_cons] at areBytes
      have behind := induction (some char) areBytes.2
      rw [commentChars, List.map_append, List.map_cons]
      rcases commentChar_cases previous char with isText | ⟨plain, isText⟩
      · rw [isText, unescape_escapeOf, behind]
      · have notBackslash : char.toUInt8 ≠ 0x5C := by
          intro same
          have isBackslash : char = '\\' := by
            rw [← ofUInt8_toUInt8 areBytes.1, same]
            rfl
          rw [isBackslash] at plain
          simp [needsEscape] at plain
        rw [isText, List.map_singleton, List.singleton_append, unescape_cons notBackslash, behind]

theorem toUInt8_ofUInt8 (byte : UInt8) : (Char.ofUInt8 byte).toUInt8 = byte := by
  apply UInt8.toNat_inj.mp
  exact toNat_toUInt8 byte.toNat_lt

def latin (bytes : List UInt8) : List Char := bytes.map Char.ofUInt8

theorem latin_bound (bytes : List UInt8) : ∀ char ∈ latin bytes, char.toNat < 0x100 := by
  intro char member
  rcases List.mem_map.mp member with ⟨byte, -, rfl⟩
  exact byte.toNat_lt

theorem map_toUInt8_latin (bytes : List UInt8) : (latin bytes).map Char.toUInt8 = bytes := by
  rw [latin, List.map_map]
  exact List.map_id'' toUInt8_ofUInt8 bytes

theorem latin_commentBytes (bytes : List UInt8) :
    latin (commentBytes bytes) = commentChars none (latin bytes) := by
  rw [latin, commentBytes, List.map_map]
  refine (List.map_congr_left fun char member => ?_).trans (List.map_id _)
  exact ofUInt8_toUInt8 (commentChars_bytes none (latin_bound bytes) char member)

/-- The bytes that are written hold no control byte, so they stay on their line. -/
theorem commentBytes_plain (bytes : List UInt8) :
    ∀ byte ∈ commentBytes bytes, 0x20 ≤ byte ∧ byte ≠ 0x7F := by
  intro byte member
  have isChar : Char.ofUInt8 byte ∈ commentChars none (latin bytes) := by
    rw [← latin_commentBytes]
    exact List.mem_map_of_mem member
  have known := commentChars_plain none _ _ isChar
  refine ⟨known.1, fun delete => known.2 ?_⟩
  rw [delete]
  rfl

theorem commentBytes_open (bytes : List UInt8) : ¬ [0x2A, 0x2F] <:+: commentBytes bytes := by
  intro closes
  have chain : (' ' :: commentChars none (latin bytes)).IsChain StayOpen :=
    isChain_commentChars (by decide) (latin bytes)
  apply not_infix_of_isChain chain.tail
  rw [List.tail_cons, ← latin_commentBytes]
  exact closes.map Char.ofUInt8

theorem unescape_commentBytes (bytes : List UInt8) : unescape (commentBytes bytes) = bytes :=
  (unescape_commentChars none (latin_bound bytes)).trans (map_toUInt8_latin bytes)

/-! ## Texts -/

section

variable {previous other : Option Char}

theorem needsEscape_congr (same : previous = some '*' ↔ other = some '*') (char : Char) :
    needsEscape previous char = needsEscape other char := by
  simp only [needsEscape, same]

theorem needsEscape_high {char : Char} (high : 0x80 ≤ char.toNat) :
    needsEscape previous char = false := by
  by_contra escaped
  have low := lt_of_needsEscape (by simpa using escaped)
  omega

theorem commentChars_high {high : List Char} (areHigh : ∀ char ∈ high, 0x80 ≤ char.toNat)
    (given : high ≠ []) (previous : Option Char) (rest : List Char) :
    ∃ last, last ≠ some '*' ∧
      commentChars previous (high ++ rest) = high ++ commentChars last rest := by
  induction high generalizing previous with
  | nil => exact absurd rfl given
  | cons first others induction =>
      rw [List.forall_mem_cons] at areHigh
      have plain : commentChar previous first = [first] := if_neg (by
        rw [needsEscape_high areHigh.1]
        decide)
      rw [List.cons_append, commentChars, plain]
      cases others with
      | nil =>
          refine ⟨some first, ?_, rfl⟩
          rintro ⟨⟩
          exact absurd areHigh.1 (by decide)
      | cons second others =>
          rcases induction areHigh.2 (List.cons_ne_nil _ _) (some first) with ⟨last, noStar, isText⟩
          exact ⟨last, noStar, by rw [isText]; rfl⟩

end

theorem utf8_low {char : Char} (low : char.toNat < 0x80) :
    String.utf8EncodeChar char = [char.toUInt8] := by
  have single : char.utf8Size = 1 := Char.utf8Size_eq_one_iff.mpr (Nat.le_of_lt_succ low)
  rw [String.utf8EncodeChar_eq_singleton single, Char.toUInt8_val]

theorem utf8_high {char : Char} (high : 0x80 ≤ char.toNat) :
    String.utf8EncodeChar char ≠ [] ∧ ∀ byte ∈ String.utf8EncodeChar char, 0x80 ≤ byte.toNat := by
  have large : ¬ char.val.toNat ≤ 127 := Nat.not_le.mpr high
  rw [String.utf8EncodeChar, if_neg large]
  refine ⟨by split_ifs <;> exact List.cons_ne_nil _ _, ?_⟩
  split_ifs <;> simp only [List.forall_mem_cons, UInt8.toNat_ofNat'] <;>
    simp only [List.not_mem_nil, false_implies, implies_true, and_true] <;> omega

theorem flatMap_utf8 {chars : List Char} (low : ∀ char ∈ chars, char.toNat < 0x80) :
    chars.flatMap String.utf8EncodeChar = chars.map Char.toUInt8 := by
  induction chars with
  | nil => rfl
  | cons char rest induction =>
      rw [List.forall_mem_cons] at low
      rw [List.flatMap_cons, utf8_low low.1, induction low.2]
      rfl

theorem flatMap_commentChars {previous other : Option Char}
    (same : previous = some '*' ↔ other = some '*') (chars : List Char) :
    (commentChars previous chars).flatMap String.utf8EncodeChar =
      (commentChars other (latin (chars.flatMap String.utf8EncodeChar))).map Char.toUInt8 := by
  induction chars generalizing previous other with
  | nil => rfl
  | cons char rest induction =>
      rw [commentChars, List.flatMap_append, List.flatMap_cons, latin, List.map_append]
      rcases Nat.lt_or_ge char.toNat 0x80 with low | high
      · have isByte : (String.utf8EncodeChar char).map Char.ofUInt8 = [char] := by
          rw [utf8_low low, List.map_singleton, ofUInt8_toUInt8 (by omega)]
        have sameChar : commentChar previous char = commentChar other char := by
          rw [commentChar, needsEscape_congr same, commentChar]
        have areLow : ∀ written ∈ commentChar other char, written.toNat < 0x80 := by
          intro written member
          rcases commentChar_cases other char with isText | ⟨-, isText⟩
          · have known := escapeOf_plain char.toUInt8 written (isText ▸ member)
            omega
          · rw [isText, List.mem_singleton] at member
            exact member ▸ low
        rw [isByte, List.singleton_append, commentChars, List.map_append, sameChar,
          flatMap_utf8 areLow, induction Iff.rfl]
        rfl
      · have plain : commentChar previous char = [char] := if_neg (by
          rw [needsEscape_high high]
          decide)
        have notStar : some char ≠ some '*' := by
          rintro ⟨⟩
          exact absurd high (by decide)
        rcases utf8_high high with ⟨given, areHigh⟩
        have areHighChars :
            ∀ written ∈ latin (String.utf8EncodeChar char), 0x80 ≤ written.toNat := by
          intro written member
          rcases List.mem_map.mp member with ⟨byte, isByte, rfl⟩
          exact areHigh byte isByte
        rcases commentChars_high areHighChars (List.map_eq_nil_iff.not.mpr given) other
          (latin (rest.flatMap String.utf8EncodeChar)) with ⟨last, lastNotStar, isText⟩
        rw [plain, List.flatMap_singleton, ← latin, ← latin, isText, List.map_append,
          map_toUInt8_latin, induction (iff_of_false notStar lastNotStar)]

/-- The bytes of an escaped text are those that are written for the bytes of the text. -/
theorem bytes_comment (text : String) :
    Text.bytes (comment text) = commentBytes (Text.bytes text) := by
  have isText := flatMap_commentChars (Iff.refl (none = some '*')) text.toList
  rw [← Text.bytes_ofList, ← Text.bytes_ofList, String.ofList_toList] at isText
  exact isText

end WasmLowering.C
