import Mathlib.Data.FinEnum
import WasmLowering.C.Program
import WasmLowering.Symbol.Mangle

/-! Mangled names can be taken apart.

A symbol is a row of tokens, each of which either starts a component or is one byte
of a name. The first token of a row can be read off its characters, so that a symbol
has only one list of components. -/

namespace WasmLowering.Symbol

/-! ## Tokens -/

def tokenChars : Option UInt8 → List Char
  | none => ['Z', '_']
  | some byte => escape byte

def digitValue (digit : Char) : Nat :=
  if digit.isDigit then digit.toNat - '0'.toNat else digit.toNat - 'A'.toNat + 10

def firstToken : List Char → Option (Option UInt8)
  | 'Z' :: '_' :: _ => some none
  | 'Z' :: high :: low :: _ => some (some (.ofNat (digitValue high * 16 + digitValue low)))
  | char :: _ => some (some char.toUInt8)
  | [] => none

example : firstToken "Z2EZ5A_".toList = some (some 0x2E) := by decide

theorem plain_char {byte : UInt8} (plain : isPlain byte = true) :
    Char.ofUInt8 byte ≠ 'Z' ∧ (Char.ofUInt8 byte).toUInt8 = byte := by
  have all : ∀ byte : UInt8, isPlain byte = true →
      Char.ofUInt8 byte ≠ 'Z' ∧ (Char.ofUInt8 byte).toUInt8 = byte := by decide +kernel
  exact all byte plain

theorem hex_digits (byte : UInt8) :
    Text.capitalHexDigit (byte.toNat / 16) ≠ '_' ∧
      UInt8.ofNat (digitValue (Text.capitalHexDigit (byte.toNat / 16)) * 16 +
        digitValue (Text.capitalHexDigit (byte.toNat % 16))) = byte := by
  have all : ∀ byte : UInt8, Text.capitalHexDigit (byte.toNat / 16) ≠ '_' ∧
      UInt8.ofNat (digitValue (Text.capitalHexDigit (byte.toNat / 16)) * 16 +
        digitValue (Text.capitalHexDigit (byte.toNat % 16))) = byte := by decide +kernel
  exact all byte

theorem firstToken_tokenChars (token : Option UInt8) (rest : List Char) :
    firstToken (tokenChars token ++ rest) = some token := by
  cases token with
  | none => rfl
  | some byte =>
      simp only [tokenChars, escape]
      split
      · next plain =>
          rcases plain_char plain with ⟨notZ, isByte⟩
          simp [firstToken, notZ, isByte]
      · rcases hex_digits byte with ⟨notStart, isByte⟩
        show firstToken ('Z' :: Text.capitalHexDigit (byte.toNat / 16) :: _ :: rest) = _
        rw [firstToken]
        · exact congrArg (some ∘ some) isByte
        · exact notStart

theorem flatMap_tokenChars_injective : Function.Injective (List.flatMap tokenChars) := by
  intro first second equal
  induction first generalizing second with
  | nil =>
      cases second with
      | nil => rfl
      | cons token rest =>
          have reads := congrArg firstToken equal
          rw [List.flatMap_cons, firstToken_tokenChars] at reads
          cases reads
  | cons token rest induction =>
      cases second with
      | nil =>
          have reads := congrArg firstToken equal
          rw [List.flatMap_cons, firstToken_tokenChars] at reads
          cases reads
      | cons other others =>
          have reads := congrArg firstToken equal
          simp only [List.flatMap_cons, firstToken_tokenChars, Option.some.injEq] at reads equal
          subst reads
          rw [induction (List.append_cancel_left equal)]

/-! ## Components -/

def tokens (components : List (List UInt8)) : List (Option UInt8) :=
  components.flatMap fun name => none :: name.map some

theorem flatMap_component (components : List (List UInt8)) :
    components.flatMap component = (tokens components).flatMap tokenChars := by
  rw [tokens, List.flatMap_assoc]
  congr 1
  funext name
  simp [component, tokenChars, List.flatMap_map]

theorem names_eq_of_tokens {first second : List UInt8} {rest others : List (List UInt8)}
    (equal : first.map some ++ tokens rest = second.map some ++ tokens others) :
    first = second ∧ tokens rest = tokens others := by
  induction first generalizing second with
  | nil =>
      cases second with
      | nil => exact ⟨rfl, equal⟩
      | cons byte more => cases rest <;> simp [tokens] at equal
  | cons byte more induction =>
      cases second with
      | nil => cases others <;> simp [tokens] at equal
      | cons other following =>
          simp only [List.map_cons, List.cons_append, List.cons.injEq, Option.some.injEq] at equal
          rcases induction equal.2 with ⟨sameNames, sameRest⟩
          exact ⟨by rw [equal.1, sameNames], sameRest⟩

theorem tokens_injective : Function.Injective tokens := by
  intro first second equal
  induction first generalizing second with
  | nil => cases second <;> simp [tokens] at equal ⊢
  | cons name rest induction =>
      cases second with
      | nil => simp [tokens] at equal
      | cons other others =>
          have inside : name.map some ++ tokens rest = other.map some ++ tokens others :=
            List.cons.inj equal |>.2
          rcases names_eq_of_tokens inside with ⟨sameNames, sameRest⟩
          rw [sameNames, induction sameRest]

theorem flatMap_component_injective : Function.Injective (List.flatMap component) := by
  intro first second equal
  simp only [flatMap_component] at equal
  exact tokens_injective (flatMap_tokenChars_injective equal)

def spell (components : List (List UInt8)) : String :=
  String.ofList (components.flatMap component)

theorem spell_injective : Function.Injective spell := by
  intro first second equal
  exact flatMap_component_injective (String.ofList_injective equal)

theorem spell_cons (name : List UInt8) (rest : List (List UInt8)) :
    spell (name :: rest) = mangle name ++ spell rest := by
  simp [spell, mangle]

theorem spell_singleton (name : List UInt8) : spell [name] = mangle name := by
  simp [spell, mangle]

/-! ## Types -/

theorem letter_injective {first second : Scalar}
    (equal : (letter first).toUInt8 = (letter second).toUInt8) : first = second := by
  revert equal
  cases first <;> cases second <;> decide

theorem letter_ne_empty (type : Scalar) : (letter type).toUInt8 ≠ 'v'.toUInt8 := by
  cases type <;> decide

theorem letters_injective {first second : List Scalar}
    (equal : ofLetters (letters first) = ofLetters (letters second)) : first = second := by
  cases first with
  | nil =>
      cases second with
      | nil => rfl
      | cons type rest => exact absurd (List.cons.inj equal).1.symm (letter_ne_empty type)
  | cons type rest =>
      cases second with
      | nil => exact absurd (List.cons.inj equal).1 (letter_ne_empty type)
      | cons other others =>
          have mapped : (type :: rest).map (fun type => (letter type).toUInt8) =
              (other :: others).map fun type => (letter type).toUInt8 := by
            simpa [ofLetters, letters, Function.comp_def] using equal
          exact List.map_injective_iff.mpr (fun _ _ => letter_injective) mapped

theorem letters_ne_nil (types : List Scalar) : letters types ≠ [] := by
  cases types with
  | nil => exact List.cons_ne_nil _ _
  | cons type rest => exact List.cons_ne_nil _ _

/-- One result at most has one letter, so that those of the parameters are behind it. -/
theorem exists_result_letter (result : Option Scalar) :
    ∃ char, letters result.toList = [char] := by
  cases result with
  | none => exact ⟨'v', rfl⟩
  | some type => exact ⟨letter type, rfl⟩

end WasmLowering.Symbol

namespace WasmLowering.C.ObjectType

open WasmLowering.Symbol (letters letter ofLetters)

def components : ObjectType → List (List UInt8)
  | .func prototype => [ofLetters (letters prototype.result.toList ++ letters prototype.params)]
  | .number type => [ofLetters [letter type]]
  | .memory => []
  | .table => []

theorem func_eq_of_components {left right : Prototype}
    (equal : (func left).components = (func right).components) : left = right := by
  rcases Symbol.exists_result_letter left.result with ⟨leftChar, isLeft⟩
  rcases Symbol.exists_result_letter right.result with ⟨rightChar, isRight⟩
  have sameLetters := (List.cons.inj equal).1
  simp only [ofLetters, isLeft, isRight, List.cons_append, List.nil_append, List.map_cons,
    List.cons.injEq] at sameLetters
  have sameResult : left.result.toList = right.result.toList := by
    apply Symbol.letters_injective
    simp [ofLetters, isLeft, isRight, sameLetters.1]
  have sameParams : left.params = right.params := Symbol.letters_injective sameLetters.2
  have same : left.result = right.result := by
    simpa using congrArg List.head? sameResult
  cases left
  cases right
  simp_all

/-- A function has letters for its result and its parameters, a number has only one. -/
theorem func_components_ne_number (prototype : Prototype) (type : Scalar) :
    (func prototype).components ≠ (number type).components := by
  intro equal
  rcases Symbol.exists_result_letter prototype.result with ⟨char, isResult⟩
  have lengths := congrArg List.length (List.cons.inj equal).1
  simp [ofLetters, isResult] at lengths
  exact Symbol.letters_ne_nil prototype.params lengths

theorem eq_of_components {left right : ObjectType} (given : left.components ≠ [])
    (equal : left.components = right.components) : left = right := by
  cases left with
  | func prototype =>
      cases right with
      | func other => rw [func_eq_of_components equal]
      | number type => exact absurd equal (func_components_ne_number prototype type)
      | memory | table => exact absurd equal given
  | number type =>
      cases right with
      | func prototype => exact absurd equal.symm (func_components_ne_number prototype type)
      | number other =>
          simp only [components, ofLetters, List.map_cons, List.map_nil, List.cons.injEq,
            and_true] at equal
          rw [Symbol.letter_injective equal]
      | memory | table => exact absurd equal given
  | memory | table => exact absurd rfl given

end WasmLowering.C.ObjectType
