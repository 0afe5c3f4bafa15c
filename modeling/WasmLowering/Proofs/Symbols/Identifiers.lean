import Mathlib.Data.FinEnum
import WasmLowering.C.Spelling
import WasmLowering.Proofs.Naming.Freshness

/-! Chosen symbols are identifiers that are free.

Different names can ask for the same symbol, and a symbol with a number behind it
can be what another name asks for. So nothing is said about which symbol a name gets:
whatever is taken, the search ends at a symbol that is not, and everything that it
tries is an identifier. -/

namespace WasmLowering.Symbol

open Naming (Takes)

/-! ## Identifiers -/

def startsIdentifier (char : Char) : Bool := char.isAlpha || char = '_'

def continuesIdentifier (char : Char) : Bool := char.isAlphanum || char = '_'

def isIdentifier (symbol : String) : Bool :=
  match symbol.toList with
  | [] => false
  | first :: rest => startsIdentifier first && rest.all continuesIdentifier

example : isIdentifier "_2d" = true := by decide
example : isIdentifier "2d" = false := by decide

theorem startsIdentifier_legalFirst (byte : UInt8) : startsIdentifier (legalFirst byte) = true := by
  have all : ∀ byte : UInt8, startsIdentifier (legalFirst byte) = true := by decide +kernel
  exact all byte

theorem continuesIdentifier_legalNext (byte : UInt8) :
    continuesIdentifier (legalNext byte) = true := by
  have all : ∀ byte : UInt8, continuesIdentifier (legalNext byte) = true := by decide +kernel
  exact all byte

theorem isIdentifier_legalize (name : List UInt8) : isIdentifier (legalize name) = true := by
  unfold isIdentifier legalize
  rw [String.toList_ofList]
  cases name with
  | nil => rfl
  | cons first rest =>
      simp only [legalChars, startsIdentifier_legalFirst, Bool.true_and]
      rw [List.all_map, List.all_eq_true]
      exact fun byte _ => continuesIdentifier_legalNext byte

theorem isIdentifier_append {symbol more : String} (starts : isIdentifier symbol = true)
    (continues : more.toList.all continuesIdentifier = true) :
    isIdentifier (symbol ++ more) = true := by
  unfold isIdentifier at *
  rw [String.toList_append]
  cases parts : symbol.toList with
  | nil => simp [parts] at starts
  | cons first rest =>
      simp only [parts, Bool.and_eq_true] at starts
      simp [starts.1, starts.2, continues]

theorem continuesIdentifier_toString (number : Nat) :
    (toString number).toList.all continuesIdentifier = true := by
  rw [Nat.toString_eq_ofList_toDigits, String.toList_ofList, List.all_eq_true]
  intro char member
  have isDigit := Nat.isDigit_of_mem_toDigits (by decide) (by decide) member
  simp [continuesIdentifier, Char.isAlphanum, isDigit]

theorem isIdentifier_candidate {symbol : String} (starts : isIdentifier symbol = true)
    (counter : Nat) : isIdentifier (candidate symbol counter) = true := by
  cases counter with
  | zero => exact starts
  | succ number =>
      apply isIdentifier_append _ (continuesIdentifier_toString number)
      exact isIdentifier_append starts (by decide)

/-! ## The search -/

theorem candidate_injective (symbol : String) : Function.Injective (candidate symbol) := by
  have longer : ∀ number : Nat, symbol ≠ symbol ++ "_" ++ toString number := by
    intro number equal
    have lengths := congrArg String.length equal
    simp only [String.length_append] at lengths
    have underscore : "_".length = 1 := rfl
    omega
  intro left right equal
  cases left with
  | zero =>
      cases right with
      | zero => rfl
      | succ right => exact absurd equal (longer right)
  | succ left =>
      cases right with
      | zero => exact absurd equal.symm (longer left)
      | succ right =>
          have digits := String.append_right_inj _ |>.mp equal
          rw [Naming.toString_injective digits]

theorem free_not_mem (taken : SymbolSet) (symbol : String) : free taken symbol ∉ taken := by
  have isFree : taken.contains (free taken symbol) = false := by
    exact Naming.leastFree_free (fun _ => Naming.mem_toList_of_contains) (by simp)
      (candidate_injective symbol) 0
  intro member
  rw [Std.ExtTreeSet.contains_iff_mem.mpr member] at isFree
  cases isFree

theorem isIdentifier_define (taken : SymbolSet) (name : String) :
    isIdentifier (define taken name).1 = true :=
  isIdentifier_candidate (isIdentifier_legalize _) _

theorem define_takes (taken : SymbolSet) (name : String) :
    Takes (isIdentifier · = true) taken (define taken name).2 [(define taken name).1] :=
  .insert (isIdentifier_define taken name) (free_not_mem taken _)

end WasmLowering.Symbol

namespace WasmLowering.C.Spelling

open Naming (Takes)
open WasmLowering.Symbol (SymbolSet isIdentifier)

theorem idents_choose (taken : SymbolSet) (idents : List Ident) :
    (choose taken idents).map (·.1) = idents := by
  induction idents generalizing taken with
  | nil => rfl
  | cons ident rest induction => simp [choose, induction]

theorem choose_takes (taken : SymbolSet) (idents : List Ident) :
    ∃ after, Takes (isIdentifier · = true) taken after ((choose taken idents).map (·.2)) := by
  induction idents generalizing taken with
  | nil => exact ⟨taken, .nil taken⟩
  | cons ident rest induction =>
      rcases induction (Symbol.define taken ident.wanted).2 with ⟨after, later⟩
      exact ⟨after, (Symbol.define_takes taken ident.wanted).append later⟩

end WasmLowering.C.Spelling
