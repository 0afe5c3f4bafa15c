import Mathlib.Data.String.Basic
import WasmLowering.Text.Utf8

/-! Texts are ordered as their bytes are.

The order of texts goes by code points. UTF-8 keeps it: of two characters the smaller
one has the smaller bytes, and neither of them begins with the bytes of the other, so
that nothing behind them matters. -/

namespace WasmLowering.Text

/-! ## One byte after another -/

/-- A byte that is not larger leaves the decision to the bytes behind it, if it leaves
any. -/
theorem cons_lt_of_le {small large : Nat} {left right : List UInt8} (ordered : small ≤ large)
    (isByte : large < 256) (later : small = large → left < right) :
    UInt8.ofNat small :: left < UInt8.ofNat large :: right := by
  rw [List.cons_lt_cons_iff]
  rcases Nat.eq_or_lt_of_le ordered with same | less
  · exact .inr ⟨congrArg UInt8.ofNat same, later same⟩
  · refine .inl ?_
    rw [UInt8.lt_iff_toNat_lt, UInt8.toNat_ofNat', UInt8.toNat_ofNat']
    omega

theorem cons_lt_of_lt {small large : Nat} (less : small < large) (isByte : large < 256)
    (left right : List UInt8) : UInt8.ofNat small :: left < UInt8.ofNat large :: right :=
  cons_lt_of_le (Nat.le_of_lt less) isByte fun same => absurd same (Nat.ne_of_lt less)

/-! ## Characters and texts -/

theorem utf8_append_lt {first second : Char} (less : first < second) (left right : List UInt8) :
    String.utf8EncodeChar first ++ left < String.utf8EncodeChar second ++ right := by
  have less : first.val.toNat < second.val.toNat := less
  have bounded : second.val.toNat < 0x110000 := by
    rcases second.valid with low | ⟨_, high⟩
    · exact Nat.lt_trans low (by decide)
    · exact high
  unfold String.utf8EncodeChar
  generalize first.val.toNat = small at less ⊢
  generalize second.val.toNat = large at less bounded ⊢
  dsimp only
  split_ifs
  -- of different numbers of bytes, the longer one begins with a larger byte
  all_goals first | omega | simp only [List.cons_append, List.nil_append]
  all_goals try exact cons_lt_of_lt (by omega) (by omega) _ _
  -- of the same number, the first digit that differs decides
  · refine cons_lt_of_le (by omega) (by omega) fun _ => ?_
    exact cons_lt_of_lt (by omega) (by omega) _ _
  · refine cons_lt_of_le (by omega) (by omega) fun _ => ?_
    refine cons_lt_of_le (by omega) (by omega) fun _ => ?_
    exact cons_lt_of_lt (by omega) (by omega) _ _
  · refine cons_lt_of_le (by omega) (by omega) fun _ => ?_
    refine cons_lt_of_le (by omega) (by omega) fun _ => ?_
    refine cons_lt_of_le (by omega) (by omega) fun _ => ?_
    exact cons_lt_of_lt (by omega) (by omega) _ _

theorem flatMap_utf8_lt {left right : List Char} (less : left < right) :
    left.flatMap String.utf8EncodeChar < right.flatMap String.utf8EncodeChar := by
  induction less with
  | nil =>
      rename_i char rest
      rw [List.flatMap_cons]
      cases written : String.utf8EncodeChar char with
      | nil => exact absurd written String.utf8EncodeChar_ne_nil
      | cons byte others => exact List.nil_lt_cons _ _
  | cons _ induction =>
      rw [List.flatMap_cons, List.flatMap_cons]
      exact List.append_left_lt induction
  | rel smaller =>
      rw [List.flatMap_cons, List.flatMap_cons]
      exact utf8_append_lt smaller _ _

theorem bytes_lt_of_lt {left right : String} (less : left < right) : bytes left < bytes right := by
  rw [← String.ofList_toList (s := left), ← String.ofList_toList (s := right), bytes_ofList,
    bytes_ofList]
  exact flatMap_utf8_lt (String.lt_iff_toList_lt.mp less)

theorem bytes_lt_iff {left right : String} : bytes left < bytes right ↔ left < right := by
  constructor
  · intro less
    rcases lt_trichotomy left right with smaller | same | larger
    · exact smaller
    · rw [same] at less
      exact absurd less (List.lt_irrefl _)
    · exact absurd less (List.lt_asymm (bytes_lt_of_lt larger))
  · exact bytes_lt_of_lt

theorem bytes_le_iff {left right : String} : bytes left ≤ bytes right ↔ left ≤ right := by
  rw [← List.not_lt, bytes_lt_iff, not_lt]

end WasmLowering.Text
