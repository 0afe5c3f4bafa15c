import WasmLowering.Proofs.Symbols.Mangling

/-! Which functions have the same symbol.

A symbol has the letters of the results and then those of the parameters, with nothing
between them. Only an empty list has a letter of its own, so the place where the results
end is known if one of the lists is empty, and otherwise it is not. -/

namespace WasmLowering.Symbol

def marks (types : List Scalar) : List (Option Scalar) :=
  if types = [] then [none] else types.map some

def markLetter : Option Scalar → Char
  | none => 'v'
  | some type => letter type

theorem markLetter_injective : Function.Injective fun mark => (markLetter mark).toUInt8 := by
  intro first second equal
  cases first with
  | none =>
      cases second with
      | none => rfl
      | some type => exact absurd equal.symm (letter_ne_empty type)
  | some type =>
      cases second with
      | none => exact absurd equal (letter_ne_empty type)
      | some other => rw [letter_injective equal]

theorem letters_eq_marks (types : List Scalar) : letters types = (marks types).map markLetter := by
  cases types with
  | nil => rfl
  | cons type rest => simp [letters, marks, markLetter]

theorem ofLetters_eq_iff {results params others otherParams : List Scalar} :
    ofLetters (letters results ++ letters params) =
        ofLetters (letters others ++ letters otherParams) ↔
      marks results ++ marks params = marks others ++ marks otherParams := by
  simp only [letters_eq_marks, ofLetters, ← List.map_append, List.map_map]
  exact (List.map_injective_iff.mpr markLetter_injective).eq_iff

theorem marks_injective : Function.Injective marks := by
  intro first second equal
  cases first with
  | nil => cases second <;> simp [marks] at equal ⊢
  | cons type rest =>
      cases second with
      | nil => simp [marks] at equal
      | cons other others => exact List.map_injective_iff.mpr (Option.some_injective Scalar) equal

theorem head?_marks_iff (results params : List Scalar) :
    (marks results ++ marks params).head? = some none ↔ results = [] := by
  cases results <;> simp [marks]

theorem getLast?_marks_iff (results params : List Scalar) :
    (marks results ++ marks params).getLast? = some none ↔ params = [] := by
  rcases List.eq_nil_or_concat' params with rfl | ⟨front, last, rfl⟩
  · simp [marks]
  · simp [marks]

theorem marks_append_eq_iff {results params others otherParams : List Scalar} :
    marks results ++ marks params = marks others ++ marks otherParams ↔
      (params = otherParams ∧ results = others) ∨
        (params ≠ [] ∧ results ≠ [] ∧ otherParams ≠ [] ∧ others ≠ [] ∧
          results ++ params = others ++ otherParams) := by
  constructor
  · intro equal
    have resultsEmpty : results = [] ↔ others = [] := by
      rw [← head?_marks_iff results params, equal, head?_marks_iff]
    have paramsEmpty : params = [] ↔ otherParams = [] := by
      rw [← getLast?_marks_iff results params, equal, getLast?_marks_iff]
    by_cases noResults : results = []
    · rw [noResults, resultsEmpty.mp noResults] at equal ⊢
      exact .inl ⟨marks_injective (List.append_cancel_left equal), rfl⟩
    by_cases noParams : params = []
    · rw [noParams, paramsEmpty.mp noParams] at equal ⊢
      exact .inl ⟨rfl, marks_injective (List.append_cancel_right equal)⟩
    have someOthers := mt resultsEmpty.mpr noResults
    have someOtherParams := mt paramsEmpty.mpr noParams
    simp only [marks, noResults, noParams, someOthers, someOtherParams, if_false,
      ← List.map_append] at equal
    have rows := List.map_injective_iff.mpr (Option.some_injective Scalar) equal
    exact .inr ⟨noParams, noResults, someOtherParams, someOthers, rows⟩
  · rintro (⟨rfl, rfl⟩ | ⟨someParams, someResults, someOtherParams, someOthers, rows⟩)
    · rfl
    · simp only [marks, someResults, someParams, someOthers, someOtherParams, if_false,
        ← List.map_append, rows]

theorem mangleFunc_eq_iff_marks {name other : List UInt8}
    {params results otherParams others : List Scalar} :
    mangleFunc name params results = mangleFunc other otherParams others ↔
      name = other ∧ marks results ++ marks params = marks others ++ marks otherParams := by
  have spelled : ∀ name params results, mangleFunc name params results =
      spell [name, ofLetters (letters results ++ letters params)] := by
    intro name params results
    rw [spell_cons, spell_singleton, mangleFunc]
  rw [spelled, spelled, spell_injective.eq_iff]
  simp only [List.cons.injEq, and_true, ofLetters_eq_iff]

/-- Two functions have the same symbol just if they have one name and one type, or one name and
both have parameters and results that make up the same row of types. -/
theorem mangleFunc_eq_iff (name other : List UInt8)
    (params results otherParams others : List Scalar) :
    mangleFunc name params results = mangleFunc other otherParams others ↔
      name = other ∧ ((params = otherParams ∧ results = others) ∨
        (params ≠ [] ∧ results ≠ [] ∧ otherParams ≠ [] ∧ others ≠ [] ∧
          results ++ params = others ++ otherParams)) := by
  rw [mangleFunc_eq_iff_marks, marks_append_eq_iff]

/-- Where the results end is left open, so these functions share their symbol. -/
theorem mangleFunc_collision :
    ∃ (params results otherParams others : List Scalar), params ≠ otherParams ∧ results ≠ others ∧
      mangleFunc (Text.bytes "add") params results =
        mangleFunc (Text.bytes "add") otherParams others :=
  ⟨[.i32], [.i32, .i32], [.i32, .i32], [.i32], by decide⟩

theorem mangleFunc_inj {name other : List UInt8} {params results otherParams others : List Scalar}
    (single : results.length ≤ 1) (otherSingle : others.length ≤ 1) :
    mangleFunc name params results = mangleFunc other otherParams others ↔
      name = other ∧ params = otherParams ∧ results = others := by
  rw [mangleFunc_eq_iff_marks, marks_append_eq_iff]
  refine and_congr_right fun _ => or_iff_left_of_imp ?_
  rintro ⟨-, someResults, -, someOthers, rows⟩
  have one := List.length_pos_iff.mpr someResults
  have otherOne := List.length_pos_iff.mpr someOthers
  rcases List.append_inj rows (by omega) with ⟨sameResults, sameParams⟩
  exact ⟨sameParams, sameResults⟩

end WasmLowering.Symbol
