import Mathlib.Data.List.Forall2

/-! Computations that can fail, taken apart where they succeed. -/

namespace WasmLowering

variable {ε α β : Type}

theorem bind_eq_ok {first : Except ε α} {next : α → Except ε β} {result : β}
    (succeeds : (first >>= next) = .ok result) :
    ∃ value, first = .ok value ∧ next value = .ok result := by
  cases first with
  | error failure => cases succeeds
  | ok value => exact ⟨value, rfl, succeeds⟩

theorem map_eq_ok {result : Except ε α} {change : α → β} {changed : β}
    (succeeds : result.map change = .ok changed) :
    ∃ value, result = .ok value ∧ change value = changed := by
  cases result with
  | error failure => cases succeeds
  | ok value => exact ⟨value, rfl, Except.ok.inj succeeds⟩

theorem mapError_eq_ok {δ : Type} {result : Except ε α} {change : ε → δ} {value : α}
    (succeeds : result.mapError change = .ok value) : result = .ok value := by
  cases result with
  | error failure => cases succeeds
  | ok other =>
      cases succeeds
      rfl

theorem eq_ok_of_toOption {result : Except ε α} {value : α}
    (isValue : result.toOption = some value) : result = .ok value := by
  cases result with
  | error failure => cases isValue
  | ok other =>
      cases isValue
      rfl

theorem exists_of_run (result : Except ε α) (view : α → β) (shown : β)
    (run : result.toOption.map view = some shown) :
    ∃ value, result = .ok value ∧ view value = shown := by
  cases result with
  | error failure => cases run
  | ok value => exact ⟨value, rfl, Option.some.inj run⟩

theorem mapM_eq_ok {change : α → Except ε β} {items : List α} {results : List β}
    (succeeds : items.mapM change = .ok results) :
    List.Forall₂ (fun item result => change item = .ok result) items results := by
  induction items generalizing results with
  | nil =>
      cases succeeds
      exact .nil
  | cons item rest induction =>
      rw [List.mapM_cons] at succeeds
      rcases bind_eq_ok succeeds with ⟨first, isFirst, remaining⟩
      rcases bind_eq_ok remaining with ⟨others, areOthers, isAll⟩
      cases isAll
      exact .cons isFirst (induction areOthers)

theorem getElem?_of_forall₂ {related : α → β → Prop} {items : List α} {results : List β}
    (all : List.Forall₂ related items results) {position : Nat} {item : α}
    (isItem : items[position]? = some item) :
    ∃ result, results[position]? = some result ∧ related item result := by
  induction all generalizing position with
  | nil => simp at isItem
  | cons first _ induction =>
      cases position with
      | zero =>
          cases isItem
          exact ⟨_, rfl, first⟩
      | succ position => exact induction (by simpa using isItem)

theorem getD_of_forall₂ {related : α → β → Prop} {items : List α} {results : List β} {item : α}
    {result : β} (all : List.Forall₂ related (items ++ [item]) (results ++ [result]))
    (position : Nat) : related (items[position]?.getD item) (results[position]?.getD result) := by
  induction items generalizing results position with
  | nil =>
      rcases results with _ | ⟨first, others⟩
      · rcases all with _ | ⟨isRelated, _⟩
        exact isRelated
      · rcases all with _ | ⟨_, later⟩
        simp at later
  | cons first others induction =>
      rcases results with _ | ⟨firstResult, otherResults⟩
      · rcases all with _ | ⟨_, later⟩
        simp at later
      · rcases all with _ | ⟨isRelated, later⟩
        cases position with
        | zero => exact isRelated
        | succ position => exact induction later position

theorem exists_of_forall₂ {related : α → β → Prop} {items : List α} {results : List β}
    (all : List.Forall₂ related items results) {result : β} (member : result ∈ results) :
    ∃ item ∈ items, related item result := by
  rcases List.mem_iff_getElem?.mp member with ⟨position, isResult⟩
  rcases getElem?_of_forall₂ all.flip isResult with ⟨item, isItem, isRelated⟩
  exact ⟨item, List.mem_of_getElem? isItem, isRelated⟩

/-- Two steps that each give one result for every item, one after the other. -/
theorem forall₂_chain {γ : Type} {first : α → β → Prop} {second : β → γ → Prop} {both : α → γ → Prop}
    {items : List α} {middle : List β} {results : List γ} (earlier : List.Forall₂ first items middle)
    (later : List.Forall₂ second middle results)
    (chain : ∀ item ∈ items, ∀ value ∈ middle, ∀ result, first item value → second value result →
      both item result) : List.Forall₂ both items results := by
  induction earlier generalizing results with
  | nil =>
      cases later
      exact .nil
  | cons isFirst _ induction =>
      rcases later with _ | ⟨isSecond, others⟩
      have both := chain _ List.mem_cons_self _ List.mem_cons_self _ isFirst isSecond
      refine .cons both (induction others ?_)
      intro item isItem value isValue
      exact chain item (List.mem_cons_of_mem _ isItem) value (List.mem_cons_of_mem _ isValue)

theorem map_eq_of_forall₂ {γ : Type} {related : α → β → Prop} {items : List α} {results : List β}
    (all : List.Forall₂ related items results) {view : α → γ} {resultView : β → γ}
    (same : ∀ item result, related item result → resultView result = view item) :
    results.map resultView = items.map view := by
  induction all with
  | nil => rfl
  | cons first _ induction => rw [List.map_cons, List.map_cons, same _ _ first, induction]

theorem mem_flatten_of_forall₂ {γ : Type} {holds : α → γ → Prop} {items : List α}
    {results : List (List γ)}
    (all : List.Forall₂ (fun item result => ∀ value, value ∈ result ↔ holds item value) items
      results)
    (value : γ) : value ∈ results.flatten ↔ ∃ item ∈ items, holds item value := by
  induction all with
  | nil => simp
  | cons first _ induction =>
      rw [List.flatten_cons, List.mem_append, first, induction]
      simp

end WasmLowering
