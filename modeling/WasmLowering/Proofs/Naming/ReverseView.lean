import WasmLowering.Bindings

/-! What the reverse view of bindings shows: for every position the least name that
is bound to it. -/

namespace WasmLowering.Bindings

/-- The text that the reverse view shows for a position: empty if no name is bound
to it, and otherwise the least of the names that are. -/
structure Shows (bindings : Bindings) (position : Nat) (shown : String) : Prop where
  bound : shown ≠ "" → ∃ place, bindings.find? shown = some place ∧ place.toNat = position
  least : ∀ name place, bindings.find? name = some place → place.toNat = position → name ≠ "" →
    shown ≠ "" ∧ (shown = name ∨ compare shown name = .lt)

theorem Shows.unique {bindings : Bindings} {position : Nat} {left right : String}
    (first : bindings.Shows position left) (second : bindings.Shows position right) :
    left = right := by
  by_cases empty : left = ""
  · by_cases given : right = ""
    · rw [empty, given]
    · rcases second.bound given with ⟨place, isBound, isPlace⟩
      exact absurd empty (first.least right place isBound isPlace given).1
  · rcases first.bound empty with ⟨place, isBound, isPlace⟩
    rcases second.least left place isBound isPlace empty with ⟨given, equal | less⟩
    · exact equal.symm
    · rcases second.bound given with ⟨other, otherBound, isOther⟩
      rcases (first.least right other otherBound isOther given).2 with equal | greater
      · exact equal
      · rw [Std.OrientedOrd.eq_swap, less] at greater
        cases greater

def firstName (entries : List (String × Index)) (position : Nat) : String :=
  ((entries.find? fun entry => entry.1 ≠ "" ∧ entry.2.toNat = position).map (·.1)).getD ""

theorem getElem?_fillSlot (slots : Array String) (entry : String × Index) (position : Nat) :
    (fillSlot slots entry)[position]? = slots[position]?.map fun current =>
      if current = "" ∧ entry.2.toNat = position then entry.1 else current := by
  rw [fillSlot, Array.getElem?_modify]
  cases slots[position]? with
  | none => simp
  | some current => by_cases isPlace : entry.2.toNat = position <;> simp [isPlace]

theorem getElem?_foldl_fillSlot (entries : List (String × Index)) (slots : Array String)
    (position : Nat) :
    (entries.foldl fillSlot slots)[position]? = slots[position]?.map fun current =>
      if current = "" then firstName entries position else current := by
  induction entries generalizing slots with
  | nil =>
      rw [List.foldl_nil]
      cases slots[position]? with
      | none => rfl
      | some current => by_cases empty : current = "" <;> simp [firstName, empty]
  | cons entry rest induction =>
      rw [List.foldl_cons, induction, getElem?_fillSlot]
      cases slots[position]? with
      | none => rfl
      | some current =>
          by_cases empty : current = ""
          · by_cases isPlace : entry.2.toNat = position
            · by_cases unnamed : entry.1 = "" <;> simp [firstName, empty, isPlace, unnamed]
            · simp [firstName, empty, isPlace]
          · simp [empty]

theorem getElem?_reverse (bindings : Bindings) {count position : Nat} (inside : position < count) :
    (bindings.reverse count)[position]? = some (firstName bindings.entries.toList position) := by
  rw [reverse, Array.getElem?_toList, getElem?_foldl_fillSlot]
  simp [inside]

@[simp] theorem length_reverse (bindings : Bindings) (count : Nat) :
    (bindings.reverse count).length = count := by
  have filled : ∀ (entries : List (String × Index)) (slots : Array String),
      (entries.foldl fillSlot slots).size = slots.size := by
    intro entries
    induction entries with
    | nil => exact fun _ => rfl
    | cons entry rest induction =>
        intro slots
        rw [List.foldl_cons, induction, fillSlot, Array.size_modify]
  rw [reverse, Array.length_toList, filled, Array.size_replicate]

theorem mem_entries_iff (bindings : Bindings) (name : String) (place : Index) :
    (name, place) ∈ bindings.entries.toList ↔ bindings.find? name = some place :=
  Std.ExtTreeMap.mem_toList_iff_getElem?_eq_some

/-- Entries come in increasing order of their names, so the first is the least. -/
theorem shows_firstName (bindings : Bindings) (position : Nat) :
    bindings.Shows position (firstName bindings.entries.toList position) := by
  unfold firstName
  cases found : bindings.entries.toList.find? fun entry =>
      entry.1 ≠ "" ∧ entry.2.toNat = position with
  | none =>
      constructor
      · exact fun given => absurd rfl given
      · intro name place isBound isPlace given
        have member := (mem_entries_iff bindings name place).mpr isBound
        have rejected := List.find?_eq_none.mp found _ member
        simp [given, isPlace] at rejected
  | some entry =>
      rcases List.find?_eq_some_iff_append.mp found with ⟨chosen, before, after, split, earlier⟩
      have fits : entry.1 ≠ "" ∧ entry.2.toNat = position := by simpa using chosen
      have member : entry ∈ bindings.entries.toList := by simp [split]
      constructor
      · exact fun _ => ⟨entry.2, (mem_entries_iff bindings entry.1 entry.2).mp member, fits.2⟩
      · intro name place isBound isPlace given
        refine ⟨fits.1, ?_⟩
        have other := (mem_entries_iff bindings name place).mpr isBound
        rw [split] at other
        rcases List.mem_append.mp other with early | late
        · have rejected := earlier _ early
          simp [given, isPlace] at rejected
        · rcases List.mem_cons.mp late with equal | late
          · exact .inl (congrArg Prod.fst equal).symm
          · have ordered : bindings.entries.toList.Pairwise fun left right =>
                compare left.1 right.1 = .lt := Std.ExtTreeMap.ordered_keys_toList
            rw [split] at ordered
            have behind := (List.pairwise_append.mp ordered).2.1
            exact .inr (List.rel_of_pairwise_cons behind late)

theorem shows_of_reverse {bindings : Bindings} {count position : Nat} {shown : String}
    (has : (bindings.reverse count)[position]? = some shown) : bindings.Shows position shown := by
  have inside : position < count := by
    have bounded := (List.getElem?_eq_some_iff.mp has).1
    simpa using bounded
  rw [getElem?_reverse bindings inside] at has
  cases has
  exact shows_firstName bindings position

end WasmLowering.Bindings
