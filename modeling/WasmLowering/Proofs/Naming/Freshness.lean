import Mathlib.Data.List.Nodup
import Mathlib.Data.List.Perm.Subperm
import WasmLowering.Naming.Resolve

/-! Fresh names are fresh.

Candidates for different counters are different names, so a search that may try
as many candidates as there are taken names cannot find all of them taken: the
one behind the last of them would be one taken name too many. -/

namespace WasmLowering.Naming

/-! ## Candidates -/

theorem toString_injective {left right : Nat} (equal : toString left = toString right) :
    left = right := by
  have digits := congrArg (fun text => Nat.ofDigitChars 10 text.toList 0) equal
  simpa [Nat.toString_eq_ofList_toDigits] using digits

theorem numbered_injective (name : String) : Function.Injective (numbered name) := by
  have longer : ∀ counter : Nat, name ≠ name ++ "_" ++ toString counter := by
    intro counter equal
    have lengths := congrArg String.length equal
    simp only [String.length_append] at lengths
    have underscore : "_".length = 1 := rfl
    omega
  intro left right equal
  unfold numbered at equal
  split at equal <;> split at equal
  · omega
  · exact absurd equal (longer right)
  · exact absurd equal.symm (longer left)
  · exact toString_injective (String.append_right_inj _ |>.mp equal)

theorem numbered_ne_empty {name : String} (given : name ≠ "") (counter : Nat) :
    numbered name counter ≠ "" := by
  unfold numbered
  split
  · exact given
  · intro equal
    have lengths := congrArg String.length equal
    simp [String.length_append] at lengths

/-! ## The search -/

/-- Either the search finds a free candidate, or all candidates that it tried are
taken and it ends behind them. -/
theorem leastFree_cases (isTaken : String → Bool) (candidate : Nat → String) (fuel start : Nat) :
    isTaken (candidate (leastFree isTaken candidate fuel start)) = false ∨
      leastFree isTaken candidate fuel start = start + fuel ∧
        ∀ offset < fuel, isTaken (candidate (start + offset)) = true := by
  induction fuel generalizing start with
  | zero => exact .inr ⟨rfl, by simp⟩
  | succ fuel induction =>
      by_cases taken : isTaken (candidate start) = true
      · rw [leastFree, if_pos taken]
        rcases induction (start + 1) with free | ⟨last, all⟩
        · exact .inl free
        · refine .inr ⟨by omega, ?_⟩
          intro offset below
          cases offset with
          | zero => exact taken
          | succ offset =>
              have inner := all offset (by omega)
              rwa [Nat.add_right_comm] at inner
      · rw [leastFree, if_neg taken]
        exact .inl (by simpa using taken)

/-- With as much fuel as there are taken names, the search ends at a free one. -/
theorem leastFree_free {isTaken : String → Bool} {candidate : Nat → String} {taken : List String}
    {fuel : Nat} (listed : ∀ name, isTaken name = true → name ∈ taken)
    (enough : taken.length ≤ fuel) (injective : Function.Injective candidate) (start : Nat) :
    isTaken (candidate (leastFree isTaken candidate fuel start)) = false := by
  rcases leastFree_cases isTaken candidate fuel start with free | ⟨last, all⟩
  · exact free
  · rw [last]
    -- Otherwise one candidate more than there are taken names would be taken.
    by_contra notFree
    have lastTaken : isTaken (candidate (start + fuel)) = true := by simpa using notFree
    let tried := (List.range (fuel + 1)).map fun offset => candidate (start + offset)
    have distinct : tried.Nodup := by
      apply List.Nodup.map _ List.nodup_range
      intro left right equal
      have counters := injective equal
      omega
    have subset : tried ⊆ taken := by
      intro name member
      rcases List.mem_map.mp member with ⟨offset, inRange, rfl⟩
      have bound := List.mem_range.mp inRange
      rcases Nat.lt_or_ge offset fuel with below | above
      · exact listed _ (all offset below)
      · have atEnd : offset = fuel := by omega
        exact listed _ (atEnd ▸ lastTaken)
    have lengths := (List.subperm_of_subset distinct subset).length_le
    simp [tried] at lengths
    omega

theorem fresh_free {isTaken : String → Bool} (taken : List String) {size : Nat}
    (listed : ∀ name, isTaken name = true → name ∈ taken) (enough : taken.length ≤ size)
    (name : String) : isTaken (fresh isTaken size name) = false :=
  leastFree_free listed enough (numbered_injective name) 0

theorem fresh_ne_empty {name : String} (given : name ≠ "") (isTaken : String → Bool)
    (size : Nat) : fresh isTaken size name ≠ "" :=
  numbered_ne_empty given _

/-! ## Names and sets of names -/

theorem mem_keys_of_has {bindings : Bindings} {name : String} (isBound : bindings.has name = true) :
    name ∈ bindings.entries.keys :=
  Std.ExtTreeMap.mem_keys.mpr (Std.ExtTreeMap.contains_iff_mem.mp isBound)

theorem mem_toList_of_contains {taken : NameSet} {name : String}
    (isTaken : taken.contains name = true) : name ∈ taken.toList :=
  Std.ExtTreeSet.mem_toList.mpr (Std.ExtTreeSet.contains_iff_mem.mp isTaken)

theorem fresh_not_bound (bindings : Bindings) (name : String) :
    bindings.find? (fresh bindings.has bindings.size name) = none := by
  have free : bindings.has (fresh bindings.has bindings.size name) = false := by
    exact fresh_free bindings.entries.keys (fun _ => mem_keys_of_has)
      (Nat.le_of_eq Std.ExtTreeMap.length_keys) name
  rw [Bindings.has_eq_isSome] at free
  simpa using free

theorem fresh_not_mem (taken : NameSet) (name : String) :
    fresh taken.contains taken.size name ∉ taken := by
  have free : taken.contains (fresh taken.contains taken.size name) = false := by
    exact fresh_free taken.toList (fun _ => mem_toList_of_contains)
      (Nat.le_of_eq Std.ExtTreeSet.length_toList) name
  simpa [← Std.ExtTreeSet.contains_iff_mem] using free

theorem positional_ne_empty {letter : String} (given : letter ≠ "") (position : Nat) :
    positional letter position ≠ "" := by
  intro equal
  have empty := String.append_eq_empty_iff.mp equal
  exact given empty.1

/-! ## Choosing one name after another -/

/-- Names with a property that were free and are taken now, all different. -/
structure Takes (good : String → Prop) (before after : NameSet) (chosen : List String) : Prop where
  nodup : chosen.Nodup
  given : ∀ name ∈ chosen, good name
  free : ∀ name ∈ chosen, name ∉ before
  taken : ∀ name ∈ chosen, name ∈ after
  grows : ∀ name ∈ before, name ∈ after

namespace Takes

variable {good : String → Prop}

theorem nil (taken : NameSet) : Takes good taken taken [] :=
  ⟨List.nodup_nil, nofun, nofun, nofun, fun _ => id⟩

theorem append {first second third : NameSet} {names others : List String}
    (earlier : Takes good first second names) (later : Takes good second third others) :
    Takes good first third (names ++ others) where
  nodup := by
    rw [List.nodup_append]
    refine ⟨earlier.nodup, later.nodup, ?_⟩
    intro name isEarlier other isLater same
    exact later.free other isLater (same ▸ earlier.taken name isEarlier)
  given := List.forall_mem_append.mpr ⟨earlier.given, later.given⟩
  free := by
    apply List.forall_mem_append.mpr ⟨earlier.free, ?_⟩
    exact fun name member isTaken => later.free name member (earlier.grows name isTaken)
  taken := by
    apply List.forall_mem_append.mpr ⟨?_, later.taken⟩
    exact fun name member => later.grows name (earlier.taken name member)
  grows name isTaken := later.grows name (earlier.grows name isTaken)

theorem insert {taken : NameSet} {name : String} (isGood : good name) (free : name ∉ taken) :
    Takes good taken (taken.insert name) [name] where
  nodup := List.nodup_singleton _
  given := by simpa using isGood
  free := by simpa using free
  taken := by simp
  grows other isTaken := Std.ExtTreeSet.mem_insert.mpr (.inr isTaken)

end Takes

end WasmLowering.Naming
