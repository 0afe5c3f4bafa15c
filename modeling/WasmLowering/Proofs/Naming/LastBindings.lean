import WasmLowering.Proofs.Naming.ReverseView
import WasmLowering.Proofs.Text.ByteOrder

/-! The reverse view depends on the last bindings of names alone.

A name means the position of its last put, whatever it was put at before and whatever
other names were put between. For a position the reverse view gives the least by bytes
of the names that mean it, and this is no question of the order in which bindings are
kept: however they are enumerated, sorting them by their bytes gives the same view. -/

namespace WasmLowering.Bindings

/-! ## Last puts -/

def lastPut (puts : List (String × Index)) (name : String) : Option Index :=
  puts.reverse.lookup name

theorem lastPut_cons (put : String × Index) (puts : List (String × Index)) (name : String) :
    lastPut (put :: puts) name =
      (lastPut puts name).or (if put.1 = name then some put.2 else none) := by
  have alone : [put].lookup name = if put.1 = name then some put.2 else none := by
    rcases put with ⟨other, place⟩
    by_cases same : other = name
    · simp [same]
    · rw [List.lookup_cons, beq_false_of_ne (Ne.symm same), if_neg same]
      rfl
  rw [lastPut, List.reverse_cons, List.lookup_append, alone, lastPut]

theorem find?_putAll (bindings : Bindings) (puts : List (String × Index)) (name : String) :
    (bindings.putAll puts).find? name = (lastPut puts name).or (bindings.find? name) := by
  induction puts generalizing bindings with
  | nil => rfl
  | cons put puts induction =>
      show ((bindings.put put.1 put.2).putAll puts).find? name = _
      rw [induction, lastPut_cons, find?_put]
      by_cases same : put.1 = name <;> cases lastPut puts name <;> simp [same]

theorem find?_empty_putAll (puts : List (String × Index)) (name : String) :
    (empty.putAll puts).find? name = lastPut puts name := by
  rw [find?_putAll, show empty.find? name = none from rfl, Option.or_none]

theorem lastPut_filter (puts : List (String × Index)) (name : String) :
    lastPut (puts.filter (·.1 = name)) name = lastPut puts name := by
  induction puts with
  | nil => rfl
  | cons put puts induction =>
      by_cases same : put.1 = name
      · rw [List.filter_cons_of_pos (by simpa using same), lastPut_cons, lastPut_cons, induction]
      · rw [List.filter_cons_of_neg (by simpa using same), lastPut_cons, induction, if_neg same,
          Option.or_none]

/-! ## The least name of a position -/

/-- What the puts leave for a position: the least by bytes of the non-empty names whose
last put is for it, or the empty text if there is no such name. -/
inductive LeastName (puts : List (String × Index)) (position : Nat) : String → Prop
  | unnamed (others : ∀ name, name ≠ "" → (lastPut puts name).map (·.toNat) ≠ some position) :
      LeastName puts position ""
  | named {shown : String} (given : shown ≠ "")
      (bound : (lastPut puts shown).map (·.toNat) = some position)
      (least : ∀ name, name ≠ "" → (lastPut puts name).map (·.toNat) = some position →
        Text.bytes shown ≤ Text.bytes name) :
      LeastName puts position shown

theorem bytes_le_iff_compare {left right : String} :
    Text.bytes left ≤ Text.bytes right ↔ left = right ∨ compare left right = .lt := by
  rw [Text.bytes_le_iff, le_iff_lt_or_eq, or_comm, compare_lt_iff_lt]

theorem leastName_iff_shows {puts : List (String × Index)} {position : Nat} {shown : String} :
    LeastName puts position shown ↔ (empty.putAll puts).Shows position shown := by
  have means : ∀ name, (lastPut puts name).map (·.toNat) = some position ↔
      ∃ place, (empty.putAll puts).find? name = some place ∧ place.toNat = position := by
    intro name
    rw [find?_empty_putAll, Option.map_eq_some_iff]
  constructor
  · rintro (others | ⟨given, bound, least⟩)
    · refine ⟨fun given => absurd rfl given, fun name place isBound isPlace given => ?_⟩
      exact absurd ((means name).mpr ⟨place, isBound, isPlace⟩) (others name given)
    · refine ⟨fun _ => (means shown).mp bound, fun name place isBound isPlace named => ⟨given, ?_⟩⟩
      exact bytes_le_iff_compare.mp (least name named ((means name).mpr ⟨place, isBound, isPlace⟩))
  · intro shows
    by_cases unnamed : shown = ""
    · subst unnamed
      refine .unnamed fun name given bound => ?_
      rcases (means name).mp bound with ⟨place, isBound, isPlace⟩
      exact (shows.least name place isBound isPlace given).1 rfl
    · refine .named unnamed ((means shown).mpr (shows.bound unnamed)) fun name given bound => ?_
      rcases (means name).mp bound with ⟨place, isBound, isPlace⟩
      exact bytes_le_iff_compare.mpr (shows.least name place isBound isPlace given).2

/-- The reverse view has a text for every position below its length, and this is the
one that the position shows. -/
theorem getElem?_reverse_eq_some_iff {bindings : Bindings} {count position : Nat} {shown : String} :
    (bindings.reverse count)[position]? = some shown ↔
      position < count ∧ bindings.Shows position shown := by
  constructor
  · intro has
    have inside := (List.getElem?_eq_some_iff.mp has).1
    exact ⟨by simpa using inside, shows_of_reverse has⟩
  · rintro ⟨inside, shows⟩
    rw [getElem?_reverse bindings inside]
    exact congrArg some ((shows_firstName bindings position).unique shows)

/-! ## Enumerations -/

def byBytes (left right : String × Index) : Bool := Text.bytes left.1 ≤ Text.bytes right.1

theorem byBytes_iff {left right : String × Index} :
    byBytes left right ↔ left.1 = right.1 ∨ compare left.1 right.1 = .lt := by
  rw [byBytes, decide_eq_true_eq, bytes_le_iff_compare]

theorem pairwise_byBytes (entries : List (String × Index)) :
    (entries.mergeSort byBytes).Pairwise fun left right => byBytes left right := by
  refine List.pairwise_mergeSort (fun left middle right first second => ?_) (fun left right => ?_) _
  · simp only [byBytes, decide_eq_true_eq] at first second ⊢
    exact List.le_trans first second
  · simp only [byBytes, Bool.or_eq_true, decide_eq_true_eq]
    exact List.le_total _ _

/-- However the bindings are enumerated, sorting them by the bytes of their names gives
them in one order: that in which they are kept. -/
theorem mergeSort_enumeration {bindings : Bindings} {entries : List (String × Index)}
    (enumerates : entries.Perm bindings.entries.toList) :
    entries.mergeSort byBytes = bindings.entries.toList := by
  have sorted : (entries.mergeSort byBytes).Perm bindings.entries.toList :=
    (List.mergeSort_perm entries byBytes).trans enumerates
  have kept : bindings.entries.toList.Pairwise fun left right => byBytes left right :=
    Std.ExtTreeMap.ordered_keys_toList.imp fun less => byBytes_iff.mpr (.inr less)
  refine sorted.eq_of_pairwise ?_ (pairwise_byBytes entries) kept
  -- a name has one entry only
  rintro ⟨name, place⟩ ⟨other, otherPlace⟩ member otherMember before after
  have same : name = other := Text.bytes_injective
    (List.le_antisymm (of_decide_eq_true before) (of_decide_eq_true after))
  subst same
  have bound := (mem_entries_iff bindings name place).mp (sorted.mem_iff.mp member)
  rw [(mem_entries_iff bindings name otherPlace).mp otherMember] at bound
  cases bound
  rfl

/-! ## The reverse view -/

/-- After any puts the reverse view has for every position the least by bytes of the
names whose last put is for it, and each such name is found at its position. The view
is the same for all puts that leave every name where it is, so the puts for one name
may stand in any places among those for others, and it is the same for all ways to
enumerate the bindings. -/
theorem reverse_canonical (puts : List (String × Index)) (count : Nat) :
    (∀ position shown, ((empty.putAll puts).reverse count)[position]? = some shown ↔
      position < count ∧ LeastName puts position shown) ∧
    (∀ position shown, ((empty.putAll puts).reverse count)[position]? = some shown → shown ≠ "" →
      ∃ place, (empty.putAll puts).find? shown = some place ∧ place.toNat = position) ∧
    (∀ others, (∀ name, lastPut puts name = lastPut others name) →
      (empty.putAll puts).reverse count = (empty.putAll others).reverse count) ∧
    (∀ others : List (String × Index),
      (∀ name, puts.filter (·.1 = name) = others.filter (·.1 = name)) →
      (empty.putAll puts).reverse count = (empty.putAll others).reverse count) ∧
    ∀ entries : List (String × Index), entries.Perm (empty.putAll puts).entries.toList →
      ((entries.mergeSort byBytes).foldl fillSlot (Array.replicate count "")).toList =
        (empty.putAll puts).reverse count := by
  have sameBindings : ∀ others, (∀ name, lastPut puts name = lastPut others name) →
      empty.putAll puts = empty.putAll others := by
    intro others same
    ext1 name
    rw [find?_empty_putAll, find?_empty_putAll, same]
  refine ⟨?_, ?_, ?_, ?_, ?_⟩
  · intro position shown
    rw [getElem?_reverse_eq_some_iff, leastName_iff_shows]
  · intro position shown has given
    exact (shows_of_reverse has).bound given
  · intro others same
    rw [sameBindings others same]
  · intro others same
    rw [sameBindings others fun name => ?_]
    rw [← lastPut_filter puts, same, lastPut_filter]
  · intro entries enumerates
    rw [mergeSort_enumeration enumerates, reverse]

end WasmLowering.Bindings
