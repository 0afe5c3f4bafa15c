import WasmLowering.Proofs.Symbols.Identifiers

/-! The search for a fresh name ends, at the least number that makes the name free.

A search that is not bounded in advance tries one candidate after another until one is
free. It ends for every finite set of taken names, since candidates for different
counters are different names, and what it ends at is what the bounded search gives. -/

namespace WasmLowering.Naming

/-! ## Searches without a bound -/

/-- From a counter on, candidates are tried one after another, and the first one that is
free is the result. -/
inductive Search (isTaken : String → Bool) (candidate : Nat → String) : Nat → String → Prop
  | stop {counter} (free : isTaken (candidate counter) = false) :
      Search isTaken candidate counter (candidate counter)
  | next {counter result} (taken : isTaken (candidate counter) = true)
      (later : Search isTaken candidate (counter + 1) result) :
      Search isTaken candidate counter result

variable {isTaken : String → Bool} {candidate : Nat → String}

/-- A bounded search that ends at a free candidate is one without a bound. -/
theorem leastFree_search {fuel start : Nat}
    (free : isTaken (candidate (leastFree isTaken candidate fuel start)) = false) :
    Search isTaken candidate start (candidate (leastFree isTaken candidate fuel start)) := by
  induction fuel generalizing start with
  | zero => exact .stop free
  | succ fuel induction =>
      rw [leastFree] at free ⊢
      split
      · next taken =>
          rw [if_pos taken] at free
          exact .next taken (induction free)
      · next notTaken => exact .stop (by simpa using notTaken)

theorem Search.least {start : Nat} {result : String}
    (search : Search isTaken candidate start result) :
    ∃ counter, start ≤ counter ∧ result = candidate counter ∧ isTaken result = false ∧
      ∀ earlier, start ≤ earlier → earlier < counter → isTaken (candidate earlier) = true := by
  induction search with
  | @stop counter free =>
      exact ⟨counter, Nat.le_refl _, rfl, free, fun earlier after before => by omega⟩
  | @next counter result taken later induction =>
      rcases induction with ⟨last, behind, isLast, free, others⟩
      refine ⟨last, by omega, isLast, free, fun earlier after before => ?_⟩
      rcases Nat.eq_or_lt_of_le after with rfl | after
      · exact taken
      · exact others earlier after before

/-! ## Numbers behind names -/

/-- What a name becomes where some names are taken: it stays as it is if it is free, and
otherwise gets the least number, from `first` on, that makes it free. -/
structure LeastSuffix (isTaken : String → Bool) (first : Nat) (name result : String) : Prop where
  free : isTaken result = false
  unchanged : isTaken name = false → result = name
  numbered : isTaken name = true → ∃ number, first ≤ number ∧
    result = name ++ "_" ++ toString number ∧
    ∀ smaller, first ≤ smaller → smaller < number →
      isTaken (name ++ "_" ++ toString smaller) = true

theorem Search.leastSuffix {first : Nat} {name result : String}
    (search : Search isTaken candidate 0 result) (unchanged : candidate 0 = name)
    (numbered : ∀ offset, candidate (offset + 1) = name ++ "_" ++ toString (first + offset)) :
    LeastSuffix isTaken first name result := by
  rcases search.least with ⟨counter, _, rfl, free, others⟩
  refine ⟨free, ?_, ?_⟩
  · intro nameFree
    cases counter with
    | zero => exact unchanged
    | succ offset =>
        have taken := others 0 (Nat.le_refl 0) (Nat.succ_pos offset)
        rw [unchanged, nameFree] at taken
        cases taken
  · intro nameTaken
    cases counter with
    | zero =>
        rw [unchanged, nameTaken] at free
        cases free
    | succ offset =>
        refine ⟨first + offset, Nat.le_add_right _ _, numbered offset, ?_⟩
        intro smaller above below
        rcases Nat.exists_eq_add_of_le above with ⟨before, rfl⟩
        rw [← numbered]
        exact others (before + 1) (Nat.zero_le _) (by omega)

theorem Search.leastSuffix_numbered {name result : String}
    (search : Search isTaken (numbered name) 0 result) : LeastSuffix isTaken 1 name result :=
  search.leastSuffix rfl fun offset => by rw [numbered, if_neg (Nat.succ_ne_zero _), Nat.add_comm]

theorem Search.leastSuffix_candidate {symbol result : String}
    (search : Search isTaken (Symbol.candidate symbol) 0 result) :
    LeastSuffix isTaken 0 symbol result :=
  search.leastSuffix rfl fun offset => by rw [Symbol.candidate, Nat.zero_add]

/-! ## What is searched -/

theorem fresh_search_set (taken : NameSet) (name : String) :
    Search taken.contains (numbered name) 0 (fresh taken.contains taken.size name) :=
  leastFree_search (leastFree_free (fun _ => mem_toList_of_contains)
    (Nat.le_of_eq Std.ExtTreeSet.length_toList) (numbered_injective name) 0)

theorem fresh_search_bindings (bindings : Bindings) (name : String) :
    Search bindings.has (numbered name) 0 (fresh bindings.has bindings.size name) :=
  leastFree_search (leastFree_free (fun _ => mem_keys_of_has)
    (Nat.le_of_eq Std.ExtTreeMap.length_keys) (numbered_injective name) 0)

theorem free_search (taken : Symbol.SymbolSet) (symbol : String) :
    Search taken.contains (Symbol.candidate symbol) 0 (Symbol.free taken symbol) :=
  leastFree_search (leastFree_free (fun _ => mem_toList_of_contains)
    (Nat.le_of_eq Std.ExtTreeSet.length_toList) (Symbol.candidate_injective symbol) 0)

/-- Whatever is taken, the searches for names and for symbols end. A name that is taken
gets the least number from one on that makes it free, also a name that is made of letters
and a position, and a symbol the least number from zero on; what is free stays as it is.
Defining a symbol for a name takes the symbol that is found and no other. -/
theorem searches_end_least :
    (∀ (taken : NameSet) (name : String),
      Search taken.contains (numbered name) 0 (fresh taken.contains taken.size name) ∧
        LeastSuffix taken.contains 1 name (fresh taken.contains taken.size name)) ∧
    (∀ (bindings : Bindings) (name : String),
      Search bindings.has (numbered name) 0 (fresh bindings.has bindings.size name) ∧
        LeastSuffix bindings.has 1 name (fresh bindings.has bindings.size name)) ∧
    (∀ (letters : String) (position counter : Nat),
      numbered (positional letters position) counter =
        letters ++ toString position ++ if counter = 0 then "" else "_" ++ toString counter) ∧
    (∀ (taken : Symbol.SymbolSet) (symbol : String),
      Search taken.contains (Symbol.candidate symbol) 0 (Symbol.free taken symbol) ∧
        LeastSuffix taken.contains 0 symbol (Symbol.free taken symbol)) ∧
    ∀ (taken : Symbol.SymbolSet) (name : String),
      (Symbol.define taken name).1 = Symbol.free taken (Symbol.legalize (Text.bytes name)) ∧
        ∀ other, other ∈ (Symbol.define taken name).2 ↔
          other ∈ taken ∨ other = (Symbol.define taken name).1 := by
  refine ⟨?_, ?_, ?_, ?_, ?_⟩
  · intro taken name
    have search := fresh_search_set taken name
    exact ⟨search, search.leastSuffix_numbered⟩
  · intro bindings name
    have search := fresh_search_bindings bindings name
    exact ⟨search, search.leastSuffix_numbered⟩
  · intro letters position counter
    rw [numbered, positional]
    split
    · rw [String.append_empty]
    · rw [String.append_assoc]
  · intro taken symbol
    have search := free_search taken symbol
    exact ⟨search, search.leastSuffix_candidate⟩
  · intro taken name
    refine ⟨rfl, fun other => ?_⟩
    rw [Symbol.define, Std.ExtTreeSet.mem_insert, Std.LawfulEqCmp.compare_eq_iff_eq]
    exact or_comm.trans (or_congr_right eq_comm)

end WasmLowering.Naming
