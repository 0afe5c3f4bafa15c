import WasmLowering.Proofs.Decoding.WellFormed
import WasmLowering.Proofs.Naming.EntityNames
import WasmLowering.Proofs.Naming.ReverseView

/-! Names of parameters and locals and the slots they mean.

A slot that has a name keeps the least one. The others get names that are not
taken; but only the least name of every slot counts as taken, so that the name
made up for a local can be one of the further names of a parameter. Then it means
the parameter, which is looked up first. -/

namespace WasmLowering

structure Func.SingleNames (func : Func) : Prop where
  params : ∀ left right position, func.paramBindings.find? left = some position →
    func.paramBindings.find? right = some position → left = right
  locals : ∀ left right position, func.localBindings.find? left = some position →
    func.localBindings.find? right = some position → left = right

namespace Naming

/-! ## Taken names -/

theorem mem_foldl_insert (names : List String) (taken : NameSet) (name : String) :
    name ∈ names.foldl (·.insert ·) taken ↔ name ∈ names ∨ name ∈ taken := by
  induction names generalizing taken with
  | nil => simp
  | cons first rest induction =>
      rw [List.foldl_cons, induction]
      simp only [Std.ExtTreeSet.mem_insert, Std.LawfulEqCmp.compare_eq_iff_eq, List.mem_cons]
      grind

/-- What is known of a name taken for something that is called by its position. -/
theorem takePositional_spec (taken : NameSet) {letter : String} (given : letter ≠ "")
    (position : Nat) :
    (takePositional taken letter position).1 ≠ "" ∧
      (takePositional taken letter position).1 ∉ taken ∧
      ∀ name, name ∈ (takePositional taken letter position).2 ↔
        name = (takePositional taken letter position).1 ∨ name ∈ taken := by
  refine ⟨fresh_ne_empty (positional_ne_empty given position) _ _, fresh_not_mem _ _, ?_⟩
  intro name
  simp only [takePositional, Std.ExtTreeSet.mem_insert, Std.LawfulEqCmp.compare_eq_iff_eq]
  grind

/-! ## Naming the slots of a list

What is known of a pass over slots that begins at position `start`: `shown` are the
names that the slots have before. -/

structure SlotsNamed (start : Nat) (shown : List String) (before after : NameSet × Bindings) :
    Prop where
  /-- Names stay taken. -/
  grows : ∀ name ∈ before.1, name ∈ after.1
  /-- Names stay bound. -/
  bound : ∀ name, (before.2.find? name).isSome → (after.2.find? name).isSome
  /-- Taken names keep their meaning. -/
  keeps : ∀ name ∈ before.1, after.2.find? name = before.2.find? name
  /-- Whatever else is bound is a new name of a slot that had none. -/
  fromBefore : ∀ name place, after.2.find? name = some place →
    before.2.find? name = some place ∨
      name ∉ before.1 ∧ name ∈ after.1 ∧
        ∃ position, shown[position]? = some "" ∧ place = .ofNat (start + position)
  /-- Every slot that had no name has one. -/
  named : ∀ position, shown[position]? = some "" →
    ∃ name, name ≠ "" ∧ after.2.find? name = some (.ofNat (start + position))

theorem nameSlots_named {letter : String} (given : letter ≠ "") (start : Nat)
    (shown : List String) (state : NameSet × Bindings) :
    SlotsNamed start shown state (nameSlots letter start shown state) := by
  induction shown generalizing start state with
  | nil =>
      rw [nameSlots]
      exact ⟨fun _ => id, fun _ => id, fun _ _ => rfl, fun _ _ => .inl, by simp⟩
  | cons name rest induction =>
      rcases state with ⟨taken, bindings⟩
      rw [nameSlots]
      split
      · next empty =>
          have known := takePositional_spec taken given start
          rcases taking : takePositional taken letter start with ⟨chosen, nowTaken⟩
          rw [taking] at known
          rcases known with ⟨nonempty, free, mem_taken⟩
          have later := induction (start + 1) (nowTaken, bindings.put chosen (.ofNat start))
          have chosenTaken : chosen ∈ nowTaken := (mem_taken chosen).mpr (.inl rfl)
          have stillTaken : ∀ other ∈ taken, other ∈ nowTaken := fun other isTaken =>
            (mem_taken other).mpr (.inr isTaken)
          constructor
          · exact fun other isTaken => later.grows other (stillTaken other isTaken)
          · intro other isBound
            apply later.bound other
            rw [Bindings.find?_put]
            split
            · rfl
            · exact isBound
          · intro other isTaken
            have different : chosen ≠ other := fun equal => free (equal ▸ isTaken)
            rw [later.keeps other (stillTaken other isTaken), Bindings.find?_put, if_neg different]
          · intro other place isBound
            rcases later.fromBefore other place isBound with
              old | ⟨fresh, isTaken, position, has, equal⟩
            · rw [Bindings.find?_put] at old
              split at old
              · next equal =>
                  subst equal
                  cases old
                  exact .inr ⟨free, later.grows _ chosenTaken, 0, by simp [empty], rfl⟩
              · exact .inl old
            · have notBefore : other ∉ taken := fun known => fresh (stillTaken other known)
              refine .inr ⟨notBefore, isTaken, position + 1, has, ?_⟩
              rw [equal, Nat.add_right_comm, Nat.add_assoc]
          · intro position has
            cases position with
            | zero =>
                refine ⟨chosen, nonempty, ?_⟩
                rw [later.keeps chosen chosenTaken]
                exact Bindings.find?_put_self _ _ _
            | succ position =>
                rcases later.named position has with ⟨other, nonempty, isBound⟩
                rw [Nat.add_right_comm, Nat.add_assoc] at isBound
                exact ⟨other, nonempty, isBound⟩
      · next present =>
          have later := induction (start + 1) (taken, bindings)
          refine ⟨later.grows, later.bound, later.keeps, ?_, ?_⟩
          · intro other place isBound
            rcases later.fromBefore other place isBound with
              old | ⟨fresh, isTaken, position, has, equal⟩
            · exact .inl old
            · refine .inr ⟨fresh, isTaken, position + 1, has, ?_⟩
              rw [equal, Nat.add_right_comm, Nat.add_assoc]
          · intro position has
            cases position with
            | zero => exact absurd (by simpa using has) present
            | succ position =>
                rcases later.named position has with ⟨other, nonempty, isBound⟩
                rw [Nat.add_right_comm, Nat.add_assoc] at isBound
                exact ⟨other, nonempty, isBound⟩

/-- The name that a slot has after the pass: the one it had, or a new one. -/
theorem SlotsNamed.shown_cases {shown : List String} {before after : NameSet × Bindings}
    (pass : SlotsNamed 0 shown before after) (short : shown.length ≤ UInt32.size)
    (isShown : before.2.reverse shown.length = shown)
    (isTaken : ∀ name ∈ shown, name ≠ "" → name ∈ before.1) {position : Nat} {name : String}
    (has : (after.2.reverse shown.length)[position]? = some name) :
    name ≠ "" ∧ after.2.find? name = some (.ofNat position) ∧
      (shown[position]? = some name ∧ name ∈ before.1 ∨
        shown[position]? = some "" ∧ name ∉ before.1 ∧ name ∈ after.1) := by
  have inside : position < shown.length := by
    have bounded := (List.getElem?_eq_some_iff.mp has).1
    simpa using bounded
  have toNat : (UInt32.ofNat position).toNat = position :=
    Index.toNat_ofNat (Nat.lt_of_lt_of_le inside short)
  have after_shows := Bindings.shows_of_reverse has
  rcases old : shown[position]? with _ | previous
  · exact absurd (List.getElem?_eq_none_iff.mp old) (Nat.not_le.mpr inside)
  have before_shows : before.2.Shows position previous :=
    Bindings.shows_of_reverse (isShown ▸ old)
  by_cases empty : previous = ""
  · subst empty
    rcases pass.named position old with ⟨chosen, nonempty, isBound⟩
    rw [Nat.zero_add] at isBound
    have given := (after_shows.least chosen _ isBound toNat nonempty).1
    rcases after_shows.bound given with ⟨place, isPlace, equal⟩
    have samePlace : place = .ofNat position := UInt32.toNat_inj.mp (equal.trans toNat.symm)
    subst samePlace
    refine ⟨given, isPlace, .inr ⟨rfl, ?_⟩⟩
    rcases pass.fromBefore name _ isPlace with bound | ⟨fresh, nowTaken, _⟩
    · exact absurd rfl (before_shows.least name _ bound toNat given).1
    · exact ⟨fresh, nowTaken⟩
  · have taken := isTaken previous (List.mem_of_getElem? old) empty
    -- No new name is bound to the slot, so the least of its names is the same.
    have still_shows : after.2.Shows position previous := by
      constructor
      · intro given
        rw [pass.keeps previous taken]
        exact before_shows.bound given
      · intro other place isBound isPlace given
        rcases pass.fromBefore other place isBound with bound | ⟨_, _, slot, wasEmpty, equal⟩
        · exact before_shows.least other place bound isPlace given
        · have slotInside : slot < shown.length := (List.getElem?_eq_some_iff.mp wasEmpty).1
          rw [equal, Nat.zero_add, Index.toNat_ofNat (Nat.lt_of_lt_of_le slotInside short)] at isPlace
          rw [isPlace, old] at wasEmpty
          exact absurd (Option.some.inj wasEmpty) empty
    have same := after_shows.unique still_shows
    subst same
    rcases still_shows.bound empty with ⟨place, isPlace, equal⟩
    have samePlace : place = .ofNat position := UInt32.toNat_inj.mp (equal.trans toNat.symm)
    exact ⟨empty, samePlace ▸ isPlace, .inl ⟨rfl, taken⟩⟩

/-! ## Naming the slots of a function -/

def takenNames (func : Func) : NameSet :=
  ((func.paramNames ++ func.localNames).filter (· ≠ "") ++ givenLabels func.body).foldl
    (·.insert ·) ((∅ : NameSet).insert funcLabel)

def paramPass (func : Func) : NameSet × Bindings :=
  nameSlots "$p" 0 func.paramNames (takenNames func, func.paramBindings)

def localPass (func : Func) : NameSet × Bindings :=
  nameSlots "$l" 0 func.localNames ((paramPass func).1, func.localBindings)

theorem resolveFunc_eq (func : Func) :
    resolveFunc func = { func with
      paramBindings := (paramPass func).2
      localBindings := (localPass func).2
      body := (labelInstrs func.body ⟨0, (localPass func).1⟩).1 } := rfl

theorem shown_mem_takenNames {func : Func} {name : String}
    (member : name ∈ func.paramNames ++ func.localNames) (given : name ≠ "") :
    name ∈ takenNames func := by
  refine (mem_foldl_insert _ _ _).mpr (.inl (List.mem_append_left _ ?_))
  exact List.mem_filter.mpr ⟨member, by simpa using given⟩

theorem funcLabel_mem_takenNames (func : Func) : funcLabel ∈ takenNames func := by
  refine (mem_foldl_insert _ _ _).mpr (.inr ?_)
  exact Std.ExtTreeSet.mem_insert_self

theorem paramPass_named (func : Func) :
    SlotsNamed 0 func.paramNames (takenNames func, func.paramBindings) (paramPass func) :=
  nameSlots_named (by decide) 0 _ _

theorem localPass_named (func : Func) :
    SlotsNamed 0 func.localNames ((paramPass func).1, func.localBindings) (localPass func) :=
  nameSlots_named (by decide) 0 _ _

theorem mem_localPass {func : Func} {name : String} (isTaken : name ∈ takenNames func) :
    name ∈ (localPass func).1 :=
  (localPass_named func).grows name ((paramPass_named func).grows name isTaken)

theorem paramPass_shown {func : Func} (decoded : func.Decoded) {slot : Nat} {name : String}
    (has : ((resolveFunc func).paramNames)[slot]? = some name) :
    name ≠ "" ∧ (paramPass func).2.find? name = some (.ofNat slot) ∧
      (func.paramNames[slot]? = some name ∧ name ∈ takenNames func ∨
        func.paramNames[slot]? = some "" ∧ name ∉ takenNames func ∧ name ∈ (paramPass func).1) := by
  have length : func.paramNames.length = func.params.length := Bindings.length_reverse _ _
  apply (paramPass_named func).shown_cases
  · exact length ▸ Nat.le_of_lt decoded.params.count
  · rw [length, Func.paramNames]
  · exact fun name member => shown_mem_takenNames (List.mem_append_left _ member)
  · rw [length]
    exact has

theorem localPass_shown {func : Func} (decoded : func.Decoded) {slot : Nat} {name : String}
    (has : ((resolveFunc func).localNames)[slot]? = some name) :
    name ≠ "" ∧ (localPass func).2.find? name = some (.ofNat slot) ∧
      (func.localNames[slot]? = some name ∧ name ∈ (paramPass func).1 ∨
        func.localNames[slot]? = some "" ∧ name ∉ (paramPass func).1 ∧
          name ∈ (localPass func).1) := by
  have length : func.localNames.length = func.locals.length := Bindings.length_reverse _ _
  apply (localPass_named func).shown_cases
  · exact length ▸ Nat.le_trans decoded.localCount (by decide)
  · rw [length, Func.localNames]
  · intro name member given
    apply (paramPass_named func).grows
    exact shown_mem_takenNames (List.mem_append_right _ member) given
  · rw [length]
    exact has

/-- A parameter has the name of a local only if it had this name from the start. -/
theorem paramPass_bound_iff {func : Func} (decoded : func.Decoded) {slot : Nat} {name : String}
    (has : ((resolveFunc func).localNames)[slot]? = some name) :
    ((paramPass func).2.find? name).isSome ↔ (func.paramBindings.find? name).isSome := by
  refine ⟨?_, (paramPass_named func).bound name⟩
  intro isBound
  rcases Option.isSome_iff_exists.mp isBound with ⟨place, bound⟩
  rcases (paramPass_named func).fromBefore name place bound with old | ⟨fresh, nowTaken, _⟩
  · exact Option.isSome_iff_exists.mpr ⟨place, old⟩
  · rcases (localPass_shown decoded has).2.2 with ⟨shown, _⟩ | ⟨_, free, _⟩
    · have member := List.mem_append_right func.paramNames (List.mem_of_getElem? shown)
      exact absurd (shown_mem_takenNames member (localPass_shown decoded has).1) fresh
    · exact absurd nowTaken free

theorem paramPass_inside {func : Func} (decoded : func.Decoded) {name : String} {place : Index}
    (bound : (paramPass func).2.find? name = some place) : place.toNat < func.params.length := by
  rcases (paramPass_named func).fromBefore name place bound with old | ⟨_, _, slot, wasEmpty, equal⟩
  · exact (decoded.paramsBound name place old).2
  · have inside : slot < func.params.length := by
      have bounded := (List.getElem?_eq_some_iff.mp wasEmpty).1
      simpa [Func.paramNames] using bounded
    rw [equal, Nat.zero_add, Index.toNat_ofNat (Nat.lt_trans inside decoded.params.count)]
    exact inside

end Naming

/-! ## What the names mean -/

def Func.Means (func : Func) (name : String) (slot : Nat) : Prop :=
  (func.slot? (.name name)).map UInt32.toNat = some slot ∧
    (func.params ++ func.locals)[slot]? = some (func.variableType (.name name))

namespace Func

theorem means_iff {func : Func} {slot : Nat} (present : slot < func.slotCount) (name : String) :
    func.Means name slot ↔ (func.slot? (.name name)).map UInt32.toNat = some slot := by
  refine ⟨And.left, fun isSlot => ⟨isSlot, ?_⟩⟩
  rcases Option.map_eq_some_iff.mp isSlot with ⟨position, found, rfl⟩
  have inside : position.toNat < (func.params ++ func.locals).length := by
    simpa [slotCount] using present
  simp only [variableType, found, slotType, List.getElem?_eq_getElem inside, Option.getD_some]

theorem map_toNat_eq_iff (found : Index) (slot : Nat) :
    (if found = Index.missing then none else some found).map UInt32.toNat = some slot ↔
      found.toNat = slot ∧ slot < Index.missing.toNat := by
  have bound := found.toNat_lt
  have limit : Index.missing.toNat = 2 ^ 32 - 1 := rfl
  split
  · next missing =>
      subst missing
      simp only [Option.map_none, reduceCtorEq, false_iff]
      omega
  · next present =>
      have different : found.toNat ≠ Index.missing.toNat := fun equal =>
        present (UInt32.toNat_inj.mp equal)
      simp only [Option.map_some, Option.some.injEq]
      omega

end Func

open Naming in
theorem Func.resolved_slot {func : Func} (decoded : func.Decoded) {slot : Nat} {name : String}
    (has : ((resolveFunc func).paramNames ++ (resolveFunc func).localNames)[slot]? = some name) :
    name ≠ "" ∧
      ((resolveFunc func).Means name slot ↔
        slot < Index.missing.toNat ∧
          (slot < func.params.length ∨ func.paramBindings.has name = false)) := by
  have paramCount : (resolveFunc func).paramNames.length = func.params.length :=
    Bindings.length_reverse _ _
  have localCount : (resolveFunc func).localNames.length = func.locals.length :=
    Bindings.length_reverse _ _
  have inside : slot < (resolveFunc func).slotCount := by
    have bounded := (List.getElem?_eq_some_iff.mp has).1
    rw [List.length_append, paramCount, localCount] at bounded
    exact bounded
  rw [Func.means_iff inside, Func.slot?, Func.map_toNat_eq_iff, Bindings.has_eq_isSome]
  dsimp only [resolveFunc_eq]
  rcases Nat.lt_or_ge slot func.params.length with isParam | isLocal
  · rw [List.getElem?_append_left (paramCount ▸ isParam)] at has
    have known := paramPass_shown decoded has
    refine ⟨known.1, ?_⟩
    rw [known.2.1]
    simp only [isParam, Index.toNat_ofNat (Nat.lt_trans isParam decoded.params.count), true_and,
      true_or, and_true]
  · rw [List.getElem?_append_right (paramCount ▸ isLocal), paramCount] at has
    have known := localPass_shown decoded has
    refine ⟨known.1, ?_⟩
    have isBound := paramPass_bound_iff decoded has
    rcases shadow : (paramPass func).2.find? name with _ | place
    · have unbound : (func.paramBindings.find? name).isSome = false := by
        simpa [shadow] using isBound
      have sum : (UInt32.ofNat func.params.length +
          UInt32.ofNat (slot - func.params.length)).toNat = slot % 2 ^ 32 := by
        rw [← UInt32.ofNat_add, UInt32.toNat_ofNat', Nat.add_sub_cancel' isLocal]
      have limit : Index.missing.toNat = 2 ^ 32 - 1 := rfl
      simp only [known.2.1, unbound, or_true, and_true, and_iff_right_iff_imp]
      intro below
      exact sum.trans (Nat.mod_eq_of_lt (by omega))
    · have bound : (func.paramBindings.find? name).isSome = true := by
        simpa [shadow] using isBound
      have before := paramPass_inside decoded shadow
      simp only [bound, Bool.true_eq_false, or_false]
      omega

/-! ## Functions whose slots have one name at most -/

theorem Bindings.nodup_of_bound {bindings : Bindings} {names : List String}
    (short : names.length ≤ UInt32.size)
    (bound : ∀ slot name, names[slot]? = some name →
      bindings.find? name = some (.ofNat slot)) : names.Nodup := by
  refine List.nodup_iff_getElem?_ne_getElem?.mpr fun left right before inside same => ?_
  have isLeft := List.getElem?_eq_getElem (Nat.lt_trans before inside)
  have places := (bound left _ isLeft).symm.trans (bound right _ (same ▸ isLeft))
  have positions := congrArg UInt32.toNat (Option.some.inj places)
  rw [Index.toNat_ofNat (by omega), Index.toNat_ofNat (by omega)] at positions
  omega

namespace Func

open Naming

theorem SingleNames.unbound {func : Func} (single : func.SingleNames) (decoded : func.Decoded)
    {slot : Nat} {name : String} (has : ((resolveFunc func).localNames)[slot]? = some name) :
    func.paramBindings.find? name = none := by
  rcases bound : func.paramBindings.find? name with _ | place
  · rfl
  · exfalso
    rcases decoded.paramsBound name place bound with ⟨given, inside⟩
    -- The parameter shows its only name, which is therefore taken.
    have isShown := Bindings.getElem?_reverse func.paramBindings inside
    have view := Bindings.shows_of_reverse isShown
    have nonempty := (view.least name place bound rfl given).1
    rcases view.bound nonempty with ⟨other, otherBound, isOther⟩
    have samePlace : other = place := UInt32.toNat_inj.mp isOther
    have sameName := single.params _ _ _ (samePlace ▸ otherBound) bound
    have isTaken : name ∈ takenNames func := by
      have member := List.mem_append_left func.localNames (List.mem_of_getElem? isShown)
      exact sameName ▸ shown_mem_takenNames member nonempty
    rcases (localPass_shown decoded has).2.2 with ⟨shown, _⟩ | ⟨_, free, _⟩
    · rcases (Bindings.shows_of_reverse shown).bound given with ⟨own, isLocal, _⟩
      rw [decoded.apart name place bound] at isLocal
      cases isLocal
    · exact free ((paramPass_named func).grows name isTaken)

theorem SingleNames.means {func : Func} (single : func.SingleNames) (decoded : func.Decoded)
    {slot : Nat} {name : String}
    (has : ((resolveFunc func).paramNames ++ (resolveFunc func).localNames)[slot]? = some name)
    (below : slot < Index.missing.toNat) : (resolveFunc func).Means name slot := by
  refine (resolved_slot decoded has).2.mpr ⟨below, ?_⟩
  have paramCount : (resolveFunc func).paramNames.length = func.params.length :=
    Bindings.length_reverse _ _
  rcases Nat.lt_or_ge slot func.params.length with isParam | isLocal
  · exact .inl isParam
  · rw [List.getElem?_append_right (paramCount ▸ isLocal)] at has
    rw [Bindings.has_eq_isSome, single.unbound decoded has]
    exact .inr rfl

theorem SingleNames.nodup {func : Func} (single : func.SingleNames) (decoded : func.Decoded) :
    ((resolveFunc func).paramNames ++ (resolveFunc func).localNames).Nodup := by
  have paramCount : (resolveFunc func).paramNames.length = func.params.length :=
    Bindings.length_reverse _ _
  have localCount : (resolveFunc func).localNames.length = func.locals.length :=
    Bindings.length_reverse _ _
  refine List.nodup_append.mpr ⟨?_, ?_, ?_⟩
  · apply Bindings.nodup_of_bound (Nat.le_of_lt (paramCount ▸ decoded.params.count))
    exact fun slot name has => (paramPass_shown decoded has).2.1
  · apply Bindings.nodup_of_bound (Nat.le_trans (localCount ▸ decoded.localCount) (by decide))
    exact fun slot name has => (localPass_shown decoded has).2.1
  · intro name isParam other isLocal same
    rcases List.mem_iff_getElem?.mp isParam with ⟨left, hasLeft⟩
    rcases List.mem_iff_getElem?.mp isLocal with ⟨right, hasRight⟩
    have bound := (paramPass_shown decoded hasLeft).2.1
    have unbound := (paramPass_bound_iff decoded hasRight).mp (by rw [← same, bound]; rfl)
    rw [single.unbound decoded hasRight] at unbound
    cases unbound

end Func

/-! ## The module -/

namespace Module

open Naming

theorem importCount_resolve (module : Module) (kind : ExternKind) :
    module.resolve.importCount kind = module.importCount kind := by
  unfold importCount
  cases EntityKind.ofExtern? kind with
  | none => rfl
  | some entity =>
      dsimp only
      rw [entityCount_resolve]
      rfl

theorem getElem?_take_append_map_drop {α : Type} (change : α → α) (items : List α)
    (first position : Nat) :
    (items.take first ++ (items.drop first).map change)[position]? =
      items[position]?.map fun item => if position < first then item else change item := by
  rcases Nat.lt_or_ge position items.length with inside | beyond
  · rcases Nat.lt_or_ge position first with before | behind
    · rw [List.getElem?_append_left (by rw [List.length_take]; omega),
        List.getElem?_take_of_lt before, List.getElem?_eq_getElem inside]
      simp [before]
    · rw [List.getElem?_append_right (by rw [List.length_take]; omega), List.length_take,
        Nat.min_eq_left (by omega), List.getElem?_map, List.getElem?_drop,
        Nat.add_sub_cancel' behind]
      simp [Nat.not_lt.mpr behind]
  · rw [List.getElem?_eq_none beyond, List.getElem?_eq_none]
    · rfl
    · simp only [List.length_append, List.length_take, List.length_map, List.length_drop]
      omega

theorem getElem?_funcs_resolve {module : Module} {position : Nat} {func : Func}
    (isFunc : module.funcs[position]? = some func) :
    ∃ name, module.resolve.funcs[position]? = some
      (if position < module.importCount .func then { func with name }
        else resolveFunc { func with name }) := by
  have inside : position < (module.entityNames .func).length := by
    rw [length_entityNames]
    exact (List.getElem?_eq_some_iff.mp isFunc).1
  rcases nameTable_names module .func inside with ⟨name, _, isName⟩
  refine ⟨name, ?_⟩
  have renamed : (resolveEntities module).funcs[position]? = some { func with name } := by
    rw [resolveEntities, List.getElem?_zipWith, isFunc, isName]
  rw [resolve, getElem?_take_append_map_drop, renamed]
  rfl

theorem resolved_definedFunc {module : Module} {number : Nat} {func resolved : Func}
    (isFunc : module.definedFuncs[number]? = some func)
    (isResolved : module.resolve.definedFuncs[number]? = some resolved) :
    ∃ name, resolved = resolveFunc { func with name } := by
  rw [definedFuncs, List.getElem?_drop] at isFunc
  rw [definedFuncs, importCount_resolve, List.getElem?_drop] at isResolved
  rcases getElem?_funcs_resolve isFunc with ⟨name, isNamed⟩
  rw [isNamed, if_neg (by omega)] at isResolved
  exact ⟨name, (Option.some.inj isResolved).symm⟩

theorem Decoded.definedFunc {module : Module} (decoded : module.Decoded) {number : Nat}
    {func : Func} (isFunc : module.definedFuncs[number]? = some func) : func.Decoded :=
  decoded.funcs func (List.mem_of_mem_drop (List.mem_of_getElem? isFunc))

end Module

/-- After naming, every parameter and local of a defined function has a name that
is not empty. The name means its slot exactly if it is a parameter, or no parameter
has had this name from the start, and the slot can be referred to at all. -/
theorem Module.resolve_slots_named {bytes : List UInt8} {module : Module}
    (accepted : Binary.decode bytes = .ok module) {number : Nat} {func resolved : Func}
    (isFunc : module.definedFuncs[number]? = some func)
    (isResolved : module.resolve.definedFuncs[number]? = some resolved) :
    (resolved.paramNames ++ resolved.localNames).length = resolved.slotCount ∧
    ∀ slot name, (resolved.paramNames ++ resolved.localNames)[slot]? = some name →
      name ≠ "" ∧
        (resolved.Means name slot ↔
          slot < Index.missing.toNat ∧
            (slot < func.params.length ∨ func.paramBindings.has name = false)) := by
  have decoded := (Binary.decode_decoded accepted).definedFunc isFunc
  rcases Module.resolved_definedFunc isFunc isResolved with ⟨own, rfl⟩
  refine ⟨?_, fun slot name has => ?_⟩
  · simp [Func.paramNames, Func.localNames, Func.slotCount]
  · exact Func.resolved_slot { decoded with } has

def shadowedLocal : List UInt8 :=
  [0x00, 0x61, 0x73, 0x6D, 0x01, 0x00, 0x00, 0x00,
    -- The type `[i32] -> []`, one function of it, and its body with one `f64` local.
    0x01, 0x05, 0x01, 0x60, 0x01, 0x7F, 0x00, 0x03, 0x02, 0x01, 0x00,
    0x0A, 0x06, 0x01, 0x04, 0x01, 0x01, 0x7C, 0x0B,
    -- Names of locals: slot 0 of function 0 is `a` and `l0`.
    0x00, 0x11, 0x04, 0x6E, 0x61, 0x6D, 0x65, 0x02, 0x0A, 0x01, 0x00, 0x02,
    0x00, 0x01, 0x61, 0x00, 0x02, 0x6C, 0x30]

/-- What a run of naming shows of the first function of a binary module. -/
theorem exists_resolved (bytes : List UInt8) {α : Type} (view : Func → Func → α) (value : α)
    (run : ((Binary.decode bytes).toOption.bind fun module =>
      module.definedFuncs[0]?.bind fun func => module.resolve.definedFuncs[0]?.map fun resolved =>
        view func resolved) = some value) :
    ∃ module func resolved, Binary.decode bytes = .ok module ∧
      module.definedFuncs[0]? = some func ∧ module.resolve.definedFuncs[0]? = some resolved ∧
      view func resolved = value := by
  rcases decoded : Binary.decode bytes with error | module
  · rw [decoded] at run
    cases run
  · rw [decoded, Except.toOption, Option.bind_some] at run
    rcases Option.bind_eq_some_iff.mp run with ⟨func, isFunc, rest⟩
    rcases Option.map_eq_some_iff.mp rest with ⟨resolved, isResolved, viewed⟩
    exact ⟨module, func, resolved, rfl, isFunc, isResolved, viewed⟩

theorem Module.resolve_slots_named_shadowed : ∃ module func resolved,
    Binary.decode shadowedLocal = .ok module ∧ module.definedFuncs[0]? = some func ∧
      module.resolve.definedFuncs[0]? = some resolved ∧
      (resolved.paramNames ++ resolved.localNames)[1]? = some "$l0" ∧
      ¬resolved.Means "$l0" 1 := by
  rcases exists_resolved shadowedLocal
      (fun func resolved => (func.params.length, func.paramBindings.has "$l0",
        (resolved.paramNames ++ resolved.localNames)[1]?))
      (1, true, some "$l0") (by decide +kernel) with
    ⟨module, func, resolved, accepted, isFunc, isResolved, viewed⟩
  simp only [Prod.mk.injEq] at viewed
  rcases viewed with ⟨paramCount, bound, named⟩
  refine ⟨module, func, resolved, accepted, isFunc, isResolved, named, ?_⟩
  rw [((resolve_slots_named accepted isFunc isResolved).2 1 "$l0" named).2]
  simp [paramCount, bound]

/-- The name of the local is not empty, but it is found at the parameter. -/
theorem Module.resolve_local_shadowed : ∃ module func resolved,
    Binary.decode shadowedLocal = .ok module ∧ module.definedFuncs[0]? = some func ∧
      module.resolve.definedFuncs[0]? = some resolved ∧
      ((resolved.paramNames ++ resolved.localNames)[1]?, resolved.slot? (.name "$l0"),
          resolved.variableType (.name "$l0"), resolved.slotType 1) =
        (some "$l0", some 0, .i32, .f64) :=
  exists_resolved shadowedLocal _ _ (by decide +kernel)

end WasmLowering
