import Mathlib.Data.List.Induction
import WasmLowering.Proofs.Naming.Freshness

/-! Naming entities is total and injective.

Every pass over the names of a kind keeps one invariant: a name that an entity
has is bound to the position of that entity. Bindings only grow, so no pass takes
back what an earlier one has given. The last pass leaves no entity unnamed. -/

namespace WasmLowering

theorem Index.toNat_ofNat {position : Nat} (small : position < UInt32.size) :
    (UInt32.ofNat position).toNat = position := by
  rw [UInt32.toNat_ofNat', Nat.mod_eq_of_lt small]

namespace Bindings

def Extends (later earlier : Bindings) : Prop :=
  ∀ name position, earlier.find? name = some position → later.find? name = some position

theorem Extends.refl (bindings : Bindings) : bindings.Extends bindings :=
  fun _ _ bound => bound

theorem Extends.trans {first second third : Bindings} (later : third.Extends second)
    (earlier : second.Extends first) : third.Extends first :=
  fun name position bound => later name position (earlier name position bound)

theorem extends_put {bindings : Bindings} {name : String} (free : bindings.find? name = none)
    (position : Index) : (bindings.put name position).Extends bindings := by
  intro other bound isBound
  rw [find?_put]
  split
  · next equal =>
      rw [equal, isBound] at free
      cases free
  · exact isBound

end Bindings

namespace Naming

namespace NameTable

def SoundFrom (table : NameTable) (start : Nat) : Prop :=
  ∀ position name, table.names[position]? = some name → name ≠ "" →
    table.bindings.find? name = some (.ofNat (start + position))

def Sound (table : NameTable) : Prop := table.SoundFrom 0

theorem Sound.find?_eq {table : NameTable} (sound : table.Sound) {position : Nat} {name : String}
    (has : table.names[position]? = some name) (given : name ≠ "") :
    table.bindings.find? name = some (.ofNat position) := by
  simpa using sound position name has given

/-! ## Names that entities already have

The pass over existing names does the same at every entity: it keeps or drops the
name, and binds it if it is new. -/

def keptName (bindings : Bindings) (position : Nat) (name : String) : String :=
  match bindings.find? name with
  | some bound => if bound = .ofNat position then name else ""
  | none => name

def bindName (bindings : Bindings) (position : Nat) (name : String) : Bindings :=
  if name = "" then bindings
  else if bindings.find? name = none then bindings.put name (.ofNat position)
  else bindings

theorem bindExisting_cons (bindings : Bindings) (start : Nat) (name : String)
    (rest : List String) :
    bindExisting bindings start (name :: rest) =
      ⟨keptName bindings start name ::
          (bindExisting (bindName bindings start name) (start + 1) rest).names,
        (bindExisting (bindName bindings start name) (start + 1) rest).bindings⟩ := by
  rw [bindExisting]
  by_cases empty : name = ""
  · cases found : bindings.find? name <;> simp_all [keptName, bindName]
  · cases found : bindings.find? name with
    | none => simp [keptName, bindName, empty, found]
    | some bound =>
        by_cases same : bound = .ofNat start <;> simp [keptName, bindName, empty, found, same]

theorem bindName_extends (bindings : Bindings) (position : Nat) (name : String) :
    (bindName bindings position name).Extends bindings := by
  unfold bindName
  split
  · exact .refl _
  · split
    · next free => exact Bindings.extends_put free _
    · exact .refl _

theorem find?_bindName_keptName {bindings : Bindings} {position : Nat} {name : String}
    (given : keptName bindings position name ≠ "") :
    (bindName bindings position name).find? (keptName bindings position name) =
      some (.ofNat position) := by
  unfold keptName at given ⊢
  cases found : bindings.find? name with
  | none =>
      simp only [found] at given
      simp [bindName, given, found]
  | some bound =>
      simp only [found] at given
      by_cases same : bound = .ofNat position
      · simp only [same, if_true] at given ⊢
        simp [bindName, given, found, same]
      · simp [same] at given

theorem bindExisting_extends (bindings : Bindings) (start : Nat) (names : List String) :
    (bindExisting bindings start names).bindings.Extends bindings := by
  induction names generalizing bindings start with
  | nil => exact .refl _
  | cons name rest induction =>
      rw [bindExisting_cons]
      exact (induction _ _).trans (bindName_extends bindings start name)

theorem bindExisting_sound (bindings : Bindings) (start : Nat) (names : List String) :
    (bindExisting bindings start names).SoundFrom start := by
  induction names generalizing bindings start with
  | nil => simp [bindExisting, SoundFrom]
  | cons name rest induction =>
      rw [bindExisting_cons]
      intro position other has given
      cases position with
      | zero =>
          have equal : keptName bindings start name = other := by simpa using has
          subst equal
          exact bindExisting_extends _ _ _ _ _ (find?_bindName_keptName given)
      | succ position =>
          have tail := induction (bindName bindings start name) (start + 1) position other
            (by simpa using has) given
          rwa [Nat.add_right_comm, Nat.add_assoc] at tail

@[simp] theorem length_bindExisting (bindings : Bindings) (start : Nat) (names : List String) :
    (bindExisting bindings start names).names.length = names.length := by
  induction names generalizing bindings start with
  | nil => rfl
  | cons name rest induction => simp [bindExisting_cons, induction]

/-- A name is bound at the latest by the first entity that has it. -/
theorem bindExisting_binds {bindings : Bindings} (start : Nat) {position : Nat}
    {names : List String} {name : String} (has : names[position]? = some name) (given : name ≠ "")
    (free : bindings.find? name = none) :
    ∃ first ≤ position,
      (bindExisting bindings start names).bindings.find? name = some (.ofNat (start + first)) := by
  induction names generalizing bindings start position with
  | nil => simp at has
  | cons other rest induction =>
      rw [bindExisting_cons]
      by_cases equal : other = name
      · subst equal
        refine ⟨0, by omega, bindExisting_extends _ _ _ _ _ ?_⟩
        simp [bindName, given, free]
      · cases position with
        | zero => exact absurd (by simpa using has) equal
        | succ position =>
            have stillFree : (bindName bindings start other).find? name = none := by
              unfold bindName
              split
              · exact free
              · split
                · rw [Bindings.find?_put, if_neg equal, free]
                · exact free
            rcases induction _ (by simpa using has) stillFree with ⟨first, before, bound⟩
            have shifted : start + 1 + first = start + (first + 1) := by omega
            exact ⟨first + 1, by omega, shifted ▸ bound⟩

/-- An entity keeps its name unless the name was bound to another position before,
by the bindings it started from or by an earlier entity. -/
theorem bindExisting_keeps {bindings : Bindings} {start position : Nat} {names : List String}
    {name : String} (has : names[position]? = some name)
    (preset : ∀ bound, bindings.find? name = some bound → bound = .ofNat (start + position))
    (earlier : bindings.find? name = none →
      ∀ before < position, names[before]? ≠ some name) :
    (bindExisting bindings start names).names[position]? = some name := by
  induction names generalizing bindings start position with
  | nil => simp at has
  | cons other rest induction =>
      rw [bindExisting_cons]
      cases position with
      | zero =>
          have equal : other = name := by simpa using has
          subst equal
          cases found : bindings.find? other with
          | none => simp [keptName, found]
          | some bound => simp [keptName, found, preset bound found]
      | succ position =>
          have same : (bindName bindings start other).find? name = bindings.find? name := by
            unfold bindName
            split
            · rfl
            · split
              · next otherFree =>
                  rw [Bindings.find?_put, if_neg]
                  intro equal
                  exact earlier (equal ▸ otherFree) 0 (by omega) (by simp [equal])
              · rfl
          rw [List.getElem?_cons_succ]
          apply induction (by simpa using has)
          · rwa [same, Nat.add_right_comm, Nat.add_assoc]
          · intro free before below
            simpa using earlier (same ▸ free) (before + 1) (by omega)

/-! ## Names for the rest

A step that names one entity leaves the names of all others, and everything that
was bound. -/

structure Grows (later earlier : NameTable) : Prop where
  length_eq : later.names.length = earlier.names.length
  keeps : ∀ (position : Nat) (name : String), earlier.names[position]? = some name → name ≠ "" →
    later.names[position]? = some name
  extends_bindings : later.bindings.Extends earlier.bindings
  sound : earlier.Sound → later.Sound

theorem Grows.refl (table : NameTable) : table.Grows table :=
  ⟨rfl, fun _ _ has _ => has, .refl _, id⟩

theorem Grows.trans {first second third : NameTable} (later : third.Grows second)
    (earlier : second.Grows first) : third.Grows first where
  length_eq := later.length_eq.trans earlier.length_eq
  keeps position name has given :=
    later.keeps position name (earlier.keeps position name has given) given
  extends_bindings := later.extends_bindings.trans earlier.extends_bindings
  sound sound := later.sound (earlier.sound sound)

theorem nameAt_grows (table : NameTable) (position : Nat) (name : String) :
    (table.nameAt position name).Grows table := by
  unfold nameAt
  split
  · next unnamed =>
      have free := fresh_not_bound table.bindings name
      refine ⟨by simp, ?_, Bindings.extends_put free _, ?_⟩
      · intro other given has isGiven
        rw [List.getElem?_set_ne]
        · exact has
        · rintro rfl
          exact isGiven (by simpa [unnamed] using has.symm)
      · intro sound other given has isGiven
        by_cases same : position = other
        · subst same
          have chosen : given = fresh table.bindings.has table.bindings.size name := by
            have inside : position < table.names.length :=
              (List.getElem?_eq_some_iff.mp unnamed).choose
            simpa [List.getElem?_set_self inside] using has.symm
          subst chosen
          simp
        · have before : table.names[other]? = some given := by
            simpa [List.getElem?_set_ne same] using has
          have bound := sound.find?_eq before isGiven
          simpa using Bindings.extends_put free _ _ _ bound
  · exact .refl _

theorem foldl_grows {entry : Type} {step : NameTable → entry → NameTable}
    (grows : ∀ table item, (step table item).Grows table) (table : NameTable)
    (items : List entry) : (items.foldl step table).Grows table := by
  induction items generalizing table with
  | nil => exact .refl _
  | cons item rest induction => exact (induction (step table item)).trans (grows table item)

theorem nameInOrder_grows (table : NameTable) (names : List String) :
    (table.nameInOrder names).Grows table := by
  apply foldl_grows
  intro table entry
  exact nameAt_grows table entry.2 entry.1

theorem nameExports_grows (table : NameTable) (exports : List (Reference × String)) :
    (table.nameExports exports).Grows table := by
  apply foldl_grows
  intro table entry
  dsimp only
  split
  · exact nameAt_grows table _ entry.2
  · exact .refl _

theorem nameAt_names (table : NameTable) {position : Nat} {name : String} (given : name ≠ "")
    (inside : position < table.names.length) :
    ∃ chosen ≠ "", (table.nameAt position name).names[position]? = some chosen := by
  unfold nameAt
  split
  · exact ⟨_, fresh_ne_empty given _ _, List.getElem?_set_self inside⟩
  · next named =>
      have has := List.getElem?_eq_getElem inside
      refine ⟨table.names[position], ?_, has⟩
      intro empty
      exact named (has.trans (congrArg some empty))

theorem nameInOrder_append (table : NameTable) (first : List String) (last : String) :
    table.nameInOrder (first ++ [last]) =
      (table.nameInOrder first).nameAt first.length last := by
  simp [nameInOrder, List.zipIdx_append, List.foldl_append]

theorem nameInOrder_names (table : NameTable) {names : List String}
    (given : ∀ name ∈ names, name ≠ "") {position : Nat} (inside : position < table.names.length)
    (offered : position < names.length) :
    ∃ chosen ≠ "", (table.nameInOrder names).names[position]? = some chosen := by
  induction names using List.reverseRecOn with
  | nil => simp at offered
  | append_singleton first last induction =>
      rw [nameInOrder_append]
      have length := (nameInOrder_grows table first).length_eq
      by_cases isLast : position = first.length
      · subst isLast
        exact nameAt_names _ (given last (by simp)) (length ▸ inside)
      · have offeredBefore : position < first.length := by
          simp only [List.length_append, List.length_singleton] at offered
          omega
        rcases induction (fun name member => given name (by simp [member])) offeredBefore with
          ⟨chosen, isGiven, has⟩
        exact ⟨chosen, isGiven, (nameAt_grows _ _ _).keeps _ _ has isGiven⟩

theorem nameRest_names (table : NameTable) {letter : String} (given : letter ≠ "")
    {position : Nat} (inside : position < table.names.length) :
    ∃ chosen ≠ "", (table.nameRest letter).names[position]? = some chosen := by
  apply nameInOrder_names table _ inside (by simpa using inside)
  intro name member
  rcases List.mem_map.mp member with ⟨number, _, rfl⟩
  exact positional_ne_empty given number

end NameTable

/-! ## All passes -/

theorem letter_ne_empty (kind : EntityKind) : letter kind ≠ "" := by
  cases kind <;> decide

theorem nameTable_grows (module : Module) (kind : EntityKind) :
    (nameTable module kind).Grows
      (NameTable.bindExisting (module.entityBindings kind) 0 (module.entityNames kind)) :=
  ((NameTable.nameInOrder_grows _ _).trans (NameTable.nameExports_grows _ _)).trans
    (NameTable.nameInOrder_grows _ _)

@[simp] theorem length_nameTable (module : Module) (kind : EntityKind) :
    (nameTable module kind).names.length = (module.entityNames kind).length := by
  simpa using (nameTable_grows module kind).length_eq

theorem nameTable_sound (module : Module) (kind : EntityKind) : (nameTable module kind).Sound :=
  (nameTable_grows module kind).sound (NameTable.bindExisting_sound _ _ _)

theorem nameTable_names (module : Module) (kind : EntityKind) {position : Nat}
    (inside : position < (module.entityNames kind).length) :
    ∃ name ≠ "", (nameTable module kind).names[position]? = some name := by
  apply NameTable.nameRest_names _ (letter_ne_empty kind)
  have length := ((NameTable.nameExports_grows _ (exportNames module kind)).trans
    (NameTable.nameInOrder_grows
      (NameTable.bindExisting (module.entityBindings kind) 0 (module.entityNames kind))
      (importNames module kind))).length_eq
  simpa [length] using inside

/-! ## The module with names -/

theorem map_zipWith_rename {entity : Type} (rename : entity → String → entity)
    (name : entity → String) (named : ∀ item text, name (rename item text) = text)
    (items : List entity) (names : List String) (same : names.length = items.length) :
    (items.zipWith rename names).map name = names := by
  apply List.ext_getElem?
  intro position
  rw [List.getElem?_map, List.getElem?_zipWith]
  cases atItem : items[position]? with
  | none =>
      have beyond := List.getElem?_eq_none_iff.mp atItem
      rw [List.getElem?_eq_none (by omega)]
      rfl
  | some item =>
      cases atName : names[position]? with
      | none => rfl
      | some text => simp [named]

@[simp] theorem length_entityNames (module : Module) (kind : EntityKind) :
    (module.entityNames kind).length = module.entityCount kind := by
  cases kind <;> simp [Module.entityNames, Module.entityCount]

theorem resolveFunc_name (func : Func) : (resolveFunc func).name = func.name := rfl

theorem entityNames_resolve_eq (module : Module) (kind : EntityKind) :
    module.resolve.entityNames kind = (resolveEntities module).entityNames kind := by
  cases kind with
  | func =>
      have sameNames : ((·.name) ∘ resolveFunc : Func → String) = (·.name) :=
        funext resolveFunc_name
      simp only [Module.resolve, Module.entityNames, List.map_append, List.map_map, sameNames]
      rw [← List.map_append, List.take_append_drop]
  | global => rfl
  | table => rfl
  | memory => rfl
  | except => rfl
  | type => rfl

theorem entityNames_resolve (module : Module) (kind : EntityKind) :
    module.resolve.entityNames kind = (nameTable module kind).names := by
  rw [entityNames_resolve_eq]
  cases kind <;>
    exact map_zipWith_rename _ _ (fun _ _ => rfl) _ _
      (by rw [length_nameTable, length_entityNames, Module.entityCount])

theorem entityBindings_resolve (module : Module) (kind : EntityKind) :
    module.resolve.entityBindings kind = (nameTable module kind).bindings := by
  cases kind <;> rfl

theorem entityCount_resolve (module : Module) (kind : EntityKind) :
    module.resolve.entityCount kind = module.entityCount kind := by
  rw [← length_entityNames, entityNames_resolve, length_nameTable, length_entityNames]

/-- The name that an entity has after naming, and that it is bound to it. -/
theorem resolve_names_entity (module : Module) (kind : EntityKind) {position : Index}
    (inside : position.toNat < module.entityCount kind) :
    ∃ name ≠ "", (module.resolve.entityNames kind)[position.toNat]? = some name ∧
      (module.resolve.entityBindings kind).find? name = some position := by
  rw [entityNames_resolve, entityBindings_resolve]
  rcases nameTable_names module kind (by simpa using inside) with ⟨name, given, has⟩
  refine ⟨name, given, has, ?_⟩
  simpa using (nameTable_sound module kind).find?_eq has given

/-- A name that was bound to another position of its kind, before naming started
or by an entity in front of the one that has it. -/
def BoundElsewhere (module : Module) (kind : EntityKind) (position : Index) (name : String) :
    Prop :=
  ∃ other ≠ position,
    (module.entityBindings kind).find? name = some other ∨
      (module.entityBindings kind).find? name = none ∧ other.toNat < position.toNat ∧
        (module.entityNames kind)[other.toNat]? = some name

theorem BoundElsewhere.find?_resolve {module : Module} {kind : EntityKind} {position : Index}
    {name : String} (given : name ≠ "") (elsewhere : BoundElsewhere module kind position name) :
    ∃ other ≠ position, (module.resolve.entityBindings kind).find? name = some other := by
  rw [entityBindings_resolve]
  have grown := (nameTable_grows module kind).extends_bindings
  rcases elsewhere with ⟨other, different, bound | ⟨free, before, has⟩⟩
  · exact ⟨other, different, grown _ _ (NameTable.bindExisting_extends _ _ _ _ _ bound)⟩
  · rcases NameTable.bindExisting_binds 0 has given free with ⟨first, upTo, bound⟩
    refine ⟨.ofNat first, ?_, ?_⟩
    · intro equal
      have small := position.toNat_lt_size
      have positions := congrArg UInt32.toNat equal
      rw [Index.toNat_ofNat (by omega)] at positions
      omega
    · simpa using grown _ _ bound

/-- A name that an entity has already is kept exactly if it was not bound
elsewhere. -/
theorem resolve_keeps_iff (module : Module) (kind : EntityKind) {position : Index}
    {preset : String} (has : (module.entityNames kind)[position.toNat]? = some preset)
    (given : preset ≠ "") :
    (module.resolve.entityNames kind)[position.toNat]? = some preset ↔
      ¬BoundElsewhere module kind position preset := by
  have inside : position.toNat < module.entityCount kind := by
    rw [← length_entityNames]
    exact (List.getElem?_eq_some_iff.mp has).choose
  constructor
  · intro kept elsewhere
    rcases elsewhere.find?_resolve given with ⟨other, different, bound⟩
    rcases resolve_names_entity module kind inside with ⟨name, _, hasName, boundName⟩
    have same : name = preset := by simpa [hasName] using kept
    rw [same, bound] at boundName
    exact different (Option.some.inj boundName)
  · intro notElsewhere
    rw [entityNames_resolve]
    apply (nameTable_grows module kind).keeps _ _ _ given
    apply NameTable.bindExisting_keeps has
    · intro bound isBound
      by_contra different
      exact notElsewhere ⟨bound, by simpa using different, .inl isBound⟩
    · intro free before below hasBefore
      have small := position.toNat_lt_size
      have back : (UInt32.ofNat before).toNat = before := Index.toNat_ofNat (by omega)
      refine notElsewhere ⟨.ofNat before, ?_, .inr ⟨free, by omega, by rwa [back]⟩⟩
      intro equal
      have positions := congrArg UInt32.toNat equal
      omega

end Naming

open Naming in
/-- After naming, every entity has a name that is not empty, entities at different
positions have different names, and the bindings of a kind take the name of an
entity back to its position. A name that an entity had before is changed exactly
if it was bound elsewhere. -/
theorem Module.resolve_entities_named (module : Module) (kind : EntityKind) :
    (module.resolve.entityNames kind).length = module.entityCount kind ∧
    (∀ name ∈ module.resolve.entityNames kind, name ≠ "") ∧
    (∀ (position : Index) (name : String),
      (module.resolve.entityNames kind)[position.toNat]? = some name →
        (module.resolve.entityBindings kind).find? name = some position) ∧
    (∀ (left right : Index) (name : String),
      (module.resolve.entityNames kind)[left.toNat]? = some name →
      (module.resolve.entityNames kind)[right.toNat]? = some name → left = right) ∧
    ∀ (position : Index) (preset : String),
      (module.entityNames kind)[position.toNat]? = some preset → preset ≠ "" →
        ((module.resolve.entityNames kind)[position.toNat]? ≠ some preset ↔
          BoundElsewhere module kind position preset) := by
  have bound : ∀ (position : Index) (name : String),
      (module.resolve.entityNames kind)[position.toNat]? = some name →
        (module.resolve.entityBindings kind).find? name = some position := by
    intro position name has
    have inside : position.toNat < module.entityCount kind := by
      rw [← entityCount_resolve, ← length_entityNames]
      exact (List.getElem?_eq_some_iff.mp has).choose
    rcases resolve_names_entity module kind inside with ⟨chosen, _, hasChosen, boundChosen⟩
    have same : chosen = name := by simpa [hasChosen] using has
    exact same ▸ boundChosen
  refine ⟨?_, ?_, bound, ?_, ?_⟩
  · rw [length_entityNames, entityCount_resolve]
  · intro name member
    rw [entityNames_resolve] at member
    rcases List.mem_iff_getElem?.mp member with ⟨position, has⟩
    have inside : position < (module.entityNames kind).length := by
      rw [← length_nameTable]
      exact (List.getElem?_eq_some_iff.mp has).choose
    rcases nameTable_names module kind inside with ⟨chosen, given, hasChosen⟩
    have same : chosen = name := by simpa [hasChosen] using has
    exact same ▸ given
  · intro left right name hasLeft hasRight
    have same := (bound left name hasLeft).symm.trans (bound right name hasRight)
    exact Option.some.inj same
  · intro position preset has given
    rw [ne_eq, not_iff_comm]
    exact (resolve_keeps_iff module kind has given).symm

end WasmLowering
