import WasmLowering.Binary.Decode
import WasmLowering.Proofs.Decoding.Entries
import WasmLowering.Proofs.Decoding.Unlabelled

/-! What is known of every decoded module, whatever its name sections say.

Functions refer to their types, names of slots are bound to slots that exist, a name
is bound to one slot only, code has no labels, and every import is tied to an
entity. -/

namespace WasmLowering

structure Func.Decoded (func : Func) : Prop where
  referred : func.declaration.typeRef.isSome
  params : ParamsDeclared func.params
  localCount : func.locals.length ≤ Binary.maxLocals
  localTypes : ∀ type ∈ func.locals, type ≠ .any
  paramsBound : ∀ name position, func.paramBindings.find? name = some position →
    name ≠ "" ∧ position.toNat < func.params.length
  localsBound : ∀ name position, func.localBindings.find? name = some position →
    name ≠ "" ∧ position.toNat < func.locals.length
  apart : ∀ name position, func.paramBindings.find? name = some position →
    func.localBindings.find? name = none
  unlabelled : Instr.Unlabelled func.body

structure Module.Decoded (module : Module) : Prop where
  types : ∀ type ∈ module.types, ParamsDeclared type.signature.params
  funcs : ∀ func ∈ module.funcs, func.Decoded
  tied : ∀ kind entity, EntityKind.ofExtern? kind = some entity →
    (module.importsOf kind).length ≤ module.entityCount entity

def Module.NoLocals (module : Module) : Prop := ∀ func ∈ module.funcs, func.locals = []

structure Module.Keeps (before after : Module) : Prop where
  decoded : before.Decoded → after.Decoded
  noLocals : before.NoLocals → after.NoLocals

theorem Module.Keeps.refl (module : Module) : module.Keeps module := ⟨id, id⟩

theorem Module.Keeps.trans {first second third : Module} (earlier : first.Keeps second)
    (later : second.Keeps third) : first.Keeps third :=
  ⟨later.decoded ∘ earlier.decoded, later.noLocals ∘ earlier.noLocals⟩

/-- A later module with the same imports and no fewer entities keeps what is known
once its types and functions do. -/
theorem Module.keeps_of_counts {before after : Module}
    (types : before.Decoded → ∀ type ∈ after.types, ParamsDeclared type.signature.params)
    (funcs : before.Decoded → ∀ func ∈ after.funcs, func.Decoded)
    (noLocals : before.NoLocals → after.NoLocals)
    (imports : after.imports = before.imports)
    (counts : ∀ kind entity, EntityKind.ofExtern? kind = some entity →
      before.entityCount entity ≤ after.entityCount entity) : before.Keeps after where
  decoded decoded := by
    refine ⟨types decoded, funcs decoded, ?_⟩
    intro kind entity isKind
    have tied := decoded.tied kind entity isKind
    rw [Module.importsOf, imports]
    exact Nat.le_trans tied (counts kind entity isKind)
  noLocals := noLocals

namespace Binary

/-! ## Names -/

namespace NameSection

theorem entry_given : entry.Yields fun named => named.2 ≠ "" := by
  refine .bind' fun position => .bind' fun text => .pure ?_
  intro empty
  exact absurd (String.append_eq_empty_iff.mp empty).1 (by decide)

theorem entries_given (count : Nat) (reader : Reader) :
    ∀ named ∈ (entries count reader).1, named.2 ≠ "" := by
  induction count generalizing reader with
  | zero => simp [entries]
  | succ count induction =>
      rw [entries]
      split
      · next first after read =>
          intro named member
          rcases List.mem_cons.mp member with rfl | member
          · exact entry_given _ _ _ read
          · exact induction after named member
      · simp

theorem distinct_subset (seen : List String) (names : List (Index × String)) :
    distinct seen names ⊆ names := by
  fun_induction distinct seen names with
  | case1 seen => exact List.Subset.refl _
  | case2 seen position name rest known induction => exact List.subset_cons_of_subset _ induction
  | case3 seen position name rest new induction => exact List.cons_subset_cons _ induction

theorem nameMap_given (reader : Reader) : ∀ named ∈ (nameMap reader).1, named.2 ≠ "" := by
  unfold nameMap
  split
  · intro named member
    exact entries_given _ _ named (distinct_subset _ _ member)
  · simp

/-- Naming a slot leaves everything but the bindings, and binds only slots that
exist. -/
theorem nameSlot_decoded {func : Func} (decoded : func.Decoded) {named : Index × String}
    (given : named.2 ≠ "") : (nameSlot func named).Decoded := by
  rcases named with ⟨position, name⟩
  unfold nameSlot
  dsimp only
  split
  · exact decoded
  · next unbound =>
      rw [Bindings.has_eq_isSome, Bindings.has_eq_isSome] at unbound
      have free : func.paramBindings.find? name = none ∧ func.localBindings.find? name = none := by
        simpa using unbound
      split
      · next inside =>
          refine { decoded with paramsBound := ?_, apart := ?_ }
          · intro other bound isBound
            rw [Bindings.find?_put] at isBound
            split at isBound
            · next equal =>
                cases isBound
                exact ⟨equal ▸ given, inside⟩
            · exact decoded.paramsBound other bound isBound
          · intro other bound isBound
            rw [Bindings.find?_put] at isBound
            split at isBound
            · next equal => exact equal ▸ free.2
            · exact decoded.apart other bound isBound
      · next outside =>
          split
          · next inside =>
              refine { decoded with localsBound := ?_, apart := ?_ }
              · intro other bound isBound
                rw [Bindings.find?_put] at isBound
                split at isBound
                · next equal =>
                    cases isBound
                    refine ⟨equal ▸ given, ?_⟩
                    exact Nat.lt_of_le_of_lt (by simpa using Nat.mod_le _ _) inside
                · exact decoded.localsBound other bound isBound
              · intro other bound isBound
                have different : name ≠ other := by
                  rintro rfl
                  rw [free.1] at isBound
                  cases isBound
                rw [Bindings.find?_put, if_neg different]
                exact decoded.apart other bound isBound
          · exact decoded

theorem foldl_nameSlot_locals (func : Func) (names : List (Index × String)) :
    (names.foldl nameSlot func).locals = func.locals := by
  induction names generalizing func with
  | nil => rfl
  | cons named rest induction =>
      rw [List.foldl_cons, induction]
      unfold nameSlot
      dsimp only
      split
      · rfl
      · split
        · rfl
        · split <;> rfl

theorem foldl_nameSlot_decoded {func : Func} (decoded : func.Decoded)
    {names : List (Index × String)} (given : ∀ named ∈ names, named.2 ≠ "") :
    (names.foldl nameSlot func).Decoded := by
  induction names generalizing func with
  | nil => exact decoded
  | cons named rest induction =>
      exact induction (nameSlot_decoded decoded (given named (by simp)))
        fun other member => given other (by simp [member])

theorem forall_modify {α : Type} {property : α → Prop} {items : List α} {change : α → α}
    (keeps : ∀ item, property item → property (change item)) (position : Nat)
    (all : ∀ item ∈ items, property item) :
    ∀ item ∈ items.modify position change, property item := by
  intro item member
  rcases List.mem_iff_getElem?.mp member with ⟨place, found⟩
  rw [List.getElem?_modify] at found
  rcases Option.map_eq_some_iff.mp found with ⟨original, has, changed⟩
  have holds := all original (List.mem_of_getElem? has)
  split at changed
  · exact changed ▸ keeps original holds
  · exact changed ▸ holds

theorem nameSlots_keeps (module : Module) (position : Index) {names : List (Index × String)}
    (given : ∀ named ∈ names, named.2 ≠ "") : module.Keeps (nameSlots module position names) := by
  unfold nameSlots
  split
  · exact .refl _
  · constructor
    · intro decoded
      refine ⟨decoded.types, ?_, ?_⟩
      · exact forall_modify (fun func func => foldl_nameSlot_decoded func given) _ decoded.funcs
      · intro kind entity isKind
        have tied := decoded.tied kind entity isKind
        cases entity <;> simpa [Module.importsOf, Module.entityCount] using tied
    · intro noLocals
      refine forall_modify (fun func empty => ?_) _ noLocals
      rw [foldl_nameSlot_locals, empty]

theorem slotMaps_keeps (count : Nat) (reader : Reader) (module : Module) :
    module.Keeps (slotMaps count reader module).1 := by
  induction count generalizing reader module with
  | zero => exact .refl _
  | succ count induction =>
      rw [slotMaps]
      split
      · exact .refl _
      · next position after read =>
          have named := nameSlots_keeps module position (nameMap_given after)
          dsimp only
          split
          · exact named.trans (induction _ _)
          · exact named

@[simp] theorem length_nameItems {α : Type} (rename : String → α → α) (items : List α)
    (names : List (Index × String)) : (nameItems rename items names).length = items.length := by
  unfold nameItems
  induction names generalizing items with
  | nil => rfl
  | cons named rest induction => simp [induction]

theorem forall_nameItems {α : Type} {property : α → Prop} {rename : String → α → α}
    {items : List α} (keeps : ∀ name item, property item → property (rename name item))
    (names : List (Index × String)) (all : ∀ item ∈ items, property item) :
    ∀ item ∈ nameItems rename items names, property item := by
  unfold nameItems
  induction names generalizing items with
  | nil => exact all
  | cons named rest induction => exact induction (forall_modify (keeps named.2) _ all)

theorem subsection_keeps (id : UInt8) (reader : Reader) (module : Module) :
    module.Keeps (subsection id reader module).1 := by
  rcases read : wholeMap reader with ⟨names, whole⟩
  unfold subsection
  rw [read]
  split
  · split <;>
      exact Module.keeps_of_counts Module.Decoded.types Module.Decoded.funcs id rfl
        fun kind entity isKind => by cases entity <;> exact Nat.le_refl _
  · refine Module.keeps_of_counts Module.Decoded.types ?_ ?_ rfl ?_
    · intro decoded
      dsimp only
      apply forall_nameItems _ names decoded.funcs
      exact fun name func known => { known with }
    · intro noLocals
      unfold Module.NoLocals
      dsimp only
      apply forall_nameItems _ names noLocals
      exact fun name func empty => empty
    · intro kind entity isKind
      cases entity <;> simp [Module.entityCount]
  · split
    · exact slotMaps_keeps _ _ _
    · exact .refl _
  · refine Module.keeps_of_counts ?_ Module.Decoded.funcs id rfl ?_
    · intro decoded
      dsimp only
      apply forall_nameItems _ names decoded.types
      exact fun name type declared => declared
    · intro kind entity isKind
      cases entity <;> simp [Module.entityCount]
  all_goals first
    | exact .refl _
    | refine Module.keeps_of_counts Module.Decoded.types Module.Decoded.funcs id rfl ?_
      intro kind entity isKind
      cases entity <;> simp [Module.entityCount]

theorem apply_keeps (reader : Reader) (module : Module) : module.Keeps (apply reader module) := by
  unfold apply
  generalize reader.remaining = fuel
  induction fuel generalizing reader module with
  | zero => exact .refl _
  | succ fuel induction =>
      rw [subsections]
      split
      · exact .refl _
      · next id contents after read =>
          have named := subsection_keeps id contents module
          dsimp only
          split
          · exact named.trans (induction _ _)
          · exact named

end NameSection

/-! ## Types and functions -/

namespace Decoder

theorem find?_empty (name : String) : (∅ : Bindings).find? name = none :=
  Std.ExtTreeMap.getElem?_empty

theorem decoded_of_declaration {declaration : Declaration}
    (referred : declaration.typeRef.isSome)
    (declared : ParamsDeclared declaration.signature.params) :
    ({ declaration } : Func).Decoded where
  referred := referred
  params := declared
  localCount := Nat.zero_le _
  localTypes := nofun
  paramsBound name position bound := by rw [find?_empty] at bound; cases bound
  localsBound name position bound := by rw [find?_empty] at bound; cases bound
  apart name position bound := by rw [find?_empty] at bound; cases bound
  unlabelled := Instr.unlabelled_nil

theorem Imported.Fresh.decoded {types : List FuncType}
    (declared : ∀ type ∈ types, ParamsDeclared type.signature.params) {func : Func}
    (fresh : Imported.Fresh types (.func func)) : func.Decoded ∧ func.locals = [] := by
  rcases fresh with ⟨_, ⟨position, type, isType, rfl⟩, rfl⟩
  exact ⟨decoded_of_declaration rfl (declared type (List.mem_of_getElem? isType)), rfl⟩

end Decoder

/-! ## Imports -/

/-- A choice that takes every import of a kind takes at least as many as there
are. -/
theorem length_importsOf_le {α : Type} {kind : ExternKind}
    {choose : Import × Decoder.Imported → Option α} {entries : List (Import × Decoder.Imported)}
    (takes : ∀ entry ∈ entries, entry.1.kind = kind → (choose entry).isSome) :
    ((entries.map (·.1)).filter (·.kind = kind)).length ≤ (entries.filterMap choose).length := by
  induction entries with
  | nil => exact Nat.le_refl _
  | cons entry rest induction =>
      have later := induction fun other member => takes other (List.mem_cons_of_mem _ member)
      rw [List.map_cons, List.filter_cons, List.filterMap_cons]
      split
      · next isKind =>
          have chosen := takes entry List.mem_cons_self (by simpa using isKind)
          rcases Option.isSome_iff_exists.mp chosen with ⟨value, equal⟩
          rw [equal]
          exact Nat.succ_le_succ later
      · split
        · exact later
        · exact Nat.le_succ_of_le later

theorem addImports_keeps {module : Module} {types : List FuncType}
    (declared : ∀ type ∈ types, ParamsDeclared type.signature.params)
    {entries : List (Import × Decoder.Imported)}
    (known : ∀ entry ∈ entries, entry.2.kind = entry.1.kind ∧ entry.2.Fresh types) :
    module.Keeps (Module.addImports module entries) := by
  constructor
  · intro decoded
    refine ⟨decoded.types, ?_, ?_⟩
    · intro func member
      rcases Module.mem_funcs_addImports known member with member | fresh
      · exact decoded.funcs func member
      · exact (fresh.decoded declared).1
    · intro kind entity isKind
      cases kind <;> cases isKind
      all_goals
        dsimp only [Module.importsOf, Module.addImports, Module.entityCount]
        rw [List.length_append]
        refine Nat.le_trans (length_importsOf_le ?_) (Nat.le_add_left _ _)
        rintro ⟨entry, imported⟩ member isKind
        have isOther := (known _ member).1.trans isKind
        cases imported <;> first | rfl | cases isOther
  · intro noLocals func member
    rcases Module.mem_funcs_addImports known member with member | fresh
    · exact noLocals func member
    · exact (fresh.decoded declared).2

/-! ## Bodies -/

theorem addBodies_decoded {module : Module} (decoded : module.Decoded)
    (noLocals : module.NoLocals) {bodies : List (List ValueType × List Instr)}
    {types : List FuncType} (known : ∀ body ∈ bodies, Decoder.BodyKnown types body) :
    (Module.addBodies module (module.importCount .func) bodies).Decoded := by
  refine ⟨decoded.types, ?_, ?_⟩
  · intro func member
    rcases Module.mem_funcs_addBodies member with member | ⟨original, isFunc, body, isBody, rfl⟩
    · exact decoded.funcs func member
    · have before := decoded.funcs original isFunc
      have given := known body isBody
      have extended : original.locals ++ body.1 = body.1 := by
        rw [noLocals original isFunc, List.nil_append]
      refine { before with
        localCount := ?_, localTypes := ?_, localsBound := ?_
        unlabelled := given.grounded.unlabelled }
      · show (original.locals ++ body.1).length ≤ maxLocals
        rw [extended]
        exact given.locals.1
      · show ∀ type ∈ original.locals ++ body.1, type ≠ .any
        rw [extended]
        exact given.locals.2
      · intro name position bound
        have old := before.localsBound name position bound
        refine ⟨old.1, Nat.lt_of_lt_of_le old.2 ?_⟩
        simp
  · intro kind entity isKind
    have tied := decoded.tied kind entity isKind
    cases kind <;> cases isKind
    · have count : module.importCount .func = (module.importsOf .func).length :=
        Nat.min_eq_left tied
      have kept : (module.funcs.take (module.importCount .func)).length =
          (module.importsOf .func).length := by
        rw [List.length_take, count]
        exact Nat.min_eq_left tied
      dsimp only [Module.addBodies, Module.entityCount]
      rw [List.length_append, kept]
      exact Nat.le_add_right _ _
    all_goals exact tied

/-! ## Sections -/

namespace Decoder

/-- A section other than the code section keeps what is known of the module. -/
theorem sectionContents_keeps {id : SectionId} (notCode : id ≠ .code) (progress : Progress)
    (types : ∀ type ∈ progress.module.types, ParamsDeclared type.signature.params) :
    (sectionContents id progress).Yields fun after =>
      after.order = progress.order ∧ progress.module.Keeps after.module := by
  cases id
  case custom =>
    refine .bind' fun title => ?_
    split
    · exact .bind' fun reader => .pure ⟨rfl, NameSection.apply_keeps _ _⟩
    · exact .pure ⟨rfl, .refl _⟩
  case type =>
    refine .bind (Yields.counted fun _ => typeEntry_params) fun entries known => .pure ⟨rfl, ?_⟩
    refine Module.keeps_of_counts (fun _ => known.2) Module.Decoded.funcs id rfl ?_
    intro kind entity isKind
    cases kind <;> cases isKind <;> exact Nat.le_refl _
  case imports =>
    refine .bind (Yields.counted (importEntry_fresh _)) fun entries known => .pure ⟨rfl, ?_⟩
    exact addImports_keeps types known.2
  case function =>
    refine .bind (Yields.counted fun _ => func_fresh _) fun funcs known => .pure ⟨rfl, ?_⟩
    have declared := fun func member => (known.2 func member).decoded types
    refine Module.keeps_of_counts Module.Decoded.types ?_ ?_ rfl ?_
    · intro decoded func member
      rcases List.mem_append.mp member with member | member
      · exact decoded.funcs func member
      · exact (declared func member).1
    · intro noLocals func member
      rcases List.mem_append.mp member with member | member
      · exact noLocals func member
      · exact (declared func member).2
    · intro kind entity isKind
      cases kind <;> cases isKind <;> simp [Module.entityCount]
  case code => exact absurd rfl notCode
  case dataCount => exact .bind' fun count => .pure ⟨rfl, .refl _⟩
  case exports =>
    refine .bind' fun count => .bind' fun entries => .pure ⟨rfl, ?_⟩
    exact Module.keeps_of_counts Module.Decoded.types Module.Decoded.funcs id rfl
      fun kind entity isKind => by cases entity <;> exact Nat.le_refl _
  -- The other sections only append entities of other kinds.
  all_goals
    refine .bind' fun items => .pure ⟨rfl, ?_⟩
    refine Module.keeps_of_counts Module.Decoded.types Module.Decoded.funcs id rfl ?_
    intro kind entity isKind
    cases entity <;> simp [Module.entityCount]

theorem code_decoded (progress : Progress) (decoded : progress.module.Decoded)
    (noLocals : progress.module.NoLocals) :
    (sectionContents .code progress).Yields fun after =>
      after.order = progress.order ∧ after.module.Decoded := by
  refine .bind' fun count => ?_
  dsimp only
  split
  · exact .throw _ _
  · refine .bind (Yields.repeated (sizedBody_known _) _ _) fun bodies known => .pure ⟨rfl, ?_⟩
    exact addBodies_decoded decoded noLocals known.2

/-- What is known between two sections: the module so far, and that functions get
their locals in the code section only. -/
structure Known (progress : Progress) : Prop where
  decoded : progress.module.Decoded
  noLocals : progress.order < SectionId.code.order → progress.module.NoLocals

theorem known_invariant : Invariant Known where
  start := ⟨⟨nofun, nofun, fun kind entity isKind => Nat.zero_le _⟩, fun _ => nofun⟩
  custom progress known := by
    refine (sectionContents_keeps (by decide) _ known.decoded.types).mono fun after given => ?_
    refine ⟨given.2.decoded known.decoded, fun early => given.2.noLocals (known.noLocals ?_)⟩
    exact given.1 ▸ early
  forward id progress later known := by
    let moved : Progress := { progress with order := id.order }
    by_cases isCode : id = .code
    -- Functions have their locals from here on, as no later section is a code section.
    · subst isCode
      refine (code_decoded moved known.decoded (known.noLocals later)).mono fun after given => ?_
      refine ⟨given.2, fun early => ?_⟩
      rw [given.1] at early
      exact absurd early (Nat.lt_irrefl _)
    · refine (sectionContents_keeps isCode moved known.decoded.types).mono fun after given => ?_
      refine ⟨given.2.decoded known.decoded, fun early => given.2.noLocals (known.noLocals ?_)⟩
      rw [given.1] at early
      exact Nat.lt_trans later early

end Decoder

theorem decode_decoded {bytes : List UInt8} {module : Module}
    (accepted : decode bytes = .ok module) : module.Decoded := by
  rcases decode_invariant Decoder.known_invariant accepted with ⟨progress, known, rfl⟩
  exact known.decoded

end Binary

end WasmLowering
