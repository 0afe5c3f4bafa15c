import WasmLowering.Proofs.Lowering.Function

/-! The symbols of entities while a module is written.

An entity that has a symbol keeps one. Imports give symbols to the first entities
of each kind, and declarations to the others, so that all of them have symbols when
the functions are lowered. -/

namespace WasmLowering.Emission

variable {lenient : Prop} {α β : Type}

namespace EntitySymbols

def Extends (before after : EntitySymbols) : Prop := ∀ key, before.Binds key → after.Binds key

theorem Extends.refl (symbols : EntitySymbols) : symbols.Extends symbols := fun _ => id

theorem Extends.trans {first second third : EntitySymbols} (earlier : first.Extends second)
    (later : second.Extends third) : first.Extends third :=
  fun key bound => later key (earlier key bound)

theorem Cover.extends {before after : EntitySymbols} {named : Module} (cover : before.Cover named)
    (later : before.Extends after) : after.Cover named :=
  fun kind entity isKind name member => later _ (cover kind entity isKind name member)

theorem binds_cons {symbols after : EntitySymbols} {key : EntityKey} {symbol : String}
    (isBound : after.bound = (key, symbol) :: symbols.bound) :
    symbols.Extends after ∧ after.Binds key := by
  refine ⟨fun other bound => ?_, ?_⟩
  · rw [Binds, isBound, List.lookup_cons]
    split
    · rfl
    · exact bound
  · rw [Binds, isBound, List.lookup_cons, beq_self_eq_true]
    rfl

end EntitySymbols

open EntitySymbols

theorem mapM_meets (known : α → β → EntitySymbols → Prop) {items : List α}
    {action : α → Emit β} {base : EntitySymbols}
    (stable : ∀ item result before after, before.Extends after → known item result before →
      known item result after)
    (step : ∀ item ∈ items, ∀ symbols, base.Extends symbols →
      Meets lenient (action item) symbols fun result after =>
        symbols.Extends after ∧ known item result after) :
    Meets lenient (items.mapM action) base fun results after =>
      base.Extends after ∧
        List.Forall₂ (fun item result => known item result after) items results := by
  induction items generalizing base with
  | nil => exact .pure ⟨.refl base, .nil⟩
  | cons item rest induction =>
      rw [List.mapM_cons]
      refine (step item List.mem_cons_self base (.refl base)).bind ?_
      rintro first middle ⟨earlier, isFirst⟩
      refine (induction fun other member symbols later => ?_).bind ?_
      · exact step other (List.mem_cons_of_mem _ member) symbols (earlier.trans later)
      rintro others after ⟨later, areOthers⟩
      exact .pure ⟨earlier.trans later, .cons (stable _ _ _ _ later isFirst) areOthers⟩

/-! ## Definitions -/

theorem define_meets {kind : ExternKind} {name : String} (given : name ≠ "")
    (symbols : EntitySymbols) :
    Meets lenient (define kind name) symbols fun _ after =>
      symbols.Extends after ∧ after.Binds (kind, name) := by
  have defined : Gives lenient (symbols.define kind name) fun result =>
      symbols.Extends result.2 ∧ result.2.Binds (kind, name) :=
    (Gives.promised given _).bind fun _ _ => .ok (binds_cons rfl)
  refine .bind_get ((Meets.lift defined symbols).bind ?_)
  rintro ⟨symbol, later⟩ _ ⟨known, rfl⟩
  refine (Meets.set _ _).bind ?_
  rintro _ _ rfl
  exact .pure known

theorem declareFunc_meets {func : Func} (given : func.name ≠ "") (symbols : EntitySymbols) :
    Meets lenient (declareFunc func) symbols fun _ after =>
      symbols.Extends after ∧ after.Binds (.func, func.name) := by
  refine (define_meets given symbols).bind fun symbol after known => ?_
  refine (Meets.lift (prototypeOf_gives _) after).bind ?_
  rintro prototype _ ⟨-, rfl⟩
  exact .pure known

theorem declareGlobal_meets {global : Global} (given : global.name ≠ "") (symbols : EntitySymbols) :
    Meets lenient (declareGlobal global) symbols fun _ after =>
      symbols.Extends after ∧ after.Binds (.global, global.name) := by
  refine (Meets.lift (scalarOf_gives _) symbols).bind ?_
  rintro type _ ⟨-, rfl⟩
  refine (define_meets given _).bind fun symbol after known => ?_
  exact .pure known

theorem defineAll_meets {items : List α} {action : α → Emit β} {kind : ExternKind}
    {nameOf : α → String} (base : EntitySymbols)
    (step : ∀ item ∈ items, ∀ symbols, Meets lenient (action item) symbols fun _ after =>
      symbols.Extends after ∧ after.Binds (kind, nameOf item)) :
    Meets lenient (items.mapM action) base fun _ after =>
      base.Extends after ∧ ∀ item ∈ items, after.Binds (kind, nameOf item) := by
  refine (mapM_meets (fun item _ symbols => symbols.Binds (kind, nameOf item))
    (fun _ _ _ _ later bound => later _ bound) fun item member symbols _ =>
      step item member symbols).mono ?_
  rintro results after ⟨later, known⟩
  refine ⟨later, fun item member => ?_⟩
  rcases List.mem_iff_getElem?.mp member with ⟨position, isItem⟩
  rcases getElem?_of_forall₂ known isItem with ⟨_, _, bound⟩
  exact bound

/-! ## Imports -/

theorem funcSymbol_gives (name : List UInt8) (signature : Signature) :
    Gives lenient (Symbol.funcSymbol name signature) fun _ => True := by
  refine (Gives.mapM fun type _ => mangledType_gives type).bind fun results _ => ?_
  refine (Gives.mapM fun type _ => mangledType_gives type).bind fun params _ => ?_
  exact .ok trivial

theorem globalSymbol_gives (name : List UInt8) (type : ValueType) :
    Gives lenient (Symbol.globalSymbol name type) fun _ => True :=
  (mangledType_gives type).bind fun _ _ => .ok trivial

theorem tied_gives {entry : Import} {items : List α} {number : Nat}
    (inside : number < items.length) :
    Gives lenient (tied entry items number) fun item => items[number]? = some item := by
  rw [tied, List.getElem?_eq_getElem inside]
  exact .ok rfl

theorem importedEntity_gives {named : Module} {entry : Import} {number : Nat}
    (inside : ∀ entity, EntityKind.ofExtern? entry.kind = some entity →
      number < named.entityCount entity) :
    Gives lenient (importedEntity named entry number) fun result =>
      (∃ entity, EntityKind.ofExtern? entry.kind = some entity ∧
        (named.entityNames entity)[number]? = some result.1) ∧
      Gives lenient result.2.2 fun _ => True := by
  unfold importedEntity
  split
  · next isKind =>
    rw [isKind] at inside ⊢
    refine (tied_gives (inside .func rfl)).bind fun func isFunc => ?_
    refine (funcSymbol_gives _ _).bind fun field _ => .ok ⟨⟨.func, rfl, ?_⟩, ?_⟩
    · simp [Module.entityNames, isFunc]
    · exact ((prototypeOf_gives _).mono fun _ _ => trivial).map
  · next isKind =>
    rw [isKind] at inside ⊢
    refine (tied_gives (inside .global rfl)).bind fun global isGlobal => ?_
    refine (globalSymbol_gives _ _).bind fun field _ => .ok ⟨⟨.global, rfl, ?_⟩, ?_⟩
    · simp [Module.entityNames, isGlobal]
    · exact ((scalarOf_gives _).mono fun _ _ => trivial).map
  · next isKind =>
    rw [isKind] at inside ⊢
    refine (tied_gives (inside .memory rfl)).bind fun memory isMemory => ?_
    refine .ok ⟨⟨.memory, rfl, ?_⟩, trivial⟩
    simp [Module.entityNames, isMemory]
  · next isKind =>
    rw [isKind] at inside ⊢
    refine (tied_gives (inside .table rfl)).bind fun table isTable => ?_
    refine .ok ⟨⟨.table, rfl, ?_⟩, trivial⟩
    simp [Module.entityNames, isTable]
  · exact .unsupported _ _

def ImportBound (named : Module) (entry : Import × Nat) (symbols : EntitySymbols) : Prop :=
  ∀ entity, EntityKind.ofExtern? entry.1.kind = some entity →
    ∀ name, (named.entityNames entity)[entry.2]? = some name → symbols.Binds (entry.1.kind, name)

theorem importObject_meets {named : Module} {entry : Import} {number : Nat}
    (inside : ∀ entity, EntityKind.ofExtern? entry.kind = some entity →
      number < named.entityCount entity)
    (given : ∀ entity, ∀ name ∈ named.entityNames entity, name ≠ "") (symbols : EntitySymbols) :
    Meets lenient (importObject named entry number) symbols fun _ after =>
      symbols.Extends after ∧ ImportBound named (entry, number) after := by
  refine (Meets.lift (importedEntity_gives inside) symbols).bind ?_
  rintro ⟨name, field, type⟩ after ⟨⟨⟨entity, isEntity, isName⟩, isType⟩, same⟩
  subst after
  have nonempty := given entity name (List.mem_of_getElem? isName)
  have defined : ∀ symbol, Gives lenient (symbols.defineImport entry.kind name symbol) fun after =>
      symbols.Extends after ∧ after.Binds (entry.kind, name) := fun symbol =>
    (Gives.promised nonempty _).bind fun _ _ => .ok (binds_cons rfl)
  refine .bind_get ((Meets.lift (defined _) symbols).bind ?_)
  rintro later _ ⟨⟨extended, bound⟩, rfl⟩
  refine (Meets.set _ _).bind ?_
  rintro _ _ rfl
  refine (Meets.lift isType _).bind ?_
  rintro objectType _ ⟨-, rfl⟩
  refine .pure ⟨extended, fun other isOther otherName isOtherName => ?_⟩
  cases isEntity.symm.trans isOther
  cases isName.symm.trans isOtherName
  exact bound

/-! Imports are numbered among those of their kind. -/

theorem length_filter_take_lt {items : List α} {holds : α → Bool} {position : Nat} {item : α}
    (isItem : items[position]? = some item) (isHeld : holds item = true) :
    ((items.take position).filter holds).length < (items.filter holds).length := by
  have inside := (List.getElem?_eq_some_iff.mp isItem).1
  have same : items[position] = item := (List.getElem?_eq_some_iff.mp isItem).2
  have split := List.take_append_drop position items
  rw [List.drop_eq_getElem_cons inside, same] at split
  have count := congrArg (fun others => (others.filter holds).length) split
  simp only [List.filter_append, List.filter_cons_of_pos isHeld, List.length_append,
    List.length_cons] at count
  omega

theorem exists_length_filter_take {items : List α} {holds : α → Bool} {number : Nat}
    (inside : number < (items.filter holds).length) :
    ∃ position item, items[position]? = some item ∧ holds item = true ∧
      ((items.take position).filter holds).length = number := by
  induction items generalizing number with
  | nil => simp at inside
  | cons first rest induction =>
      rcases isHeld : holds first with _ | _
      · rw [List.filter_cons_of_neg (by simpa using isHeld)] at inside
        rcases induction inside with ⟨position, item, isItem, itemHeld, isNumber⟩
        exact ⟨position + 1, item, isItem, itemHeld, by simpa [isHeld] using isNumber⟩
      · rw [List.filter_cons_of_pos isHeld, List.length_cons] at inside
        cases number with
        | zero => exact ⟨0, first, rfl, isHeld, rfl⟩
        | succ number =>
            rcases induction (Nat.lt_of_succ_lt_succ inside) with
              ⟨position, item, isItem, itemHeld, isNumber⟩
            exact ⟨position + 1, item, isItem, itemHeld, by simpa [isHeld] using isNumber⟩

theorem mem_numberedImports {named : Module} {entry : Import} {number : Nat} :
    (entry, number) ∈ numberedImports named ↔ ∃ position : Nat,
      named.imports[position]? = some entry ∧
        ((named.imports.take position).filter (·.kind = entry.kind)).length = number := by
  unfold numberedImports
  rw [List.mem_map]
  constructor
  · rintro ⟨⟨other, position⟩, member, same⟩
    cases same
    exact ⟨position, List.mk_mem_zipIdx_iff_getElem?.mp member, rfl⟩
  · rintro ⟨position, isEntry, rfl⟩
    exact ⟨(entry, position), List.mk_mem_zipIdx_iff_getElem?.mpr isEntry, rfl⟩

/-- An import has an entity if there are no fewer entities of its kind than imports. -/
theorem numberedImports_lt {named : Module} {entry : Import} {number : Nat}
    (member : (entry, number) ∈ numberedImports named) {count : Nat}
    (enough : (named.importsOf entry.kind).length ≤ count) : number < count := by
  rcases mem_numberedImports.mp member with ⟨position, isEntry, rfl⟩
  exact Nat.lt_of_lt_of_le (length_filter_take_lt isEntry (by simp)) enough

theorem imports_meets {named : Module}
    (tied : ∀ kind entity, EntityKind.ofExtern? kind = some entity →
      (named.importsOf kind).length ≤ named.entityCount entity)
    (given : ∀ entity, ∀ name ∈ named.entityNames entity, name ≠ "") (base : EntitySymbols) :
    Meets lenient ((numberedImports named).mapM fun (entry, number) =>
        importObject named entry number) base fun _ after =>
      ∀ kind entity, EntityKind.ofExtern? kind = some entity →
        ∀ number < named.importCount kind, ∀ name,
          (named.entityNames entity)[number]? = some name → after.Binds (kind, name) := by
  refine (mapM_meets (fun entry _ symbols => ImportBound named entry symbols) ?_ ?_).mono ?_
  · exact fun _ _ _ _ later bound entity isEntity name isName =>
      later _ (bound entity isEntity name isName)
  · rintro ⟨entry, number⟩ member symbols _
    refine importObject_meets (fun entity isEntity => ?_) given symbols
    exact numberedImports_lt member (tied _ entity isEntity)
  · rintro results after ⟨-, known⟩ kind entity isEntity number inside name isName
    rw [Module.importCount, isEntity] at inside
    have among : number < (named.importsOf kind).length :=
      Nat.lt_of_lt_of_le inside (Nat.min_le_left _ _)
    rcases exists_length_filter_take among with ⟨position, entry, isEntry, isKind, isNumber⟩
    have sameKind : entry.kind = kind := by simpa using isKind
    subst kind
    have member := mem_numberedImports.mpr ⟨position, isEntry, isNumber⟩
    rcases List.mem_iff_getElem?.mp member with ⟨place, isPlace⟩
    rcases getElem?_of_forall₂ known isPlace with ⟨_, _, bound⟩
    exact bound entity isEntity name isName

end WasmLowering.Emission
