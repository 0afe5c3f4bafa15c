import WasmLowering.Proofs.Decoding.Entries
import WasmLowering.Proofs.Instr.Traversals
import WasmLowering.Proofs.Naming.References

/-! All references of a decoded module are positions. Names come in with the name
sections only, and these name entities and slots but leave every reference. -/

namespace WasmLowering

/-! ## Code by positions -/

def Use.AllIndices (uses : List Use) : Prop := ∀ use ∈ uses, use.reference.isIndex

theorem Use.allIndices_append {first second : List Use} (left : AllIndices first)
    (right : AllIndices second) : AllIndices (first ++ second) :=
  List.forall_mem_append.mpr ⟨left, right⟩

theorem Use.allIndices_map {space : Space} {references : List Reference}
    (all : ∀ reference ∈ references, reference.isIndex) :
    AllIndices (references.map (Use.mk space)) := by
  intro use member
  rcases List.mem_map.mp member with ⟨reference, isReference, rfl⟩
  exact all reference isReference

def Declaration.Indexed (declaration : Declaration) : Prop := Use.AllIndices declaration.uses

def Instr.Indexed (instr : Instr) : Prop := ∀ slots opened, Use.AllIndices (instr.uses slots opened)

def Instr.IndexedList (body : List Instr) : Prop :=
  ∀ slots opened, Use.AllIndices (usesOfList slots opened body)

def Catch.IndexedList (catches : List Catch) : Prop :=
  ∀ slots opened, Use.AllIndices (usesOfList slots opened catches)

theorem Instr.indexedList_nil : IndexedList [] := by
  intro slots opened use member
  simp [usesOfList] at member

theorem Instr.indexedList_cons {instr : Instr} {rest : List Instr} (first : instr.Indexed)
    (others : IndexedList rest) : IndexedList (instr :: rest) := by
  intro slots opened
  exact Use.allIndices_append (first slots opened) (others slots opened)

theorem Catch.indexedList_cons {tag : Option Reference} {body : List Instr} {rest : List Catch}
    (tagIndexed : ∀ reference ∈ tag, reference.isIndex) (bodyIndexed : Instr.IndexedList body)
    (others : IndexedList rest) : IndexedList (.handler tag body :: rest) := by
  intro slots opened
  apply Use.allIndices_append _ (others slots opened)
  apply Use.allIndices_append _ (bodyIndexed slots opened)
  exact Use.allIndices_map (by simpa using tagIndexed)

theorem Catch.indexedList_of_parts {catches : List Catch}
    (tags : ∀ tag ∈ catches.filterMap Catch.tag, tag.isIndex)
    (bodies : ∀ body ∈ catches.map Catch.body, Instr.IndexedList body) :
    IndexedList catches := by
  induction catches with
  | nil => exact fun slots opened => nofun
  | cons handler rest induction =>
      rcases handler with ⟨tag, body⟩
      rw [List.map_cons, List.forall_mem_cons] at bodies
      refine indexedList_cons (fun reference isTag => ?_) bodies.1 (induction ?_ bodies.2)
      · exact tags reference (List.mem_filterMap.mpr ⟨_, List.mem_cons_self, isTag⟩)
      · exact fun other member => tags other ((List.sublist_cons_self _ _).filterMap _ |>.subset member)

theorem Instr.indexed_of_parts {instr : Instr}
    (own : ∀ reference ∈ instr.references, reference.isIndex)
    (inner : ∀ body ∈ instr.bodies, IndexedList body) : instr.Indexed := by
  intro slots opened
  cases instr with
  | block head body | loop head body =>
      exact Use.allIndices_append (Use.allIndices_map own)
        (inner body (List.mem_singleton_self body) _ _)
  | ifElse head thenBody elseBody =>
      have arms := List.forall_mem_cons.mp inner
      refine Use.allIndices_append (Use.allIndices_append (Use.allIndices_map own) ?_) ?_
      · exact arms.1 _ _
      · exact List.forall_mem_singleton.mp arms.2 _ _
  | tryCatch head body catches =>
      have parts := List.forall_mem_cons.mp inner
      have known := List.forall_mem_append.mp own
      refine Use.allIndices_append (Use.allIndices_append (Use.allIndices_map known.1) ?_) ?_
      · exact parts.1 _ _
      · exact Catch.indexedList_of_parts known.2 parts.2 _ _
  | callIndirect declaration table =>
      have known := List.forall_mem_append.mp own
      exact Use.allIndices_append (Use.allIndices_map known.1) (by simpa [Use.AllIndices] using known.2)
  | brTable targets otherwise => exact Use.allIndices_map own
  | atomic opcode memory offset =>
      rw [Instr.uses]
      split
      · exact nofun
      · exact Use.allIndices_map own
  | _ => simp_all [Instr.uses, Use.AllIndices, Instr.references]

theorem Instr.indexedList_of_each (body : List Instr)
    (each : Each (fun instr => ∀ reference ∈ instr.references, reference.isIndex) body) :
    IndexedList body := by
  induction body using Instr.body_induction with
  | nil => exact indexedList_nil
  | cons instr rest bodies induction =>
      rcases each_cons_iff.mp each with ⟨own, inner, others⟩
      have first := indexed_of_parts own fun body member => bodies body member (inner body member)
      exact indexedList_cons first (induction others)

theorem Instr.GroundedBody.indexed {types : List FuncType} {body : List Instr}
    (grounded : GroundedBody types body) : IndexedList body :=
  indexedList_of_each body fun instr member => (grounded instr member).references

theorem Declaration.IsEntry.indexed {types : List FuncType} {declaration : Declaration}
    (isEntry : declaration.IsEntry types) : declaration.Indexed :=
  Use.allIndices_map (by simpa using isEntry.typeRef_isIndex)

theorem ElementSegment.Grounded.indexed {types : List FuncType} {segment : ElementSegment}
    (grounded : segment.Grounded types) : Use.AllIndices segment.uses := by
  apply Use.allIndices_append
  · exact List.forall_mem_cons.mpr ⟨grounded.table, grounded.offset.grounded.indexed _ _⟩
  · exact Use.allIndices_map grounded.functions

theorem DataSegment.Grounded.indexed {types : List FuncType} {segment : DataSegment}
    (grounded : segment.Grounded types) : Use.AllIndices segment.uses := by
  rw [DataSegment.uses]
  split
  · exact nofun
  · exact List.forall_mem_cons.mpr ⟨grounded.memory, grounded.offset.grounded.indexed _ _⟩

/-! ## Name sections -/

namespace Module

structure SameContents (before after : Module) : Prop where
  funcs : after.funcs.map (fun func => (func.declaration, func.body)) =
    before.funcs.map fun func => (func.declaration, func.body)
  globals : after.globals.map (·.initial) = before.globals.map (·.initial)
  exports : after.exports = before.exports
  elements : after.elements = before.elements
  datas : after.datas = before.datas
  starts : after.starts = before.starts

theorem SameContents.refl (module : Module) : module.SameContents module :=
  ⟨rfl, rfl, rfl, rfl, rfl, rfl⟩

theorem SameContents.trans {first second third : Module} (earlier : first.SameContents second)
    (later : second.SameContents third) : first.SameContents third where
  funcs := later.funcs.trans earlier.funcs
  globals := later.globals.trans earlier.globals
  exports := later.exports.trans earlier.exports
  elements := later.elements.trans earlier.elements
  datas := later.datas.trans earlier.datas
  starts := later.starts.trans earlier.starts

theorem SameContents.func {before after : Module} (same : SameContents before after) {func : Func}
    (member : func ∈ after.funcs) : ∃ original ∈ before.funcs,
      original.declaration = func.declaration ∧ original.body = func.body := by
  have contents := List.mem_map_of_mem (f := fun func : Func => (func.declaration, func.body)) member
  rw [same.funcs] at contents
  rcases List.mem_map.mp contents with ⟨original, isOriginal, isSame⟩
  exact ⟨original, isOriginal, Prod.mk.inj isSame⟩

end Module

namespace Binary.NameSection

theorem map_modify_view {α β : Type} {view : α → β} {change : α → α}
    (keeps : ∀ item, view (change item) = view item) (items : List α) (position : Nat) :
    (items.modify position change).map view = items.map view := by
  apply List.ext_getElem?
  intro place
  rw [List.getElem?_map, List.getElem?_map, List.getElem?_modify]
  cases items[place]? with
  | none => rfl
  | some item =>
      split
      · exact congrArg some (keeps item)
      · rfl

theorem map_nameItems_view {α β : Type} {view : α → β} {rename : String → α → α}
    (keeps : ∀ name item, view (rename name item) = view item) (items : List α)
    (names : List (Index × String)) : (nameItems rename items names).map view = items.map view := by
  unfold nameItems
  induction names generalizing items with
  | nil => rfl
  | cons named rest induction =>
      rw [List.foldl_cons, induction, map_modify_view (keeps named.2)]

theorem nameSlot_contents (func : Func) (named : Index × String) :
    ((nameSlot func named).declaration, (nameSlot func named).body) =
      (func.declaration, func.body) := by
  unfold nameSlot
  dsimp only
  split
  · rfl
  · split
    · rfl
    · split <;> rfl

theorem foldl_nameSlot_contents (func : Func) (names : List (Index × String)) :
    ((names.foldl nameSlot func).declaration, (names.foldl nameSlot func).body) =
      (func.declaration, func.body) := by
  induction names generalizing func with
  | nil => rfl
  | cons named rest induction => rw [List.foldl_cons, induction, nameSlot_contents]

theorem nameSlots_sameContents (module : Module) (position : Index)
    (names : List (Index × String)) : module.SameContents (nameSlots module position names) := by
  unfold nameSlots
  split
  · exact .refl _
  · refine { Module.SameContents.refl module with funcs := ?_ }
    exact map_modify_view (fun func => foldl_nameSlot_contents func names) _ _

theorem slotMaps_sameContents (count : Nat) (reader : Reader) (module : Module) :
    module.SameContents (slotMaps count reader module).1 := by
  induction count generalizing reader module with
  | zero => exact .refl _
  | succ count induction =>
      rw [slotMaps]
      split
      · exact .refl _
      · next position after read =>
          have named := nameSlots_sameContents module position (nameMap after).1
          dsimp only
          split
          · exact named.trans (induction _ _)
          · exact named

theorem subsection_sameContents (id : UInt8) (reader : Reader) (module : Module) :
    module.SameContents (subsection id reader module).1 := by
  rcases read : wholeMap reader with ⟨names, whole⟩
  have same := Module.SameContents.refl module
  unfold subsection
  rw [read]
  split
  · split <;> exact { same with }
  · refine { same with funcs := ?_ }
    dsimp only
    apply map_nameItems_view
    exact fun _ _ => rfl
  · split
    · exact slotMaps_sameContents _ _ _
    · exact same
  · exact { same with }
  · exact { same with }
  · exact { same with }
  · refine { same with globals := ?_ }
    dsimp only
    apply map_nameItems_view
    exact fun _ _ => rfl
  · exact { same with }
  · exact same

theorem apply_sameContents (reader : Reader) (module : Module) :
    module.SameContents (apply reader module) := by
  unfold apply
  generalize reader.remaining = fuel
  induction fuel generalizing reader module with
  | zero => exact .refl _
  | succ fuel induction =>
      rw [subsections]
      split
      · exact .refl _
      · next id contents after read =>
          have named := subsection_sameContents id contents module
          dsimp only
          split
          · exact named.trans (induction _ _)
          · exact named

end Binary.NameSection

/-! ## Modules -/

def Func.Indexed (contents : Declaration × List Instr) : Prop :=
  contents.1.Indexed ∧ Instr.IndexedList contents.2

structure Module.Indexed (module : Module) : Prop where
  funcs : ∀ contents ∈ module.funcs.map (fun func => (func.declaration, func.body)),
    Func.Indexed contents
  globals : ∀ initial ∈ module.globals.map (·.initial), Instr.IndexedList initial
  exports : ∀ entry ∈ module.exports, entry.target.isIndex
  elements : ∀ segment ∈ module.elements, Use.AllIndices segment.uses
  datas : ∀ segment ∈ module.datas, Use.AllIndices segment.uses
  starts : ∀ start ∈ module.starts, start.isIndex

theorem Module.Indexed.of_sameContents {before after : Module} (indexed : before.Indexed)
    (same : before.SameContents after) : after.Indexed where
  funcs := same.funcs ▸ indexed.funcs
  globals := same.globals ▸ indexed.globals
  exports := same.exports ▸ indexed.exports
  elements := same.elements ▸ indexed.elements
  datas := same.datas ▸ indexed.datas
  starts := same.starts ▸ indexed.starts

theorem Use.allIndices_flatMap {α : Type} {items : List α} {uses : α → List Use}
    (each : ∀ item ∈ items, AllIndices (uses item)) : AllIndices (items.flatMap uses) := by
  intro use member
  rcases List.mem_flatMap.mp member with ⟨item, isItem, isUse⟩
  exact each item isItem use isUse

theorem Module.Indexed.uses {module : Module} (indexed : module.Indexed) :
    Use.AllIndices module.uses := by
  have funcs : ∀ func ∈ module.funcs, Func.Indexed (func.declaration, func.body) :=
    List.forall_mem_map.mp indexed.funcs
  have globals : ∀ global ∈ module.globals, Instr.IndexedList global.initial :=
    List.forall_mem_map.mp indexed.globals
  apply Use.allIndices_append
  · apply Use.allIndices_append
    · apply Use.allIndices_append
      · apply Use.allIndices_append
        · apply Use.allIndices_append
          · apply Use.allIndices_append
            · apply Use.allIndices_flatMap
              exact fun func member => (funcs func (List.mem_of_mem_take member)).1
            · apply Use.allIndices_flatMap
              intro func member
              have known := funcs func (List.mem_of_mem_drop member)
              exact Use.allIndices_append known.1 (known.2 _ _)
          · exact Use.allIndices_flatMap fun global member => globals global member _ _
        · apply Use.allIndices_flatMap
          intro entry member use isUse
          rcases List.mem_map.mp isUse with ⟨kind, _, rfl⟩
          exact indexed.exports entry member
      · exact Use.allIndices_flatMap indexed.elements
    · exact Use.allIndices_flatMap indexed.datas
  · exact Use.allIndices_map indexed.starts

namespace Binary.Decoder

theorem Imported.Fresh.indexed {types : List FuncType} {func : Func}
    (fresh : Fresh types (.func func)) : Func.Indexed (func.declaration, func.body) := by
  rcases fresh with ⟨declaration, isEntry, rfl⟩
  exact ⟨isEntry.indexed, Instr.indexedList_nil⟩

theorem exportEntries_indexed (count number : Nat) (bindings : Bindings) :
    (exportEntries count number bindings).Yields fun result =>
      ∀ entry ∈ result.1, entry.target.isIndex := by
  induction count generalizing number bindings with
  | zero => exact .pure nofun
  | succ count induction =>
      refine (exportEntry_known bindings).bind fun entry known => ?_
      refine (induction _ _).bind fun result others => .pure ?_
      exact List.forall_mem_cons.mpr ⟨known.1, others⟩

/-! ## Sections -/

theorem addImports_indexed {module : Module} (indexed : module.Indexed) {types : List FuncType}
    {entries : List (Import × Imported)}
    (known : ∀ entry ∈ entries, entry.2.kind = entry.1.kind ∧ entry.2.Fresh types) :
    (Module.addImports module entries).Indexed := by
  refine { indexed with funcs := List.forall_mem_map.mpr ?_, globals := ?_ }
  · intro func member
    exact (Module.mem_funcs_addImports known member).elim (List.forall_mem_map.mp indexed.funcs func)
      Imported.Fresh.indexed
  · intro initial member
    rw [Module.addImports, List.map_append, List.mem_append] at member
    rcases member with member | member
    · exact indexed.globals initial member
    · rcases List.mem_map.mp member with ⟨global, isGlobal, rfl⟩
      rcases List.mem_filterMap.mp isGlobal with ⟨⟨entry, imported⟩, isEntry, chosen⟩
      cases imported <;> cases chosen
      have noInitial : global.initial = [] := (known _ isEntry).2.2
      rw [noInitial]
      exact Instr.indexedList_nil

theorem addBodies_indexed {module : Module} (indexed : module.Indexed) (first : Nat)
    {types : List FuncType} {bodies : List (List ValueType × List Instr)}
    (known : ∀ body ∈ bodies, BodyKnown types body) :
    (Module.addBodies module first bodies).Indexed := by
  have funcs : ∀ func ∈ module.funcs, Func.Indexed (func.declaration, func.body) :=
    List.forall_mem_map.mp indexed.funcs
  refine { indexed with funcs := List.forall_mem_map.mpr ?_ }
  intro func member
  rcases Module.mem_funcs_addBodies member with member | ⟨original, isOriginal, body, isBody, rfl⟩
  · exact funcs func member
  · exact ⟨(funcs original isOriginal).1, (known body isBody).grounded.indexed⟩

theorem sectionContents_indexed : Kept Module.Indexed := by
  intro id progress indexed
  cases id with
  | custom =>
      refine .bind' fun title => ?_
      split
      · refine .bind' fun reader => .pure ?_
        exact indexed.of_sameContents (NameSection.apply_sameContents _ _)
      · exact .pure indexed
  | imports =>
      refine .bind (Yields.counted (importEntry_fresh _)) fun entries known => .pure ?_
      exact addImports_indexed indexed known.2
  | function =>
      refine .bind (Yields.counted fun _ => func_fresh _) fun funcs known => .pure ?_
      refine { indexed with funcs := ?_ }
      rw [List.map_append]
      refine List.forall_mem_append.mpr ⟨indexed.funcs, List.forall_mem_map.mpr ?_⟩
      exact fun func member => (known.2 func member).indexed
  | global =>
      refine .bind (Yields.counted (globalEntry_constant _)) fun globals known => .pure ?_
      refine { indexed with globals := ?_ }
      rw [List.map_append]
      refine List.forall_mem_append.mpr ⟨indexed.globals, List.forall_mem_map.mpr ?_⟩
      exact fun global member => (known.2 global member).grounded.indexed
  | exports =>
      refine .bind' fun count => (exportEntries_indexed _ _ _).bind fun result known => .pure ?_
      exact { indexed with exports := known }
  | start =>
      refine .bind' fun position => .pure ?_
      exact { indexed with starts := by simp [Reference.isIndex] }
  | element =>
      refine .bind (Yields.counted fun _ => (elementSegment_grounded _).locate _)
        fun segments known => .pure ?_
      refine { indexed with elements := ?_ }
      intro segment member
      rcases List.mem_filterMap.mp member with ⟨kept, isKept, isSegment⟩
      exact (known.2 kept isKept segment isSegment).indexed
  | code =>
      refine .bind' fun count => ?_
      dsimp only
      split
      · exact .throw _ _
      · refine .bind (Yields.repeated (sizedBody_known _) _ _) fun bodies known => .pure ?_
        exact addBodies_indexed indexed _ known.2
  | data =>
      refine .bind (Yields.counted (dataSegment_grounded _)) fun datas known => .pure ?_
      exact { indexed with datas := fun segment member => (known.2 segment member).indexed }
  | dataCount => exact .bind' fun count => .pure indexed
  | type | table | memory | tag => exact .bind' fun items => .pure { indexed with }

end Binary.Decoder

theorem Binary.decode_indexed {bytes : List UInt8} {module : Module}
    (accepted : decode bytes = .ok module) : module.Indexed := by
  apply decode_keeps _ Decoder.sectionContents_indexed accepted
  constructor <;> simp

end WasmLowering
