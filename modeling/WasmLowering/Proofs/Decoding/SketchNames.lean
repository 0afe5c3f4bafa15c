import Mathlib.Data.List.Nodup
import Mathlib.Data.List.Perm.Basic
import WasmLowering.Proofs.Decoding.Erasure
import WasmLowering.Proofs.Decoding.Sketches

/-! The names of sketches, and how they are read back.

The name section of a sketch is read to its end, so it is known exactly what it does to a
module: each function is renamed by what the maps give for its position. If the names of a
map are different, none of them is dropped, and the order in which the map is written makes
no difference. -/

namespace WasmLowering

/-! ## Bindings in any order -/

namespace Bindings

theorem put_comm (bindings : Bindings) {name other : String} (different : name ≠ other)
    (position otherPosition : Index) :
    (bindings.put name position).put other otherPosition =
      (bindings.put other otherPosition).put name position := by
  ext sought
  rw [find?_put, find?_put, find?_put, find?_put]
  by_cases isOther : other = sought
  · rw [if_pos isOther, if_neg (isOther ▸ different), if_pos isOther]
  · rw [if_neg isOther, if_neg isOther]

theorem has_empty (name : String) : (∅ : Bindings).has name = false :=
  Std.ExtTreeMap.contains_empty

theorem putAll_perm (bindings : Bindings) {pairs others : List (String × Index)}
    (perm : pairs.Perm others) (distinct : (pairs.map (·.1)).Nodup) :
    bindings.putAll pairs = bindings.putAll others := by
  apply perm.foldl_eq'
  intro one isOne other isOther bindings
  by_cases same : one = other
  · rw [same]
  · have different : one.1 ≠ other.1 := by
      intro sameName
      exact same (List.inj_on_of_nodup_map distinct isOne isOther sameName)
    exact put_comm bindings different _ _

theorem putAll_append (bindings : Bindings) (pairs others : List (String × Index)) :
    bindings.putAll (pairs ++ others) = (bindings.putAll pairs).putAll others :=
  List.foldl_append

theorem has_putAll_of_ne {pairs : List (String × Index)} {name : String}
    (different : ∀ pair ∈ pairs, pair.1 ≠ name) (bindings : Bindings) :
    (bindings.putAll pairs).has name = bindings.has name := by
  induction pairs generalizing bindings with
  | nil => rfl
  | cons first others induction =>
      rw [List.forall_mem_cons] at different
      have one : (bindings.put first.1 first.2).has name = bindings.has name := by
        rw [has_eq_isSome, has_eq_isSome, find?_put, if_neg different.1]
      exact (induction different.2 _).trans one

end Bindings

namespace Binary

/-! ## What names describe -/

def sigiled (entry : UInt32 × String) : Index × String := (entry.1, NameSection.sigil ++ entry.2)

def slotPairs (first count : Nat) (names : List (Index × String)) : List (String × Index) :=
  (names.filter fun named => first ≤ named.1.toNat ∧ named.1.toNat < first + count).map
    fun named => (named.2, .ofNat (named.1.toNat - first))

namespace ModuleSketch

def funcName (sketch : ModuleSketch) (position : Nat) : String :=
  match sketch.funcNames.find? (·.1.toNat = position) with
  | some (_, text) => NameSection.sigil ++ text
  | none => ""

def slotNames (sketch : ModuleSketch) (position : Nat) : List (UInt32 × String) :=
  (sketch.localNames.filter (·.1.toNat = position)).flatMap (·.2)

def slotBindings (sketch : ModuleSketch) (position first count : Nat) : Bindings :=
  if position < sketch.imports.length then ∅
  else Bindings.empty.putAll (slotPairs first count ((sketch.slotNames position).map sigiled))

def named (sketch : ModuleSketch) (position : Nat) (func : Func) : Func :=
  { func with
    name := sketch.funcName position
    paramBindings := sketch.slotBindings position 0 func.params.length
    localBindings := sketch.slotBindings position func.params.length func.locals.length }

end ModuleSketch

/-! ## Reading names -/

namespace NameSection

def readNames (names : List (UInt32 × String)) : List (Index × String) :=
  distinct [] ((Encode.sorted names).map sigiled)

def keyed {α : Type} (encode : α → List UInt8) (entry : UInt32 × α) : List UInt8 :=
  encodeU32 entry.1 ++ encode entry.2

theorem keyed_ne_nil {α : Type} (encode : α → List UInt8) (entry : UInt32 × α) :
    keyed encode entry ≠ [] :=
  List.append_ne_nil_of_left_ne_nil (encodeU32_ne_nil _) _

theorem keyed_fits {α : Type} {encode : α → List UInt8} {entries : List (UInt32 × α)}
    (fits : (Encode.list (keyed encode) entries).length < UInt32.size) {entry : UInt32 × α}
    (member : entry ∈ entries) : (encode entry.2).length < UInt32.size := by
  calc (encode entry.2).length
      ≤ (keyed encode entry).length := (List.suffix_append _ _).length_le
    _ ≤ (Encode.list (keyed encode) entries).length := Encode.length_item_le member
    _ < UInt32.size := fits

theorem entry_reads {named : UInt32 × String}
    (fits : (Encode.name named.2).length < UInt32.size) :
    entry.Reads (keyed Encode.name named) (sigiled named) := by
  apply (encodeU32_reads named.1).bind
  exact (Encode.name_reads fits).map _

theorem entries_reads {names : List (UInt32 × String)}
    (fit : ∀ named ∈ names, (Encode.name named.2).length < UInt32.size) (start : Nat)
    (rest : List UInt8) :
    ∃ after, entries names.length ⟨start, names.flatMap (keyed Encode.name) ++ rest⟩ =
      (names.map sigiled, some ⟨after, rest⟩) := by
  induction names generalizing start with
  | nil => exact ⟨start, rfl⟩
  | cons first others induction =>
      rw [List.forall_mem_cons] at fit
      rcases induction fit.2 _ with ⟨after, later⟩
      refine ⟨after, ?_⟩
      rw [List.length_cons, entries, List.flatMap_cons, List.append_assoc, entry_reads fit.1]
      dsimp only
      rw [later]
      rfl

theorem nameMap_reads {names : List (UInt32 × String)}
    (fits : (Encode.nameMap names).length < UInt32.size) (start : Nat) (rest : List UInt8) :
    ∃ after, nameMap ⟨start, Encode.nameMap names ++ rest⟩ =
      (readNames names, some ⟨after, rest⟩) := by
  have fits : (Encode.list (keyed Encode.name) (Encode.sorted names)).length < UInt32.size := fits
  rcases entries_reads (fun _ member => keyed_fits fits member) (start + _) rest with
    ⟨after, isRead⟩
  refine ⟨after, ?_⟩
  show nameMap ⟨start, Encode.list (keyed Encode.name) (Encode.sorted names) ++ rest⟩ = _
  rw [nameMap, Encode.list, List.append_assoc, Encode.length_reads]
  dsimp only
  rw [Encode.count_fits (fun _ _ => keyed_ne_nil _ _) fits, isRead]
  rfl

def withSlots (module : Module) (slots : UInt32 × List (UInt32 × String)) : Module :=
  nameSlots module slots.1 (readNames slots.2)

theorem slotMaps_reads {names : List (UInt32 × List (UInt32 × String))}
    (fit : ∀ slots ∈ names, (Encode.nameMap slots.2).length < UInt32.size) (start : Nat)
    (module : Module) :
    slotMaps names.length ⟨start, names.flatMap (keyed Encode.nameMap)⟩ module =
      (names.foldl withSlots module, true) := by
  induction names generalizing start module with
  | nil => rfl
  | cons first others induction =>
      rw [List.forall_mem_cons] at fit
      rcases nameMap_reads fit.1 (start + _) (others.flatMap (keyed Encode.nameMap)) with
        ⟨after, isRead⟩
      rw [List.length_cons, slotMaps, List.flatMap_cons, keyed, List.append_assoc, encodeU32_reads]
      dsimp only
      rw [isRead]
      exact induction fit.2 after _

/-! ## The name section -/

theorem frame_reads (id : UInt8) {contents : List UInt8} (fits : contents.length < UInt32.size)
    (start : Nat) (rest : List UInt8) :
    ∃ inside behind, frame ⟨start, Encode.framed id contents ++ rest⟩ =
      .ok (id, ⟨inside, contents⟩) ⟨behind, rest⟩ := by
  rcases (Encode.sized contents fits).reads (start + 1) rest with ⟨size, between, isSize, isInner⟩
  refine ⟨start + 1 + (Encode.length contents).length,
    start + 1 + (Encode.vector contents).length, ?_⟩
  refine Decoder.bind_eq_ok_iff.mpr ⟨id, ⟨start + 1, Encode.vector contents ++ rest⟩, rfl, ?_⟩
  refine Decoder.bind_eq_ok_iff.mpr ⟨size, between, isSize, ?_⟩
  exact Decoder.bind_eq_ok_iff.mpr ⟨_, _, isInner, rfl⟩

def Names (bytes : List UInt8) (module result : Module) : Prop :=
  ∀ start fuel, bytes.length ≤ fuel → subsections fuel ⟨start, bytes⟩ module = result

namespace Names

theorem done (module : Module) : Names [] module module := by
  intro start fuel _
  cases fuel with
  | zero => rfl
  | succ fuel => rfl

theorem framed {id : UInt8} {contents rest : List UInt8} {module named result : Module}
    (fits : contents.length < UInt32.size)
    (isNamed : ∀ start, subsection id ⟨start, contents⟩ module = (named, true))
    (others : Names rest named result) :
    Names (Encode.framed id contents ++ rest) module result := by
  intro start fuel enough
  cases fuel with
  | zero => cases enough
  | succ fuel =>
      rcases frame_reads id fits start rest with ⟨inside, behind, isFrame⟩
      have stillEnough : rest.length ≤ fuel := by
        rw [Encode.framed, List.cons_append, List.length_cons, List.length_append] at enough
        omega
      rw [subsections, isFrame]
      dsimp only
      rw [isNamed inside]
      exact others behind fuel stillEnough

/-- A subsection that is left out if there is nothing to say in it. -/
theorem optional {id : UInt8} {contents rest : List UInt8} {module named result : Module}
    {isAbsent : Bool}
    (fits : (if isAbsent then [] else Encode.framed id contents).length < UInt32.size)
    (absent : isAbsent = true → named = module)
    (isNamed : contents.length < UInt32.size →
      ∀ start, subsection id ⟨start, contents⟩ module = (named, true))
    (others : Names rest named result) :
    Names ((if isAbsent then [] else Encode.framed id contents) ++ rest) module result := by
  cases isAbsent with
  | false =>
      have contentsFit := Nat.lt_of_le_of_lt (Encode.length_le_framed id contents) fits
      exact framed contentsFit (isNamed contentsFit) others
  | true => exact absent rfl ▸ others

end Names

def withNames (module : Module) (names : List (UInt32 × String)) : Module :=
  { module with
    funcs := nameItems (fun name func => { func with name }) module.funcs (readNames names) }

theorem subsection_funcs {names : List (UInt32 × String)}
    (fits : (Encode.nameMap names).length < UInt32.size) (start : Nat) (module : Module) :
    subsection 1 ⟨start, Encode.nameMap names⟩ module = (withNames module names, true) := by
  rcases nameMap_reads fits start [] with ⟨after, isRead⟩
  rw [List.append_nil] at isRead
  rw [subsection, wholeMap, isRead]
  rfl

theorem subsection_slots {names : List (UInt32 × List (UInt32 × String))}
    (fits : (Encode.slotNames names).length < UInt32.size) (start : Nat) (module : Module) :
    subsection 2 ⟨start, Encode.slotNames names⟩ module =
      ((Encode.sorted names).foldl withSlots module, true) := by
  have fits : (Encode.list (keyed Encode.nameMap) (Encode.sorted names)).length < UInt32.size :=
    fits
  show subsection 2 ⟨start, Encode.list (keyed Encode.nameMap) (Encode.sorted names)⟩ module = _
  rw [subsection, Encode.list, Encode.length_reads]
  dsimp only
  rw [Encode.count_fits (fun _ _ => keyed_ne_nil _ _) fits]
  exact slotMaps_reads (fun _ member => keyed_fits fits member) _ _

def sketched (sketch : ModuleSketch) : List UInt8 :=
  (if sketch.funcNames.isEmpty then [] else Encode.framed 1 (Encode.nameMap sketch.funcNames)) ++
    if sketch.localNames.isEmpty then [] else Encode.framed 2 (Encode.slotNames sketch.localNames)

def withSketched (module : Module) (sketch : ModuleSketch) : Module :=
  (Encode.sorted sketch.localNames).foldl withSlots (withNames module sketch.funcNames)

theorem apply_sketched {sketch : ModuleSketch} (fits : (sketched sketch).length < UInt32.size)
    (start : Nat) (module : Module) :
    apply ⟨start, sketched sketch⟩ module = withSketched module sketch := by
  rw [sketched, List.length_append] at fits
  have noNames : sketch.funcNames.isEmpty → withNames module sketch.funcNames = module := by
    intro isEmpty
    rw [List.isEmpty_iff.mp isEmpty, withNames, readNames, Encode.sorted, List.mergeSort_nil]
    rfl
  have noSlots : sketch.localNames.isEmpty →
      withSketched module sketch = withNames module sketch.funcNames := by
    intro isEmpty
    rw [withSketched, List.isEmpty_iff.mp isEmpty, Encode.sorted, List.mergeSort_nil]
    rfl
  have slots := Names.optional (Nat.lt_of_le_of_lt (Nat.le_add_left _ _) fits) noSlots
    (fun fits start => subsection_slots fits start _) (.done _)
  rw [List.append_nil] at slots
  have all := Names.optional (Nat.lt_of_le_of_lt (Nat.le_add_right _ _) fits) noNames
    (fun fits start => subsection_funcs fits start module) slots
  exact all start _ (Nat.le_refl _)

/-! ## The names of one function -/

theorem getElem?_foldl_modify {α β : Type} (place : β → Nat) (change : β → α → α)
    (entries : List β) (items : List α) (position : Nat) :
    (entries.foldl (fun all entry => all.modify (place entry) (change entry)) items)[position]? =
      items[position]?.map fun item =>
        (entries.filter (place · = position)).foldl (fun item entry => change entry item) item := by
  induction entries generalizing items with
  | nil => simp
  | cons first others induction =>
      rw [List.foldl_cons, induction, List.getElem?_modify]
      by_cases here : place first = position
      · simp [here, Function.comp_def]
      · simp [here]

def nameAll (imported : Nat) (slots : UInt32 × List (UInt32 × String)) (func : Func) : Func :=
  if slots.1.toNat < imported then func else (readNames slots.2).foldl nameSlot func

theorem foldl_withSlots (names : List (UInt32 × List (UInt32 × String))) (module : Module) :
    names.foldl withSlots module =
      { module with
        funcs := names.foldl
          (fun funcs slots => funcs.modify slots.1.toNat (nameAll (module.importCount .func) slots))
          module.funcs } := by
  induction names generalizing module with
  | nil => rfl
  | cons first others induction =>
      have one : withSlots module first =
          { module with
            funcs := module.funcs.modify first.1.toNat
              (nameAll (module.importCount .func) first) } := by
        unfold withSlots nameSlots
        split
        · next isImported =>
            have isId : nameAll (module.importCount .func) first = id := by
              funext func
              exact if_pos isImported
            rw [isId, List.modify_id]
        · next notImported =>
            have isNaming : nameAll (module.importCount .func) first =
                (readNames first.2).foldl nameSlot := by
              funext func
              exact if_neg notImported
            rw [isNaming]
      have sameCount : (withSlots module first).importCount .func = module.importCount .func := by
        rw [one]
        simp [Module.importCount, EntityKind.ofExtern?, Module.importsOf, Module.entityCount]
      rw [List.foldl_cons, induction, sameCount, one]
      rfl

def called (names : List (UInt32 × String)) (position : Nat) (func : Func) : Func :=
  ((readNames names).filter (·.1.toNat = position)).foldl
    (fun func named => { func with name := named.2 }) func

def slotsAt (sketch : ModuleSketch) (position : Nat) : List (UInt32 × List (UInt32 × String)) :=
  (Encode.sorted sketch.localNames).filter (·.1.toNat = position)

theorem place_of_mem {sketch : ModuleSketch} {position : Nat}
    {slots : UInt32 × List (UInt32 × String)} (member : slots ∈ slotsAt sketch position) :
    slots.1.toNat = position := by
  simpa using List.of_mem_filter member

def renamed (sketch : ModuleSketch) (imported position : Nat) (func : Func) : Func :=
  (slotsAt sketch position).foldl (fun func slots => nameAll imported slots func)
    (called sketch.funcNames position func)

theorem withSketched_eq (module : Module) (sketch : ModuleSketch) :
    withSketched module sketch =
      { module with
        funcs := module.funcs.mapIdx (renamed sketch (module.importCount .func)) } := by
  have sameCount : (withNames module sketch.funcNames).importCount .func =
      module.importCount .func := by
    simp [withNames, Module.importCount, EntityKind.ofExtern?, Module.importsOf, Module.entityCount]
  have funcs : (withSketched module sketch).funcs =
      module.funcs.mapIdx (renamed sketch (module.importCount .func)) := by
    apply List.ext_getElem?
    intro position
    rw [withSketched, foldl_withSlots, sameCount, List.getElem?_mapIdx]
    dsimp only
    rw [getElem?_foldl_modify, withNames, nameItems, getElem?_foldl_modify, Option.map_map]
    rfl
  rw [← funcs, withSketched, foldl_withSlots]
  rfl

theorem foldl_view {α β γ : Type} {view : α → γ} {change : α → β → α}
    (keeps : ∀ item entry, view (change item entry) = view item) (entries : List β) (item : α) :
    view (entries.foldl change item) = view item := by
  induction entries generalizing item with
  | nil => rfl
  | cons first others induction => rw [List.foldl_cons, induction, keeps]

theorem called_eq (names : List (UInt32 × String)) (position : Nat) (func : Func) :
    called names position func =
      { func with name := (called names position func).name } := by
  unfold called
  generalize (readNames names).filter (·.1.toNat = position) = given
  induction given generalizing func with
  | nil => rfl
  | cons first others induction => exact induction _

theorem renamed_unnamed (sketch : ModuleSketch) (imported position : Nat) (func : Func) :
    (renamed sketch imported position func).unnamed = func.unnamed := by
  have slots : ∀ func slots, (nameAll imported slots func).unnamed = func.unnamed := by
    intro func slots
    unfold nameAll
    split
    · rfl
    · exact foldl_nameSlot_unnamed func _
  rw [renamed, foldl_view slots, called_eq]
  rfl

/-! ## Different names -/

theorem distinct_eq_self {seen : List String} {names : List (Index × String)}
    (different : (names.map (·.2)).Nodup) (unseen : ∀ named ∈ names, named.2 ∉ seen) :
    distinct seen names = names := by
  induction names generalizing seen with
  | nil => rfl
  | cons first others induction =>
      rw [List.map_cons, List.nodup_cons] at different
      rw [List.forall_mem_cons] at unseen
      have stillUnseen : ∀ named ∈ others, named.2 ∉ first.2 :: seen := by
        intro named member
        apply List.not_mem_cons_of_ne_of_not_mem _ (unseen.2 named member)
        intro same
        exact different.1 (same ▸ List.mem_map_of_mem member)
      rw [distinct, if_neg (by simpa using unseen.1), induction different.2 stillUnseen]

theorem sorted_perm {α : Type} (entries : List (UInt32 × α)) :
    (Encode.sorted entries).Perm entries :=
  List.mergeSort_perm _ _

theorem nodup_sigiled {names : List (UInt32 × String)} (different : (names.map (·.2)).Nodup) :
    ((names.map sigiled).map (·.2)).Nodup := by
  have injective : Function.Injective (sigil ++ ·) :=
    fun _ _ same => (String.append_right_inj _).mp same
  have withSigils := different.map injective
  rw [List.map_map] at withSigils ⊢
  exact withSigils

theorem readNames_eq {names : List (UInt32 × String)} (different : (names.map (·.2)).Nodup) :
    readNames names = (Encode.sorted names).map sigiled := by
  have sameTexts := (sorted_perm names).map (·.2)
  apply distinct_eq_self (nodup_sigiled (sameTexts.nodup_iff.mpr different))
  intro named _
  exact List.not_mem_nil

theorem nameSlot_name (func : Func) (named : Index × String) :
    (nameSlot func named).name = func.name := by
  unfold nameSlot
  dsimp only
  split
  · rfl
  · split
    · rfl
    · split <;> rfl

theorem nameAll_name (imported : Nat) (func : Func) (slots : UInt32 × List (UInt32 × String)) :
    (nameAll imported slots func).name = func.name := by
  unfold nameAll
  split
  · rfl
  · exact foldl_view nameSlot_name _ func

theorem only_of_nodup {α : Type} {entries : List (UInt32 × α)} {position : Nat}
    (isMap : (entries.map (·.1)).Nodup) {first : UInt32 × α} {others : List (UInt32 × α)}
    (found : entries.filter (·.1.toNat = position) = first :: others) : others = [] := by
  cases others with
  | nil => rfl
  | cons second others =>
      have there : ∀ entry ∈ first :: second :: others, entry.1.toNat = position := by
        intro entry member
        rw [← found] at member
        simpa using List.of_mem_filter member
      have same : first.1 = second.1 := by
        apply UInt32.toNat_inj.mp
        rw [there first (by simp), there second (by simp)]
      have inside : ((first :: second :: others).map (·.1)).Sublist (entries.map (·.1)) :=
        found ▸ List.filter_sublist.map _
      have nodup := isMap.sublist inside
      simp [same] at nodup

/-- If the names are different, each function has the one that is given for it. -/
theorem renamed_name {sketch : ModuleSketch} (isMap : (sketch.funcNames.map (·.1)).Nodup)
    (different : (sketch.funcNames.map (·.2)).Nodup) {imported position : Nat} {func : Func}
    (isUnnamed : func.name = "") :
    (renamed sketch imported position func).name = sketch.funcName position := by
  have perm := (sorted_perm sketch.funcNames).filter (·.1.toNat = position)
  have isName : (renamed sketch imported position func).name =
      (((Encode.sorted sketch.funcNames).filter (·.1.toNat = position)).foldl
        (fun func named => { func with name := (sigiled named).2 }) func).name := by
    rw [renamed, foldl_view (nameAll_name imported), called, readNames_eq different,
      List.filter_map, List.foldl_map]
    rfl
  rw [isName, ModuleSketch.funcName, ← List.head?_filter]
  cases found : sketch.funcNames.filter (·.1.toNat = position) with
  | nil =>
      rw [found, List.perm_nil] at perm
      rw [perm]
      exact isUnnamed
  | cons first others =>
      rw [found, only_of_nodup isMap found, List.perm_singleton] at perm
      rw [perm]
      rfl

theorem slotPairs_cons (first count : Nat) (named : Index × String)
    (others : List (Index × String)) :
    slotPairs first count (named :: others) =
      slotPairs first count [named] ++ slotPairs first count others := by
  rw [slotPairs, ← List.singleton_append, List.filter_append, List.map_append]
  rfl

theorem slotPairs_names {first count : Nat} {names : List (Index × String)} :
    ((slotPairs first count names).map (·.1)).Sublist (names.map (·.2)) := by
  rw [slotPairs, List.map_map]
  exact List.filter_sublist.map _

theorem nameSlot_eq {func : Func} {named : Index × String}
    (free : func.paramBindings.has named.2 = false ∧ func.localBindings.has named.2 = false) :
    nameSlot func named =
      { func with
        paramBindings := func.paramBindings.putAll (slotPairs 0 func.params.length [named])
        localBindings := func.localBindings.putAll
          (slotPairs func.params.length func.locals.length [named]) } := by
  unfold nameSlot
  dsimp only
  rw [free.1, free.2, Bool.or_false, if_neg Bool.false_ne_true]
  by_cases isParam : named.1.toNat < func.params.length
  · have notLocal : ¬func.params.length ≤ named.1.toNat := Nat.not_le.mpr isParam
    simp [slotPairs, isParam, notLocal, Bindings.putAll]
  · by_cases isLocal : named.1.toNat - func.params.length < func.locals.length
    · have inside : func.params.length ≤ named.1.toNat ∧
          named.1.toNat < func.params.length + func.locals.length := by omega
      simp [slotPairs, isParam, isLocal, inside, Bindings.putAll]
    · have outside : ¬named.1.toNat < func.params.length + func.locals.length := by omega
      simp [slotPairs, isParam, isLocal, outside, Bindings.putAll]

theorem foldl_nameSlot_eq {names : List (Index × String)} (different : (names.map (·.2)).Nodup)
    {func : Func}
    (free : ∀ named ∈ names, func.paramBindings.has named.2 = false ∧
      func.localBindings.has named.2 = false) :
    names.foldl nameSlot func =
      { func with
        paramBindings := func.paramBindings.putAll (slotPairs 0 func.params.length names)
        localBindings := func.localBindings.putAll
          (slotPairs func.params.length func.locals.length names) } := by
  induction names generalizing func with
  | nil => rfl
  | cons first others induction =>
      rw [List.map_cons, List.nodup_cons] at different
      rw [List.forall_mem_cons] at free
      have stillFree : ∀ named ∈ others, ∀ start count (bindings : Bindings),
          (bindings.putAll (slotPairs start count [first])).has named.2 = bindings.has named.2 := by
        intro named member start count bindings
        apply Bindings.has_putAll_of_ne
        intro pair isPair same
        have isFirst := slotPairs_names.subset (List.mem_map_of_mem isPair)
        rw [same, List.map_singleton, List.mem_singleton] at isFirst
        exact different.1 (isFirst ▸ List.mem_map_of_mem member)
      rw [List.foldl_cons, slotPairs_cons 0 _ first others, slotPairs_cons _ _ first others,
        Bindings.putAll_append, Bindings.putAll_append, nameSlot_eq free.1, induction different.2]
      · rfl
      · intro named member
        rw [stillFree named member, stillFree named member]
        exact free.2 named member

theorem slotPairs_perm {names others : List (Index × String)} (perm : names.Perm others)
    (different : (names.map (·.2)).Nodup) (bindings : Bindings) (first count : Nat) :
    bindings.putAll (slotPairs first count names) =
      bindings.putAll (slotPairs first count others) := by
  apply Bindings.putAll_perm
  · exact (perm.filter _).map _
  · exact different.sublist slotPairs_names

theorem foldl_nameAll_imported {sketch : ModuleSketch} {imported position : Nat}
    (isImported : position < imported) (func : Func) :
    (slotsAt sketch position).foldl (fun func slots => nameAll imported slots func) func =
      func := by
  have unchanged : ∀ func : Func, ∀ slots ∈ slotsAt sketch position,
      nameAll imported slots func = func := by
    intro func slots member
    exact if_pos (place_of_mem member ▸ isImported)
  rw [List.foldl_ext _ (fun func _ => func) func unchanged, List.foldl_fixed]

/-- What is read for the slots of one function, if the names are different. -/
theorem foldl_nameAll {sketch : ModuleSketch} {imported position : Nat}
    (notImported : ¬position < imported)
    (different : ((sketch.slotNames position).map (·.2)).Nodup) (func : Func) :
    ∃ names : List (Index × String), names.Perm ((sketch.slotNames position).map sigiled) ∧
      (slotsAt sketch position).foldl (fun func slots => nameAll imported slots func) func =
        names.foldl nameSlot func := by
  have perm := (sorted_perm sketch.localNames).filter (·.1.toNat = position)
  have isPerm : ((slotsAt sketch position).flatMap fun slots =>
      (Encode.sorted slots.2).map sigiled).Perm ((sketch.slotNames position).map sigiled) := by
    rw [ModuleSketch.slotNames, List.map_flatMap]
    exact perm.flatMap fun slots _ => (sorted_perm slots.2).map sigiled
  refine ⟨_, isPerm, ?_⟩
  rw [List.foldl_flatMap]
  apply List.foldl_ext
  intro func slots member
  -- The names of one map are some of those for the function, so they are different too.
  have inside : (slots.2.map (·.2)).Sublist ((sketch.slotNames position).map (·.2)) := by
    apply List.Sublist.map
    rw [ModuleSketch.slotNames, List.flatMap_def]
    exact List.sublist_flatten_of_mem (List.mem_map_of_mem (perm.subset member))
  rw [nameAll, if_neg (place_of_mem member ▸ notImported), readNames_eq (different.sublist inside)]

/-- If the names for the slots of a function are different, they are all bound. -/
theorem renamed_slots {sketch : ModuleSketch} {position : Nat}
    (different : ((sketch.slotNames position).map (·.2)).Nodup) {func : Func}
    (noParams : func.paramBindings = ∅) (noLocals : func.localBindings = ∅) :
    (renamed sketch sketch.imports.length position func).paramBindings =
        sketch.slotBindings position 0 func.params.length ∧
      (renamed sketch sketch.imports.length position func).localBindings =
        sketch.slotBindings position func.params.length func.locals.length := by
  unfold ModuleSketch.slotBindings renamed
  rw [called_eq]
  split
  · next isImported =>
      rw [foldl_nameAll_imported isImported]
      exact ⟨noParams, noLocals⟩
  · next notImported =>
      rcases foldl_nameAll notImported different
        { func with name := (called sketch.funcNames position func).name } with
        ⟨names, perm, isFold⟩
      have stillDifferent : (names.map (·.2)).Nodup :=
        (perm.map _).nodup_iff.mpr (nodup_sigiled different)
      rw [isFold, foldl_nameSlot_eq stillDifferent]
      · dsimp only
        rw [noParams, noLocals, slotPairs_perm perm stillDifferent,
          slotPairs_perm perm stillDifferent]
        exact ⟨rfl, rfl⟩
      · intro named _
        dsimp only
        rw [noParams, noLocals]
        exact ⟨Bindings.has_empty _, Bindings.has_empty _⟩

end NameSection

end Binary

end WasmLowering
