import WasmLowering.Proofs.Decoding.Indexed
import WasmLowering.Proofs.Decoding.Reading

/-! What a module is without its names.

A custom section can only change names: those of the module and its entities, and
which names the slots of functions have. All that the other sections take from the
module read so far are the signatures of its types and the number of its imports, so
names make no difference to them either. -/

namespace WasmLowering

/-! ## Modules without names -/

def Func.unnamed (func : Func) : Func :=
  { func with name := "", paramBindings := ∅, localBindings := ∅ }

@[simp] theorem Func.unnamed_unnamed (func : Func) : func.unnamed.unnamed = func.unnamed := rfl

def Module.unnamed (module : Module) : Module :=
  { module with
    name := ""
    types := module.types.map fun type => { type with name := "" }
    funcs := module.funcs.map Func.unnamed
    globals := module.globals.map fun global => { global with name := "" }
    tables := module.tables.map fun table => { table with name := "" }
    memories := module.memories.map fun memory => { memory with name := "" }
    tags := module.tags.map fun tag => { tag with name := "" } }

namespace Module

@[simp] theorem unnamed_importCount (module : Module) (kind : ExternKind) :
    module.unnamed.importCount kind = module.importCount kind := by
  cases kind <;> simp [importCount, EntityKind.ofExtern?, importsOf, entityCount, unnamed]

theorem unnamed_signatures (module : Module) :
    module.unnamed.types.map (·.signature) = module.types.map (·.signature) := by
  simp [unnamed]

@[simp] theorem unnamed_unnamed (module : Module) : module.unnamed.unnamed = module.unnamed := by
  simp [unnamed, Function.comp_def]

end Module

namespace Binary

/-! ## Name sections -/

namespace NameSection

theorem foldl_nameSlot_unnamed (func : Func) (names : List (Index × String)) :
    (names.foldl nameSlot func).unnamed = func.unnamed := by
  have contents := Prod.mk.inj (foldl_nameSlot_contents func names)
  simp only [Func.unnamed, contents.1, contents.2, foldl_nameSlot_locals]

theorem nameSlots_unnamed (module : Module) (position : Index) (names : List (Index × String)) :
    (nameSlots module position names).unnamed = module.unnamed := by
  unfold nameSlots
  split
  · rfl
  · have funcs := map_modify_view (fun func => foldl_nameSlot_unnamed func names) module.funcs
      position.toNat
    simp only [Module.unnamed, funcs]

theorem slotMaps_unnamed (count : Nat) (reader : Reader) (module : Module) :
    (slotMaps count reader module).1.unnamed = module.unnamed := by
  induction count generalizing reader module with
  | zero => rfl
  | succ count induction =>
      rw [slotMaps]
      split
      · rfl
      · next position after read =>
          have named := nameSlots_unnamed module position (nameMap after).1
          dsimp only
          split
          · exact (induction _ _).trans named
          · exact named

theorem subsection_unnamed (id : UInt8) (reader : Reader) (module : Module) :
    (subsection id reader module).1.unnamed = module.unnamed := by
  rcases read : wholeMap reader with ⟨names, whole⟩
  -- A name map changes the names of one list of entities.
  have items {α : Type} {rename : String → α → α} {view : α → α} (given : List α)
      (keeps : ∀ name item, view (rename name item) = view item) :
      (nameItems rename given names).map view = given.map view :=
    map_nameItems_view keeps given names
  unfold subsection
  rw [read]
  split
  · split <;> rfl
  · simp only [Module.unnamed]
    rw [items module.funcs]
    exact fun _ _ => rfl
  · split
    · exact slotMaps_unnamed _ _ _
    · rfl
  · simp only [Module.unnamed]
    rw [items module.types]
    exact fun _ _ => rfl
  · simp only [Module.unnamed]
    rw [items module.tables]
    exact fun _ _ => rfl
  · simp only [Module.unnamed]
    rw [items module.memories]
    exact fun _ _ => rfl
  · simp only [Module.unnamed]
    rw [items module.globals]
    exact fun _ _ => rfl
  · simp only [Module.unnamed]
    rw [items module.tags]
    exact fun _ _ => rfl
  · rfl

theorem apply_unnamed (reader : Reader) (module : Module) :
    (apply reader module).unnamed = module.unnamed := by
  unfold apply
  generalize reader.remaining = fuel
  induction fuel generalizing reader module with
  | zero => rfl
  | succ fuel induction =>
      rw [subsections]
      split
      · rfl
      · next id contents after read =>
          have named := subsection_unnamed id contents module
          dsimp only
          split
          · exact (induction _ _).trans named
          · exact named

end NameSection

/-! ## Decoders that depend on signatures only -/

namespace Decoder

section Signatures

variable {types others : List FuncType}
  (same : types.map (·.signature) = others.map (·.signature))
include same

theorem declarationOf_congr : declarationOf types = declarationOf others := by
  funext position
  have length : types.length = others.length := by simpa using congrArg List.length same
  have entry := congrArg (·[position.toNat]?) same
  simp only [List.getElem?_map] at entry
  unfold declarationOf
  rw [length]
  cases found : types[position.toNat]? <;> cases otherFound : others[position.toNat]? <;>
    simp_all

theorem blockDeclaration_congr : blockDeclaration types = blockDeclaration others := by
  unfold blockDeclaration
  rw [declarationOf_congr same]

theorem instrs_congr (isConstant : Bool) (fuel : Nat) :
    instrs ⟨types, isConstant⟩ fuel = instrs ⟨others, isConstant⟩ fuel := by
  have head : ∀ body fuel byte,
      instr ⟨types, isConstant⟩ body fuel byte = instr ⟨others, isConstant⟩ body fuel byte := by
    intro body fuel byte
    unfold instr
    rw [blockDeclaration_congr same, declarationOf_congr same]
  induction fuel with
  | zero => rfl
  | succ fuel induction => simp only [instrs, induction, head]

theorem code_congr (isConstant : Bool) : code ⟨types, isConstant⟩ = code ⟨others, isConstant⟩ := by
  simp only [code, instrs_congr same]

theorem constantCode_congr : constantCode types = constantCode others := by
  simp only [constantCode, code_congr same]

theorem func_congr : func types = func others := by
  simp only [func, declarationOf_congr same]

theorem tag_congr : tag types = tag others := by
  simp only [tag, declarationOf_congr same]

theorem importEntry_congr : importEntry types = importEntry others := by
  funext number
  simp only [importEntry, func_congr same, tag_congr same]

theorem globalEntry_congr : globalEntry types = globalEntry others := by
  funext number
  simp only [globalEntry, constantCode_congr same]

theorem elementSegment_congr : elementSegment types = elementSegment others := by
  have item : ∀ usesExpressions isPassive,
      element types usesExpressions isPassive = element others usesExpressions isPassive := by
    intro usesExpressions isPassive
    funext number
    simp only [element, constantCode_congr same]
  simp only [elementSegment, constantCode_congr same, item]

theorem funcBody_congr : funcBody types = funcBody others := by
  simp only [funcBody, code_congr same]

theorem sizedBody_congr : sizedBody types = sizedBody others := by
  funext number
  simp only [sizedBody, funcBody_congr same]

theorem dataSegment_congr : dataSegment types = dataSegment others := by
  funext number
  simp only [dataSegment, constantCode_congr same]

end Signatures

end Decoder

/-! ## Sections -/

theorem Module.unnamed_addImports (module : Module) (entries : List (Import × Decoder.Imported)) :
    (Module.addImports module entries).unnamed =
      (Module.addImports module.unnamed entries).unnamed := by
  simp [Module.addImports, Module.unnamed, Func.unnamed]

theorem Module.unnamed_addBodies (module : Module) (first : Nat)
    (bodies : List (List ValueType × List Instr)) :
    (Module.addBodies module first bodies).unnamed =
      Module.addBodies module.unnamed first bodies := by
  simp [Module.addBodies, Module.unnamed, List.map_zipWith, ← List.map_drop, List.zipWith_map_left]
  rfl

def Progress.unnamed (progress : Progress) : Progress :=
  { progress with module := progress.module.unnamed }

theorem Progress.complete_of_unnamed {one other : Progress} (same : one.unnamed = other.unnamed)
    (complete : other.bodies = other.declared) : one.bodies = one.declared := by
  have bodies : one.unnamed.bodies = other.unnamed.bodies := congrArg bodies same
  have declared : one.unnamed.declared = other.unnamed.declared := congrArg declared same
  exact bodies.trans (complete.trans declared.symm)

namespace Decoder

theorem sectionContents_custom (progress : Progress) :
    Progress.unnamed <$> sectionContents .custom progress =
      do let _ ← name; return progress.unnamed := by
  simp only [sectionContents, map_bind]
  congr
  funext title
  split
  · simp [Progress.unnamed, NameSection.apply_unnamed]
  · simp

/-- Up to names, a section gives what it gives without the names so far. -/
theorem sectionContents_unnamed (id : SectionId) (progress : Progress) :
    Progress.unnamed <$> sectionContents id progress.unnamed =
      Progress.unnamed <$> sectionContents id progress := by
  have same := progress.module.unnamed_signatures
  cases id with
  | custom => simp [sectionContents_custom, Progress.unnamed]
  | imports =>
      simp only [sectionContents, map_bind, map_pure, Progress.unnamed, importEntry_congr same,
        ← Module.unnamed_addImports]
  | code =>
      simp only [sectionContents, map_bind, Progress.unnamed, sizedBody_congr same,
        Module.unnamed_importCount]
      congr
      funext count
      split
      · rfl
      · simp only [map_bind, map_pure, Progress.unnamed, Module.unnamed_addBodies,
          Module.unnamed_unnamed]
  | _ =>
      simp only [sectionContents, Progress.unnamed, func_congr same, tag_congr same,
        globalEntry_congr same, elementSegment_congr same, dataSegment_congr same]
      simp [Progress.unnamed, Module.unnamed, Function.comp_def]

theorem sectionContents_alike {id : SectionId} {one other after : Progress} {reader left : Reader}
    (same : one.unnamed = other.unnamed) (ran : sectionContents id one reader = .ok after left) :
    ∃ result, sectionContents id other reader = .ok result left ∧
      result.unnamed = after.unnamed := by
  have equal : Progress.unnamed <$> sectionContents id one =
      Progress.unnamed <$> sectionContents id other := by
    rw [← sectionContents_unnamed, same, sectionContents_unnamed]
  have mapped := map_eq_ok_iff.mpr ⟨after, ran, Eq.refl after.unnamed⟩
  rw [equal] at mapped
  exact map_eq_ok_iff.mp mapped

end Decoder

end Binary

end WasmLowering
