import WasmLowering.Compile
import WasmLowering.Proofs.Decoding.ExportNames
import WasmLowering.Proofs.Lowering.Parts
import WasmLowering.Proofs.Naming.NamedCode
import WasmLowering.Proofs.Symbols.Mangling

/-! When two declarations of a header conflict.

The symbol of an import or export is made of its names and what its type adds to
them. Functions and numbers add one component, memories and tables none. So a memory
and a table that are imported under the same names have the same symbol, and the
names of an imported memory or table can be read as the name and the letters of
something that is exported. There are no other conflicts. -/

namespace WasmLowering

namespace C

/-! ## Declarations -/

inductive HeaderDeclaration where
  | imported (object : ImportedObject)
  | exported (object : ExportedObject)

def Program.headerDeclarations (program : Program) : List HeaderDeclaration :=
  program.imports.map .imported ++ program.exports.map .exported

namespace HeaderDeclaration

def symbol : HeaderDeclaration → String
  | .imported object => object.symbol
  | .exported object => object.symbol

def type : HeaderDeclaration → ObjectType
  | .imported object => object.type
  | .exported object => object.type

def names : HeaderDeclaration → List (List UInt8)
  | .imported object => [Text.bytes object.entry.moduleName, Text.bytes object.entry.fieldName]
  | .exported object => [Text.bytes object.name]

def Spelled (declaration : HeaderDeclaration) : Prop :=
  declaration.symbol = Symbol.spell (declaration.names ++ declaration.type.components)

def Conflicts (left right : HeaderDeclaration) : Prop :=
  left.symbol = right.symbol ∧ left.type ≠ right.type

def Confused : HeaderDeclaration → HeaderDeclaration → Prop
  | .imported left, .imported right =>
      left.type = .memory ∧ right.type = .table ∧
        left.entry.moduleName = right.entry.moduleName ∧
        left.entry.fieldName = right.entry.fieldName
  | .imported left, .exported right =>
      (left.type = .memory ∨ left.type = .table) ∧ left.entry.moduleName = right.name ∧
        right.type.components = [Text.bytes left.entry.fieldName]
  | _, _ => False

/-! ## Conflicts -/

theorem components_eq_nil {type : ObjectType} :
    type.components = [] ↔ type = .memory ∨ type = .table := by
  cases type <;> simp [ObjectType.components]

theorem length_components_le (type : ObjectType) : type.components.length ≤ 1 := by
  cases type <;> simp [ObjectType.components]

theorem conflicts_comm {left right : HeaderDeclaration} :
    left.Conflicts right ↔ right.Conflicts left := by
  unfold Conflicts
  rw [eq_comm, ne_comm]

theorem conflicts_iff {left right : HeaderDeclaration} (isLeft : left.Spelled)
    (isRight : right.Spelled) :
    left.Conflicts right ↔ left.names ++ left.type.components =
      right.names ++ right.type.components ∧ left.type ≠ right.type := by
  rw [Conflicts, isLeft, isRight, Symbol.spell_injective.eq_iff]

theorem types_of_components {left right : ObjectType} (different : left ≠ right)
    (same : left.components = right.components) :
    left = .memory ∧ right = .table ∨ left = .table ∧ right = .memory := by
  have addsNothing : left.components = [] := by
    by_contra given
    exact different (ObjectType.eq_of_components given same)
  rcases components_eq_nil.mp addsNothing with isLeft | isLeft <;>
    rcases components_eq_nil.mp (same ▸ addsNothing) with isRight | isRight <;>
    simp_all

theorem imports_conflict_iff {left right : ImportedObject} (isLeft : (imported left).Spelled)
    (isRight : (imported right).Spelled) :
    (imported left).Conflicts (imported right) ↔
      (imported left).Confused (imported right) ∨ (imported right).Confused (imported left) := by
  rw [conflicts_iff isLeft isRight]
  simp only [names, type, Confused, List.cons_append, List.nil_append, List.cons.injEq,
    Text.bytes_injective.eq_iff]
  constructor
  · intro ⟨⟨sameModule, sameField, sameComponents⟩, different⟩
    rcases types_of_components different sameComponents with ⟨isMemory, isTable⟩ | ⟨isTable, isMemory⟩
    · exact .inl ⟨isMemory, isTable, sameModule, sameField⟩
    · exact .inr ⟨isMemory, isTable, sameModule.symm, sameField.symm⟩
  · intro confused
    rcases confused with ⟨isMemory, isTable, sameModule, sameField⟩ |
      ⟨isMemory, isTable, sameModule, sameField⟩
    · simp [isMemory, isTable, sameModule, sameField, ObjectType.components]
    · simp [isMemory, isTable, sameModule, sameField, ObjectType.components]

theorem import_conflicts_export_iff {left : ImportedObject} {right : ExportedObject}
    (isLeft : (imported left).Spelled) (isRight : (exported right).Spelled) :
    (imported left).Conflicts (exported right) ↔ (imported left).Confused (exported right) := by
  rw [conflicts_iff isLeft isRight]
  simp only [names, type, Confused, List.cons_append, List.nil_append, List.cons.injEq,
    Text.bytes_injective.eq_iff, ← components_eq_nil]
  constructor
  · intro ⟨⟨sameModule, sameRest⟩, _⟩
    have addsNothing : left.type.components = [] := by
      have short := length_components_le right.type
      rw [← sameRest] at short
      exact List.length_eq_zero_iff.mp (Nat.le_zero.mp (Nat.le_of_succ_le_succ short))
    exact ⟨addsNothing, sameModule, by rw [← sameRest, addsNothing]⟩
  · intro ⟨addsNothing, sameModule, isField⟩
    refine ⟨⟨sameModule, by rw [addsNothing, isField]⟩, ?_⟩
    intro sameType
    rw [← sameType, addsNothing] at isField
    cases isField

theorem not_exports_conflict {left right : ExportedObject} (isLeft : (exported left).Spelled)
    (isRight : (exported right).Spelled) (distinct : left.name = right.name → left = right) :
    ¬(exported left).Conflicts (exported right) := by
  rw [conflicts_iff isLeft isRight]
  intro ⟨sameSymbols, different⟩
  have sameName := Text.bytes_injective (List.cons.inj sameSymbols).1
  exact different (by rw [distinct sameName])

end HeaderDeclaration

end C

namespace Emission

open C (ObjectType ImportedObject ExportedObject HeaderDeclaration)

/-! ## Symbols of imports and exports -/

/-- The type that is written as a letter is the one that is declared. -/
theorem mangledType_eq {type : ValueType} {letter declared : Scalar}
    (isLetter : Symbol.mangledType type = .ok letter) (isDeclared : scalarOf type = .ok declared) :
    letter = declared := by
  unfold Symbol.mangledType at isLetter
  unfold scalarOf at isDeclared
  split at isLetter
  · next scalar isScalar =>
      rw [isScalar] at isDeclared
      cases isLetter
      cases isDeclared
      rfl
  · cases isLetter

theorem mangledTypes_eq {types : List ValueType} {letters declared : List Scalar}
    (areLetters : types.mapM Symbol.mangledType = .ok letters)
    (areDeclared : types.mapM scalarOf = .ok declared) : letters = declared := by
  induction types generalizing letters declared with
  | nil =>
      cases areLetters
      cases areDeclared
      rfl
  | cons type rest induction =>
      rw [List.mapM_cons] at areLetters areDeclared
      rcases bind_eq_ok areLetters with ⟨letter, isLetter, remaining⟩
      rcases bind_eq_ok remaining with ⟨otherLetters, areOthers, isAll⟩
      cases isAll
      rcases bind_eq_ok areDeclared with ⟨first, isFirst, remaining⟩
      rcases bind_eq_ok remaining with ⟨others, areRest, isAll⟩
      cases isAll
      rw [mangledType_eq isLetter isFirst, induction areOthers areRest]

theorem resultOf_eq {types : List ValueType} {result : Option Scalar}
    (isResult : resultOf types = .ok result) : types.mapM scalarOf = .ok result.toList := by
  unfold resultOf at isResult
  split at isResult
  · cases isResult
    rfl
  · rcases bind_eq_ok isResult with ⟨scalar, isScalar, isAll⟩
    cases isAll
    rw [List.mapM_cons, isScalar]
    rfl
  · cases isResult

theorem funcSymbol_spelled {name : List UInt8} {signature : Signature} {symbol : String}
    {prototype : C.Prototype} (isSymbol : Symbol.funcSymbol name signature = .ok symbol)
    (isPrototype : prototypeOf signature = .ok prototype) :
    symbol = Symbol.spell (name :: (ObjectType.func prototype).components) := by
  rcases bind_eq_ok isSymbol with ⟨results, areResults, remaining⟩
  rcases bind_eq_ok remaining with ⟨params, areParams, isAll⟩
  cases isAll
  rcases bind_eq_ok isPrototype with ⟨result, isResult, remaining⟩
  rcases bind_eq_ok remaining with ⟨declared, areDeclared, isAll⟩
  cases isAll
  rw [mangledTypes_eq areResults (resultOf_eq isResult), mangledTypes_eq areParams areDeclared]
  rw [Symbol.spell_cons, ObjectType.components, Symbol.spell_singleton]
  rfl

theorem globalSymbol_spelled {name : List UInt8} {type : ValueType} {symbol : String}
    {scalar : Scalar} (isSymbol : Symbol.globalSymbol name type = .ok symbol)
    (isScalar : scalarOf type = .ok scalar) :
    symbol = Symbol.spell (name :: (ObjectType.number scalar).components) := by
  rcases bind_eq_ok isSymbol with ⟨letter, isLetter, isAll⟩
  cases isAll
  rw [mangledType_eq isLetter isScalar]
  rw [Symbol.spell_cons, ObjectType.components, Symbol.spell_singleton]
  rfl

/-- The symbol of the field of an import fits the type that is declared. -/
theorem importedEntity_spelled (module : Module) (entry : Import) (number : Nat) :
    Gives True (importedEntity module entry number) fun (_, field, type) =>
      ∀ declared, type = .ok declared →
        field = Symbol.spell (Text.bytes entry.fieldName :: declared.components) := by
  unfold importedEntity
  split
  · apply (Gives.ofResult _).bind
    intro func _
    apply (Gives.ofResult _).bind
    intro field isField
    apply Gives.ok
    intro declared isDeclared
    rcases map_eq_ok isDeclared with ⟨prototype, isPrototype, rfl⟩
    exact funcSymbol_spelled isField isPrototype
  · apply (Gives.ofResult _).bind
    intro global _
    apply (Gives.ofResult _).bind
    intro field isField
    apply Gives.ok
    intro declared isDeclared
    rcases map_eq_ok isDeclared with ⟨scalar, isScalar, rfl⟩
    exact globalSymbol_spelled isField isScalar
  · apply (Gives.ofResult _).bind
    intro memory _
    apply Gives.ok
    intro declared isDeclared
    cases isDeclared
    exact (Symbol.spell_singleton _).symm
  · apply (Gives.ofResult _).bind
    intro table _
    apply Gives.ok
    intro declared isDeclared
    cases isDeclared
    exact (Symbol.spell_singleton _).symm
  · exact .unsupported _ _

theorem importObject_spelled (module : Module) (entry : Import) (number : Nat)
    (symbols : EntitySymbols) :
    Meets True (importObject module entry number) symbols fun object _ =>
      (HeaderDeclaration.imported object).Spelled := by
  apply (Meets.lift (importedEntity_spelled module entry number) symbols).bind
  intro ⟨name, field, type⟩ after ⟨spelled, _⟩
  apply Meets.bind_get
  apply (Meets.anything _ _).bind
  intro _ _ _
  apply (Meets.anything _ _).bind
  intro _ last _
  apply (Meets.lift (Gives.ofResult type) last).bind
  intro declared _ ⟨isDeclared, _⟩
  apply Meets.pure
  show _ ++ field = _
  rw [spelled declared isDeclared]
  exact (Symbol.spell_cons _ _).symm

theorem exportedEntity_spelled (module : Module) (entry : Export) :
    Gives True (exportedEntity module entry) fun object =>
      object.name = entry.name ∧ (HeaderDeclaration.exported object).Spelled := by
  unfold exportedEntity
  split
  · apply (Gives.ofResult _).bind
    intro func _
    apply (Gives.ofResult _).bind
    intro symbol isSymbol
    apply (Gives.ofResult _).bind
    intro prototype isPrototype
    exact .ok ⟨rfl, funcSymbol_spelled isSymbol isPrototype⟩
  · apply (Gives.ofResult _).bind
    intro global _
    apply (Gives.ofResult _).bind
    intro symbol isSymbol
    apply (Gives.ofResult _).bind
    intro scalar isScalar
    exact .ok ⟨rfl, globalSymbol_spelled isSymbol isScalar⟩
  · apply (Gives.ofResult _).bind
    intro memory _
    exact .ok ⟨rfl, (Symbol.spell_singleton _).symm⟩
  · apply (Gives.ofResult _).bind
    intro table _
    exact .ok ⟨rfl, (Symbol.spell_singleton _).symm⟩
  · exact .unsupported _ _

theorem exportObject_spelled (module : Module) (entry : Export) (symbols : EntitySymbols) :
    Meets True (exportObject module entry) symbols fun object _ =>
      object.name = entry.name ∧ (HeaderDeclaration.exported object).Spelled := by
  apply (Meets.lift (exportedEntity_spelled module entry) symbols).bind
  intro object _ ⟨known, _⟩
  apply (Meets.anything _ _).bind
  intro _ _ _
  exact .pure known

variable {module : Module} {program : C.Program} {after : Stages}

theorem Built.imports_spelled (built : Built module program after) :
    ∀ object ∈ program.imports, (HeaderDeclaration.imported object).Spelled := by
  have spelled : Meets True ((numberedImports module).mapM fun numbered =>
      importObject module numbered.1 numbered.2) {} fun objects _ => List.Forall₂
        (fun _ object => (HeaderDeclaration.imported object).Spelled) _ objects :=
    .mapM (fun numbered symbols => importObject_spelled module numbered.1 numbered.2 symbols) _
  replace spelled := spelled.of_ok built.imports
  intro object member
  rcases exists_of_forall₂ spelled member with ⟨_, _, known⟩
  exact known

theorem Built.exports_spelled (built : Built module program after) :
    List.Forall₂ (fun entry object =>
      object.name = entry.name ∧ (HeaderDeclaration.exported object).Spelled)
      module.exports program.exports :=
  (Meets.mapM (exportObject_spelled module) _).of_ok built.exports

theorem Built.exportNames (built : Built module program after) :
    program.exports.map (·.name) = module.exports.map (·.name) :=
  map_eq_of_forall₂ built.exports_spelled fun _ _ known => known.1

theorem Built.export_eq (built : Built module program after) (distinct : module.DistinctExports)
    {left right : ExportedObject} (isLeft : left ∈ program.exports)
    (isRight : right ∈ program.exports) (sameName : left.name = right.name) : left = right := by
  have nodup : (program.exports.map (·.name)).Nodup := built.exportNames ▸ distinct
  exact List.inj_on_of_nodup_map nodup isLeft isRight sameName

theorem Built.spelled (built : Built module program after) {declaration : HeaderDeclaration}
    (member : declaration ∈ program.headerDeclarations) : declaration.Spelled := by
  rcases List.mem_append.mp member with member | member
  · rcases List.mem_map.mp member with ⟨object, isImport, rfl⟩
    exact built.imports_spelled object isImport
  · rcases List.mem_map.mp member with ⟨object, isExport, rfl⟩
    rcases exists_of_forall₂ built.exports_spelled isExport with ⟨_, _, known⟩
    exact known.2

theorem mem_headerDeclarations_exported {object : ExportedObject}
    (member : .exported object ∈ program.headerDeclarations) : object ∈ program.exports := by
  simpa [C.Program.headerDeclarations] using member

theorem Built.conflicts_iff (built : Built module program after) (distinct : module.DistinctExports)
    {left right : HeaderDeclaration} (isLeft : left ∈ program.headerDeclarations)
    (isRight : right ∈ program.headerDeclarations) :
    left.Conflicts right ↔ left.Confused right ∨ right.Confused left := by
  have spelledLeft := built.spelled isLeft
  have spelledRight := built.spelled isRight
  cases left with
  | imported first =>
      cases right with
      | imported second => exact HeaderDeclaration.imports_conflict_iff spelledLeft spelledRight
      | exported second =>
          rw [HeaderDeclaration.import_conflicts_export_iff spelledLeft spelledRight]
          simp [HeaderDeclaration.Confused]
  | exported first =>
      cases right with
      | imported second =>
          rw [HeaderDeclaration.conflicts_comm,
            HeaderDeclaration.import_conflicts_export_iff spelledRight spelledLeft]
          simp [HeaderDeclaration.Confused]
      | exported second =>
          have apart := HeaderDeclaration.not_exports_conflict spelledLeft spelledRight
            (built.export_eq distinct (mem_headerDeclarations_exported isLeft)
              (mem_headerDeclarations_exported isRight))
          simp [apart, HeaderDeclaration.Confused]

end Emission

theorem Module.Applied.exportNames {module named : Module} (applied : module.Applied named) :
    named.exports.map (·.name) = module.exports.map (·.name) := by
  apply map_eq_of_forall₂ applied.exports
  intro entry result isResult
  unfold Naming.applyExport at isResult
  split at isResult
  · rcases bind_eq_ok isResult with ⟨_, _, isAll⟩
    cases isAll
    rfl
  · cases isResult
    rfl

theorem Module.Applied.distinctExports {module named : Module}
    (applied : module.resolve.Applied named) (distinct : module.DistinctExports) :
    named.DistinctExports := by
  rw [DistinctExports, applied.exportNames]
  exact distinct

open Emission

/-- Two declarations in the header of a compiled module conflict exactly if the names of
an imported memory or table are confused with those of something else. -/
theorem Module.header_conflicts_iff {bytes : List UInt8} {module : Module}
    {options : CompileOptions} {compiled : Compiled} (accepted : Binary.decode bytes = .ok module)
    (compiles : module.compile options = .ok compiled) :
    ∃ program, compiled.module.emit = .ok program ∧
      compiled.output = program.output compiled.headerName ∧
      ∀ left ∈ program.headerDeclarations, ∀ right ∈ program.headerDeclarations,
        left.Conflicts right ↔ left.Confused right ∨ right.Confused left := by
  rcases bind_eq_ok compiles with ⟨named, isNamed, remaining⟩
  rcases bind_eq_ok remaining with ⟨output, isOutput, isAll⟩
  cases isAll
  rcases bind_eq_ok (mapError_eq_ok isOutput) with ⟨program, emitted, isText⟩
  refine ⟨program, emitted, (Except.ok.inj isText).symm, ?_⟩
  have applied := applyNames_applied (mapError_eq_ok isNamed)
  have distinct := applied.distinctExports (Binary.decode_distinctExports accepted)
  rcases emit_built emitted with ⟨after, built⟩
  intro left isLeft right isRight
  exact built.conflicts_iff distinct isLeft isRight

theorem exists_pair_of_map {α β : Type} {items : List α} {view : α → β} {first second : β}
    (shown : items.map view = [first, second]) :
    ∃ left right, items = [left, right] ∧ view left = first ∧ view right = second := by
  rcases List.map_eq_cons_iff.mp shown with ⟨left, rest, rfl, isLeft, shownRest⟩
  rcases List.map_eq_cons_iff.mp shownRest with ⟨right, others, rfl, isRight, shownOthers⟩
  rw [List.map_eq_nil_iff.mp shownOthers]
  exact ⟨left, right, rfl, isLeft, isRight⟩

def sharedImport : List UInt8 :=
  [0x00, 0x61, 0x73, 0x6D, 0x01, 0x00, 0x00, 0x00,
    -- The memory `m` `f` with one page, and the table `m` `f` with one function.
    0x02, 0x10, 0x02, 0x01, 0x6D, 0x01, 0x66, 0x02, 0x00, 0x01,
    0x01, 0x6D, 0x01, 0x66, 0x01, 0x70, 0x00, 0x01]

def importView : C.HeaderDeclaration → Option (String × String × C.ObjectType)
  | .imported object => some (object.entry.moduleName, object.entry.fieldName, object.type)
  | .exported _ => none

theorem importView_eq_some {declaration : C.HeaderDeclaration} {moduleName fieldName : String}
    {type : C.ObjectType} (shown : importView declaration = some (moduleName, fieldName, type)) :
    ∃ object, declaration = .imported object ∧ object.entry.moduleName = moduleName ∧
      object.entry.fieldName = fieldName ∧ object.type = type := by
  cases declaration with
  | imported object =>
      cases shown
      exact ⟨object, rfl, rfl, rfl, rfl⟩
  | exported object => cases shown

theorem Module.header_conflicts_iff_sharedImport : ∃ module compiled program left right,
    Binary.decode sharedImport = .ok module ∧ module.compile {} = .ok compiled ∧
      compiled.module.emit = .ok program ∧ program.headerDeclarations = [left, right] ∧
      left.Conflicts right := by
  rcases exists_of_run (Binary.decode sharedImport)
      (fun module => (module.compile {}).toOption.bind fun compiled =>
        compiled.module.emit.toOption.map (·.headerDeclarations.map importView))
      (some [some ("m", "f", .memory), some ("m", "f", .table)]) (by decide +kernel) with
    ⟨module, accepted, shown⟩
  rcases Option.bind_eq_some_iff.mp shown with ⟨compiled, isCompiled, shown⟩
  have compiles := eq_ok_of_toOption isCompiled
  rcases header_conflicts_iff accepted compiles with ⟨program, emitted, _, conflicts⟩
  rw [emitted] at shown
  rcases exists_pair_of_map (Option.some.inj shown) with ⟨left, right, areBoth, isLeft, isRight⟩
  refine ⟨module, compiled, program, left, right, accepted, compiles, emitted, areBoth, ?_⟩
  apply (conflicts left (by simp [areBoth]) right (by simp [areBoth])).mpr
  rcases importView_eq_some isLeft with ⟨memory, rfl, memoryModule, memoryField, isMemory⟩
  rcases importView_eq_some isRight with ⟨table, rfl, tableModule, tableField, isTable⟩
  left
  exact ⟨isMemory, isTable, memoryModule.trans tableModule.symm, memoryField.trans tableField.symm⟩

/-- A module that imports the memory `a` `vi`, and exports a function `a` whose letters
are `vi`. -/
def memoryLikeFunction : List UInt8 :=
  [0x00, 0x61, 0x73, 0x6D, 0x01, 0x00, 0x00, 0x00,
    -- The type `[i32] -> []`, the memory, and one function of the type.
    0x01, 0x05, 0x01, 0x60, 0x01, 0x7F, 0x00,
    0x02, 0x09, 0x01, 0x01, 0x61, 0x02, 0x76, 0x69, 0x02, 0x00, 0x01, 0x03, 0x02, 0x01, 0x00,
    0x07, 0x05, 0x01, 0x01, 0x61, 0x00, 0x00, 0x0A, 0x04, 0x01, 0x02, 0x00, 0x0B]

theorem Module.header_declares_twice : ∃ module compiled program left right,
    Binary.decode memoryLikeFunction = .ok module ∧ module.compile {} = .ok compiled ∧
      compiled.module.emit = .ok program ∧ program.headerDeclarations = [left, right] ∧
      left.symbol = "Z_aZ_vi" ∧ right.symbol = "Z_aZ_vi" ∧ left.type = .memory ∧
      right.type = .func ⟨[.i32], none⟩ := by
  rcases exists_of_run (Binary.decode memoryLikeFunction)
      (fun module => (module.compile {}).toOption.bind fun compiled =>
        compiled.module.emit.toOption.map
          (·.headerDeclarations.map fun declaration => (declaration.symbol, declaration.type)))
      (some [("Z_aZ_vi", .memory), ("Z_aZ_vi", .func ⟨[.i32], none⟩)]) (by decide +kernel) with
    ⟨module, accepted, shown⟩
  rcases Option.bind_eq_some_iff.mp shown with ⟨compiled, isCompiled, shown⟩
  rcases Option.map_eq_some_iff.mp shown with ⟨program, isProgram, shown⟩
  rcases exists_pair_of_map shown with ⟨left, right, areBoth, isLeft, isRight⟩
  rcases Prod.mk.inj isLeft with ⟨leftSymbol, leftType⟩
  rcases Prod.mk.inj isRight with ⟨rightSymbol, rightType⟩
  exact ⟨module, compiled, program, left, right, accepted, eq_ok_of_toOption isCompiled,
    eq_ok_of_toOption isProgram, areBoth, leftSymbol, rightSymbol, leftType, rightType⟩

end WasmLowering
