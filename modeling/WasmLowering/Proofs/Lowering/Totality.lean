import WasmLowering.Proofs.Lowering.Accesses
import WasmLowering.Proofs.Lowering.Parts
import WasmLowering.Proofs.Lowering.Reports
import WasmLowering.Proofs.Naming.Exactness
import WasmLowering.Proofs.Decoding.ModuleStructure

/-! Compiling is all or nothing.

The result is the whole C code of a module or one report, and nothing fails in any other
way: bytes are taken from those that are left, positions are in range where they are used,
imports have their entities, and there is an operand or a label wherever one is accessed. -/

namespace WasmLowering

open Binary (Contents Decoder Frame Progress Reader Run)
open Emission

/-! ## What goes wrong -/

/-- A failure that users can expect: a report of one of these phases and kinds, and not
about an import without an entity. -/
structure CompileError.Expected (error : CompileError) : Prop where
  report : ∃ phase kind path detail cause,
    error.toFailure = .report phase kind path detail cause ∧
      (phase, kind) ∈ [(Phase.decode, Kind.invalidData), (.decode, .unsupported),
        (.apply, .internal), (.emit, .internal), (.emit, .unsupported)]
  tied : ∀ entry, error ≠ .emit (.untied entry)

namespace CompileError.Expected

theorem decode (error : Binary.DecodeError) : Expected (.decode error) where
  report := by
    refine ⟨.decode, _, _, _, _, rfl, ?_⟩
    split <;> simp
  tied := nofun

theorem apply (error : Naming.ApplyError) : Expected (.apply error) where
  report := ⟨.apply, .internal, _, _, _, rfl, by simp⟩
  tied := nofun

theorem emit {error : EmitError} (tied : ∀ entry, error ≠ .untied entry) :
    Expected (.emit error) where
  report := by
    cases error with
    | unsupported what => exact ⟨.emit, .unsupported, _, _, _, rfl, by simp⟩
    | defect what => exact ⟨.emit, .internal, _, _, _, rfl, by simp⟩
    | untied entry => exact absurd rfl (tied entry)
  tied := by
    intro entry isUntied
    cases isUntied
    exact tied entry rfl

end CompileError.Expected

/-! ## Positions in range -/

/-- The positions of a module that are used without another check are in range. -/
structure Module.Bounded (module : Module) : Prop where
  /-- The entities of a kind can be cut behind the imported ones. -/
  imports : ∀ kind entity, EntityKind.ofExtern? kind = some entity →
    (module.importsOf kind).length ≤ module.entityCount entity
  /-- Each import has an entity of its own. -/
  tied : ∀ entry number, (entry, number) ∈ numberedImports module →
    ∀ entity, EntityKind.ofExtern? entry.kind = some entity → number < module.entityCount entity
  /-- A position that is found is that of an entity. -/
  found : ∀ kind reference position, module.entityIndex? kind reference = some position →
    position.toNat < module.entityCount kind
  /-- There is a name, if only an empty one, for every slot. -/
  slots : ∀ func ∈ module.funcs, func.paramNames.length = func.params.length ∧
    func.localNames.length = func.locals.length

namespace Module

theorem bounded_of_imports {module : Module}
    (imports : ∀ kind entity, EntityKind.ofExtern? kind = some entity →
      (module.importsOf kind).length ≤ module.entityCount entity) : module.Bounded where
  imports := imports
  tied _ _ member entity isEntity := numberedImports_lt member (imports _ entity isEntity)
  found _ _ _ isFound := lookup_lt isFound
  slots func _ := ⟨func.paramBindings.length_reverse _, func.localBindings.length_reverse _⟩

namespace Bounded

variable {module : Module}

theorem of_counts (bounded : module.Bounded) {other : Module}
    (sameImports : other.imports = module.imports)
    (sameCounts : ∀ kind, other.entityCount kind = module.entityCount kind) : other.Bounded := by
  apply bounded_of_imports
  intro kind entity isKind
  rw [importsOf, sameImports, sameCounts]
  exact bounded.imports kind entity isKind

theorem resolve (bounded : module.Bounded) : module.resolve.Bounded :=
  bounded.of_counts rfl (Naming.entityCount_resolve module)

theorem applied (bounded : module.Bounded) {named : Module}
    (isNamed : module.resolve.applyNames = .ok named) : named.Bounded := by
  have same := applied_namedAs (applyNames_applied isNamed)
  exact bounded.of_counts same.imports same.entityCount

end Bounded

end Module

/-! ## What is compiled -/

/-- All of the C code of a module: the texts of a program, with a function for each one
that the module defines, in order. -/
structure Compiled.Complete (compiled : Compiled) (module : Module) (options : CompileOptions) :
    Prop where
  headerName : compiled.headerName = options.withDefaults.headerName
  written : ∃ program, compiled.module.emit = .ok program ∧
    compiled.output = program.output compiled.headerName ∧
    List.Forall₂
      (fun func output => ∃ symbols function,
        lowerFunc compiled.module symbols func = .ok function ∧
          output = ⟨func.name, function.symbol, function.text program.taken⟩)
      compiled.module.definedFuncs compiled.output.functions
  signatures : compiled.module.definedFuncs.map (·.declaration.signature) =
    module.definedFuncs.map (·.declaration.signature)

theorem Module.NamedAs.definedSignatures {module named : Module} (same : module.NamedAs named) :
    named.definedFuncs.map (·.declaration.signature) =
      module.definedFuncs.map (·.declaration.signature) := by
  rw [definedFuncs, definedFuncs, List.map_drop, List.map_drop, same.signatures, same.importCount]

theorem Module.compile_complete {module : Module} {options : CompileOptions} {compiled : Compiled}
    (compiles : module.compile options = .ok compiled) : compiled.Complete module options := by
  rcases Module.compile_eq_ok compiles with ⟨isNamed, isHeader, program, emitted, isOutput⟩
  rcases emit_built emitted with ⟨after, built⟩
  refine ⟨isHeader, ⟨program, emitted, isOutput, ?_⟩, ?_⟩
  · rw [isOutput]
    apply List.forall₂_map_right_iff.mpr
    apply built.lowered.imp
    intro func function lowered
    rcases lowerFunc_eq_ok lowered with ⟨_, parts⟩
    exact ⟨_, function, lowered, by rw [parts.name]⟩
  · exact (applied_namedAs (applyNames_applied isNamed)).definedSignatures

theorem Module.Bounded.compile_total {module : Module} (bounded : module.Bounded)
    (options : CompileOptions) :
    (∃ compiled, module.compile options = .ok compiled) ∨
      ∃ error, module.compile options = .error error ∧ error.Expected := by
  cases isNamed : module.resolve.applyNames with
  | error error =>
      have fails : module.compile options = .error (.apply error) := by
        rw [compile, isNamed]
        rfl
      exact .inr ⟨_, fails, .apply error⟩
  | ok named =>
      have goesOn : module.compile options =
          (do
            let output ← (named.write options.withDefaults.headerName).mapError .emit
            return ⟨named, options.withDefaults.headerName, output⟩) := by
        rw [compile, isNamed]
        rfl
      rw [goesOn, write]
      have reported := emit_reported (bounded.applied isNamed).imports
      cases isEmitted : named.emit with
      | ok program => exact .inl ⟨_, rfl⟩
      | error error =>
          apply Or.inr
          refine ⟨_, rfl, .emit ?_⟩
          intro entry isUntied
          exact reported entry (by rw [isEmitted, isUntied])

/-! ## Accesses -/

/-- Up to the code section, the functions are the imported ones and those declared. -/
theorem Binary.Run.declared_funcs {frames : List Frame} {progress : Progress}
    (run : Run {} frames progress) (before : progress.order < SectionId.code.order) :
    (progress.module.importsOf .func).length + progress.declared =
      progress.module.funcs.length := by
  rcases Assembled.start.run run with ⟨contents, assembled⟩
  have noBodies : contents.module = contents.declared := by
    rw [Contents.module, assembled.absent before]
  have same : progress.unnamed = ⟨contents.declared.unnamed, progress.order,
      contents.funcs.length, contents.bodies.length⟩ := by
    rw [assembled.progress, Contents.progress, noBodies]
    rfl
  have isDeclared : progress.declared = contents.funcs.length := congrArg Progress.declared same
  have areImports : progress.module.imports = contents.entries.map (·.1) :=
    congrArg (·.module.imports) same
  have known := assembled.read.known
  rcases Contents.declared_externs known .func with ⟨others, areExterns⟩
  have imported : (progress.module.importsOf .func).length =
      (Binary.importedOf contents.entries .func).length := by
    rw [Module.importsOf, areImports]
    exact (Module.importCount_of_externs rfl areExterns).2
  have first := congrArg List.length (Contents.externs_addImports contents.types known.kinds .func)
  have funcs := congrArg (·.module.funcs.length) same
  simp only [Progress.unnamed, Module.unnamed, List.length_map, Contents.declared,
    List.length_append] at funcs
  rw [Module.externs, List.length_map] at first
  rw [imported, isDeclared, funcs, first]

/-- No access can be out of bounds, whatever the bytes are and wherever compiling them
ends. -/
structure Guarded (bytes : List UInt8) : Prop where
  /-- Bytes are taken from those that are left. -/
  taken : ∀ count reader taken after, Decoder.bytes count reader = .ok taken after →
    taken.length = count ∧ reader.rest = taken ++ after.rest
  /-- So are the bytes of a part that has a reader of its own. -/
  cut : ∀ count reader inner after, Decoder.sub count reader = .ok inner after →
    inner.rest.length = count ∧ reader.rest = inner.rest ++ after.rest
  /-- Where the code section is read, there is a function for each declared body. -/
  bodies : ∀ frames progress, Run {} frames progress →
    progress.order < Binary.SectionId.code.order →
      (progress.module.importsOf .func).length + progress.declared = progress.module.funcs.length
  /-- A decoded module refers to everything by position, whatever it is called. -/
  decoded : ∀ module name, Binary.decode bytes = .ok module →
    let renamed : Module := { module with name }
    renamed.Bounded ∧ renamed.resolve.Bounded ∧
      ∀ use ∈ renamed.resolve.uses, use.reference.isIndex
  /-- A module with names refers to everything by name. -/
  named : ∀ module name named, Binary.decode bytes = .ok module →
    ({ module with name } : Module).resolve.applyNames = .ok named →
      named.Bounded ∧ ∀ use ∈ named.uses, use.reference.isName
  /-- Operands are on the stack when they are looked at or taken. -/
  operands : ∀ fault func count, typeAtOr fault func count = typeAt func count ∧
    popOr fault func count = pop func count ∧ resetStackOr fault func count = resetStack func count
  /-- So are the values of branches, and labels are open where one is meant or closed. -/
  labels : ∀ fault (scope : Scope), scope.bodyOr fault {} = scope.body {}

theorem bounded_of_decode {bytes : List UInt8} {module : Module}
    (accepted : Binary.decode bytes = .ok module) (name : String) :
    ({ module with name } : Module).Bounded :=
  Module.bounded_of_imports (Binary.decode_decoded accepted).tied

theorem guarded (bytes : List UInt8) : Guarded bytes where
  taken count reader taken after isTaken := by
    rcases (Decoder.bytes_exact count _ _ _ _).mp isTaken with ⟨used, rest, isRest, known, rfl⟩
    exact ⟨known.2, known.1 ▸ isRest⟩
  cut count reader inner after isCut := by
    rcases Decoder.sub_eq_ok_iff.mp isCut with ⟨contents, rest, isRest, isLength, rfl, rfl⟩
    exact ⟨isLength, isRest⟩
  bodies _ _ run before := run.declared_funcs before
  decoded module name accepted := by
    have bounded := bounded_of_decode accepted name
    refine ⟨bounded, bounded.resolve, ?_⟩
    rw [Module.uses_resolve]
    exact (Binary.decode_indexed accepted).uses
  named module name named accepted isNamed := by
    refine ⟨(bounded_of_decode accepted name).applied isNamed, ?_⟩
    have renames := Naming.applyNames_renames
      (Naming.entitiesNamed_resolve ({ module with name } : Module))
    rw [Module.uses_resolve] at renames
    rcases renames.renamed (Binary.decode_indexed accepted).uses named isNamed with
      ⟨uses, areUses, related⟩
    intro use member
    rw [areUses] at member
    rcases exists_of_forall₂ related member with ⟨before, _, known⟩
    exact known.isName
  operands fault func count :=
    ⟨typeAtOr_eq fault func count, popOr_eq fault func count, resetStackOr_eq fault func count⟩
  labels := Scope.bodyOr_eq

/-- Bytes that are not text are compiled to the whole C code of the module that they
encode, or one failure of an expected phase and kind is reported. On the way no access is
out of bounds. -/
theorem compile_all_or_nothing {bytes : List UInt8} (isBinary : TextFormat.isText bytes = false)
    (options : CompileOptions) :
    ((∃ module compiled, Binary.decode bytes = .ok module ∧
        compile bytes options = .ok compiled ∧ compiled.Complete module options) ∨
      ∃ error, compile bytes options = .error error ∧ error.Expected) ∧
    Guarded bytes := by
  refine ⟨?_, guarded bytes⟩
  cases isModule : Binary.decode bytes with
  | error error =>
      have fails : compile bytes options = .error (.decode error) := by
        rw [compile, isBinary, isModule]
        rfl
      exact .inr ⟨_, fails, .decode error⟩
  | ok module =>
      let name := if module.name = "" then options.withDefaults.moduleName else module.name
      have goesOn : compile bytes options = ({ module with name } : Module).compile options := by
        rw [compile, isBinary, isModule]
        rfl
      rw [goesOn]
      rcases (bounded_of_decode isModule name).compile_total options with
        ⟨compiled, compiles⟩ | failure
      · have complete := Module.compile_complete compiles
        exact .inl ⟨module, compiled, rfl, compiles, complete.headerName, complete.written,
          complete.signatures⟩
      · exact .inr failure

def inBlock (code : List UInt8) : List UInt8 :=
  let size := UInt8.ofNat code.length
  Binary.Encode.header ++ [1, 4, 1, 0x60, 0, 0] ++ [3, 2, 1, 0] ++
    [10, 7 + size, 1, 5 + size, 0, 0x02, 0x40] ++ code ++ [0x0B, 0x0B]

/-- An empty block is compiled. One in which an operand is taken from the empty stack is
reported. -/
theorem compile_all_or_nothing_inBlock :
    (∃ module compiled, Binary.decode (inBlock []) = .ok module ∧
      compile (inBlock []) {} = .ok compiled ∧ compiled.Complete module {}) ∧
    ∃ error, compile (inBlock [0x1A]) {} = .error error ∧ error.Expected := by
  constructor
  · have isBinary : TextFormat.isText (inBlock []) = false := by decide
    rcases (compile_all_or_nothing isBinary {}).1 with succeeds | ⟨error, fails, _⟩
    · exact succeeds
    · have isOk : (compile (inBlock []) {}).isOk = true := by decide +kernel
      rw [fails] at isOk
      cases isOk
  · have isBinary : TextFormat.isText (inBlock [0x1A]) = false := by decide
    rcases (compile_all_or_nothing isBinary {}).1 with ⟨module, compiled, _, compiles, _⟩ | fails
    · have notOk : (compile (inBlock [0x1A]) {}).isOk = false := by decide +kernel
      rw [compiles] at notOk
      cases notOk
    · exact fails

end WasmLowering
