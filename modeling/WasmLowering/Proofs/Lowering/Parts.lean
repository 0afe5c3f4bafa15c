import WasmLowering.Compile
import WasmLowering.Proofs.Lowering.Postcondition
import WasmLowering.Proofs.Results

/-! The parts of a program, each with the symbols that are known behind it. -/

namespace WasmLowering.Emission

structure Stages where
  imports : EntitySymbols
  exports : EntitySymbols
  types : EntitySymbols
  prototypes : EntitySymbols
  globals : EntitySymbols
  globalValues : EntitySymbols
  memories : EntitySymbols
  tables : EntitySymbols
  dataArrays : EntitySymbols
  memoryAllocation : EntitySymbols
  dataCopies : EntitySymbols
  tableAllocation : EntitySymbols
  elementCopies : EntitySymbols
  functions : EntitySymbols

structure Built (module : Module) (program : C.Program) (after : Stages) : Prop where
  imports : ((numberedImports module).mapM fun (entry, number) =>
    importObject module entry number) {} = .ok (program.imports, after.imports)
  exports : module.exports.mapM (exportObject module) after.imports =
    .ok (program.exports, after.exports)
  types : (module.types.mapM fun type => (liftM (typeEntry type) : Emit _)) after.exports =
    .ok (program.types, after.types)
  prototypes : module.definedFuncs.mapM declareFunc after.types =
    .ok (program.prototypes, after.prototypes)
  globals : module.definedGlobals.mapM declareGlobal after.prototypes =
    .ok (program.globals, after.globals)
  globalValues : module.definedGlobals.mapM globalValue after.globals =
    .ok (program.globalValues, after.globalValues)
  memories : (module.definedMemories.mapM fun memory => define .memory memory.name)
    after.globalValues = .ok (program.memories, after.memories)
  tables : (module.definedTables.mapM fun table => define .table table.name) after.memories =
    .ok (program.tables, after.tables)
  dataArrays : ((activeDatas module).mapM fun (segment, position) =>
    dataArray segment position) after.tables = .ok (program.dataArrays, after.dataArrays)
  memoryAllocation : memoryAllocation module after.dataArrays =
    .ok (program.memoryAllocation, after.memoryAllocation)
  dataCopies : (((activeDatas module).zip program.dataArrays).mapM
      fun (((segment, _), array) : (DataSegment × Nat) × C.DataArray) =>
        dataCopy module segment array) after.memoryAllocation =
    .ok (program.dataCopies, after.dataCopies)
  tableAllocation : tableAllocation module after.dataCopies =
    .ok (program.tableAllocation, after.tableAllocation)
  elementCopies : module.elements.mapM (elementCopy module) after.tableAllocation =
    .ok (program.elementCopies, after.elementCopies)
  functions : (module.definedFuncs.mapM fun func =>
    (liftM (lowerFunc module after.elementCopies func) : Emit _)) after.elementCopies =
      .ok (program.functions, after.functions)
  exportTargets : ∃ last, (program.exports.mapM fun object =>
    external object.kind object.entity) after.functions = .ok (program.exportTargets, last)
  taken : program.taken = after.elementCopies.taken

theorem run_bind {σ α β : Type} {first : StateT σ (Except EmitError) α}
    {next : α → StateT σ (Except EmitError) β} {state after : σ} {value : β}
    (runs : (first >>= next) state = .ok (value, after)) :
    ∃ middle between, first state = .ok (middle, between) ∧
      next middle between = .ok (value, after) := by
  rcases bind_eq_ok runs with ⟨⟨middle, between⟩, isFirst, isNext⟩
  exact ⟨middle, between, isFirst, isNext⟩

theorem bind_run {σ α β : Type} {first : StateT σ (Except EmitError) α}
    {next : α → StateT σ (Except EmitError) β} {state between : σ} {middle : α}
    {result : Except EmitError (β × σ)} (isFirst : first state = .ok (middle, between))
    (isNext : next middle between = result) : (first >>= next) state = result := by
  change (first state >>= fun pair => next pair.1 pair.2) = result
  rw [isFirst]
  exact isNext

theorem program_built {module : Module} {result : C.Program} {last : EntitySymbols}
    (runs : program module {} = .ok (result, last)) : ∃ after, Built module result after := by
  unfold program at runs
  rcases run_bind runs with ⟨imports, first, areImports, runs⟩
  rcases run_bind runs with ⟨exports, second, areExports, runs⟩
  rcases run_bind runs with ⟨types, third, areTypes, runs⟩
  rcases run_bind runs with ⟨prototypes, fourth, arePrototypes, runs⟩
  rcases run_bind runs with ⟨globals, fifth, areGlobals, runs⟩
  rcases run_bind runs with ⟨globalValues, sixth, areGlobalValues, runs⟩
  rcases run_bind runs with ⟨memories, seventh, areMemories, runs⟩
  rcases run_bind runs with ⟨tables, eighth, areTables, runs⟩
  rcases run_bind runs with ⟨dataArrays, ninth, areDataArrays, runs⟩
  rcases run_bind runs with ⟨memoryAllocation, tenth, isMemory, runs⟩
  rcases run_bind runs with ⟨dataCopies, eleventh, areDataCopies, runs⟩
  rcases run_bind runs with ⟨tableAllocation, twelfth, isTable, runs⟩
  rcases run_bind runs with ⟨elementCopies, thirteenth, areElementCopies, runs⟩
  rcases run_bind runs with ⟨symbols, _, isState, runs⟩
  cases isState
  rcases run_bind runs with ⟨functions, fourteenth, areFunctions, runs⟩
  rcases run_bind runs with ⟨exportTargets, fifteenth, areTargets, runs⟩
  rcases run_bind runs with ⟨starts, _, _, runs⟩
  cases runs
  exact ⟨⟨first, second, third, fourth, fifth, sixth, seventh, eighth, ninth, tenth, eleventh,
    twelfth, thirteenth, fourteenth⟩, areImports, areExports, areTypes, arePrototypes, areGlobals,
    areGlobalValues, areMemories, areTables, areDataArrays, isMemory, areDataCopies, isTable,
    areElementCopies, areFunctions, ⟨fifteenth, areTargets⟩, rfl⟩

theorem emit_built {module : Module} {program : C.Program} (emitted : module.emit = .ok program) :
    ∃ after, Built module program after := by
  rcases bind_eq_ok emitted with ⟨_, _, runs⟩
  rcases map_eq_ok runs with ⟨⟨result, last⟩, isResult, rfl⟩
  exact program_built isResult

theorem Built.lowered {module : Module} {program : C.Program} {after : Stages}
    (built : Built module program after) :
    List.Forall₂ (fun func function => lowerFunc module after.elementCopies func = .ok function)
      module.definedFuncs program.functions := by
  have lowers : ∀ (func : Func) (symbols : EntitySymbols),
      Meets True (liftM (lowerFunc module after.elementCopies func) : Emit _) symbols
        fun function _ => lowerFunc module after.elementCopies func = .ok function := by
    intro func symbols
    exact (Meets.lift (Gives.ofResult _) symbols).mono fun _ _ known => known.1
  exact (Meets.mapM lowers _).of_ok built.functions

end WasmLowering.Emission

/-- A compiled module has names for everything, and holds the texts of a program that was
written for it. -/
theorem WasmLowering.Module.compile_eq_ok {module : Module} {options : CompileOptions}
    {compiled : Compiled} (compiles : module.compile options = .ok compiled) :
    module.resolve.applyNames = .ok compiled.module ∧
      compiled.headerName = options.withDefaults.headerName ∧
      ∃ program, compiled.module.emit = .ok program ∧
        compiled.output = program.output compiled.headerName := by
  rcases bind_eq_ok compiles with ⟨named, isNamed, remaining⟩
  rcases bind_eq_ok remaining with ⟨output, isOutput, isCompiled⟩
  cases isCompiled
  rcases bind_eq_ok (mapError_eq_ok isOutput) with ⟨program, emitted, isText⟩
  exact ⟨mapError_eq_ok isNamed, rfl, program, emitted, (Except.ok.inj isText).symm⟩
