import WasmLowering.Compile
import WasmLowering.Proofs.Lowering.Frame
import WasmLowering.Proofs.Lowering.Parts
import WasmLowering.Proofs.Symbols.Identifiers

/-! No symbol that is chosen means two things.

Symbols at file scope are chosen one after another, behind those that are reserved
and those that other files know. The symbols of a function are chosen behind all of
these, so that they hide nothing. -/

namespace WasmLowering

namespace C

/-! ## What a program with clean symbols is -/

/-- The symbols that a source file defines at file scope: of functions, globals,
memories, tables and data. -/
def Program.fileSymbols (program : Program) : List String :=
  program.prototypes.map (·.1) ++ program.globals.map (·.1) ++ program.memories ++
    program.tables ++ program.dataArrays.map (·.symbol)

def Program.givenSymbols (program : Program) : List String :=
  Symbol.reservedNames ++ program.imports.map (·.symbol) ++ program.exports.map (·.symbol)

/-- The symbols of a function are different identifiers, none of which is used around
it, and everything in the function has one. -/
structure Function.Hygienic (function : Function) (spelling : Spelling) (around : List String) :
    Prop where
  nodup : (spelling.map (·.2)).Nodup
  legal : ∀ symbol ∈ spelling.map (·.2), Symbol.isIdentifier symbol = true
  apart : ∀ symbol ∈ spelling.map (·.2), symbol ∉ around
  idents : spelling.map (·.1) = function.idents
  /-- Something that is written has one of the symbols that were chosen for it. -/
  spelled : ∀ ident ∈ function.idents, (ident, spelling.symbol ident) ∈ spelling
  label : .label ⟨0, Naming.funcLabel⟩ ∈ function.idents
  covered : ∀ ident ∈ Emission.Scope.bodyIdents (function.body, function.returned),
    ident ∈ function.idents

/-- The symbols at file scope are different identifiers, none of which is given, and
those of every function are apart from all of them. -/
structure Program.Hygienic (program : Program) : Prop where
  nodup : program.fileSymbols.Nodup
  legal : ∀ symbol ∈ program.fileSymbols, Symbol.isIdentifier symbol = true
  apart : ∀ symbol ∈ program.fileSymbols, symbol ∉ program.givenSymbols
  functions : ∀ function ∈ program.functions, function.Hygienic (function.spelling program.taken)
    (program.givenSymbols ++ program.fileSymbols)

/-- A program holds everything that a module defines, and declares all that it imports
and exports. -/
structure Program.Holds (program : Program) (module : Module) : Prop where
  imports : program.imports.length = module.imports.length
  exports : program.exports.length = module.exports.length
  prototypes : program.prototypes.length = module.definedFuncs.length
  functions : program.functions.length = module.definedFuncs.length
  globals : program.globals.length = module.definedGlobals.length
  memories : program.memories.length = module.definedMemories.length
  tables : program.tables.length = module.definedTables.length
  dataArrays : program.dataArrays.length = (Emission.activeDatas module).length

/-! ## Functions -/

theorem Spelling.mem_symbol {spelling : Spelling} {ident : Ident}
    (listed : ident ∈ spelling.map (·.1)) : (ident, spelling.symbol ident) ∈ spelling := by
  rcases List.mem_map.mp listed with ⟨entry, member, isEntry⟩
  have isFound : (spelling.reverse.lookup ident).isSome := by
    rw [List.lookup_isSome_iff]
    exact ⟨entry, List.mem_reverse.mpr member, by simp [isEntry]⟩
  rcases Option.isSome_iff_exists.mp isFound with ⟨symbol, isSymbol⟩
  rw [Spelling.symbol, isSymbol]
  rcases List.lookup_eq_some_iff.mp isSymbol with ⟨before, after, isSplit, _⟩
  apply List.mem_reverse.mp
  simp [isSplit]

theorem Function.hygienic {function : Function} {taken : Symbol.SymbolSet} {around : List String}
    (aroundTaken : ∀ symbol ∈ around, symbol ∈ taken)
    (known : ∀ ident ∈ .label ⟨0, Naming.funcLabel⟩ ::
      Emission.Scope.bodyIdents (function.body, function.returned), ident ∈ function.idents) :
    function.Hygienic (function.spelling taken) around := by
  rcases Spelling.choose_takes taken function.idents with ⟨_, takes⟩
  have idents := Spelling.idents_choose taken function.idents
  refine ⟨takes.nodup, takes.given, ?_, idents, ?_, known _ List.mem_cons_self, ?_⟩
  · exact fun symbol chosen isAround => takes.free symbol chosen (aroundTaken symbol isAround)
  · exact fun ident member => Spelling.mem_symbol (by rw [Function.spelling, idents]; exact member)
  · exact fun ident member => known ident (List.mem_cons_of_mem _ member)

end C

namespace Emission

open Naming (Takes)

variable {α β : Type}

/-! ## What is read and what is chosen -/

def Reads (action : Emit α) : Prop :=
  ∀ symbols, Meets True action symbols fun _ after => after = symbols

namespace Reads

theorem pure (value : α) : Reads (Pure.pure value) := fun _ => rfl

theorem bind {first : Emit α} {next : α → Emit β} (reads : Reads first)
    (later : ∀ value, Reads (next value)) : Reads (first >>= next) := by
  intro symbols
  apply (reads symbols).bind
  intro value after same
  exact same ▸ later value after

theorem lift (result : Except EmitError α) : Reads (liftM result) := by
  intro symbols
  apply (Meets.lift (Gives.ofResult result) symbols).mono
  exact fun _ _ known => known.2

theorem bind_get {next : EntitySymbols → Emit α} (later : ∀ symbols, Reads (next symbols)) :
    Reads (MonadState.get >>= next) :=
  fun symbols => Meets.bind_get (later symbols symbols)

theorem mapM {items : List α} {action : α → Emit β} (each : ∀ item, Reads (action item)) :
    Reads (items.mapM action) := by
  induction items with
  | nil => exact pure _
  | cons item rest induction =>
      rw [List.mapM_cons]
      exact (each item).bind fun _ => induction.bind fun _ => pure _

end Reads

def Chooses (action : Emit α) (view : α → List String) : Prop :=
  ∀ symbols, Meets True action symbols fun value after =>
    Takes (Symbol.isIdentifier · = true) symbols.taken after.taken (view value)

theorem Chooses.mapM {items : List α} {action : α → Emit β} {view : β → String}
    (each : ∀ item, Chooses (action item) fun value => [view value]) :
    Chooses (items.mapM action) (List.map view) := by
  intro symbols
  induction items generalizing symbols with
  | nil => exact .pure (.nil _)
  | cons item rest induction =>
      rw [List.mapM_cons]
      apply (each item symbols).bind
      intro value between isFirst
      apply (induction between).bind
      intro values after areOthers
      exact .pure (isFirst.append areOthers)

def Declares (action : Emit α) (view : α → List String) : Prop :=
  ∀ symbols, Meets True action symbols fun value after =>
    (∀ symbol ∈ symbols.taken, symbol ∈ after.taken) ∧ ∀ symbol ∈ view value, symbol ∈ after.taken

theorem Declares.mapM {items : List α} {action : α → Emit β} {view : β → String}
    (each : ∀ item, Declares (action item) fun value => [view value]) :
    Declares (items.mapM action) (List.map view) := by
  intro symbols
  induction items generalizing symbols with
  | nil => exact .pure ⟨fun _ => id, nofun⟩
  | cons item rest induction =>
      rw [List.mapM_cons]
      apply (each item symbols).bind
      intro value between ⟨grown, isFirst⟩
      apply (induction between).bind
      intro values after ⟨grownAfter, areOthers⟩
      apply Meets.pure
      refine ⟨fun symbol isTaken => grownAfter symbol (grown symbol isTaken), ?_⟩
      rw [List.map_cons]
      apply List.forall_mem_cons.mpr ⟨grownAfter _ (isFirst _ List.mem_cons_self), areOthers⟩

/-! ## Parts of a module -/

theorem external_reads (kind : ExternKind) (name : String) : Reads (external kind name) :=
  .bind_get fun _ => .lift _

theorem initial_reads (instrs : List Instr) : Reads (initial instrs) := by
  unfold initial
  split
  · exact (Reads.lift _).bind fun _ => .pure _
  · exact (Reads.lift _).bind fun _ => (external_reads _ _).bind fun _ => .pure _
  · exact .lift _
  · exact .lift (.error _)

theorem globalValue_reads (global : Global) : Reads (globalValue global) := by
  apply (Reads.lift _).bind
  intro _
  apply (external_reads _ _).bind
  intro _
  exact (initial_reads _).bind fun _ => .pure _

theorem memoryAllocation_reads (module : Module) : Reads (memoryAllocation module) := by
  unfold memoryAllocation
  split
  · exact .pure _
  · split
    · exact (external_reads _ _).bind fun _ => .pure _
    · exact .pure _

theorem tableAllocation_reads (module : Module) : Reads (tableAllocation module) := by
  unfold tableAllocation
  split
  · exact .pure _
  · split
    · exact (external_reads _ _).bind fun _ => .pure _
    · exact .pure _

theorem dataCopy_reads (module : Module) (segment : DataSegment) (source : C.DataArray) :
    Reads (dataCopy module segment source) := by
  apply (Reads.lift _).bind
  intro _
  apply (external_reads _ _).bind
  intro _
  exact (initial_reads _).bind fun _ => .pure _

theorem element_reads (module : Module) (reference : Reference) :
    Reads (element module reference) := by
  apply (Reads.lift _).bind
  intro _
  apply (Reads.lift _).bind
  intro _
  exact (external_reads _ _).bind fun _ => .pure _

theorem elementCopy_reads (module : Module) (segment : ElementSegment) :
    Reads (elementCopy module segment) := by
  apply (Reads.lift _).bind
  intro _
  apply (external_reads _ _).bind
  intro _
  apply (initial_reads _).bind
  intro _
  exact (Reads.mapM (element_reads module)).bind fun _ => .pure _

theorem define_chooses (kind : ExternKind) (name : String) :
    Chooses (define kind name) fun symbol => [symbol] := by
  intro symbols
  have defined : Gives True (symbols.define kind name) fun result =>
      Takes (Symbol.isIdentifier · = true) symbols.taken result.2.taken [result.1] :=
    (Gives.ofResult _).bind fun _ _ => .ok (Symbol.define_takes _ _)
  apply Meets.bind_get
  apply (Meets.lift defined symbols).bind
  intro ⟨symbol, later⟩ _ ⟨takes, _⟩
  apply (Meets.set _ _).bind
  intro _ _ same
  subst same
  exact .pure takes

theorem declareFunc_chooses (func : Func) :
    Chooses (declareFunc func) fun declared => [declared.1] := by
  intro symbols
  apply (define_chooses _ _ symbols).bind
  intro symbol after takes
  apply (Reads.lift _ after).bind
  intro prototype _ same
  exact .pure (same ▸ takes)

theorem declareGlobal_chooses (global : Global) :
    Chooses (declareGlobal global) fun declared => [declared.1] := by
  intro symbols
  apply (Reads.lift _ symbols).bind
  intro type after same
  subst same
  apply (define_chooses _ _ after).bind
  intro symbol last takes
  exact .pure takes

theorem dataArray_chooses (segment : DataSegment) (position : Nat) :
    Chooses (dataArray segment position) fun array => [array.symbol] := by
  intro symbols
  apply Meets.bind_get
  apply (Meets.set _ _).bind
  intro _ _ same
  subst same
  exact .pure (Symbol.define_takes _ _)

theorem take_declares (symbols : EntitySymbols) (symbol : String) :
    (∀ other ∈ symbols.taken, other ∈ (symbols.take symbol).taken) ∧
      symbol ∈ (symbols.take symbol).taken := by
  constructor
  · exact fun other isTaken => Std.ExtTreeSet.mem_insert.mpr (.inr isTaken)
  · exact Std.ExtTreeSet.mem_insert_self

theorem importObject_declares (module : Module) (entry : Import) (number : Nat) :
    Declares (importObject module entry number) fun object => [object.symbol] := by
  intro symbols
  apply (Reads.lift _ symbols).bind
  intro ⟨name, field, type⟩ after same
  subst same
  have defined : ∀ symbol, Gives True (after.defineImport entry.kind name symbol) fun later =>
      later.taken = (after.take symbol).taken := fun symbol =>
    (Gives.ofResult _).bind fun _ _ => .ok rfl
  apply Meets.bind_get
  apply (Meets.lift (defined _) after).bind
  intro later _ ⟨isTaken, _⟩
  apply (Meets.set _ _).bind
  intro _ _ same
  subst same
  apply (Reads.lift _ _).bind
  intro objectType _ same
  subst same
  apply Meets.pure
  rw [isTaken]
  have declares := take_declares after (Symbol.mangle (Text.bytes entry.moduleName) ++ field)
  exact ⟨declares.1, by simpa using declares.2⟩

theorem exportObject_declares (module : Module) (entry : Export) :
    Declares (exportObject module entry) fun object => [object.symbol] := by
  intro symbols
  apply (Reads.lift _ symbols).bind
  intro object after same
  subst same
  apply (Meets.modify _ _).bind
  intro _ _ same
  subst same
  have declares := take_declares after object.symbol
  exact .pure ⟨declares.1, by simpa using declares.2⟩

/-! ## Modules -/

theorem imports_declare (module : Module) :
    Declares ((numberedImports module).mapM fun (entry, number) =>
      importObject module entry number) (List.map (·.symbol)) :=
  .mapM fun (entry, number) => importObject_declares module entry number

theorem defineAll_chooses (kind : ExternKind) (items : List α) (nameOf : α → String) :
    Chooses (items.mapM fun item => define kind (nameOf item)) id := by
  have chooses : Chooses (items.mapM fun item => define kind (nameOf item))
      (List.map fun symbol => symbol) := .mapM fun item => define_chooses kind (nameOf item)
  simpa only [List.map_id_fun'] using chooses

theorem dataArrays_choose (module : Module) :
    Chooses ((activeDatas module).mapM fun (segment, position) => dataArray segment position)
      (List.map (·.symbol)) :=
  .mapM fun (segment, position) => dataArray_chooses segment position

theorem dataCopies_read (module : Module) (arrays : List C.DataArray) :
    Reads (((activeDatas module).zip arrays).mapM fun ((segment, _), array) =>
      dataCopy module segment array) :=
  .mapM fun ((segment, _), array) => dataCopy_reads module segment array

/-- A program with symbols that have been taken in order: those that are given, those
at file scope, and those of its functions. -/
theorem hygienic_of_takes {program : C.Program} {given : Symbol.SymbolSet}
    (takes : Takes (Symbol.isIdentifier · = true) given program.taken program.fileSymbols)
    (isGiven : ∀ symbol ∈ program.givenSymbols, symbol ∈ given)
    (known : ∀ function ∈ program.functions, ∀ ident ∈ .label ⟨0, Naming.funcLabel⟩ ::
      Scope.bodyIdents (function.body, function.returned), ident ∈ function.idents) :
    program.Hygienic := by
  refine ⟨takes.nodup, takes.given, ?_, ?_⟩
  · exact fun symbol chosen isOutside => takes.free symbol chosen (isGiven symbol isOutside)
  · intro function member
    refine C.Function.hygienic ?_ (known function member)
    intro symbol isAround
    rcases List.mem_append.mp isAround with isOutside | isFile
    · exact takes.grows symbol (isGiven symbol isOutside)
    · exact takes.taken symbol isFile

variable {module : Module} {program : C.Program} {after : Stages}

theorem Built.given (built : Built module program after) :
    ∀ symbol ∈ program.givenSymbols, symbol ∈ after.types.taken := by
  rcases (imports_declare module {}).of_ok built.imports with ⟨grownFirst, areImports⟩
  rcases (Declares.mapM (exportObject_declares module) _).of_ok built.exports with
    ⟨grownSecond, areExports⟩
  rw [(Reads.mapM (fun type => .lift (typeEntry type)) _).of_ok built.types]
  intro symbol isGiven
  rcases List.mem_append.mp isGiven with isGiven | isExport
  · apply grownSecond
    rcases List.mem_append.mp isGiven with isReserved | isImport
    · apply grownFirst
      exact Std.ExtTreeSet.mem_ofList.mpr (by simpa using isReserved)
    · exact areImports symbol isImport
  · exact areExports symbol isExport

/-- The symbols at file scope are those that are taken until the functions are lowered. -/
theorem Built.takes (built : Built module program after) :
    Takes (Symbol.isIdentifier · = true) after.types.taken program.taken program.fileSymbols := by
  have funcs := (Chooses.mapM declareFunc_chooses _).of_ok built.prototypes
  have globals := (Chooses.mapM declareGlobal_chooses _).of_ok built.globals
  have memories :=
    (defineAll_chooses .memory module.definedMemories (·.name) _).of_ok built.memories
  have tables := (defineAll_chooses .table module.definedTables (·.name) _).of_ok built.tables
  have arrays := (dataArrays_choose module _).of_ok built.dataArrays
  rw [(Reads.mapM globalValue_reads _).of_ok built.globalValues] at memories
  have last : after.elementCopies = after.dataArrays := by
    rw [(Reads.mapM (elementCopy_reads module) _).of_ok built.elementCopies,
      (tableAllocation_reads module _).of_ok built.tableAllocation,
      (dataCopies_read module _ _).of_ok built.dataCopies,
      (memoryAllocation_reads module _).of_ok built.memoryAllocation]
  rw [built.taken, last]
  exact (((funcs.append globals).append memories).append tables).append arrays

theorem Built.hygienic (built : Built module program after) : program.Hygienic := by
  apply hygienic_of_takes built.takes built.given
  intro function member
  have lowered := (Meets.mapM (fun func symbols =>
    (Meets.lift (lowerFunc_idents module after.elementCopies func) symbols).mono
      fun _ _ known => known.1) _).of_ok built.functions
  rcases exists_of_forall₂ lowered member with ⟨func, _, known⟩
  exact known

theorem mapM_length {α β : Type} {items : List α} {action : α → Emit β} {values : List β}
    {symbols last : EntitySymbols} (runs : items.mapM action symbols = .ok (values, last)) :
    values.length = items.length := by
  have related : Meets True (items.mapM action) symbols fun values _ =>
      List.Forall₂ (fun _ _ => True) items values := .mapM (fun _ _ => .anything _ _) _
  exact (related.of_ok runs).length_eq.symm

theorem Built.holds (built : Built module program after) : program.Holds module where
  imports := by simpa [numberedImports] using mapM_length built.imports
  exports := mapM_length built.exports
  prototypes := mapM_length built.prototypes
  functions := mapM_length built.functions
  globals := mapM_length built.globals
  memories := mapM_length built.memories
  tables := mapM_length built.tables
  dataArrays := mapM_length built.dataArrays

end Emission

open Emission

/-- Whatever the names in a module are, the symbols of the program that is written for
it are clean. -/
theorem Module.write_hygienic {named : Module} {headerName : String} {output : Output}
    (written : named.write headerName = .ok output) :
    ∃ program, named.emit = .ok program ∧ output = program.output headerName ∧
      program.Holds named ∧ program.Hygienic := by
  rcases bind_eq_ok written with ⟨program, emitted, isOutput⟩
  refine ⟨program, emitted, (Except.ok.inj isOutput).symm, ?_⟩
  rcases emit_built emitted with ⟨after, built⟩
  exact ⟨built.holds, built.hygienic⟩

/-- A module with three functions whose names ask for symbols that are used: the second
for that of the first, and the third for a keyword. -/
def sameSymbols : List UInt8 :=
  [0x00, 0x61, 0x73, 0x6D, 0x01, 0x00, 0x00, 0x00,
    -- The type `[] -> []`, three functions of it, the first exported as `f`, and their bodies.
    0x01, 0x04, 0x01, 0x60, 0x00, 0x00, 0x03, 0x04, 0x03, 0x00, 0x00, 0x00,
    0x07, 0x05, 0x01, 0x01, 0x66, 0x00, 0x00,
    0x0A, 0x0A, 0x03, 0x02, 0x00, 0x0B, 0x02, 0x00, 0x0B, 0x02, 0x00, 0x0B,
    -- The names `f.g`, `f-g` and `int`.
    0x00, 0x17, 0x04, 0x6E, 0x61, 0x6D, 0x65, 0x01, 0x10, 0x03,
    0x00, 0x03, 0x66, 0x2E, 0x67, 0x01, 0x03, 0x66, 0x2D, 0x67, 0x02, 0x03, 0x69, 0x6E, 0x74]

theorem Module.write_hygienic_sameSymbols : ∃ module named output program,
    Binary.decode sameSymbols = .ok module ∧ module.resolve.applyNames = .ok named ∧
      named.write "" = .ok output ∧ named.emit = .ok program ∧
      program.fileSymbols.length = 3 ∧ program.Hygienic := by
  rcases exists_of_run (Binary.decode sameSymbols)
      (fun module => module.resolve.applyNames.toOption.bind fun named =>
        named.emit.toOption.map (·.fileSymbols.length))
      (some 3) (by decide +kernel) with ⟨module, accepted, shown⟩
  rcases Option.bind_eq_some_iff.mp shown with ⟨named, isNamed, shown⟩
  rcases exists_of_run named.emit (·.fileSymbols.length) _ shown with ⟨program, emitted, count⟩
  have written : named.write "" = .ok (program.output "") := by
    rw [Module.write, emitted]
    rfl
  rcases write_hygienic written with ⟨other, emittedOther, _, _, hygienic⟩
  have same := Except.ok.inj (emitted.symm.trans emittedOther)
  subst same
  exact ⟨module, named, _, program, accepted, eq_ok_of_toOption isNamed, written, emitted, count,
    hygienic⟩

end WasmLowering
