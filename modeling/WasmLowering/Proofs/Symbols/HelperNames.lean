import WasmLowering.Proofs.Decoding.InstructionForms
import WasmLowering.Proofs.Symbols.HeaderDeclarations
import WasmLowering.Proofs.Symbols.Hygiene

/-! Symbols that capture helpers.

Written code relies on names that it does not choose: those of operators, of accessors
to memory, of the support library, and of everything in front of the module. Symbols are
chosen behind the reserved names, so a helper is safe if it is one of these. Some are
not, and a module can take each of them. -/

namespace WasmLowering

namespace C

/-! ## Helpers -/

/-- The words in characters, each a longest row of letters, digits and underscores that
does not start with a digit. The file in a directive to include one has none. -/
def charWords (line : List Char) : List (List Char) :=
  if ['#', 'i', 'n', 'c', 'l', 'u', 'd', 'e'].isPrefixOf line then []
  else
    (line.splitOnP (!Symbol.continuesIdentifier ·)).filter fun word => word.head?.any (!·.isDigit)

def words (line : String) : List String := (charWords line.toList).map String.ofList

example : words "(u64)(s64)(s8)" = ["u64", "s64", "s8"] := by decide +kernel

def preambleLines : List String :=
  headerTopLines ++ headerBottomLines ++ includeLines ++ helperLines

/-- Words in front of a module that do not refer to functions, macros or types: those of
directives and of the linkage, of parameters and local variables, of members of structures,
and parts of names. -/
def boundWords : List String :=
  ["ifdef", "ifndef", "endif", "define", "C", "__VA_ARGS__",
    "x", "y", "table", "t", "ft", "mem", "a", "name", "t1", "t2", "t3", "addr", "result", "value",
    "wrapped", "d", "val", "n", "dst", "src", "s", "ut", "min", "op", "mask", "st", "max", "maxop",
    "size", "data", "func", "func_type",
    "WASM_RT_TRAP_", "EXHAUSTION", "OOB", "DIV_BY_ZERO", "INT_OVERFLOW", "INVALID_CONVERSION"]

/-- The names in what is written for a module and its functions, and those of the traps, which a
macro puts together. -/
def writtenNames : List String :=
  ["CALL_INDIRECT", "f32", "f32_reinterpret_i32", "f64", "f64_reinterpret_i64", "FUNC_EPILOGUE",
    "FUNC_PROLOGUE", "func_types", "init", "init_exports", "init_func_types", "init_globals",
    "init_memory", "init_table", "offset", "memory_copy", "memory_fill", "s32", "s64", "TRAP",
    "u32", "u64", "u8", "UNLIKELY", "UNREACHABLE", "WASM_RT_ADD_PREFIX",
    "wasm_rt_allocate_memory", "wasm_rt_allocate_table", "wasm_rt_anyfunc_t", "wasm_rt_elem_t",
    "WASM_RT_F32", "WASM_RT_F64", "wasm_rt_grow_memory", "WASM_RT_I32", "WASM_RT_I64",
    "wasm_rt_memory_t", "wasm_rt_register_func_type", "wasm_rt_table_t",
    "WASM_RT_TRAP_CALL_INDIRECT", "WASM_RT_TRAP_DIV_BY_ZERO", "WASM_RT_TRAP_EXHAUSTION",
    "WASM_RT_TRAP_INT_OVERFLOW", "WASM_RT_TRAP_INVALID_CONVERSION", "WASM_RT_TRAP_OOB",
    "WASM_RT_TRAP_UNREACHABLE", "case", "const", "default", "else", "extern", "goto", "if",
    "return", "static", "switch", "void", "INFINITY", "memcpy"]

/-- What code relies on, where the header has a file name. -/
inductive IsHelper (fileName : String) : String → Prop
  /-- The function or macro of an instruction with two operands. -/
  | binary {entry : List Opcode × BinaryOperator} {name : String} (isEntry : entry ∈ binaryTable)
      (used : name ∈ words entry.2.text) : IsHelper fileName name
  /-- The function, macro or types of an instruction with one operand. -/
  | unary {entry : List Opcode × String} {name : String} (isEntry : entry ∈ unaryTable)
      (used : name ∈ words entry.2) : IsHelper fileName name
  | accessor {opcode : Opcode}
      (isAccess : opcode.info.opcodeClass = .load ∨ opcode.info.opcodeClass = .store) :
      IsHelper fileName opcode.accessor
  | preamble {line name : String} (isLine : line ∈ preambleLines) (used : name ∈ words line)
      (notBound : name ∉ boundWords) : IsHelper fileName name
  | written {name : String} (used : name ∈ writtenNames) : IsHelper fileName name
  /-- The macro that keeps the header from being read twice. -/
  | guard : IsHelper fileName (guard (Text.bytes fileName))

/-- The helpers that are not reserved: functions on single-precision numbers, those of the
compiler, and a macro that tells languages apart. -/
def openHelpers : List String :=
  ["copysignf", "fabsf", "sqrtf", "ceilf", "floorf", "truncf", "nearbyintf", "__builtin_expect",
    "__builtin_clz", "__builtin_clzll", "__builtin_ctz", "__builtin_ctzll", "__builtin_popcount",
    "__builtin_popcountll", "__cplusplus"]

/-! ## Texts as characters

Two texts of the lists are compared by their characters, which can be read off the texts as
they stand. -/

def Lettered (texts : List String) (chars : List (List Char)) : Prop :=
  texts = chars.map String.ofList

theorem Lettered.nil : Lettered [] [] := rfl

theorem Lettered.cons (letters : List Char) {texts : List String} {chars : List (List Char)}
    (later : Lettered texts chars) : Lettered (String.ofList letters :: texts) (letters :: chars) :=
  congrArg (String.ofList letters :: ·) later

abbrev Letters (texts : List String) := { chars : List (List Char) // Lettered texts chars }

namespace Letters

variable {texts known : List String}

def append (letters : Letters texts) (more : Letters known) : Letters (texts ++ known) :=
  ⟨letters.1 ++ more.1, by rw [Lettered, List.map_append, ← letters.2, ← more.2]⟩

theorem mem_iff (letters : Letters texts) {word : List Char} :
    String.ofList word ∈ texts ↔ word ∈ letters.1 := by
  rcases letters with ⟨chars, rfl⟩
  exact List.mem_map_of_injective fun _ _ same => String.ofList_injective same

theorem toList_mem_iff (letters : Letters texts) {text : String} :
    text.toList ∈ letters.1 ↔ text ∈ texts := by
  rw [← letters.mem_iff, String.ofList_toList]

theorem word_mem (letters : Letters texts) (names : Letters known)
    (each : ∀ line ∈ letters.1, ∀ word ∈ charWords line, word ∈ names.1) {line name : String}
    (isLine : line ∈ texts) (used : name ∈ words line) : name ∈ known := by
  rcases List.mem_map.mp used with ⟨word, isWord, rfl⟩
  exact names.mem_iff.mpr (each _ (letters.toList_mem_iff.mpr isLine) word isWord)

end Letters

/-! ## Which helpers are reserved -/

def operatorTexts : List String := binaryTable.map (·.2.text) ++ unaryTable.map (·.2)

def accessNames : List String :=
  (Opcode.table.filter fun entry =>
    entry.2.opcodeClass = .load || entry.2.opcodeClass = .store).map (·.2.name)

def supportFirst : List String :=
  Symbol.supportNames ++ Symbol.keywords ++ Symbol.mathNames ++ Symbol.integerNames ++
    Symbol.memoryNames ++ Symbol.assertNames ++ Symbol.libraryNames

theorem mem_supportFirst {name : String} :
    name ∈ supportFirst ↔ name ∈ Symbol.reservedNames := by
  simp only [supportFirst, Symbol.reservedNames, List.mem_append]
  grind

/-! The characters of the lists above. -/

def reservedLetters : Letters supportFirst := ⟨_, by
  repeat apply Lettered.cons
  exact Lettered.nil⟩

def openLetters : Letters openHelpers := ⟨_, by
  repeat apply Lettered.cons
  exact Lettered.nil⟩

def boundLetters : Letters boundWords := ⟨_, by
  repeat apply Lettered.cons
  exact Lettered.nil⟩

def writtenLetters : Letters writtenNames := ⟨_, by
  repeat apply Lettered.cons
  exact Lettered.nil⟩

def accessLetters : Letters accessNames := ⟨_, by
  repeat apply Lettered.cons
  exact Lettered.nil⟩

def operatorLetters : Letters operatorTexts := ⟨_, by
  repeat apply Lettered.cons
  exact Lettered.nil⟩

def preambleLetters : Letters preambleLines := ⟨_, by
  repeat apply Lettered.cons
  exact Lettered.nil⟩

def knownLetters : Letters (supportFirst ++ openHelpers) := reservedLetters.append openLetters

theorem words_known :
    (∀ line ∈ operatorLetters.1, ∀ word ∈ charWords line, word ∈ knownLetters.1) ∧
      (∀ line ∈ preambleLetters.1, ∀ word ∈ charWords line,
        word ∈ (boundLetters.append knownLetters).1) ∧
      ∀ word ∈ openLetters.1, (∃ line ∈ operatorLetters.1, word ∈ charWords line) ∨
        word ∉ boundLetters.1 ∧ ∃ line ∈ preambleLetters.1, word ∈ charWords line := by
  decide +kernel

/-- What is computed of names: no known one starts as the symbols of imports and exports do, or
ends as the macro of a header does. -/
theorem names_known :
    writtenLetters.1.Sublist reservedLetters.1 ∧
      (∀ name ∈ accessLetters.1,
        (name.map fun char => if char = '.' then '_' else char) ∈ reservedLetters.1) ∧
      (∀ name ∈ knownLetters.1,
        name.head? ≠ some 'Z' ∧ ¬['_', 'G', 'E', 'N', 'E', 'R', 'A', 'T', 'E', 'D', '_'] <:+ name) ∧
      (∀ name ∈ openLetters.1, name ∉ reservedLetters.1) ∧ openLetters.1.Nodup := by
  decide +kernel

theorem operator_word {line name : String} (isLine : line ∈ operatorTexts)
    (used : name ∈ words line) : name ∈ supportFirst ++ openHelpers :=
  operatorLetters.word_mem knownLetters words_known.1 isLine used

theorem preamble_word {line name : String} (isLine : line ∈ preambleLines)
    (used : name ∈ words line) : name ∈ boundWords ++ (supportFirst ++ openHelpers) :=
  preambleLetters.word_mem (boundLetters.append knownLetters) words_known.2.1 isLine used

theorem written_reserved {name : String} (used : name ∈ writtenNames) : name ∈ supportFirst :=
  reservedLetters.toList_mem_iff.mp
    (names_known.1.subset (writtenLetters.toList_mem_iff.mpr used))

theorem accessor_reserved {opcode : Opcode}
    (isAccess : opcode.info.opcodeClass = .load ∨ opcode.info.opcodeClass = .store) :
    opcode.accessor ∈ supportFirst := by
  rcases names_known with ⟨_, all, _⟩
  have inTable : (opcode, opcode.info) ∈ Opcode.table := by
    apply Opcode.mem_table <;> rcases isAccess with isClass | isClass <;> simp [isClass]
  have isName : opcode.name ∈ accessNames :=
    List.mem_map_of_mem (List.mem_filter.mpr ⟨inTable, by simpa using isAccess⟩)
  exact reservedLetters.mem_iff.mpr (all _ (accessLetters.toList_mem_iff.mpr isName))

theorem IsHelper.cases {fileName name : String} (isHelper : IsHelper fileName name) :
    name ∈ supportFirst ++ openHelpers ∨ name = C.guard (Text.bytes fileName) := by
  cases isHelper with
  | binary isEntry used =>
      exact .inl (operator_word (List.mem_append_left _ (List.mem_map_of_mem isEntry)) used)
  | unary isEntry used =>
      exact .inl (operator_word (List.mem_append_right _ (List.mem_map_of_mem isEntry)) used)
  | accessor isAccess => exact .inl (List.mem_append_left _ (accessor_reserved isAccess))
  | preamble isLine used notBound =>
      exact .inl ((List.mem_append.mp (preamble_word isLine used)).resolve_left notBound)
  | written used => exact .inl (List.mem_append_left _ (written_reserved used))
  | guard => exact .inr rfl

theorem head_ne {name : String} (isName : name ∈ supportFirst ++ openHelpers) :
    name.toList.head? ≠ some 'Z' := by
  rcases names_known with ⟨_, _, all, _⟩
  exact (all _ (knownLetters.toList_mem_iff.mpr isName)).1

/-- No reserved name ends as the macro of a header does, and no open one. -/
theorem guard_not_mem (fileName : List UInt8) : guard fileName ∉ supportFirst ++ openHelpers := by
  rcases names_known with ⟨_, _, all, _⟩
  intro isName
  apply (all _ (knownLetters.toList_mem_iff.mpr isName)).2
  rw [guard, String.toList_append]
  exact List.suffix_append _ _

theorem openHelper_free {name : String} (isOpen : name ∈ openHelpers) :
    name ∉ Symbol.reservedNames := by
  rcases names_known with ⟨_, _, _, all, _⟩
  intro isReserved
  apply all _ (openLetters.toList_mem_iff.mpr isOpen)
  exact reservedLetters.toList_mem_iff.mpr (mem_supportFirst.mpr isReserved)

theorem openHelpers_nodup : openHelpers.Nodup := by
  rw [openLetters.2]
  rcases names_known with ⟨_, _, _, _, distinct⟩
  exact distinct.map fun _ _ same => String.ofList_injective same

theorem isHelper_of_open {name : String} (isOpen : name ∈ openHelpers) (fileName : String) :
    IsHelper fileName name := by
  rcases words_known with ⟨_, _, all⟩
  have used : ∀ {line : List Char}, name.toList ∈ charWords line →
      name ∈ words (String.ofList line) := by
    intro line isWord
    exact List.mem_map.mpr ⟨_, by rwa [String.toList_ofList], String.ofList_toList⟩
  rcases all _ (openLetters.toList_mem_iff.mpr isOpen) with
    ⟨line, isLine, isWord⟩ | ⟨notBound, line, isLine, isWord⟩
  · rcases List.mem_append.mp (operatorLetters.mem_iff.mpr isLine) with isText | isText
    · rcases List.mem_map.mp isText with ⟨entry, isEntry, sameText⟩
      exact .binary isEntry (sameText ▸ used isWord)
    · rcases List.mem_map.mp isText with ⟨entry, isEntry, sameText⟩
      exact .unary isEntry (sameText ▸ used isWord)
  · refine .preamble (preambleLetters.mem_iff.mpr isLine) (used isWord) ?_
    rwa [boundLetters.toList_mem_iff] at notBound

def Program.chosenSymbols (program : Program) : List String :=
  program.fileSymbols ++
    program.functions.flatMap fun function => (function.spelling program.taken).map (·.2)

theorem Program.Hygienic.chosen_apart {program : Program} (hygienic : program.Hygienic)
    {symbol : String} (chosen : symbol ∈ program.chosenSymbols) :
    symbol ∉ program.givenSymbols := by
  rcases List.mem_append.mp chosen with isFile | isInside
  · exact hygienic.apart symbol isFile
  · rcases List.mem_flatMap.mp isInside with ⟨function, isFunction, isSymbol⟩
    have apart := (hygienic.functions function isFunction).apart symbol isSymbol
    exact fun isGiven => apart (List.mem_append_left _ isGiven)

/-- A symbol that is chosen hides no helper but an open one or the macro of the header. -/
theorem Program.Hygienic.captured {program : Program} (hygienic : program.Hygienic)
    {fileName symbol : String} (chosen : symbol ∈ program.chosenSymbols)
    (isHelper : IsHelper fileName symbol) :
    symbol ∈ openHelpers ∨ symbol = C.guard (Text.bytes fileName) := by
  rcases isHelper.cases with isName | isGuard
  · rcases List.mem_append.mp isName with isReserved | isOpen
    · have isGiven : symbol ∈ program.givenSymbols := by
        simp [givenSymbols, mem_supportFirst.mp isReserved]
      exact absurd isGiven (hygienic.chosen_apart chosen)
    · exact .inl isOpen
  · exact .inr isGuard

/-- A symbol of the header hides no helper but the macro of the header. -/
theorem HeaderDeclaration.Spelled.captured {declaration : HeaderDeclaration}
    (spelled : declaration.Spelled) {fileName : String}
    (isHelper : IsHelper fileName declaration.symbol) :
    declaration.symbol = C.guard (Text.bytes fileName) := by
  apply isHelper.cases.resolve_left
  intro isName
  apply head_ne isName
  rw [spelled]
  cases declaration <;> simp [HeaderDeclaration.names, Symbol.spell, Symbol.component]

end C

namespace Symbol

theorem define_of_free {taken : SymbolSet} {name : String}
    (isFree : legalize (Text.bytes name) ∉ taken) :
    (define taken name).1 = legalize (Text.bytes name) := by
  have notTaken : taken.contains (candidate (legalize (Text.bytes name)) 0) = false := by
    rw [← Bool.not_eq_true, Std.ExtTreeSet.contains_iff_mem]
    exact isFree
  show free taken _ = _
  rw [free, Naming.leastFree_of_free notTaken]
  rfl

end Symbol

namespace Emission

def wantedSymbol (name : String) : String := Symbol.legalize (Text.bytes (Symbol.stripDollar name))

theorem define_wanted {kind : ExternKind} {name : String} {symbols : EntitySymbols}
    (isFree : wantedSymbol name ∉ symbols.taken) :
    Meets True (define kind name) symbols fun symbol after =>
      symbol = wantedSymbol name ∧ after.taken = symbols.taken.insert (wantedSymbol name) := by
  have isWanted : Symbol.free symbols.taken (wantedSymbol name) = wantedSymbol name :=
    Symbol.define_of_free isFree
  have defined : Gives True (symbols.define kind name) fun result =>
      result.1 = wantedSymbol name ∧
        result.2.taken = symbols.taken.insert (wantedSymbol name) :=
    (Gives.ofResult _).bind fun _ _ => .ok ⟨isWanted, congrArg symbols.taken.insert isWanted⟩
  apply Meets.bind_get
  apply (Meets.lift defined symbols).bind
  intro ⟨symbol, later⟩ _ ⟨known, _⟩
  apply (Meets.set _ _).bind
  intro _ _ same
  subst same
  exact .pure known

theorem declareFunc_wanted {func : Func} {symbols : EntitySymbols}
    (isFree : wantedSymbol func.name ∉ symbols.taken) :
    Meets True (declareFunc func) symbols fun declared after =>
      declared.1 = wantedSymbol func.name ∧
        after.taken = symbols.taken.insert (wantedSymbol func.name) := by
  apply (define_wanted isFree).bind
  intro symbol after known
  apply (Reads.lift _ after).bind
  intro prototype _ same
  exact .pure (same ▸ known)

theorem declareFuncs_wanted {funcs : List Func} {symbols last : EntitySymbols}
    {prototypes : List (String × C.Prototype)}
    (declares : funcs.mapM declareFunc symbols = .ok (prototypes, last))
    (distinct : (funcs.map (wantedSymbol ·.name)).Nodup)
    (isFree : ∀ func ∈ funcs, wantedSymbol func.name ∉ symbols.taken) :
    prototypes.map (·.1) = funcs.map (wantedSymbol ·.name) := by
  induction funcs generalizing symbols prototypes with
  | nil =>
      cases declares
      rfl
  | cons func rest induction =>
      rw [List.mapM_cons] at declares
      rcases run_bind declares with ⟨declared, between, isFirst, declares⟩
      rcases run_bind declares with ⟨others, after, areOthers, isAll⟩
      cases isAll
      rw [List.map_cons, List.nodup_cons] at distinct
      rcases (declareFunc_wanted (isFree func List.mem_cons_self)).of_ok isFirst with
        ⟨isWanted, isTaken⟩
      have laterFree : ∀ other ∈ rest, wantedSymbol other.name ∉ between.taken := by
        intro other isOther
        rw [isTaken, Std.ExtTreeSet.mem_insert, not_or]
        refine ⟨?_, isFree other (List.mem_cons_of_mem _ isOther)⟩
        intro same
        have same : wantedSymbol func.name = wantedSymbol other.name := by simpa using same
        exact distinct.1 (List.mem_map.mpr ⟨other, isOther, same.symm⟩)
      rw [List.map_cons, List.map_cons, isWanted, induction areOthers distinct.2 laterFree]

/-- Where nothing is imported or exported, functions get different symbols that are not
reserved. -/
theorem Built.prototypes_wanted {module : Module} {program : C.Program} {after : Stages}
    (built : Built module program after) (noImports : module.imports = [])
    (noExports : module.exports = [])
    (distinct : (module.definedFuncs.map (wantedSymbol ·.name)).Nodup)
    (isFree : ∀ func ∈ module.definedFuncs, wantedSymbol func.name ∉ Symbol.reservedNames) :
    program.prototypes.map (·.1) = module.definedFuncs.map (wantedSymbol ·.name) := by
  apply declareFuncs_wanted built.prototypes distinct
  intro func member
  rw [(Reads.mapM (fun type => .lift (typeEntry type)) _).of_ok built.types]
  have imports := built.imports
  have exports := built.exports
  rw [numberedImports, noImports] at imports
  rw [noExports, ← (Prod.mk.inj (Except.ok.inj imports)).2] at exports
  rw [← (Prod.mk.inj (Except.ok.inj exports)).2]
  show _ ∉ Symbol.reserved
  rw [Symbol.reserved, Std.ExtTreeSet.mem_ofList]
  simpa using isFree func member

end Emission

open Emission

/-- No symbol of a compiled module is a helper, except for some that are not reserved, and
for the macro of the header, which depends on its file name. -/
theorem Module.compile_captured_helpers {module : Module} {options : CompileOptions}
    {compiled : Compiled} (compiles : module.compile options = .ok compiled) :
    ∃ program, compiled.module.emit = .ok program ∧
      compiled.output = program.output compiled.headerName ∧
      (∀ symbol ∈ program.chosenSymbols, C.IsHelper compiled.headerName symbol →
        symbol ∈ C.openHelpers ∨ symbol = C.guard (Text.bytes compiled.headerName)) ∧
      ∀ declaration ∈ program.headerDeclarations,
        C.IsHelper compiled.headerName declaration.symbol →
          declaration.symbol = C.guard (Text.bytes compiled.headerName) := by
  rcases compile_eq_ok compiles with ⟨_, _, program, emitted, isOutput⟩
  rcases emit_built emitted with ⟨after, built⟩
  refine ⟨program, emitted, isOutput, ?_, ?_⟩
  · exact fun symbol chosen isHelper => built.hygienic.captured chosen isHelper
  · exact fun declaration member isHelper => (built.spelled member).captured isHelper

def freeHelpers : List String := C.openHelpers ++ [C.guard (Text.bytes "module.h")]

theorem freeHelpers_nodup : freeHelpers.Nodup := by
  apply List.Nodup.append C.openHelpers_nodup (List.nodup_singleton _)
  rw [List.disjoint_singleton]
  exact fun isOpen => C.guard_not_mem _ (List.mem_append_right _ isOpen)

theorem freeHelper_free {name : String} (isFree : name ∈ freeHelpers) :
    name ∉ Symbol.reservedNames := by
  rcases List.mem_append.mp isFree with isOpen | isGuard
  · exact C.openHelper_free isOpen
  · rw [List.mem_singleton.mp isGuard, ← C.mem_supportFirst]
    exact fun isReserved => C.guard_not_mem _ (List.mem_append_left _ isReserved)

def helperNamed : Module where
  types := [{}]
  funcs := freeHelpers.map fun name => {
    name := "$" ++ name
    declaration := ⟨some (.index 0), {}⟩ }

/-- Each of the functions takes the name that it has. -/
theorem Module.compile_captured_helpers_helperNamed : ∃ compiled program,
    helperNamed.compile {} = .ok compiled ∧ compiled.module.emit = .ok program ∧
      program.prototypes.map (·.1) = freeHelpers ∧
      (∀ name ∈ freeHelpers, C.IsHelper compiled.headerName name) ∧
      ∀ symbol ∈ program.chosenSymbols, C.IsHelper compiled.headerName symbol →
        symbol ∈ C.openHelpers ∨ symbol = C.guard (Text.bytes compiled.headerName) := by
  rcases exists_of_run (helperNamed.compile {})
      (fun compiled => (compiled.module.imports.length, compiled.module.exports.length,
        compiled.module.definedFuncs.map (wantedSymbol ·.name)))
      (0, 0, freeHelpers) (by decide +kernel) with ⟨compiled, compiles, shown⟩
  simp only [Prod.mk.injEq, List.length_eq_zero_iff] at shown
  rcases shown with ⟨noImports, noExports, areWanted⟩
  have isHeader : compiled.headerName = "module.h" := (compile_eq_ok compiles).2.1
  rcases compile_captured_helpers compiles with ⟨program, emitted, _, captured, _⟩
  rcases emit_built emitted with ⟨after, built⟩
  refine ⟨compiled, program, compiles, emitted, ?_, ?_, captured⟩
  · rw [← areWanted]
    apply built.prototypes_wanted noImports noExports (areWanted ▸ freeHelpers_nodup)
    intro func member
    apply freeHelper_free
    rw [← areWanted]
    exact List.mem_map_of_mem member
  · intro name isFree
    rcases List.mem_append.mp isFree with isOpen | isGuard
    · exact C.isHelper_of_open isOpen _
    · rw [List.mem_singleton.mp isGuard, isHeader]
      exact .guard

/-- A function with the name of the square root of single-precision numbers, which it
takes of its parameter. -/
def squareRoot : List UInt8 :=
  [0x00, 0x61, 0x73, 0x6D, 0x01, 0x00, 0x00, 0x00,
    -- The type `[f32] -> [f32]`, a function of it, and its body: `local.get 0 f32.sqrt end`.
    0x01, 0x06, 0x01, 0x60, 0x01, 0x7D, 0x01, 0x7D, 0x03, 0x02, 0x01, 0x00,
    0x0A, 0x07, 0x01, 0x05, 0x00, 0x20, 0x00, 0x91, 0x0B,
    -- The name `sqrtf`.
    0x00, 0x0F, 0x04, 0x6E, 0x61, 0x6D, 0x65, 0x01, 0x08, 0x01, 0x00, 0x05, 0x73, 0x71, 0x72, 0x74,
    0x66]

def assignedValues (body : List C.Stmt) : List C.Expr :=
  body.filterMap fun
    | .assign _ value => some value
    | _ => none

/-- The function gets the symbol of the helper that its body is written with. -/
theorem Module.compile_captures_sqrtf : ∃ module compiled program,
    Binary.decode squareRoot = .ok module ∧ module.compile {} = .ok compiled ∧
      compiled.module.emit = .ok program ∧ program.prototypes.map (·.1) = ["sqrtf"] ∧
      program.functions.flatMap (assignedValues ·.body) =
        [.named "$p0", .unary .f32Sqrt ⟨0, .f32⟩] ∧
      C.unaryFunction? .f32Sqrt = some "sqrtf" ∧ C.IsHelper compiled.headerName "sqrtf" := by
  rcases exists_of_run (Binary.decode squareRoot)
      (fun module => (module.compile {}).toOption.bind fun compiled =>
        compiled.module.emit.toOption.map fun program =>
          (compiled.module.imports.length, compiled.module.exports.length,
            compiled.module.definedFuncs.map (wantedSymbol ·.name),
            program.functions.flatMap (assignedValues ·.body)))
      (some (0, 0, ["sqrtf"], [.named "$p0", .unary .f32Sqrt ⟨0, .f32⟩]))
      (by decide +kernel) with ⟨module, accepted, shown⟩
  rcases Option.bind_eq_some_iff.mp shown with ⟨compiled, isCompiled, shown⟩
  rcases exists_of_run compiled.module.emit _ _ shown with ⟨program, emitted, shown⟩
  simp only [Prod.mk.injEq, List.length_eq_zero_iff] at shown
  rcases shown with ⟨noImports, noExports, areWanted, areValues⟩
  rcases emit_built emitted with ⟨after, built⟩
  have isOpen : "sqrtf" ∈ C.openHelpers := by simp [C.openHelpers]
  have isTaken : program.prototypes.map (·.1) = ["sqrtf"] := by
    rw [← areWanted]
    apply built.prototypes_wanted noImports noExports
    · rw [areWanted]
      exact List.nodup_singleton _
    · intro func member
      have isName := List.mem_map_of_mem (f := (wantedSymbol ·.name)) member
      rw [areWanted, List.mem_singleton] at isName
      exact isName ▸ C.openHelper_free isOpen
  exact ⟨module, compiled, program, accepted, eq_ok_of_toOption isCompiled, emitted, isTaken,
    areValues, rfl, C.isHelper_of_open isOpen _⟩

end WasmLowering
