import WasmLowering.Proofs.Decoding.InstructionFacts
import WasmLowering.Proofs.Decoding.ModuleStructure
import WasmLowering.Proofs.Lowering.LoweredStatements
import WasmLowering.Proofs.Lowering.TypeChecks
import WasmLowering.Proofs.Symbols.HelperNames

/-! Addresses of loads and stores.

The operand of an access has 32 bits. It is widened to 64 bits before the static offset is
added, and the check in front of the access adds the width to the sum in 64 bits again. Both
sums are the exact ones if the offset leaves room for them. But an offset is read as any
64-bit number, and beyond that room the sum wraps around, so that the check compares a small
number and an access far outside becomes one at the start of the memory. -/

namespace WasmLowering

namespace C

/-! ## The check of an access -/

def effectiveAddress (base : UInt32) (offset : UInt64) : UInt64 := base.toUInt64 + offset

/-- The check of `MEMCHECK`, in 64 bits too: the accessed bytes end beyond the memory. -/
def AccessTraps (size address width : UInt64) : Prop := size < address + width

instance (size address width : UInt64) : Decidable (AccessTraps size address width) :=
  inferInstanceAs (Decidable (size < _))

/-- Where the bytes of an access end, as a number without bound. -/
def accessEnd (base : UInt32) (offset : UInt64) (width : Nat) : Nat :=
  base.toNat + offset.toNat + width

def CheckExact (base : UInt32) (offset : UInt64) (width : Nat) : Prop :=
  ∀ size : UInt64, AccessTraps size (effectiveAddress base offset) width.toUInt64 ↔
    size.toNat < accessEnd base offset width

section

variable {base : UInt32} {offset : UInt64} {width : Nat}

/-- What the check compares is the end of the access up to multiples of `2 ^ 64`. -/
theorem accessTraps_iff (size : UInt64) :
    AccessTraps size (effectiveAddress base offset) width.toUInt64 ↔
      size.toNat < accessEnd base offset width % 2 ^ 64 := by
  rw [AccessTraps, effectiveAddress, accessEnd, UInt64.lt_iff_toNat_lt, UInt64.toNat_add,
    UInt64.toNat_add, UInt32.toNat_toUInt64, Nat.toUInt64, UInt64.toNat_ofNat', Nat.mod_add_mod,
    Nat.add_mod_mod]

/-- The check is exact where nothing wraps around, and nowhere else: there it passes in a
memory of the greatest size, although the access ends beyond it. -/
theorem checkExact_iff :
    CheckExact base offset width ↔ accessEnd base offset width < 2 ^ 64 := by
  have baseBound := base.toNat_lt
  have offsetBound := offset.toNat_lt
  constructor
  · intro exact
    by_contra wraps
    have atMost := exact (.ofNat (2 ^ 64 - 1))
    rw [accessTraps_iff, UInt64.toNat_ofNat_of_lt' (by decide)] at atMost
    unfold accessEnd at atMost wraps
    omega
  · intro inside size
    rw [accessTraps_iff, Nat.mod_eq_of_lt inside]

structure AccessChecked (offset : UInt64) (width : Nat) : Prop where
  exact_iff : ∀ base, CheckExact base offset width ↔ accessEnd base offset width < 2 ^ 64
  /-- Beyond `2 ^ 64` only a memory that is smaller than the rest makes it trap. -/
  wrapped : ∀ base, 2 ^ 64 ≤ accessEnd base offset width → ∀ size,
    AccessTraps size (effectiveAddress base offset) width.toUInt64 ↔
      size.toNat < accessEnd base offset width - 2 ^ 64
  always_iff : (∀ base, CheckExact base offset width) ↔ offset.toNat + width ≤ 2 ^ 64 - 2 ^ 32

theorem accessChecked (offset : UInt64) (narrow : width ≤ 2 ^ 32) : AccessChecked offset width where
  exact_iff _ := checkExact_iff
  wrapped base wraps size := by
    have baseBound := base.toNat_lt
    have offsetBound := offset.toNat_lt
    rw [accessTraps_iff]
    unfold accessEnd at wraps ⊢
    omega
  always_iff := by
    simp only [checkExact_iff, accessEnd]
    constructor
    · intro always
      have greatest := always (.ofNat (2 ^ 32 - 1))
      rw [UInt32.toNat_ofNat_of_lt' (by decide)] at greatest
      omega
    · intro room base
      have baseBound := base.toNat_lt
      omega

end

/-! ## The width of an access -/

def typeWidth? : List Char → Option Nat
  | ['u', '8'] | ['s', '8'] => some 1
  | ['u', '1', '6'] | ['s', '1', '6'] => some 2
  | ['u', '3', '2'] | ['s', '3', '2'] | ['f', '3', '2'] => some 4
  | ['u', '6', '4'] | ['f', '6', '4'] => some 8
  | _ => none

def definition? (line : List Char) : Option (List Char × Nat) :=
  match charWords line with
  | ['D', 'E', 'F', 'I', 'N', 'E', '_', 'L', 'O', 'A', 'D'] :: name :: type :: _
  | ['D', 'E', 'F', 'I', 'N', 'E', '_', 'S', 'T', 'O', 'R', 'E'] :: name :: type :: _ =>
      (typeWidth? type).map fun width => (name, width)
  | _ => none

def accessWidth? (accessor : String) : Option Nat :=
  ((helperLines.filterMap fun line => definition? line.toList).find? (·.1 = accessor.toList)).map
    (·.2)

def helperLetters : Letters helperLines := ⟨_, by
  repeat apply Lettered.cons
  exact Lettered.nil⟩

def accessEntries : List (Opcode × OpcodeInfo) :=
  Opcode.table.filter fun entry =>
    entry.2.opcodeClass = .load || entry.2.opcodeClass = .store

/-- What is computed of the helpers: each has the width of its opcode, eight bytes at most. -/
theorem widths_known :
    (accessLetters.1.map fun name => ((helperLetters.1.filterMap definition?).find?
      (·.1 = name.map fun char => if char = '.' then '_' else char)).map (·.2)) =
        accessEntries.map (some ·.2.width) ∧
      ∀ entry ∈ accessEntries, entry.2.width ≤ 8 := by
  decide +kernel

theorem Letters.toList_eq {texts : List String} (letters : Letters texts) :
    texts.map String.toList = letters.1 := by
  rcases letters with ⟨chars, rfl⟩
  simp [List.map_map, Function.comp_def]

theorem accessWidth?_ofList (name : List Char) :
    accessWidth? (String.ofList name) =
      ((helperLetters.1.filterMap definition?).find? (·.1 = name)).map (·.2) := by
  have areLines : helperLines.filterMap (fun line => definition? line.toList) =
      helperLetters.1.filterMap definition? := by
    rw [← helperLetters.toList_eq, List.filterMap_map, Function.comp_def]
  rw [accessWidth?, areLines, String.toList_ofList]

theorem accessLetters_eq : accessLetters.1 = accessEntries.map (·.2.name.toList) := by
  rw [← accessLetters.toList_eq, accessNames, List.map_map, accessEntries, Function.comp_def]

theorem accessWidth?_entry {opcode : Opcode} {info : OpcodeInfo}
    (isEntry : (opcode, info) ∈ accessEntries) :
    accessWidth? (.ofList (info.name.toList.map fun char => if char = '.' then '_' else char)) =
      some info.width ∧ info.width ≤ 8 := by
  rcases widths_known with ⟨known, small⟩
  rw [accessLetters_eq, List.map_map, List.map_inj_left] at known
  have isWidth := known _ isEntry
  rw [Function.comp_apply] at isWidth
  rw [accessWidth?_ofList]
  exact ⟨isWidth, small _ isEntry⟩

end C

/-- The helper of a load or store is defined, with the width of the opcode. -/
theorem Opcode.IsAccess.width {opcode : Opcode} (isAccess : opcode.IsAccess) :
    C.accessWidth? opcode.accessor = some opcode.info.width ∧ opcode.info.width ≤ 8 := by
  have inTable : (opcode, opcode.info) ∈ table := by
    apply mem_table <;> intro isClass <;> rw [IsAccess, isClass] at isAccess <;> simp at isAccess
  unfold IsAccess at isAccess
  rw [accessor, name]
  generalize opcode.info = info at *
  exact C.accessWidth?_entry (List.mem_filter.mpr ⟨inTable, by simpa using isAccess⟩)

/-! ## Accesses in functions -/

def C.Stmt.access? : C.Stmt → Option (Opcode × C.Slot × UInt64)
  | .assign _ (.load opcode _ address offset) => some (opcode, address, offset)
  | .store opcode _ address offset _ => some (opcode, address, offset)
  | _ => none

theorem Naming.NamedCode.access {naming : Naming.Scope} {names : List String}
    {before after : Instr} {opcode : Opcode} {offset : UInt64}
    (named : NamedCode naming names (.instr before) (.instr after))
    (isAccess : before.access? = some (opcode, offset)) :
    after.access? = some (opcode, offset) := by
  cases before with
  | load | store =>
      cases isAccess
      rcases named.plain rfl with ⟨_, isAfter, succeeds⟩
      cases isAfter
      rcases bind_eq_ok succeeds with ⟨memory, _, isAll⟩
      cases isAll
      rfl
  | _ => cases isAccess

namespace Emission

open C (Stmt)

theorem instr_accesses {scope : Scope} {instr : Instr} {opcode : Opcode} {offset : UInt64}
    (isAccess : instr.access? = some (opcode, offset)) (state : State) :
    Meets True (scope.instr instr) state fun lowered _ => ∃ stmt address,
      lowered.stmts = [stmt] ∧ stmt.access? = some (opcode, address, offset) := by
  cases instr with
  | load | store =>
      cases isAccess
      repeat refine .skip fun _ _ => ?_
      exact .pure ⟨_, _, rfl, rfl⟩
  | _ => cases isAccess

theorem leaves_of_access {stmt : Stmt} {opcode : Opcode} {address : C.Slot} {offset : UInt64}
    (isAccess : stmt.access? = some (opcode, address, offset)) : stmt.leaves = [stmt] := by
  cases stmt with
  | ifThen | ifThenElse => cases isAccess
  | _ => rfl

/-- An access is emitted with its opcode and offset, its helper has the width of the opcode, and
what the check of the helper does is known for every operand. -/
def AccessEmitted (function : C.Function) (opcode : Opcode) (offset : UInt64) : Prop :=
  ∃ stmt ∈ Stmt.leavesOfList function.body, ∃ address,
    stmt.access? = some (opcode, address, offset) ∧
      C.accessWidth? opcode.accessor = some opcode.info.width ∧
      C.AccessChecked offset opcode.info.width

def FuncAccesses (module named : Module) (func : Func) (function : C.Function) : Prop :=
  ∃ scope, FuncLowered module named func function scope ∧
    ∀ (place : Place) (visited : State) (heads : List BlockHead) (instr : Instr) (opcode : Opcode)
      (offset : UInt64), scope.Reaches place visited →
      (Code.body func.body).at? place.reverse = some (heads, instr) →
        instr.access? = some (opcode, offset) → AccessEmitted function opcode offset

theorem lowerFunc_accesses {module named : Module} {func namedFunc : Func} {function : C.Function}
    {symbols : EntitySymbols} (isNamed : module.FuncNamed func namedFunc)
    (member : namedFunc ∈ named.definedFuncs) (known : Instr.Each Instr.AccessKnown func.body)
    (succeeds : lowerFunc named symbols namedFunc = .ok function) :
    FuncAccesses module named func function := by
  rcases lowerFunc_lowered isNamed member succeeds with ⟨scope, isLowered⟩
  refine ⟨scope, isLowered, ?_⟩
  intro place visited heads source opcode offset reaches isAt isAccess
  rcases isLowered.reached place visited heads source reaches isAt with
    ⟨naming, names, instr, result, next, _, namedInstr, lowers, subset⟩
  rcases (instr_accesses (namedInstr.access isAccess) visited).of_ok lowers with
    ⟨stmt, address, isStmt, stmtAccess⟩
  have inBody : stmt ∈ Stmt.leavesOfList function.body := by
    apply subset
    rw [isStmt, Stmt.leavesOfList, leaves_of_access stmtAccess]
    exact List.mem_cons_self
  have isKnown := known source (Code.mem_visited_of_at isAt) opcode offset isAccess
  rcases isKnown.width with ⟨isWidth, small⟩
  have narrow : opcode.info.width ≤ 2 ^ 32 := Nat.le_trans small (by decide)
  exact ⟨stmt, inBody, address, stmtAccess, isWidth, C.accessChecked offset narrow⟩

end Emission

open Emission

/-- The addresses of loads and stores in a decoded module that is compiled. Each access that is
lowered is emitted with its static offset. Its check is exact for an operand if and only if the
accessed bytes end below `2 ^ 64`, which they do for all operands if and only if the offset leaves
room for 32 bits and the width. Otherwise the check compares what is left beyond `2 ^ 64`. -/
theorem Module.access_checks {bytes : List UInt8} {module : Module} {options : CompileOptions}
    {compiled : Compiled} (accepted : Binary.decode bytes = .ok module)
    (compiles : module.compile options = .ok compiled) :
    ∃ program, compiled.module.emit = .ok program ∧
      compiled.output = program.output compiled.headerName ∧
      List.Forall₂ (FuncAccesses module compiled.module) module.definedFuncs program.functions := by
  rcases compile_eq_ok compiles with ⟨isNamed, _, program, emitted, isOutput⟩
  rcases emit_built emitted with ⟨after, built⟩
  refine ⟨program, emitted, isOutput, ?_⟩
  have named := definedFuncs_named (Binary.decode_decoded accepted) (applyNames_applied isNamed)
  apply forall₂_chain named built.lowered
  intro func isFunc namedFunc isNamedFunc function isNamed lowered
  have known := Binary.decode_access accepted func (List.mem_of_mem_drop isFunc)
  exact lowerFunc_accesses isNamed isNamedFunc known lowered

/-- A module with a page of memory and a function of one parameter that loads four bytes from
it. The offset has ten bytes. -/
def loadingAt (offset : List UInt8) : List UInt8 :=
  Binary.Encode.header ++
    -- The type `[i32] -> [i32]`, a function of it, and the memory.
    [1, 6, 1, 0x60, 1, 0x7F, 1, 0x7F] ++ [3, 2, 1, 0] ++ [5, 3, 1, 0, 1] ++
    [10, 18, 1, 16, 0, 0x20, 0, 0x28, 0] ++ offset ++ [0x0B]

def Func.loaded? (func : Func) : Option (Opcode × UInt64) :=
  match func.body with
  | [.localGet _, .load opcode _ _ offset] => some (opcode, offset)
  | _ => none

theorem Func.loaded?_eq_some {func : Func} {opcode : Opcode} {offset : UInt64}
    (isLoaded : func.loaded? = some (opcode, offset)) :
    ∃ slot memory align, func.body = [.localGet slot, .load opcode memory align offset] := by
  unfold loaded? at isLoaded
  split at isLoaded
  · next isBody =>
      cases isLoaded
      exact ⟨_, _, _, isBody⟩
  · cases isLoaded

theorem Emission.FuncLowered.load_reached {module named : Module} {func : Func}
    {function : C.Function} {scope : Scope} {opcode : Opcode} {offset : UInt64}
    (lowered : FuncLowered module named func function scope)
    (isLoaded : scope.func.loaded? = some (opcode, offset)) :
    ∃ visited, scope.Reaches [1] visited := by
  rcases Func.loaded?_eq_some isLoaded with ⟨slot, memory, align, isBody⟩
  rcases lowered.body with ⟨last, succeeds⟩
  rcases (body_leaves scope).of_ok succeeds with ⟨opened, inner, result, after, opens, instrs, _⟩
  rw [isBody] at instrs
  rcases instrs_cons_ok instrs with ⟨first, middle, isFirst, _⟩
  have gets : Meets True (scope.instr (.localGet slot)) inner fun result _ =>
      result.falls = true := by
    repeat refine .skip fun _ _ => ?_
    exact .pure rfl
  have falls := gets.of_ok isFirst
  refine ⟨middle, opened, inner, opens, ?_⟩
  rw [isBody]
  exact .later isFirst falls .here

/-- The offset eight has room, in a form with padding too. -/
theorem Module.access_checks_eight : ∃ module compiled program func function,
    Binary.decode (loadingAt (0x88 :: List.replicate 8 0x80 ++ [0])) = .ok module ∧
      module.compile {} = .ok compiled ∧ compiled.module.emit = .ok program ∧
      module.definedFuncs = [func] ∧ program.functions = [function] ∧
      AccessEmitted function .i32Load 8 ∧ ∀ base, C.CheckExact base 8 4 := by
  rcases exists_of_run (Binary.decode (loadingAt (0x88 :: List.replicate 8 0x80 ++ [0])))
      (fun module => (module.definedFuncs.map Func.loaded?,
        (module.compile {}).toOption.map fun compiled =>
          compiled.module.definedFuncs.map Func.loaded?))
      ([some (.i32Load, 8)], some [some (.i32Load, 8)]) (by decide +kernel) with
    ⟨module, accepted, shown⟩
  rcases Prod.mk.inj shown with ⟨loads, shown⟩
  rcases Option.map_eq_some_iff.mp shown with ⟨compiled, isCompiled, namedLoads⟩
  have compiles := eq_ok_of_toOption isCompiled
  rcases access_checks accepted compiles with ⟨program, emitted, _, functions⟩
  rcases List.map_eq_singleton_iff.mp loads with ⟨func, areFuncs, isLoaded⟩
  rcases List.map_eq_singleton_iff.mp namedLoads with ⟨namedFunc, areNamed, namedLoaded⟩
  rw [areFuncs] at functions
  rcases List.forall₂_cons_left_iff.mp functions with
    ⟨function, others, ⟨scope, lowered, accesses⟩, noOthers, areFunctions⟩
  rw [List.forall₂_nil_left_iff.mp noOthers] at areFunctions
  have isFunc := lowered.member
  rw [areNamed, List.mem_singleton] at isFunc
  rcases lowered.load_reached (isFunc ▸ namedLoaded) with ⟨visited, reaches⟩
  rcases Func.loaded?_eq_some isLoaded with ⟨slot, memory, align, isBody⟩
  have emittedLoad : AccessEmitted function .i32Load 8 := by
    apply accesses [1] visited [] (.load .i32Load memory align 8) .i32Load 8 reaches _ rfl
    rw [isBody]
    rfl
  rcases emittedLoad with ⟨stmt, inBody, address, isAccess, isWidth, checked⟩
  have exact : ∀ base, C.CheckExact base 8 4 := checked.always_iff.mpr (by decide)
  exact ⟨module, compiled, program, func, function, accepted, compiles, emitted, areFuncs,
    areFunctions, ⟨stmt, inBody, address, isAccess, isWidth, checked⟩, exact⟩

def C.Program.accesses (program : C.Program) : List (List (Opcode × C.Slot × UInt64)) :=
  program.functions.map fun function =>
    (C.Stmt.leavesOfList function.body).filterMap C.Stmt.access?

/-- With the greatest offset and the operand one, the check lets a load pass that ends far beyond
the page. -/
theorem Module.access_wraps : ∃ module compiled program,
    Binary.decode (loadingAt (List.replicate 9 0xFF ++ [1])) = .ok module ∧
      module.compile {} = .ok compiled ∧ compiled.module.emit = .ok program ∧
      program.accesses = [[(.i32Load, ⟨0, .i32⟩, 0xFFFFFFFFFFFFFFFF)]] ∧
      C.accessWidth? (Opcode.accessor .i32Load) = some 4 ∧
      ¬C.AccessTraps 65536 (C.effectiveAddress 1 0xFFFFFFFFFFFFFFFF) 4 ∧
      C.accessEnd 1 0xFFFFFFFFFFFFFFFF 4 = 2 ^ 64 + 4 := by
  rcases exists_of_run (Binary.decode (loadingAt (List.replicate 9 0xFF ++ [1])))
      (fun module => (module.compile {}).toOption.bind fun compiled =>
        compiled.module.emit.toOption.map (·.accesses))
      (some [[(.i32Load, ⟨0, .i32⟩, 0xFFFFFFFFFFFFFFFF)]]) (by decide +kernel) with
    ⟨module, accepted, shown⟩
  rcases Option.bind_eq_some_iff.mp shown with ⟨compiled, isCompiled, shown⟩
  rcases Option.map_eq_some_iff.mp shown with ⟨program, isProgram, accesses⟩
  have isAccess : Opcode.IsAccess .i32Load := .inl rfl
  have isWidth : (Opcode.info .i32Load).width = 4 := rfl
  have known := isAccess.width.1
  rw [isWidth] at known
  exact ⟨module, compiled, program, accepted, eq_ok_of_toOption isCompiled,
    eq_ok_of_toOption isProgram, accesses, known, by decide, by decide⟩

end WasmLowering
