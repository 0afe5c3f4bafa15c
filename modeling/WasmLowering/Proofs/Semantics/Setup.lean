import Mathlib.Algebra.Group.Nat.Defs
import Mathlib.Data.List.Forall2
import Mathlib.Logic.Function.Basic
import WasmLowering.C.ProgramText

/-! Setting up a memory and a table.

Instantiation puts segments into place in order, and traps at the first that does not
fit. In a source, two functions do so. Here are their lines, with the text and the meaning
of each: a check is made with the integers of C, which wrap around. -/

namespace WasmLowering

/-! ## Instantiation -/

structure Placement (α : Type) where
  start : Nat
  items : List α
  deriving DecidableEq

/-- What placing ends with: the items that have been written, each with its position, and
whether there was a trap. -/
structure Placed (α : Type) where
  written : List (α × Nat)
  trapped : Bool
  deriving DecidableEq

variable {α : Type}

def Placement.stop (placement : Placement α) : Nat := placement.start + placement.items.length

/-- Makes placements in order, in a memory or table of some size. One that does not fit
traps, and nothing of it is written. -/
def place (size : Nat) : List (Placement α) → Placed α
  | [] => ⟨[], false⟩
  | placement :: rest =>
      if size < placement.stop then ⟨[], true⟩
      else
        let later := place size rest
        ⟨placement.items.zipIdx placement.start ++ later.written, later.trapped⟩

example : place 3 [⟨1, ['a', 'b']⟩, ⟨3, []⟩, ⟨4, []⟩] = ⟨[('a', 1), ('b', 2)], true⟩ := by decide

theorem place_trapped_iff (size : Nat) (placements : List (Placement α)) :
    (place size placements).trapped = true ↔ ∃ placement ∈ placements, size < placement.stop := by
  induction placements with
  | nil => simp [place]
  | cons placement rest induction =>
      rw [place]
      split
      · next overruns => simp [overruns]
      · next fits => simp [fits, induction]

theorem place_inside {size : Nat} {placements : List (Placement α)} {entry : α × Nat}
    (written : entry ∈ (place size placements).written) : entry.2 < size := by
  induction placements with
  | nil => cases written
  | cons placement rest induction =>
      rw [place] at written
      split at written
      · cases written
      · next fits =>
          rcases List.mem_append.mp written with isFirst | isLater
          · have inside := List.snd_lt_add_of_mem_zipIdx isFirst
            rw [Placement.stop] at fits
            omega
          · exact induction isLater

structure Placed.Instantiates (placed : Placed α) (size : Nat) (placements : List (Placement α)) :
    Prop where
  result : placed = place size placements
  traps : placed.trapped = true ↔ ∃ placement ∈ placements, size < placement.stop
  inside : ∀ entry ∈ placed.written, entry.2 < size

theorem place_instantiates (size : Nat) (placements : List (Placement α)) :
    (place size placements).Instantiates size placements :=
  ⟨rfl, place_trapped_iff size placements, fun _ written => place_inside written⟩

def offset? (globals : String → Number) : List Instr → Option UInt32
  | [.const (.number (.i32 bits))] => some bits
  | [.globalGet (.name name)] =>
      match globals name with
      | .i32 bits => some bits
      | _ => none
  | _ => none

def DataSegment.placement? (globals : String → Number) (segment : DataSegment) :
    Option (Placement UInt8) :=
  (offset? globals segment.offset).map fun offset => ⟨offset.toNat, segment.bytes⟩

def ElementSegment.placement? (module : Module) (globals : String → Number)
    (segment : ElementSegment) : Option (Placement (Option String)) :=
  (offset? globals segment.offset).map fun offset =>
    ⟨offset.toNat, segment.functions.map fun reference => (module.func? reference).map (·.name)⟩

def C.pageBytes (pages : UInt64) : UInt64 := pages.toUInt32.toUInt64 * 65536

namespace Module

def DatasPlacedAs (module : Module) (globals : String → Number)
    (placements : List (Placement UInt8)) : Prop :=
  (module.datas.filter (!·.isPassive)).map (·.placement? globals) = placements.map some

def ElementsPlacedAs (module : Module) (globals : String → Number)
    (placements : List (Placement (Option String))) : Prop :=
  module.elements.map (·.placement? module globals) = placements.map some

structure ShortSegments (module : Module) : Prop where
  datas : ∀ segment ∈ module.datas, segment.bytes.length < 2 ^ 63
  elements : ∀ segment ∈ module.elements, segment.functions.length < 2 ^ 63

instance (module : Module) (globals : String → Number) (placements : List (Placement UInt8)) :
    Decidable (module.DatasPlacedAs globals placements) :=
  inferInstanceAs (Decidable (_ = _))

instance (module : Module) (globals : String → Number)
    (placements : List (Placement (Option String))) :
    Decidable (module.ElementsPlacedAs globals placements) :=
  inferInstanceAs (Decidable (_ = _))

instance (module : Module) : Decidable module.ShortSegments :=
  decidable_of_iff ((∀ segment ∈ module.datas, segment.bytes.length < 2 ^ 63) ∧
    ∀ segment ∈ module.elements, segment.functions.length < 2 ^ 63)
    ⟨fun short => ⟨short.1, short.2⟩, fun short => ⟨short.datas, short.elements⟩⟩

def memorySize (module : Module) (imported : UInt64) : UInt64 :=
  match module.memories with
  | [] => imported
  | memory :: _ =>
      if module.importCount .memory = 0 then C.pageBytes memory.limits.initial else imported

def tableSize (module : Module) (imported : UInt32) : UInt32 :=
  match module.tables with
  | [] => imported
  | table :: _ =>
      if module.importCount .table = 0 then table.limits.initial.toUInt32 else imported

end Module

namespace C

/-! ## Lines -/

/-- A line of the functions that set up the memory and the table. -/
inductive SetupLine where
  | allocateMemory (allocation : Allocation)
  | allocateTable (allocation : Allocation)
  | declareOffset
  | checkBytes (copy : DataCopy)
  | copyBytes (copy : DataCopy)
  | placeElements (copy : ElementCopy)
  | checkElements (copy : ElementCopy)
  | setElement (table : External) (number : Nat) (element : Element)

namespace SetupLine

def allocationTexts (function : String) (allocation : Allocation) : List String :=
  [function, "(", allocation.external.pointer, ", ", toString allocation.initial.toNat, ", ",
    toString allocation.maximum.toNat, ");"]

def texts : SetupLine → List String
  | allocateMemory allocation => allocationTexts "wasm_rt_allocate_memory" allocation
  | allocateTable allocation => allocationTexts "wasm_rt_allocate_table" allocation
  | declareOffset => ["u32 offset;"]
  | checkBytes copy =>
      ["if (UNLIKELY((u64)(", copy.offset.text, ") + ", toString copy.source.bytes.length, " > ",
        copy.memory.value, ".size)) TRAP(OOB);"]
  | copyBytes copy =>
      ["memcpy(&(", copy.memory.value, ".data[", copy.offset.text, "]), ", copy.source.symbol, ", ",
        toString copy.source.bytes.length, ");"]
  | placeElements copy => ["offset = ", copy.offset.text, ";"]
  | checkElements copy =>
      ["if (UNLIKELY((u64)offset + ", toString copy.elements.length, " > ", copy.table.value,
        ".size)) TRAP(OOB);"]
  | setElement table number element =>
      [table.value, ".data[offset + ", toString number, "] = (wasm_rt_elem_t)\x7bfunc_types[",
        toString element.typeIndex.toNat, "], (wasm_rt_anyfunc_t)", element.func.pointer, "\x7d;"]

end SetupLine

def DataCopy.lines (copy : DataCopy) : List SetupLine := [.checkBytes copy, .copyBytes copy]

def elementLines (table : External) (number : Nat) (elements : List Element) : List SetupLine :=
  (elements.zipIdx number).map fun (element, number) => .setElement table number element

def ElementCopy.lines (copy : ElementCopy) : List SetupLine :=
  .placeElements copy :: .checkElements copy :: elementLines copy.table 0 copy.elements

namespace Program

def memorySetup (program : Program) : List SetupLine :=
  program.memoryAllocation.toList.map .allocateMemory ++ program.dataCopies.flatMap DataCopy.lines

def tableSetup (program : Program) : List SetupLine :=
  (if program.elementCopies.isEmpty then [] else [.declareOffset]) ++
    (program.tableAllocation.toList.map .allocateTable ++
      program.elementCopies.flatMap ElementCopy.lines)

end Program

namespace Printer

def setupLines (printer : Printer) (lines : List SetupLine) : Printer :=
  printer.each lines fun printer line => printer.line line.texts

theorem setupLines_cons (printer : Printer) (line : SetupLine) (rest : List SetupLine) :
    printer.setupLines (line :: rest) = (printer.line line.texts).setupLines rest := rfl

theorem setupLines_append (printer : Printer) (first later : List SetupLine) :
    printer.setupLines (first ++ later) = (printer.setupLines first).setupLines later :=
  List.foldl_append

theorem setupLines_flatMap {item : Type} (printer : Printer) (items : List item)
    {one : Printer → item → Printer} {lines : item → List SetupLine}
    (same : ∀ printer item, one printer item = printer.setupLines (lines item)) :
    printer.each items one = printer.setupLines (items.flatMap lines) := by
  induction items generalizing printer with
  | nil => rfl
  | cons item rest induction =>
      rw [List.flatMap_cons, setupLines_append, ← same]
      exact induction (one printer item)

theorem elements_eq (printer : Printer) (table : External) (number : Nat)
    (elements : List Element) :
    printer.elements table number elements =
      printer.setupLines (elementLines table number elements) := by
  induction elements generalizing printer number with
  | nil => rfl
  | cons element rest induction => exact induction _ (number + 1)

theorem datas_eq (printer : Printer) (program : Program) :
    printer.datas program = (printer.each program.dataArrays dataArray).setup "init_memory"
      (·.setupLines program.memorySetup) := by
  unfold datas Program.memorySetup
  congr 1
  funext inner
  rw [setupLines_append, ← setupLines_flatMap]
  · cases program.memoryAllocation <;> rfl
  · exact fun _ _ => rfl

theorem table_eq (printer : Printer) (program : Program) :
    printer.table program = printer.setup "init_table" (·.setupLines program.tableSetup) := by
  unfold table Program.tableSetup
  congr 1
  funext inner
  rw [setupLines_append, setupLines_append, ← setupLines_flatMap]
  · cases program.tableAllocation <;> split <;> rfl
  · intro _ copy
    rw [elementCopy, elements_eq, ElementCopy.lines, setupLines_cons, setupLines_cons,
      SetupLine.texts, SetupLine.texts]

end Printer

/-! ## What lines do -/

structure Surroundings where
  /-- The values of globals, by their names. -/
  global : String → Number
  /-- The integer that a floating-point number becomes. -/
  cut : Number → UInt64

namespace Surroundings

def value (surroundings : Surroundings) : Initial → Number
  | .literal value => value
  | .global external => surroundings.global external.name

def word (surroundings : Surroundings) (initial : Initial) : UInt64 :=
  match surroundings.value initial with
  | .i32 bits => bits.toUInt64
  | .i64 bits => bits
  | value => surroundings.cut value

end Surroundings

/-- Sizes of memories and tables by their symbols, the variable for the offset, everything that
has been written, and whether there was a trap. -/
structure SetupState where
  memorySize : String → UInt64
  tableSize : String → UInt32
  offset : UInt32 := 0
  bytes : List (UInt8 × Nat) := []
  elements : List (Element × Nat) := []
  trapped : Bool := false

def SetupLine.run (surroundings : Surroundings) (state : SetupState) : SetupLine → SetupState
  | allocateMemory allocation =>
      { state with
        memorySize := Function.update state.memorySize allocation.external.symbol
          (pageBytes allocation.initial) }
  | allocateTable allocation =>
      { state with
        tableSize := Function.update state.tableSize allocation.external.symbol
          allocation.initial.toUInt32 }
  | declareOffset => state
  | checkBytes copy =>
      let stop := surroundings.word copy.offset + copy.source.bytes.length.toUInt64
      { state with trapped := decide (stop > state.memorySize copy.memory.symbol) }
  | copyBytes copy =>
      { state with
        bytes := state.bytes ++
          copy.source.bytes.zipIdx (surroundings.word copy.offset).toNat }
  | placeElements copy => { state with offset := (surroundings.word copy.offset).toUInt32 }
  | checkElements copy =>
      let stop := state.offset.toUInt64 + copy.elements.length.toUInt64
      { state with trapped := decide (stop > (state.tableSize copy.table.symbol).toUInt64) }
  | setElement _ number element =>
      { state with
        elements := state.elements ++ [(element, (state.offset + number.toUInt32).toNat)] }

namespace SetupState

def start (memory : UInt64) (table : UInt32) : SetupState where
  memorySize _ := memory
  tableSize _ := table

def run (state : SetupState) (surroundings : Surroundings) (lines : List SetupLine) : SetupState :=
  lines.foldl (fun state line => if state.trapped then state else line.run surroundings state) state

variable {surroundings : Surroundings} {state : SetupState}

theorem run_append (first later : List SetupLine) :
    state.run surroundings (first ++ later) =
      (state.run surroundings first).run surroundings later :=
  List.foldl_append

theorem run_cons (running : state.trapped = false) (line : SetupLine) (rest : List SetupLine) :
    state.run surroundings (line :: rest) =
      (line.run surroundings state).run surroundings rest := by
  simp [run, running]

theorem run_trapped (isTrapped : state.trapped = true) (lines : List SetupLine) :
    state.run surroundings lines = state := by
  induction lines with
  | nil => rfl
  | cons line rest induction =>
      show (if state.trapped then state else _).run surroundings rest = state
      rw [if_pos isTrapped, induction]

end SetupState

end C

end WasmLowering
