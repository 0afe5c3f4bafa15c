import WasmLowering.Proofs.Lowering.TypeChecks
import WasmLowering.Proofs.Semantics.Setup
import WasmLowering.Proofs.Symbols.Hygiene

/-! Segments are checked before they are copied.

A check is made with the sum of an offset and a length, in 64 bits. For offsets of 32 bits
the sum does not wrap around, so setting up the memory and the table traps exactly if a
segment does not fit. Empty data segments are left out together with their checks; empty
element segments are not. -/

namespace WasmLowering

namespace C

variable {surroundings : Surroundings} {state : SetupState}

/-! ## Copies -/

def Surroundings.StartsAt (surroundings : Surroundings) (offset : Initial) (start : Nat) : Prop :=
  ∃ bits : UInt32, surroundings.value offset = .i32 bits ∧ bits.toNat = start

theorem Surroundings.StartsAt.word {offset : Initial} {start : Nat}
    (starts : surroundings.StartsAt offset start) :
    ∃ bits : UInt32, surroundings.word offset = bits.toUInt64 ∧ bits.toNat = start := by
  rcases starts with ⟨bits, isValue, isStart⟩
  exact ⟨bits, by rw [Surroundings.word, isValue], isStart⟩

/-- The sum of an offset and a length does not wrap around, so it is compared exactly. -/
theorem lt_add_iff (size : UInt64) (start : UInt32) {length : Nat} (short : length < 2 ^ 63) :
    size < start.toUInt64 + length.toUInt64 ↔ size.toNat < start.toNat + length := by
  have small := start.toNat_lt
  rw [UInt64.lt_iff_toNat_lt, UInt64.toNat_add, UInt32.toNat_toUInt64, Nat.toUInt64,
    UInt64.toNat_ofNat', Nat.mod_eq_of_lt (by omega : length < 2 ^ 64),
    Nat.mod_eq_of_lt (by omega)]

structure DataCopy.Makes (surroundings : Surroundings) (copy : DataCopy)
    (placement : Placement UInt8) : Prop where
  start : surroundings.StartsAt copy.offset placement.start
  items : copy.source.bytes = placement.items
  short : placement.items.length < 2 ^ 63

structure ElementCopy.Makes (surroundings : Surroundings) (copy : ElementCopy)
    (placement : Placement (Option String)) : Prop where
  start : surroundings.StartsAt copy.offset placement.start
  items : copy.elements.map (some ·.func.name) = placement.items
  short : placement.items.length < 2 ^ 63

theorem DataCopy.Makes.run {copy : DataCopy} {placement : Placement UInt8} {size : UInt64}
    (makes : copy.Makes surroundings placement) (running : state.trapped = false)
    (isSize : state.memorySize copy.memory.symbol = size) :
    state.run surroundings copy.lines =
      if size.toNat < placement.stop then { state with trapped := true }
      else { state with bytes := state.bytes ++ placement.items.zipIdx placement.start } := by
  rcases makes.start.word with ⟨bits, isWord, isStart⟩
  have checked := lt_add_iff size bits makes.short
  rw [lines, SetupState.run_cons running, SetupLine.run, isWord, isSize, makes.items,
    Placement.stop, ← isStart]
  split
  · next overruns => rw [decide_eq_true (checked.mpr overruns), SetupState.run_trapped rfl]
  · next fits =>
      rw [decide_eq_false (fits ∘ checked.mp), SetupState.run_cons rfl, SetupLine.run, isWord,
        makes.items, UInt32.toNat_toUInt64, ← running]
      rfl

def SetupState.placedBytes (state : SetupState) : Placed UInt8 := ⟨state.bytes, state.trapped⟩

theorem run_dataCopies {size : UInt64} {copies : List DataCopy}
    {placements : List (Placement UInt8)}
    (makes : List.Forall₂ (DataCopy.Makes surroundings) copies placements)
    (running : state.trapped = false)
    (sizes : ∀ copy ∈ copies, state.memorySize copy.memory.symbol = size) :
    (state.run surroundings (copies.flatMap DataCopy.lines)).placedBytes =
      ⟨state.bytes ++ (place size.toNat placements).written,
        (place size.toNat placements).trapped⟩ := by
  induction makes generalizing state with
  | nil => simp [SetupState.run, SetupState.placedBytes, place, running]
  | cons first _ induction =>
      have others := fun copy member => sizes copy (List.mem_cons_of_mem _ member)
      rw [List.flatMap_cons, SetupState.run_append,
        first.run running (sizes _ List.mem_cons_self), place]
      split
      · rw [SetupState.run_trapped rfl]
        simp [SetupState.placedBytes]
      · rw [induction]
        · simp
        · exact running
        · exact others

theorem run_elementLines {table : External} {elements : List Element} {number : Nat}
    (running : state.trapped = false)
    (inside : state.offset.toNat + number + elements.length ≤ 2 ^ 32) :
    state.run surroundings (elementLines table number elements) =
      { state with
        elements := state.elements ++ elements.zipIdx (state.offset.toNat + number) } := by
  induction elements generalizing state number with
  | nil => simp [elementLines, SetupState.run]
  | cons element rest induction =>
      rw [List.length_cons] at inside
      have position : (state.offset + number.toUInt32).toNat = state.offset.toNat + number := by
        rw [UInt32.toNat_add, Nat.toUInt32, UInt32.toNat_ofNat']
        omega
      rw [elementLines, List.zipIdx_cons, List.map_cons, SetupState.run_cons running,
        SetupLine.run, position]
      change SetupState.run _ surroundings (elementLines table (number + 1) rest) = _
      rw [induction]
      · simp [List.zipIdx_cons, Nat.add_assoc]
      · exact running
      · show state.offset.toNat + (number + 1) + rest.length ≤ 2 ^ 32
        omega

theorem ElementCopy.Makes.run {copy : ElementCopy}
    {placement : Placement (Option String)} {size : UInt32}
    (makes : copy.Makes surroundings placement) (running : state.trapped = false)
    (isSize : state.tableSize copy.table.symbol = size) :
    ∃ offset, state.run surroundings copy.lines =
      if size.toNat < placement.stop then { state with offset, trapped := true }
      else { state with
        offset, elements := state.elements ++ copy.elements.zipIdx placement.start } := by
  rcases makes.start.word with ⟨bits, isWord, isStart⟩
  have sameLength : copy.elements.length = placement.items.length := by
    rw [← makes.items, List.length_map]
  have checked := lt_add_iff size.toUInt64 bits makes.short
  rw [UInt32.toNat_toUInt64, ← sameLength] at checked
  have isPlaced : (SetupLine.placeElements copy).run surroundings state =
      { state with offset := bits } := by
    simp [SetupLine.run, isWord]
  refine ⟨bits, ?_⟩
  rw [lines, SetupState.run_cons running, isPlaced, SetupState.run_cons, SetupLine.run, isSize,
    Placement.stop, ← sameLength, ← isStart]
  · split
    · next overruns => rw [decide_eq_true (checked.mpr overruns), SetupState.run_trapped rfl]
    · next fits =>
        rw [decide_eq_false (fits ∘ checked.mp), run_elementLines rfl]
        · rw [Nat.add_zero, running]
        · have bound := size.toNat_lt
          show bits.toNat + 0 + copy.elements.length ≤ 2 ^ 32
          omega
  · exact running

def SetupState.placedElements (state : SetupState) : Placed (Option String) :=
  ⟨state.elements.map fun (element, position) => (some element.func.name, position),
    state.trapped⟩

theorem run_elementCopies {size : UInt32} {copies : List ElementCopy}
    {placements : List (Placement (Option String))}
    (makes : List.Forall₂ (ElementCopy.Makes surroundings) copies placements)
    (running : state.trapped = false)
    (sizes : ∀ copy ∈ copies, state.tableSize copy.table.symbol = size) :
    (state.run surroundings (copies.flatMap ElementCopy.lines)).placedElements =
      ⟨state.placedElements.written ++ (place size.toNat placements).written,
        (place size.toNat placements).trapped⟩ := by
  induction makes generalizing state with
  | nil => simp [SetupState.run, SetupState.placedElements, place, running]
  | cons first _ induction =>
      have others := fun copy member => sizes copy (List.mem_cons_of_mem _ member)
      rcases first.run running (sizes _ List.mem_cons_self) with ⟨offset, isRun⟩
      rw [List.flatMap_cons, SetupState.run_append, isRun, place]
      split
      · rw [SetupState.run_trapped rfl]
        simp [SetupState.placedElements]
      · rw [induction]
        · simp [SetupState.placedElements, ← first.items, List.zipIdx_map]
        · exact running
        · exact others

end C

namespace Emission

open C (Surroundings SetupState SetupLine)

variable {α β : Type} {symbols last : EntitySymbols}

/-! ## What copies are made from -/

theorem Reads.mapM_eq_ok {items : List α} {action : α → Emit β} {values : List β}
    (each : ∀ item, Reads (action item))
    (runs : items.mapM action symbols = .ok (values, last)) :
    List.Forall₂ (fun item value => action item symbols = .ok (value, symbols)) items values := by
  induction items generalizing values with
  | nil =>
      cases runs
      exact .nil
  | cons item rest induction =>
      rw [List.mapM_cons] at runs
      rcases run_bind runs with ⟨first, between, isFirst, runs⟩
      rcases run_bind runs with ⟨others, after, areOthers, isAll⟩
      cases isAll
      cases (each item symbols).of_ok isFirst
      exact .cons isFirst (induction areOthers)

theorem initial_startsAt {instrs : List Instr} {value : C.Initial} {surroundings : Surroundings}
    {offset : UInt32} (isInitial : initial instrs symbols = .ok (value, last))
    (isOffset : offset? surroundings.global instrs = some offset) :
    surroundings.StartsAt value offset.toNat := by
  refine ⟨offset, ?_, rfl⟩
  unfold offset? at isOffset
  split at isOffset
  · cases isOffset
    cases isInitial
    rfl
  · next name =>
      split at isOffset
      · next bits isBits =>
          cases isOffset
          rcases run_bind isInitial with ⟨other, _, isName, isInitial⟩
          cases isName
          rcases run_bind isInitial with ⟨external, _, isExternal, isInitial⟩
          cases isInitial
          have sameName := (external_name .global name _).of_ok isExternal
          rw [Surroundings.value, sameName, isBits]
      · cases isOffset
  · cases isOffset

theorem dataCopy_eq_ok {module : Module} {segment : DataSegment} {source : C.DataArray}
    {copy : C.DataCopy} (isCopy : dataCopy module segment source symbols = .ok (copy, last)) :
    copy.source = source ∧ initial segment.offset symbols = .ok (copy.offset, last) ∧
      ∃ memory ∈ module.memories,
        external .memory memory.name symbols = .ok (copy.memory, symbols) := by
  rcases run_bind isCopy with ⟨memory, between, isMemory, remaining⟩
  rcases lift_eq_ok isMemory with ⟨isFound, same⟩
  subst same
  rcases run_bind remaining with ⟨target, between, isTarget, remaining⟩
  cases (external_reads _ _ _).of_ok isTarget
  rcases run_bind remaining with ⟨offset, after, isOffset, isAll⟩
  cases isAll
  rcases Option.bind_eq_some_iff.mp (found_eq_ok isFound) with ⟨position, _, isItem⟩
  exact ⟨rfl, isOffset, memory, List.mem_of_getElem? isItem, isTarget⟩

theorem elementCopy_eq_ok {module : Module} {segment : ElementSegment} {copy : C.ElementCopy}
    (isCopy : elementCopy module segment symbols = .ok (copy, last)) :
    (∃ after, initial segment.offset symbols = .ok (copy.offset, after)) ∧
      ∃ table ∈ module.tables, external .table table.name symbols = .ok (copy.table, symbols) := by
  rcases run_bind isCopy with ⟨table, between, isTable, remaining⟩
  rcases lift_eq_ok isTable with ⟨isFound, same⟩
  subst same
  rcases run_bind remaining with ⟨target, between, isTarget, remaining⟩
  cases (external_reads _ _ _).of_ok isTarget
  rcases run_bind remaining with ⟨offset, after, isOffset, remaining⟩
  rcases run_bind remaining with ⟨elements, _, _, isAll⟩
  cases isAll
  rcases Option.bind_eq_some_iff.mp (found_eq_ok isFound) with ⟨position, _, isItem⟩
  exact ⟨⟨after, isOffset⟩, table, List.mem_of_getElem? isItem, isTarget⟩

theorem memoryAllocation_eq_ok {module : Module} {allocation : Option C.Allocation}
    (isAllocation : memoryAllocation module symbols = .ok (allocation, last)) :
    (allocation = none ∧ ∀ imported, module.memorySize imported = imported) ∨
      ∃ memory allocated, module.memories.head? = some memory ∧ allocation = some allocated ∧
        external .memory memory.name symbols = .ok (allocated.external, last) ∧
        ∀ imported, module.memorySize imported = C.pageBytes allocated.initial := by
  unfold memoryAllocation at isAllocation
  unfold Module.memorySize
  cases memories : module.memories with
  | nil =>
      rw [memories] at isAllocation
      cases isAllocation
      exact .inl ⟨rfl, fun _ => rfl⟩
  | cons memory rest =>
      rw [memories] at isAllocation
      by_cases isDefined : module.importCount .memory = 0
      · simp only [if_pos isDefined] at isAllocation
        rcases run_bind isAllocation with ⟨target, between, isTarget, isAll⟩
        cases isAll
        exact .inr ⟨memory, _, rfl, rfl, isTarget, fun _ => if_pos isDefined⟩
      · simp only [if_neg isDefined] at isAllocation
        cases isAllocation
        exact .inl ⟨rfl, fun _ => if_neg isDefined⟩

theorem tableAllocation_eq_ok {module : Module} {allocation : Option C.Allocation}
    (isAllocation : tableAllocation module symbols = .ok (allocation, last)) :
    (allocation = none ∧ ∀ imported, module.tableSize imported = imported) ∨
      ∃ table allocated, module.tables.head? = some table ∧ allocation = some allocated ∧
        external .table table.name symbols = .ok (allocated.external, last) ∧
        ∀ imported, module.tableSize imported = allocated.initial.toUInt32 := by
  unfold tableAllocation at isAllocation
  unfold Module.tableSize
  cases tables : module.tables with
  | nil =>
      rw [tables] at isAllocation
      cases isAllocation
      exact .inl ⟨rfl, fun _ => rfl⟩
  | cons table rest =>
      rw [tables] at isAllocation
      by_cases isDefined : module.importCount .table = 0
      · simp only [if_pos isDefined] at isAllocation
        rcases run_bind isAllocation with ⟨target, between, isTarget, isAll⟩
        cases isAll
        exact .inr ⟨table, _, rfl, rfl, isTarget, fun _ => if_pos isDefined⟩
      · simp only [if_neg isDefined] at isAllocation
        cases isAllocation
        exact .inl ⟨rfl, fun _ => if_neg isDefined⟩

theorem checkModule_single (module : Module) :
    Gives True (checkModule module) fun _ =>
      module.memories.length ≤ 1 ∧ module.tables.length ≤ 1 := by
  unfold checkModule
  refine Gives.refuse fun fewMemories => ?_
  refine Gives.refuse fun fewTables => ?_
  refine (Gives.ofResult _).mono ?_
  exact fun _ _ => ⟨Nat.not_lt.mp fewMemories, Nat.not_lt.mp fewTables⟩

/-- The only item of a list is its first, so both are referred to in the same way. -/
theorem external_of_single {items : List α} {nameOf : α → String} {kind : ExternKind}
    {first item : α} {one other : C.External} {later : EntitySymbols}
    (single : items.length ≤ 1) (isFirst : items.head? = some first) (member : item ∈ items)
    (isOne : external kind (nameOf first) symbols = .ok (one, last))
    (isOther : external kind (nameOf item) symbols = .ok (other, later)) : other = one := by
  rcases items with _ | ⟨only, _ | _⟩
  · cases member
  · cases isFirst
    cases List.mem_singleton.mp member
    rw [isOne] at isOther
    exact (Prod.mk.inj (Except.ok.inj isOther)).1.symm
  · simp at single

theorem dataArray_bytes (segment : DataSegment) (position : Nat) (symbols : EntitySymbols) :
    Meets True (dataArray segment position) symbols fun array _ =>
      array.bytes = segment.bytes := by
  apply Meets.bind_get
  apply (Meets.set _ _).bind
  intro _ _ _
  exact .pure rfl

theorem dataArrays_bytes (module : Module) (symbols : EntitySymbols) :
    Meets True ((activeDatas module).mapM fun (segment, position) => dataArray segment position)
      symbols fun arrays _ => List.Forall₂ (fun entry array => array.bytes = entry.1.bytes)
        (activeDatas module) arrays :=
  .mapM (fun (segment, position) symbols => dataArray_bytes segment position symbols) _

theorem forall₂_of_map_eq {items : List α} {results : List β} {view : α → Option β}
    (same : items.map view = results.map some) :
    List.Forall₂ (fun item result => view item = some result) items results := by
  rw [← List.forall₂_eq_eq_eq, List.forall₂_map_left_iff, List.forall₂_map_right_iff] at same
  exact same

theorem forall₂_of_zip {γ : Type} {first : α → β → Prop} {second : α × β → γ → Prop}
    {items : List α} {middle : List β} {results : List γ}
    (earlier : List.Forall₂ first items middle)
    (later : List.Forall₂ second (items.zip middle) results) :
    List.Forall₂ (fun item result => ∃ value, first item value ∧ second (item, value) result)
      items results := by
  induction earlier generalizing results with
  | nil =>
      cases later
      exact .nil
  | cons isFirst _ induction =>
      rcases later with _ | ⟨isSecond, others⟩
      exact .cons ⟨_, isFirst, isSecond⟩ (induction others)

theorem map_activeDatas (module : Module) :
    (activeDatas module).map (·.1) =
      (module.datas.filter (!·.isPassive)).filter (!·.bytes.isEmpty) := by
  rw [List.filter_filter, ← List.zipIdx_map_fst 0 module.datas, List.filter_map]
  simp only [activeDatas, Function.comp_def, Bool.and_comm]

section

variable {module : Module} {program : C.Program} {after : Stages}
  (built : Built module program after) {surroundings : Surroundings}
include built

theorem Built.memorySizes (surroundings : Surroundings) (single : module.memories.length ≤ 1)
    (memory : UInt64) (table : UInt32) : ∀ copy ∈ program.dataCopies,
      ((SetupState.start memory table).run surroundings
        (program.memoryAllocation.toList.map .allocateMemory)).memorySize copy.memory.symbol =
          module.memorySize memory := by
  intro copy member
  have sameSymbols := (memoryAllocation_reads module _).of_ok built.memoryAllocation
  have copies := Reads.mapM_eq_ok
    (fun ((segment, _), array) => dataCopy_reads module segment array) built.dataCopies
  rcases exists_of_forall₂ copies member with ⟨⟨⟨segment, _⟩, array⟩, _, isCopy⟩
  rcases dataCopy_eq_ok isCopy with ⟨_, _, target, isTarget, isExternal⟩
  rcases memoryAllocation_eq_ok built.memoryAllocation with
    ⟨notAllocated, isSize⟩ | ⟨first, allocated, isFirst, isAllocated, isOther, isSize⟩
  · rw [notAllocated, isSize]
    rfl
  · rw [sameSymbols] at isExternal isOther
    rw [isAllocated, isSize, external_of_single single isFirst isTarget isOther isExternal]
    exact Function.update_self ..

theorem Built.tableSizes (surroundings : Surroundings) (single : module.tables.length ≤ 1)
    (memory : UInt64) (table : UInt32) : ∀ copy ∈ program.elementCopies,
      ((SetupState.start memory table).run surroundings
        (program.tableAllocation.toList.map .allocateTable)).tableSize copy.table.symbol =
          module.tableSize table := by
  intro copy member
  have sameSymbols := (tableAllocation_reads module _).of_ok built.tableAllocation
  have copies := Reads.mapM_eq_ok (elementCopy_reads module) built.elementCopies
  rcases exists_of_forall₂ copies member with ⟨segment, _, isCopy⟩
  rcases elementCopy_eq_ok isCopy with ⟨_, target, isTarget, isExternal⟩
  rcases tableAllocation_eq_ok built.tableAllocation with
    ⟨notAllocated, isSize⟩ | ⟨first, allocated, isFirst, isAllocated, isOther, isSize⟩
  · rw [notAllocated, isSize]
    rfl
  · rw [sameSymbols] at isExternal isOther
    rw [isAllocated, isSize, external_of_single single isFirst isTarget isOther isExternal]
    exact Function.update_self ..

theorem Built.dataCopies_from :
    List.Forall₂ (fun segment copy => copy.source.bytes = segment.bytes ∧
      ∃ symbols last, initial segment.offset symbols = .ok (copy.offset, last))
      ((module.datas.filter (!·.isPassive)).filter (!·.bytes.isEmpty)) program.dataCopies := by
  have arrays := (dataArrays_bytes module _).of_ok built.dataArrays
  have copies := Reads.mapM_eq_ok
    (fun ((segment, _), array) => dataCopy_reads module segment array) built.dataCopies
  rw [← map_activeDatas, List.forall₂_map_left_iff]
  refine (forall₂_of_zip arrays copies).imp ?_
  rintro ⟨segment, position⟩ copy ⟨array, areBytes, isCopy⟩
  rcases dataCopy_eq_ok isCopy with ⟨isSource, isOffset, _⟩
  exact ⟨isSource ▸ areBytes, _, _, isOffset⟩

/-- Every data segment that is neither passive nor empty is copied to its place. -/
theorem Built.dataCopies_make {placements : List (Placement UInt8)} (short : module.ShortSegments)
    (placed : module.DatasPlacedAs surroundings.global placements) :
    List.Forall₂ (C.DataCopy.Makes surroundings) program.dataCopies
      (placements.filter (!·.items.isEmpty)) := by
  have shown : List.Forall₂ (fun segment placement =>
      segment.placement? surroundings.global = some placement)
      ((module.datas.filter (!·.isPassive)).filter (!·.bytes.isEmpty))
      (placements.filter (!·.items.isEmpty)) := by
    refine List.rel_filter ?_ (forall₂_of_map_eq placed)
    intro segment placement isPlaced
    rcases Option.map_eq_some_iff.mp isPlaced with ⟨offset, _, rfl⟩
    rfl
  apply forall₂_chain built.dataCopies_from.flip shown
  intro copy _ segment isSegment placement ⟨areBytes, _, _, isInitial⟩ isPlaced
  rcases Option.map_eq_some_iff.mp isPlaced with ⟨offset, isOffset, rfl⟩
  refine ⟨initial_startsAt isInitial isOffset, areBytes, ?_⟩
  exact short.datas segment (List.mem_of_mem_filter (List.mem_of_mem_filter isSegment))

theorem Built.elementCopies_make {placements : List (Placement (Option String))}
    (short : module.ShortSegments)
    (placed : module.ElementsPlacedAs surroundings.global placements) :
    List.Forall₂ (C.ElementCopy.Makes surroundings) program.elementCopies placements := by
  have copies := Reads.mapM_eq_ok (elementCopy_reads module) built.elementCopies
  apply forall₂_chain copies.flip (forall₂_of_map_eq placed)
  intro copy _ segment isSegment placement isCopy isPlaced
  rcases Option.map_eq_some_iff.mp isPlaced with ⟨offset, isOffset, rfl⟩
  rcases elementCopy_eq_ok isCopy with ⟨⟨_, isInitial⟩, _⟩
  refine ⟨initial_startsAt isInitial isOffset, ?_, ?_⟩
  · apply map_eq_of_forall₂ ((elementCopy_elements module segment _).of_ok isCopy)
    intro reference element ⟨func, isFunc, isName, _⟩
    rw [isFunc, isName]
    rfl
  · rw [List.length_map]
    exact short.elements segment isSegment

/-- Setting up the memory is placing the data segments that are neither passive nor empty. -/
theorem Built.memorySetup_run {placements : List (Placement UInt8)}
    (single : module.memories.length ≤ 1) (short : module.ShortSegments)
    (placed : module.DatasPlacedAs surroundings.global placements) (memory : UInt64)
    (table : UInt32) :
    ((SetupState.start memory table).run surroundings program.memorySetup).placedBytes =
      place (module.memorySize memory).toNat (placements.filter (!·.items.isEmpty)) := by
  have sizes := built.memorySizes surroundings single memory table
  have isStart : ((SetupState.start memory table).run surroundings
      (program.memoryAllocation.toList.map .allocateMemory)).placedBytes = ⟨[], false⟩ := by
    cases program.memoryAllocation <;> rfl
  rcases Placed.mk.inj isStart with ⟨noBytes, running⟩
  rw [C.Program.memorySetup, SetupState.run_append,
    C.run_dataCopies (built.dataCopies_make short placed) running sizes, noBytes, List.nil_append]

theorem Built.tableSetup_run {placements : List (Placement (Option String))}
    (single : module.tables.length ≤ 1) (short : module.ShortSegments)
    (placed : module.ElementsPlacedAs surroundings.global placements) (memory : UInt64)
    (table : UInt32) :
    ((SetupState.start memory table).run surroundings program.tableSetup).placedElements =
      place (module.tableSize table).toNat placements := by
  have sizes := built.tableSizes surroundings single memory table
  have isStart : ((SetupState.start memory table).run surroundings
      (program.tableAllocation.toList.map .allocateTable)).placedElements = ⟨[], false⟩ := by
    cases program.tableAllocation <;> rfl
  rcases Placed.mk.inj isStart with ⟨noElements, running⟩
  have isDeclared : (SetupState.start memory table).run surroundings
      (if program.elementCopies.isEmpty then [] else [.declareOffset]) =
        SetupState.start memory table := by
    split <;> rfl
  rw [C.Program.tableSetup, SetupState.run_append, isDeclared, SetupState.run_append,
    C.run_elementCopies (built.elementCopies_make short placed) running sizes]
  rw [SetupState.placedElements, noElements, List.nil_append]

end

theorem emit_single {module : Module} {program : C.Program} (emitted : module.emit = .ok program) :
    module.memories.length ≤ 1 ∧ module.tables.length ≤ 1 := by
  rcases bind_eq_ok emitted with ⟨_, isChecked, _⟩
  exact (checkModule_single module).of_ok isChecked

end Emission

open Emission

/-- Setting up memory and table of a compiled module does what instantiation does with
its data segments that are neither passive nor empty, and with all of its element segments.
Here are the lines of the functions that do so, and what they do in any surroundings in which
offsets are integers of 32 bits. -/
theorem Module.setup_checks_segments {module : Module} {options : CompileOptions}
    {compiled : Compiled} (compiles : module.compile options = .ok compiled) :
    module.resolve.Applied compiled.module ∧ ∃ program, compiled.module.emit = .ok program ∧
      compiled.output = program.output compiled.headerName ∧
      (∀ printer : C.Printer, printer.datas program =
        (printer.each program.dataArrays C.Printer.dataArray).setup "init_memory"
          (·.setupLines program.memorySetup)) ∧
      (∀ printer : C.Printer, printer.table program =
        printer.setup "init_table" (·.setupLines program.tableSetup)) ∧
      ∀ (surroundings : C.Surroundings) (memory : UInt64) (table : UInt32),
        compiled.module.ShortSegments →
          (∀ placements, compiled.module.DatasPlacedAs surroundings.global placements →
            ((C.SetupState.start memory table).run surroundings
              program.memorySetup).placedBytes.Instantiates
                (compiled.module.memorySize memory).toNat
                (placements.filter (!·.items.isEmpty))) ∧
          ∀ placements, compiled.module.ElementsPlacedAs surroundings.global placements →
            ((C.SetupState.start memory table).run surroundings
              program.tableSetup).placedElements.Instantiates
                (compiled.module.tableSize table).toNat placements := by
  rcases compile_eq_ok compiles with ⟨isNamed, _, program, emitted, isOutput⟩
  rcases emit_built emitted with ⟨after, built⟩
  rcases emit_single emitted with ⟨singleMemory, singleTable⟩
  refine ⟨applyNames_applied isNamed, program, emitted, isOutput, (·.datas_eq program),
    (·.table_eq program), ?_⟩
  intro surroundings memory table short
  constructor
  · intro placements placed
    rw [built.memorySetup_run singleMemory short placed memory table]
    exact place_instantiates _ _
  · intro placements placed
    rw [built.tableSetup_run singleTable short placed memory table]
    exact place_instantiates _ _

/-- A module with a page of memory and a table for one function. The second segment for each of
them does not fit. -/
def overrunning : List UInt8 :=
  [0x00, 0x61, 0x73, 0x6D, 0x01, 0x00, 0x00, 0x00,
    -- The type `[] -> []`, a function of it, the table, and the memory.
    0x01, 0x04, 0x01, 0x60, 0x00, 0x00, 0x03, 0x02, 0x01, 0x00,
    0x04, 0x04, 0x01, 0x70, 0x00, 0x01, 0x05, 0x03, 0x01, 0x00, 0x01,
    -- The function at offset 0, and nothing at offset 2.
    0x09, 0x0C, 0x02, 0x00, 0x41, 0x00, 0x0B, 0x01, 0x00, 0x00, 0x41, 0x02, 0x0B, 0x00,
    0x0A, 0x04, 0x01, 0x02, 0x00, 0x0B,
    -- A byte at offset 0, and another at offset 65536.
    0x0B, 0x0F, 0x02, 0x00, 0x41, 0x00, 0x0B, 0x01, 0x41,
    0x00, 0x41, 0x80, 0x80, 0x04, 0x0B, 0x01, 0x42]

def C.Surroundings.empty : C.Surroundings where
  global _ := .i32 0
  cut _ := 0

/-- The first segments are written, and the second ones trap. -/
theorem Module.setup_checks_segments_overrunning : ∃ module compiled program,
    Binary.decode overrunning = .ok module ∧ module.compile {} = .ok compiled ∧
      compiled.module.emit = .ok program ∧
      ((C.SetupState.start 0 0).run .empty program.memorySetup).placedBytes =
        ⟨[(0x41, 0)], true⟩ ∧
      ((C.SetupState.start 0 0).run .empty program.tableSetup).placedElements =
        ⟨[(some "$f0", 0)], true⟩ := by
  rcases exists_of_run (Binary.decode overrunning)
      (fun module : Module => (module.compile {}).toOption.map fun compiled : Compiled => decide
        (compiled.module.ShortSegments ∧ compiled.module.memorySize 0 = 65536 ∧
          compiled.module.tableSize 0 = 1 ∧
          compiled.module.DatasPlacedAs C.Surroundings.empty.global
            [⟨0, [0x41]⟩, ⟨65536, [0x42]⟩] ∧
          compiled.module.ElementsPlacedAs C.Surroundings.empty.global
            [⟨0, [some "$f0"]⟩, ⟨2, []⟩]))
      (some true) (by decide +kernel) with ⟨module, accepted, shown⟩
  rcases exists_of_run (module.compile {}) _ _ shown with ⟨compiled, compiles, shown⟩
  rcases of_decide_eq_true shown with ⟨short, isMemory, isTable, datas, elements⟩
  rcases setup_checks_segments compiles with ⟨_, program, emitted, _, _, _, checks⟩
  have checked := checks .empty 0 0 short
  have isBytes := (checked.1 _ datas).result
  have areElements := (checked.2 _ elements).result
  rw [isMemory] at isBytes
  rw [isTable] at areElements
  exact ⟨module, compiled, program, accepted, compiles, emitted, isBytes, areElements⟩

/-- A module with a page of memory and an empty data segment at offset 65537. -/
def emptyOutside : List UInt8 :=
  [0x00, 0x61, 0x73, 0x6D, 0x01, 0x00, 0x00, 0x00, 0x05, 0x03, 0x01, 0x00, 0x01,
    0x0B, 0x08, 0x01, 0x00, 0x41, 0x81, 0x80, 0x04, 0x0B, 0x00]

/-- Instantiation traps, but setting up the memory does not. -/
theorem Module.setup_misses_empty_segment : ∃ module compiled program,
    Binary.decode emptyOutside = .ok module ∧ module.compile {} = .ok compiled ∧
      compiled.module.emit = .ok program ∧
      compiled.module.DatasPlacedAs C.Surroundings.empty.global [⟨65537, []⟩] ∧
      (place (compiled.module.memorySize 0).toNat [(⟨65537, []⟩ : Placement UInt8)]).trapped =
        true ∧
      ((C.SetupState.start 0 0).run .empty program.memorySetup).trapped = false := by
  rcases exists_of_run (Binary.decode emptyOutside)
      (fun module : Module => (module.compile {}).toOption.map fun compiled : Compiled => decide
        (compiled.module.ShortSegments ∧ compiled.module.memorySize 0 = 65536 ∧
          compiled.module.DatasPlacedAs C.Surroundings.empty.global [⟨65537, []⟩]))
      (some true) (by decide +kernel) with ⟨module, accepted, shown⟩
  rcases exists_of_run (module.compile {}) _ _ shown with ⟨compiled, compiles, shown⟩
  rcases of_decide_eq_true shown with ⟨short, isMemory, datas⟩
  rcases compile_eq_ok compiles with ⟨_, _, program, emitted, _⟩
  rcases emit_built emitted with ⟨after, built⟩
  have isBytes := built.memorySetup_run (emit_single emitted).1 short datas 0 0
  refine ⟨module, compiled, program, accepted, compiles, emitted, datas, ?_, ?_⟩
  · rw [isMemory]
    rfl
  · exact congrArg Placed.trapped isBytes

end WasmLowering
