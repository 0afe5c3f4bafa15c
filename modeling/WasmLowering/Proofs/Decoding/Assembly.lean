import Mathlib.Logic.Function.Basic
import WasmLowering.Proofs.Decoding.Framing

/-! A decoded module is put together from what its sections say.

Every section but a custom one says something by itself, once the types are known.
What the sections of a run say is collected as its `Contents`, which also tell the
module up to names. -/

namespace WasmLowering.Binary

/-! ## What a section says -/

namespace SectionId

@[reducible] def Content : SectionId → Type
  | custom => Unit
  | type => List FuncType
  | imports => List (Import × Decoder.Imported)
  | function => List Func
  | table => List Table
  | memory => List Memory
  | tag => List ExceptionTag
  | global => List Global
  | exports => List Export × Bindings
  | start => Reference
  | element => List (Option ElementSegment)
  | dataCount => UInt32
  | code => List (List ValueType × List Instr)
  | data => List DataSegment

open Decoder in
def Tells (types : List FuncType) : (id : SectionId) → List UInt8 → id.Content → Prop
  | custom => fun _ _ => False
  | type => Consumes (counted fun _ => typeEntry)
  | imports => Consumes (counted (importEntry types))
  | function => Consumes (counted fun _ => func types)
  | table => Consumes (counted fun _ => Decoder.table)
  | memory => Consumes (counted fun _ => Decoder.memory)
  | tag => Consumes (counted fun _ => Decoder.tag types)
  | global => Consumes (counted (globalEntry types))
  | exports => Consumes (do exportEntries (← u32).toNat 0 ∅)
  | start => Consumes reference
  | element => Consumes (counted fun number => locate (.segment number) (elementSegment types))
  | dataCount => Consumes u32
  | code => BodiesConsumed types
  | data => Consumes (counted (dataSegment types))

end SectionId

namespace Progress

def add (progress : Progress) : (id : SectionId) → id.Content → Progress
  | .custom, _ => progress
  | .type, types => { progress with module := { progress.module with types } }
  | .imports, entries => { progress with module := Module.addImports progress.module entries }
  | .function, funcs =>
      { progress with
        module := { progress.module with funcs := progress.module.funcs ++ funcs }
        declared := funcs.length }
  | .table, tables =>
      { progress with
        module := { progress.module with tables := progress.module.tables ++ tables } }
  | .memory, memories =>
      { progress with
        module := { progress.module with memories := progress.module.memories ++ memories } }
  | .tag, tags =>
      { progress with module := { progress.module with tags := progress.module.tags ++ tags } }
  | .global, globals =>
      { progress with
        module := { progress.module with globals := progress.module.globals ++ globals } }
  | .exports, (exports, exportBindings) =>
      { progress with module := { progress.module with exports, exportBindings } }
  | .start, start => { progress with module := { progress.module with starts := [start] } }
  | .element, segments =>
      { progress with
        module := { progress.module with elements := segments.filterMap fun segment => segment } }
  | .dataCount, _ => progress
  | .code, bodies =>
      { progress with
        module := Module.addBodies progress.module (progress.module.importCount .func) bodies
        bodies := bodies.length }
  | .data, datas => { progress with module := { progress.module with datas } }

end Progress

namespace Decoder

theorem exists_told {α : Type} {decoder : Decoder α} (steady : decoder.Steady)
    {build : α → Progress} {bytes : List UInt8} {after : Progress}
    (read : Consumes (decoder >>= fun content => pure (build content)) bytes after) :
    ∃ content, decoder.Consumes bytes content ∧ after = build content := by
  rcases (Consumes.bind_pure_iff steady).mp read with ⟨content, told, rfl⟩
  exact ⟨content, told, rfl⟩

theorem sectionContents_tells {id : SectionId} (notCustom : id ≠ .custom) {before after : Progress}
    {bytes : List UInt8} (unbound : before.module.exportBindings = ∅ ∨ id ≠ .exports)
    (read : (sectionContents id before).Consumes bytes after) :
    ∃ content, id.Tells before.module.types bytes content ∧ after = before.add id content := by
  cases id with
  | custom => exact absurd rfl notCustom
  | type => exact exists_told (counted_steady fun _ => typeEntry_steady) read
  | imports => exact exists_told (counted_steady (importEntry_steady _)) read
  | function => exact exists_told (counted_steady fun _ => func_steady _) read
  | table => exact exists_told (counted_steady fun _ => table_steady) read
  | memory => exact exists_told (counted_steady fun _ => memory_steady) read
  | tag => exact exists_told (counted_steady fun _ => tag_steady _) read
  | global => exact exists_told (counted_steady (globalEntry_steady _)) read
  | exports =>
      rcases bind_eq_ok_iff.mp (read 0) with ⟨count, behind, isCount, ran⟩
      rcases bind_eq_ok_iff.mp ran with ⟨content, last, isContent, isAfter⟩
      rcases pure_eq_ok_iff.mp isAfter with ⟨rfl, rfl⟩
      rw [unbound.resolve_right (not_not.mpr rfl)] at isContent
      have steady : Steady (do exportEntries (← u32).toNat 0 ∅) :=
        u32_steady.bind fun _ => exportEntries_steady _ _ _
      refine ⟨content, ?_, rfl⟩
      exact steady.consumes (bind_eq_ok_iff.mpr ⟨count, behind, isCount, isContent⟩) rfl
  | start =>
      rcases exists_told u32_steady read with ⟨position, told, isAfter⟩
      refine ⟨.index position, ?_, isAfter⟩
      exact (Consumes.bind_pure_iff u32_steady).mpr ⟨position, told, rfl⟩
  | element => exact exists_told (counted_steady fun _ => (elementSegment_steady _).locate _) read
  | dataCount => exact exists_told u32_steady read
  | code =>
      rcases code_consumes read with ⟨results, told, _, isAfter⟩
      exact ⟨results, told, isAfter⟩
  | data => exact exists_told (counted_steady (dataSegment_steady _)) read

end Decoder

/-! ## What all sections say -/

abbrev Contents := (id : SectionId) → Option id.Content

namespace Contents

def types (contents : Contents) : List FuncType := (contents .type).getD []
def entries (contents : Contents) : List (Import × Decoder.Imported) := (contents .imports).getD []
def funcs (contents : Contents) : List Func := (contents .function).getD []
def tables (contents : Contents) : List Table := (contents .table).getD []
def memories (contents : Contents) : List Memory := (contents .memory).getD []
def tags (contents : Contents) : List ExceptionTag := (contents .tag).getD []
def globals (contents : Contents) : List Global := (contents .global).getD []
def exports (contents : Contents) : List Export × Bindings := (contents .exports).getD ([], ∅)
def starts (contents : Contents) : List Reference := (contents .start).toList
def segments (contents : Contents) : List (Option ElementSegment) := (contents .element).getD []
def bodies (contents : Contents) : List (List ValueType × List Instr) := (contents .code).getD []
def datas (contents : Contents) : List DataSegment := (contents .data).getD []

def declared (contents : Contents) : Module :=
  let imported := Module.addImports { types := contents.types } contents.entries
  { imported with
    funcs := imported.funcs ++ contents.funcs
    tables := imported.tables ++ contents.tables
    memories := imported.memories ++ contents.memories
    tags := imported.tags ++ contents.tags
    globals := imported.globals ++ contents.globals
    exports := contents.exports.1
    exportBindings := contents.exports.2
    starts := contents.starts
    elements := contents.segments.filterMap fun segment => segment
    datas := contents.datas }

def module (contents : Contents) : Module :=
  match contents .code with
  | none => contents.declared
  | some bodies =>
      Module.addBodies contents.declared (contents.declared.importCount .func) bodies

theorem module_view {α : Type} (view : Module → α)
    (kept : ∀ module first bodies, view (Module.addBodies module first bodies) = view module)
    (contents : Contents) : view contents.module = view contents.declared := by
  unfold module
  split
  · rfl
  · exact kept _ _ _

@[simp] theorem module_types (contents : Contents) : contents.module.types = contents.types :=
  module_view WasmLowering.Module.types (fun _ _ _ => rfl) contents

@[simp] theorem module_exportBindings (contents : Contents) :
    contents.module.exportBindings = contents.exports.2 :=
  module_view WasmLowering.Module.exportBindings (fun _ _ _ => rfl) contents

def Read (contents : Contents) (frames : List Frame) : Prop :=
  ∀ id, id ≠ .custom →
    match contents id with
    | none => ∀ frame ∈ frames, frame.kind? ≠ some id
    | some content => ∃ frame ∈ frames, frame.kind? = some id ∧
        id.Tells contents.types frame.contents content

def progress (contents : Contents) (order : Nat) : Progress :=
  ⟨contents.module, order, contents.funcs.length, contents.bodies.length⟩

/-- A section adds what it says, if it and the later ones have said nothing yet. -/
theorem add_update {contents : Contents} {id : SectionId}
    (absent : ∀ other, id.order ≤ other.order → contents other = none) (notCustom : id ≠ .custom)
    (content : id.Content) (order : Nat) :
    ((contents.progress order).add id content) =
      Contents.progress (Function.update contents id (some content)) order := by
  cases id with
  | custom => exact absurd rfl notCustom
  | data =>
      cases isCode : contents .code <;>
        simp [progress, Progress.add, module, declared, types, entries, funcs, tables, memories,
          tags, globals, exports, starts, segments, bodies, datas, isCode, Module.addImports]
      rfl
  | _ =>
      simp (disch := decide) [progress, Progress.add, module, declared, types, entries, funcs,
        tables, memories, tags, globals, exports, starts, segments, bodies, datas, absent,
        Module.addImports]

theorem Read.mem {contents : Contents} {frames : List Frame} (read : contents.Read frames)
    {id : SectionId} (notCustom : id ≠ .custom) {content : id.Content}
    (isContent : contents id = some content) :
    ∃ frame ∈ frames, frame.kind? = some id ∧ id.Tells contents.types frame.contents content := by
  have given := read id notCustom
  rwa [isContent] at given

theorem Read.custom {contents : Contents} {frames : List Frame} (read : contents.Read frames)
    {frame : Frame} (isCustom : frame.kind? = some .custom) :
    contents.Read (frames ++ [frame]) := by
  intro id notCustom
  have given := read id notCustom
  cases isContent : contents id with
  | none =>
      rw [isContent] at given
      refine List.forall_mem_append.mpr ⟨given, List.forall_mem_singleton.mpr ?_⟩
      rw [isCustom]
      exact fun isId => notCustom (Option.some.inj isId).symm
  | some content =>
      rw [isContent] at given
      rcases given with ⟨other, member, isId, told⟩
      exact ⟨other, List.mem_append_left _ member, isId, told⟩

theorem Read.update {contents : Contents} {frames : List Frame} (read : contents.Read frames)
    {frame : Frame} {id : SectionId} (isId : frame.kind? = some id)
    (absent : ∀ other, id.order ≤ other.order → contents other = none) {content : id.Content}
    (told : id.Tells contents.types frame.contents content) :
    Read (Function.update contents id (some content)) (frames ++ [frame]) := by
  have sameTypes : id ≠ .type →
      types (Function.update contents id (some content)) = contents.types := by
    intro notType
    rw [types, types, Function.update_of_ne notType.symm]
  intro other notCustom
  by_cases isOther : other = id
  · subst isOther
    rw [Function.update_self]
    refine ⟨frame, by simp, isId, ?_⟩
    by_cases isType : other = .type
    · subst isType
      exact told
    · rwa [sameTypes isType]
  · rw [Function.update_of_ne isOther]
    have given := read other notCustom
    cases isContent : contents other with
    | none =>
        rw [isContent] at given
        refine List.forall_mem_append.mpr ⟨given, List.forall_mem_singleton.mpr ?_⟩
        rw [isId]
        exact fun same => isOther (Option.some.inj same).symm
    | some otherContent =>
        have notType : id ≠ .type := by
          rintro rfl
          have first : SectionId.type.order ≤ other.order := by
            cases other <;> first | decide | exact absurd rfl notCustom
          rw [absent other first] at isContent
          cases isContent
        rw [isContent] at given
        rcases given with ⟨found, member, isFound, otherTold⟩
        refine ⟨found, List.mem_append_left _ member, isFound, ?_⟩
        rwa [sameTypes notType]

end Contents

structure Assembled (frames : List Frame) (progress : Progress) (contents : Contents) : Prop where
  read : contents.Read frames
  reached : ∀ frame ∈ frames, ∀ id, frame.kind? = some id → id.order ≤ progress.order
  progress : progress.unnamed = (contents.progress progress.order).unnamed

namespace Assembled

theorem absent {frames : List Frame} {progress : Progress} {contents : Contents}
    (assembled : Assembled frames progress contents) {id : SectionId}
    (later : progress.order < id.order) : contents id = none := by
  cases isContent : contents id with
  | none => rfl
  | some content =>
      have notCustom : id ≠ .custom := by
        rintro rfl
        exact absurd later (Nat.not_lt_zero _)
      rcases assembled.read.mem notCustom isContent with ⟨frame, member, isId, _⟩
      exact absurd (assembled.reached frame member id isId) (Nat.not_le.mpr later)

theorem step {frames : List Frame} {before after : Progress} {contents : Contents} {frame : Frame}
    (assembled : Assembled frames before contents) (step : Step before frame after) :
    ∃ next, Assembled (frames ++ [frame]) after next := by
  cases step with
  | custom isCustom named same =>
      have sameOrder : after.unnamed.order = before.unnamed.order := congrArg Progress.order same
      have sameOrder : after.order = before.order := sameOrder
      refine ⟨contents, assembled.read.custom isCustom, ?_, ?_⟩
      · rw [sameOrder]
        refine List.forall_mem_append.mpr ⟨assembled.reached, List.forall_mem_singleton.mpr ?_⟩
        intro id isId
        rw [isCustom] at isId
        cases isId
        exact Nat.zero_le _
      · rw [same, sameOrder, assembled.progress]
  | other id isId notCustom later read =>
      have absent : ∀ other, id.order ≤ other.order → contents other = none :=
        fun other after => assembled.absent (Nat.lt_of_lt_of_le later after)
      have unbound : contents.module.exportBindings = ∅ ∨ id ≠ .exports := by
        by_cases isExports : id = .exports
        · subst isExports
          rw [Contents.module_exportBindings, Contents.exports, absent _ (Nat.le_refl _)]
          exact .inl rfl
        · exact .inr isExports
      -- The section is read as it would be without any names.
      have same : ({ before with order := id.order } : Progress).unnamed =
          (contents.progress id.order).unnamed :=
        congrArg (fun progress => { progress with order := id.order }) assembled.progress
      rcases Decoder.sectionContents_alike same (read 0) with ⟨result, ran, sameResult⟩
      have consumed := (Decoder.sectionContents_steady notCustom _).consumes ran rfl
      rcases Decoder.sectionContents_tells notCustom unbound consumed with
        ⟨content, told, rfl⟩
      have isOrder : after.order = id.order := Decoder.sectionContents_order id _ _ _ _ (read 0)
      rw [Contents.add_update absent notCustom] at sameResult
      refine ⟨Function.update contents id (some content), ?_, ?_, ?_⟩
      · exact assembled.read.update isId absent (contents.module_types ▸ told)
      · rw [isOrder]
        refine List.forall_mem_append.mpr ⟨?_, List.forall_mem_singleton.mpr ?_⟩
        · intro other member found isFound
          exact Nat.le_trans (assembled.reached other member found isFound) (Nat.le_of_lt later)
        · intro found isFound
          rw [isId] at isFound
          cases isFound
          exact Nat.le_refl _
      · rw [isOrder]
        exact sameResult.symm

theorem run {frames more : List Frame} {before after : Progress} {contents : Contents}
    (assembled : Assembled frames before contents) (run : Run before more after) :
    ∃ final, Assembled (frames ++ more) after final := by
  induction run generalizing frames contents with
  | done => exact ⟨contents, by simpa using assembled⟩
  | @step before between after frame others first _ induction =>
      rcases assembled.step first with ⟨next, assembledNext⟩
      rcases induction assembledNext with ⟨final, assembledFinal⟩
      exact ⟨final, by simpa using assembledFinal⟩

theorem start : Assembled [] {} fun _ => none where
  read _ _ := nofun
  reached := nofun
  progress := rfl

end Assembled

/-- A decoded module is what its sections say, up to names. There is a body for every
function that it declares. -/
theorem decode_assembled {bytes : List UInt8} {module : Module}
    (accepted : decode bytes = .ok module) :
    ∃ (frames : List Frame) (contents : Contents),
      bytes = Encode.header ++ frames.flatMap Frame.bytes ∧ contents.Read frames ∧
      contents.bodies.length = contents.funcs.length ∧
      module.unnamed = contents.module.unnamed := by
  rcases decode_run accepted with ⟨frames, final, isBytes, run, complete, rfl⟩
  rcases Assembled.start.run run with ⟨contents, assembled⟩
  have complete := Progress.complete_of_unnamed assembled.progress.symm complete
  exact ⟨frames, contents, isBytes, assembled.read, complete,
    congrArg Progress.module assembled.progress⟩

end WasmLowering.Binary
