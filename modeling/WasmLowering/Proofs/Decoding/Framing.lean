import WasmLowering.Binary.Encode
import WasmLowering.Proofs.Decoding.Erasure
import WasmLowering.Proofs.Decoding.Steadiness
import WasmLowering.Proofs.Results

/-! How the sections of a module follow each other.

A *frame* is a section as it stands in the bytes of a module. `Step` says all that
one section can do to the module read so far, and `Run` what a sequence of sections
can do. Decoding succeeds exactly on the header with the frames of a run behind it,
and its result is that of the run up to names. -/

namespace WasmLowering.Binary

/-! ## Frames -/

/-- A section: its identifier, and its contents behind their size. -/
structure Frame where
  id : UInt8
  payload : Decoder.Sized

namespace Frame

def bytes (frame : Frame) : List UInt8 := frame.id :: frame.payload.bytes

def kind? (frame : Frame) : Option SectionId := SectionId.ofByte? frame.id

def contents (frame : Frame) : List UInt8 := frame.payload.contents

def Named (frame : Frame) : Prop :=
  ∃ (title : Decoder.Sized) (text : String) (rest : List UInt8),
    frame.contents = title.bytes ++ rest ∧ title.contents.toByteArray = text.toUTF8

theorem flatMap_bytes_append_inj {frames all : List Frame} {tail : List UInt8}
    (same : frames.flatMap bytes ++ tail = all.flatMap bytes) :
    ∃ more, all = frames ++ more ∧ tail = more.flatMap bytes := by
  induction frames generalizing all with
  | nil => exact ⟨all, rfl, same⟩
  | cons frame frames induction =>
      cases all with
      | nil => simp [bytes] at same
      | cons first others =>
          simp only [List.flatMap_cons, bytes, List.cons_append, List.append_assoc,
            List.cons.injEq] at same
          rcases same with ⟨sameId, same⟩
          rcases Decoder.Sized.append_inj same with ⟨samePayload, sameRest⟩
          rcases induction sameRest with ⟨more, rfl, isTail⟩
          refine ⟨more, ?_, isTail⟩
          cases frame
          cases first
          simp_all

end Frame

/-! ## Steps and runs -/

/-- What a section can do. A custom one begins with a name and may change names. Any
other one comes later in the order than those before it, and its contents are read to
the last byte. -/
inductive Step (before : Progress) (frame : Frame) (after : Progress) : Prop where
  | custom (isCustom : frame.kind? = some .custom) (named : frame.Named)
      (same : after.unnamed = before.unnamed)
  | other (id : SectionId) (isId : frame.kind? = some id) (notCustom : id ≠ .custom)
      (later : before.order < id.order)
      (read : (Decoder.sectionContents id { before with order := id.order }).Consumes
        frame.contents after)

inductive Run : Progress → List Frame → Progress → Prop where
  | done (progress : Progress) : Run progress [] progress
  | step {before between after : Progress} {frame : Frame} {frames : List Frame}
      (first : Step before frame between) (others : Run between frames after) :
      Run before (frame :: frames) after

namespace Decoder

/-! ## One section -/

theorem sectionContents_steady {id : SectionId} (notCustom : id ≠ .custom) (progress : Progress) :
    (sectionContents id progress).Steady := by
  cases id with
  | custom => exact absurd rfl notCustom
  | type => exact .bind (counted_steady fun _ => typeEntry_steady) fun _ => .pure _
  | imports => exact .bind (counted_steady (importEntry_steady _)) fun _ => .pure _
  | function => exact .bind (counted_steady fun _ => func_steady _) fun _ => .pure _
  | table => exact .bind (counted_steady fun _ => table_steady) fun _ => .pure _
  | memory => exact .bind (counted_steady fun _ => memory_steady) fun _ => .pure _
  | tag => exact .bind (counted_steady fun _ => tag_steady _) fun _ => .pure _
  | global => exact .bind (counted_steady (globalEntry_steady _)) fun _ => .pure _
  | exports => exact u32_steady.bind fun _ => (exportEntries_steady _ _ _).bind fun _ => .pure _
  | start => exact u32_steady.bind fun _ => .pure _
  | element =>
      exact .bind (counted_steady fun _ => (elementSegment_steady _).locate _) fun _ => .pure _
  | dataCount => exact u32_steady.bind fun _ => .pure _
  | code =>
      refine u32_steady.bind fun count => .ite (.throw _) ?_
      exact .bind (.repeated (fun _ => (sizedBody_exact _ _).steady) _ _) fun _ => .pure _
  | data => exact .bind (counted_steady (dataSegment_steady _)) fun _ => .pure _

theorem sectionBody_eq_ok_iff {id : SectionId} {contents reader last : Reader}
    {before after : Progress} :
    sectionBody id contents before reader = .ok after last ↔
      ∃ left, sectionContents id before contents = .ok after left ∧
        (id ≠ .custom → left.rest = []) ∧ last = reader := by
  unfold sectionBody
  rw [bind_eq_ok_iff]
  constructor
  · rintro ⟨⟨result, left⟩, between, isResult, ran⟩
    rcases inside_eq_ok_iff.mp isResult with ⟨isContents, rfl⟩
    dsimp only at ran
    split at ran
    · cases ran
    · next used =>
        rcases pure_eq_ok_iff.mp ran with ⟨rfl, rfl⟩
        refine ⟨left, locate_eq_ok_iff.mp isContents, fun notCustom => ?_, rfl⟩
        simpa [notCustom, Reader.atEnd] using used
  · rintro ⟨left, isContents, used, rfl⟩
    refine ⟨(after, left), last, inside_eq_ok_iff.mpr ⟨locate_eq_ok_iff.mpr isContents, rfl⟩, ?_⟩
    have noError : ¬(id ≠ .custom && !left.atEnd) = true := by
      simpa [Reader.atEnd] using used
    dsimp only
    rw [if_neg noError]
    rfl

/-- Up to names, a custom section succeeds if it begins with a name, and does nothing. -/
theorem sectionContents_custom_eq_ok_iff {frame : Frame} {before result : Progress} {start : Nat} :
    (∃ left, (Progress.unnamed <$> sectionContents .custom before) ⟨start, frame.contents⟩ =
      .ok result left) ↔ frame.Named ∧ result = before.unnamed := by
  rw [sectionContents_custom]
  constructor
  · rintro ⟨left, ran⟩
    rcases bind_eq_ok_iff.mp ran with ⟨text, between, isName, isResult⟩
    rcases pure_eq_ok_iff.mp isResult with ⟨rfl, rfl⟩
    rcases (name_exact _ _ _ _).mp isName with ⟨used, rest, isContents, ⟨title, rfl, isText⟩, rfl⟩
    exact ⟨⟨title, text, rest, isContents, isText⟩, rfl⟩
  · rintro ⟨⟨title, text, rest, isContents, isText⟩, rfl⟩
    rw [isContents]
    exact ⟨_, bind_eq_ok_iff.mpr ⟨text, _, name_exact.reads ⟨title, rfl, isText⟩ start rest, rfl⟩⟩

def entered (before : Progress) : SectionId → Progress
  | .custom => before
  | id => { before with order := id.order }

theorem entered_of_ne {id : SectionId} (notCustom : id ≠ .custom) (before : Progress) :
    entered before id = { before with order := id.order } := by
  cases id with
  | custom => exact absurd rfl notCustom
  | _ => rfl

theorem ordered_eq_ok_iff {first : UInt8} {id : SectionId}
    (isId : SectionId.ofByte? first = some id)
    {before result : Progress} {next : Progress → Decoder Progress} {reader after : Reader} :
    (match SectionId.ofByte? first with
      | some .custom => pure before >>= next
      | some id =>
          if id.order ≤ before.order then throw (.sectionOrder first) >>= next
          else pure { before with order := id.order } >>= next
      | none => pure before >>= next : Decoder Progress) reader = .ok result after ↔
      (id ≠ .custom → before.order < id.order) ∧
        next (entered before id) reader = .ok result after := by
  have check : ∀ other : Progress, (if id.order ≤ before.order then
        throw (.sectionOrder first) >>= next
      else pure other >>= next : Decoder Progress) reader = .ok result after ↔
      before.order < id.order ∧ next other reader = .ok result after := by
    intro other
    split
    · next early =>
        simp only [Nat.not_lt.mpr early, false_and, iff_false]
        exact not_throw_eq_ok
    · next late => simp [Nat.lt_of_not_le late]
  rw [isId]
  cases id with
  | custom => simp [entered]
  | _ => simpa [entered] using check _

theorem sectionStep_eq_ok_iff {before after : Progress} {start : Nat} {bytes : List UInt8}
    {reader : Reader} :
    sectionStep before ⟨start, bytes⟩ = .ok after reader ↔
      ∃ (frame : Frame) (id : SectionId) (rest : List UInt8) (left : Reader),
        bytes = frame.bytes ++ rest ∧ frame.kind? = some id ∧
        (id ≠ .custom → before.order < id.order) ∧
        sectionContents id (entered before id)
          ⟨start + 1 + frame.payload.size.length, frame.contents⟩ = .ok after left ∧
        (id ≠ .custom → left.rest = []) ∧ reader = ⟨start + frame.bytes.length, rest⟩ := by
  unfold sectionStep
  rw [bind_eq_ok_iff]
  constructor
  · rintro ⟨first, behind, isFirst, ran⟩
    rcases (byte_exact _ _ _ _).mp isFirst with ⟨_, others, rfl, rfl, rfl⟩
    cases isId : SectionId.ofByte? first with
    | none =>
        dsimp only at ran
        rw [isId] at ran
        rcases bind_eq_ok_iff.mp ran with ⟨same, _, _, ran⟩
        rcases bind_eq_ok_iff.mp ran with ⟨size, behindSize, isSize, ran⟩
        rcases bind_eq_ok_iff.mp ran with ⟨inner, behindInner, isInner, fails⟩
        cases fails
    | some id =>
        rcases (ordered_eq_ok_iff isId).mp ran with ⟨later, ran⟩
        rcases bind_eq_ok_iff.mp ran with ⟨size, behindSize, isSize, ran⟩
        rcases bind_eq_ok_iff.mp ran with ⟨inner, behindInner, isInner, ran⟩
        rw [locateBy_eq_ok_iff] at isSize isInner
        rw [isId] at ran
        rcases sized_of_ok isSize isInner with ⟨payload, rest, rfl, rfl, rfl⟩
        rcases sectionBody_eq_ok_iff.mp ran with ⟨left, isContents, used, rfl⟩
        refine ⟨⟨first, payload⟩, id, rest, left, rfl, isId, later, isContents, used, ?_⟩
        simp [Frame.bytes, Nat.add_assoc, Nat.add_comm]
  · rintro ⟨⟨first, payload⟩, id, rest, left, rfl, isId, later, isContents, used, rfl⟩
    have isId : SectionId.ofByte? first = some id := isId
    rcases payload.reads (start + 1) rest with ⟨size, behind, isSize, isInner⟩
    refine ⟨first, ⟨start + 1, payload.bytes ++ rest⟩, rfl, ?_⟩
    refine (ordered_eq_ok_iff isId).mpr ⟨later, ?_⟩
    refine bind_eq_ok_iff.mpr ⟨size, behind, locateBy_eq_ok_iff.mpr isSize, ?_⟩
    refine bind_eq_ok_iff.mpr ⟨_, _, locateBy_eq_ok_iff.mpr isInner, ?_⟩
    rw [isId]
    refine sectionBody_eq_ok_iff.mpr ⟨left, isContents, used, ?_⟩
    simp [Frame.bytes, Nat.add_assoc, Nat.add_comm]

theorem sectionStep_step {before after : Progress} {start : Nat} {bytes : List UInt8}
    {reader : Reader} (ran : sectionStep before ⟨start, bytes⟩ = .ok after reader) :
    ∃ (frame : Frame) (rest : List UInt8), bytes = frame.bytes ++ rest ∧
      reader = ⟨start + frame.bytes.length, rest⟩ ∧ Step before frame after := by
  rcases sectionStep_eq_ok_iff.mp ran with
    ⟨frame, id, rest, left, isBytes, isId, later, isContents, used, isReader⟩
  refine ⟨frame, rest, isBytes, isReader, ?_⟩
  by_cases isCustom : id = .custom
  · subst isCustom
    have unnamed := sectionContents_custom_eq_ok_iff.mp
      ⟨left, map_eq_ok_iff.mpr ⟨after, isContents, rfl⟩⟩
    exact .custom isId unnamed.1 unnamed.2
  · rw [entered_of_ne isCustom] at isContents
    refine .other id isId isCustom (later isCustom) ?_
    exact (sectionContents_steady isCustom _).consumes isContents (used isCustom)

theorem sectionStep_of_step {before after : Progress} {frame : Frame}
    (step : Step before frame after) (start : Nat) (rest : List UInt8) :
    ∃ result, sectionStep before ⟨start, frame.bytes ++ rest⟩ =
      .ok result ⟨start + frame.bytes.length, rest⟩ ∧ result.unnamed = after.unnamed := by
  cases step with
  | custom isCustom named same =>
      rcases sectionContents_custom_eq_ok_iff.mpr ⟨named, rfl⟩ with ⟨left, ran⟩
      rcases map_eq_ok_iff.mp ran with ⟨result, isContents, sameResult⟩
      refine ⟨result, sectionStep_eq_ok_iff.mpr ?_, sameResult.trans same.symm⟩
      exact ⟨frame, .custom, rest, left, rfl, isCustom, by simp, isContents, by simp, rfl⟩
  | other id isId notCustom later read =>
      refine ⟨after, sectionStep_eq_ok_iff.mpr ?_, rfl⟩
      rw [← entered_of_ne notCustom] at read
      exact ⟨frame, id, rest, _, rfl, isId, fun _ => later, read _, fun _ => rfl, rfl⟩

end Decoder

theorem Step.alike {before after other : Progress} {frame : Frame} (step : Step before frame after)
    (same : before.unnamed = other.unnamed) :
    ∃ result, Step other frame result ∧ result.unnamed = after.unnamed := by
  cases step with
  | custom isCustom named kept => exact ⟨other, .custom isCustom named rfl, (kept.trans same).symm⟩
  | other id isId notCustom later read =>
      have sameOrder : before.unnamed.order = other.unnamed.order := congrArg Progress.order same
      have sameEntered : ({ before with order := id.order } : Progress).unnamed =
          ({ other with order := id.order } : Progress).unnamed :=
        congrArg (fun progress => { progress with order := id.order }) same
      rcases Decoder.sectionContents_alike sameEntered (read 0) with ⟨result, ran, sameResult⟩
      refine ⟨result, .other id isId notCustom (sameOrder ▸ later) ?_, sameResult⟩
      exact (Decoder.sectionContents_steady notCustom _).consumes ran rfl

/-! ## All sections -/

namespace Decoder

theorem sections_cons (fuel : Nat) (before : Progress) (start : Nat) (first : UInt8)
    (others : List UInt8) :
    sections (fuel + 1) before ⟨start, first :: others⟩ =
      (sectionStep before >>= sections fuel) ⟨start, first :: others⟩ := rfl

theorem sections_run {fuel start : Nat} {bytes : List UInt8} {before after : Progress}
    {reader : Reader} (enough : bytes.length ≤ fuel)
    (ran : sections fuel before ⟨start, bytes⟩ = .ok after reader) :
    ∃ frames : List Frame, bytes = frames.flatMap Frame.bytes ∧ Run before frames after := by
  induction fuel generalizing start bytes before with
  | zero =>
      rcases pure_eq_ok_iff.mp ran with ⟨rfl, rfl⟩
      exact ⟨[], List.length_eq_zero_iff.mp (Nat.le_zero.mp enough), .done _⟩
  | succ fuel induction =>
      cases bytes with
      | nil =>
          rcases pure_eq_ok_iff.mp ran with ⟨rfl, rfl⟩
          exact ⟨[], rfl, .done _⟩
      | cons first others =>
          rw [sections_cons] at ran
          rcases bind_eq_ok_iff.mp ran with ⟨between, behind, isStep, later⟩
          rcases sectionStep_step isStep with ⟨frame, rest, isBytes, rfl, step⟩
          have shorter : rest.length ≤ fuel := by
            have length := congrArg List.length isBytes
            simp only [Frame.bytes, List.length_cons, List.length_append] at enough length
            omega
          rcases induction shorter later with ⟨frames, rfl, run⟩
          exact ⟨frame :: frames, isBytes, .step step run⟩

/-- The sections of a run can be read, from any module that has other names only. -/
theorem sections_of_run {before after other : Progress} {frames : List Frame}
    (run : Run before frames after) (same : before.unnamed = other.unnamed) {fuel : Nat}
    (enough : (frames.flatMap Frame.bytes).length ≤ fuel) (start : Nat) :
    ∃ result left, sections fuel other ⟨start, frames.flatMap Frame.bytes⟩ = .ok result left ∧
      result.unnamed = after.unnamed := by
  induction run generalizing other fuel start with
  | done progress =>
      cases fuel with
      | zero => exact ⟨other, _, rfl, same.symm⟩
      | succ fuel => exact ⟨other, _, rfl, same.symm⟩
  | @step before between after frame frames first others induction =>
      rcases first.alike same with ⟨_, step, sameStep⟩
      rw [List.flatMap_cons] at enough ⊢
      rcases sectionStep_of_step step start (frames.flatMap Frame.bytes) with
        ⟨next, isStep, sameNext⟩
      cases fuel with
      | zero => simp [Frame.bytes] at enough
      | succ fuel =>
          have shorter : (frames.flatMap Frame.bytes).length ≤ fuel := by
            simp only [Frame.bytes, List.length_cons, List.length_append] at enough
            omega
          rcases induction (sameNext.trans sameStep).symm shorter (start + frame.bytes.length) with
            ⟨result, left, later, sameResult⟩
          have ran : (sectionStep other >>= sections fuel) _ = _ :=
            bind_eq_ok_iff.mpr ⟨next, _, isStep, later⟩
          exact ⟨result, left, ran, sameResult⟩

/-! ## Whole modules -/

theorem header_eq : Encode.header =
    Encode.littleEndian 4 magic.toNat ++ Encode.littleEndian 4 version.toNat := by decide

theorem headerWord_exact :
    headerWord.Exact fun used word => used = Encode.littleEndian 4 word.toNat := by
  intro start bytes word after
  rw [headerWord, locateBy_eq_ok_iff]
  exact word32_exact start bytes word after

theorem module_eq_ok_iff {bytes : List UInt8} {module : Module} {after : Reader} :
    Decoder.module (Reader.ofBytes bytes) = .ok module after ↔
      ∃ contents progress, bytes = Encode.header ++ contents ∧
        sections contents.length {} ⟨8, contents⟩ = .ok progress after ∧
        progress.bodies = progress.declared ∧ progress.module = module := by
  rw [header_eq]
  constructor
  · intro ran
    rcases bind_eq_ok_iff.mp ran with ⟨first, _, isFirst, ran⟩
    rcases (headerWord_exact _ _ _ _).mp isFirst with ⟨_, others, rfl, rfl, rfl⟩
    split at ran
    · cases ran
    · next isMagic =>
        rcases bind_eq_ok_iff.mp ran with ⟨second, _, isSecond, ran⟩
        rcases (headerWord_exact _ _ _ _).mp isSecond with ⟨_, contents, rfl, rfl, rfl⟩
        split at ran
        · cases ran
        · next isVersion =>
            rcases bind_eq_ok_iff.mp ran with ⟨left, _, isLeft, ran⟩
            rcases remaining_eq_ok_iff.mp isLeft with ⟨rfl, rfl⟩
            rcases bind_eq_ok_iff.mp ran with ⟨progress, _, isProgress, ran⟩
            split at ran
            · cases ran
            · next complete =>
                rcases pure_eq_ok_iff.mp ran with ⟨rfl, rfl⟩
                rw [not_not] at isMagic isVersion complete
                refine ⟨contents, progress, ?_, ?_, complete, rfl⟩
                · rw [isMagic, isVersion, List.append_assoc]
                · simpa using isProgress
  · rintro ⟨contents, progress, rfl, ran, complete, rfl⟩
    rw [List.append_assoc]
    refine bind_eq_ok_iff.mpr ⟨magic, _, headerWord_exact.reads rfl 0 _, ?_⟩
    refine bind_eq_ok_iff.mpr ⟨version, _, headerWord_exact.reads rfl _ _, ?_⟩
    refine bind_eq_ok_iff.mpr ⟨_, _, remaining_eq_ok_iff.mpr ⟨rfl, rfl⟩, ?_⟩
    refine bind_eq_ok_iff.mpr ⟨progress, after, ran, ?_⟩
    rw [if_neg (not_not.mpr complete)]
    rfl

end Decoder

/-- The bytes of a decoded module are the header and the frames of a run. -/
theorem decode_run {bytes : List UInt8} {module : Module} (accepted : decode bytes = .ok module) :
    ∃ frames final, bytes = Encode.header ++ frames.flatMap Frame.bytes ∧ Run {} frames final ∧
      final.bodies = final.declared ∧ final.module = module := by
  unfold decode at accepted
  split at accepted
  · next ran =>
      cases accepted
      rcases Decoder.module_eq_ok_iff.mp ran with ⟨contents, final, rfl, isFinal, complete, isModule⟩
      rcases Decoder.sections_run (Nat.le_refl _) isFinal with ⟨frames, rfl, run⟩
      exact ⟨frames, final, rfl, run, complete, isModule⟩
  · cases accepted

/-- The header and the frames of a run decode, up to names, to what the run gives. -/
theorem decode_of_run {frames : List Frame} {final : Progress} (run : Run {} frames final)
    (complete : final.bodies = final.declared) :
    ∃ module, decode (Encode.header ++ frames.flatMap Frame.bytes) = .ok module ∧
      module.unnamed = final.module.unnamed := by
  rcases Decoder.sections_of_run run rfl (Nat.le_refl _) 8 with ⟨result, left, ran, same⟩
  have accepted := Decoder.module_eq_ok_iff.mpr
    ⟨_, result, rfl, ran, Progress.complete_of_unnamed same complete, rfl⟩
  refine ⟨result.module, ?_, congrArg Progress.module same⟩
  unfold decode
  rw [accepted]

/-! ## The order of sections -/

def SectionId.canonical : List SectionId :=
  [.type, .imports, .function, .table, .memory, .tag, .global, .exports, .start, .element,
    .dataCount, .code, .data]

theorem SectionId.cons_sublist_canonical {id : SectionId} (notCustom : id ≠ .custom) {least : Nat}
    (later : least < id.order) :
    (id :: canonical.filter (id.order < ·.order)).Sublist (canonical.filter (least < ·.order)) := by
  have here : (id :: canonical.filter (id.order < ·.order)).Sublist
      (canonical.filter (id.order ≤ ·.order)) := by
    cases id <;> first | decide | exact absurd rfl notCustom
  refine here.trans (List.monotone_filter_right _ ?_)
  intro other within
  simp only [decide_eq_true_eq] at within ⊢
  omega

theorem Decoder.sectionContents_order (id : SectionId) (progress : Progress) :
    (sectionContents id progress).Yields fun after => after.order = progress.order := by
  cases id with
  | custom =>
      refine .bind' fun title => .ite (.bind' fun reader => .pure rfl) (.pure rfl)
  | exports => exact .bind' fun count => .bind' fun entries => .pure rfl
  | code => exact .bind' fun count => .ite (.throw _ _) (.bind' fun bodies => .pure rfl)
  | _ => exact .bind' fun items => .pure rfl

namespace Run

def kinds (frames : List Frame) : List SectionId :=
  (frames.filterMap Frame.kind?).filter (· ≠ .custom)

theorem kinds_sublist {before after : Progress} {frames : List Frame}
    (run : Run before frames after) :
    (kinds frames).Sublist (SectionId.canonical.filter (before.order < ·.order)) := by
  induction run with
  | done => exact List.nil_sublist _
  | @step before between after frame frames first others induction =>
      cases first with
      | custom isCustom named same =>
          have sameOrder : between.unnamed.order = before.unnamed.order :=
            congrArg Progress.order same
          have sameKinds : kinds (frame :: frames) = kinds frames := by simp [kinds, isCustom]
          rw [sameKinds, ← show between.order = before.order from sameOrder]
          exact induction
      | other id isId notCustom later read =>
          have isOrder : between.order = id.order :=
            Decoder.sectionContents_order id _ _ _ _ (read 0)
          have moreKinds : kinds (frame :: frames) = id :: kinds frames := by
            simp [kinds, isId, notCustom]
          rw [moreKinds]
          rw [isOrder] at induction
          exact (induction.cons_cons id).trans (SectionId.cons_sublist_canonical notCustom later)

theorem kind?_isSome {before after : Progress} {frames : List Frame}
    (run : Run before frames after) :
    ∀ frame ∈ frames, frame.kind?.isSome := by
  induction run with
  | done => exact nofun
  | step first others induction =>
      refine List.forall_mem_cons.mpr ⟨?_, induction⟩
      cases first with
      | custom isCustom => simp [isCustom]
      | other id isId => simp [isId]

theorem append {before after : Progress} {earlier later : List Frame}
    (run : Run before (earlier ++ later) after) :
    ∃ between, Run before earlier between ∧ Run between later after := by
  induction earlier generalizing before with
  | nil => exact ⟨before, .done before, run⟩
  | cons frame frames induction =>
      cases run with
      | step first others =>
          rcases induction others with ⟨between, ran, rest⟩
          exact ⟨between, .step first ran, rest⟩

end Run

/-! ## Exact framing -/

def BodiesConsumed (types : List FuncType) (contents : List UInt8)
    (results : List (List ValueType × List Instr)) : Prop :=
  ∃ (count : List UInt8) (bodies : List Decoder.Sized),
    contents = count ++ bodies.flatMap Decoder.Sized.bytes ∧
    Leb128.Unsigned 32 count bodies.length ∧
    List.Forall₂ (fun body result => (Decoder.funcBody types).Consumes body.contents result)
      bodies results

namespace Decoder

theorem exists_sized {α : Type} {holds : Sized → α → Prop} {forms : List (List UInt8)}
    {results : List α}
    (each : List.Forall₂
      (fun used result => ∃ sized : Sized, used = sized.bytes ∧ holds sized result) forms results) :
    ∃ items : List Sized, forms.flatten = items.flatMap Sized.bytes ∧
      List.Forall₂ holds items results := by
  induction each with
  | nil => exact ⟨[], rfl, .nil⟩
  | cons first _ induction =>
      rcases first with ⟨item, rfl, holding⟩
      rcases induction with ⟨items, areForms, all⟩
      exact ⟨item :: items, by simp [areForms], .cons holding all⟩

theorem code_consumes {before after : Progress} {contents : List UInt8}
    (read : (sectionContents .code before).Consumes contents after) :
    ∃ results, BodiesConsumed before.module.types contents results ∧
      results.length = before.declared ∧
      after = { before with
        module := Module.addBodies before.module (before.module.importCount .func) results
        bodies := results.length } := by
  rcases bind_eq_ok_iff.mp (read 0) with ⟨count, _, isCount, ran⟩
  rcases (u32_exact _ _ _ _).mp isCount with ⟨form, others, rfl, isForm, rfl⟩
  split at ran
  · cases ran
  · next isDeclared =>
      rcases bind_eq_ok_iff.mp ran with ⟨results, _, areResults, ran⟩
      rcases pure_eq_ok_iff.mp ran with ⟨isAfter, rfl⟩
      rcases (Exact.repeated (sizedBody_exact _) _ _ _ _ _ _).mp areResults with
        ⟨_, rest, rfl, ⟨isLength, forms, rfl, each⟩, isEnd⟩
      have atEnd : rest = [] := (Reader.mk.inj isEnd).2.symm
      rcases exists_sized each with ⟨bodies, areForms, all⟩
      refine ⟨results, ⟨form, bodies, ?_, ?_, all⟩, ?_, ?_⟩
      · rw [atEnd, List.append_nil, areForms]
      · rw [all.length_eq, isLength]
        exact isForm
      · rw [isLength, not_not.mp isDeclared]
      · rw [← isAfter, isLength]

end Decoder

/-- How the sections of a module are read. Their identifiers are known, those of other
than custom sections come in the one order and so at most once, and each of these
sections is read to its last byte from what the sections before it gave. -/
structure Framed (frames : List Frame) (module : Module) : Prop where
  known : ∀ frame ∈ frames, frame.kind?.isSome
  ordered : (Run.kinds frames).Sublist SectionId.canonical
  consumed : ∀ earlier frame later id, frames = earlier ++ frame :: later →
    frame.kind? = some id → id ≠ .custom →
    ∃ before after final, Run {} earlier before ∧
      (Decoder.sectionContents id { before with order := id.order }).Consumes frame.contents after ∧
      Run after later final ∧ final.module = module ∧
      (id = .code → ∃ results, BodiesConsumed before.module.types frame.contents results)

/-- A decoded module is the header and exactly its sections, each read exactly. -/
theorem decode_framed {bytes : List UInt8} {module : Module}
    (accepted : decode bytes = .ok module) :
    ∃ frames, bytes = Encode.header ++ frames.flatMap Frame.bytes ∧ Framed frames module := by
  rcases decode_run accepted with ⟨frames, final, isBytes, run, _, isModule⟩
  refine ⟨frames, isBytes, run.kind?_isSome, ?_, ?_⟩
  · exact run.kinds_sublist.trans List.filter_sublist
  · rintro earlier frame later id rfl isId notCustom
    rcases run.append with ⟨before, ranEarlier, ranLater⟩
    cases ranLater with
    | @step _ after _ _ _ first others =>
        cases first with
        | custom isCustom =>
            rw [isCustom] at isId
            cases isId
            exact absurd rfl notCustom
        | other found isFound _ _ read =>
            rw [isFound] at isId
            cases isId
            refine ⟨before, after, final, ranEarlier, read, others, isModule, ?_⟩
            rintro rfl
            rcases Decoder.code_consumes read with ⟨results, consumed, _⟩
            exact ⟨results, consumed⟩

/-- A function without parameters and results. The type section has a longer form of
its size than it needs, and a custom section `x` comes behind it. -/
def paddedType : List UInt8 :=
  Encode.header ++ [1, 0x84, 0, 1, 0x60, 0, 0] ++ [0, 2, 1, 0x78] ++ [3, 2, 1, 0] ++
    [10, 4, 1, 2, 0, 0x0B]

theorem decode_framed_paddedType : ∃ module frames, decode paddedType = .ok module ∧
    module.funcs.length = 1 ∧ paddedType = Encode.header ++ frames.flatMap Frame.bytes ∧
      Framed frames module := by
  rcases exists_of_run (decode paddedType) (·.funcs.length) 1 (by decide +kernel) with
    ⟨module, accepted, isOne⟩
  rcases decode_framed accepted with ⟨frames, isBytes, framed⟩
  exact ⟨module, frames, accepted, isOne, isBytes, framed⟩

end WasmLowering.Binary
