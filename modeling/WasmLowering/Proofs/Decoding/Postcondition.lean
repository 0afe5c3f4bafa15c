import WasmLowering.Binary.Decode

/-! What a decoder is known to give.

`decoder.Yields post` says that every value it gives has a property, whatever the
bytes are. The rules follow the way decoders are put together. -/

namespace WasmLowering.Binary

namespace Decoder

def Yields {α : Type} (decoder : Decoder α) (post : α → Prop) : Prop :=
  ∀ reader value after, decoder reader = .ok value after → post value

namespace Yields

variable {α β : Type}

theorem pure {value : α} {post : α → Prop} (holds : post value) :
    Yields (Pure.pure value : Decoder α) post := by
  intro reader result after succeeds
  cases succeeds
  exact holds

theorem throw (error : DecodeError) (post : α → Prop) :
    Yields (MonadExcept.throw error : Decoder α) post := by
  intro reader result after succeeds
  cases succeeds

theorem bind {first : Decoder α} {next : α → Decoder β} {middle : α → Prop} {post : β → Prop}
    (given : first.Yields middle) (later : ∀ value, middle value → (next value).Yields post) :
    Yields (first >>= next) post := by
  intro reader result after succeeds
  change EStateM.bind first next reader = .ok result after at succeeds
  unfold EStateM.bind at succeeds
  split at succeeds
  · next value between ran => exact later value (given _ _ _ ran) _ _ _ succeeds
  · cases succeeds

theorem bind' {first : Decoder α} {next : α → Decoder β} {post : β → Prop}
    (later : ∀ value, (next value).Yields post) : Yields (first >>= next) post :=
  bind (fun _ _ _ _ => trivial) fun value (_ : True) => later value

theorem ite {condition : Prop} [Decidable condition] {yes no : Decoder α} {post : α → Prop}
    (ifYes : yes.Yields post) (ifNo : no.Yields post) :
    Yields (if condition then yes else no) post := by
  split
  · exact ifYes
  · exact ifNo

theorem mono {decoder : Decoder α} {weak strong : α → Prop} (given : decoder.Yields strong)
    (weaker : ∀ value, strong value → weak value) : decoder.Yields weak :=
  fun reader value after succeeds => weaker value (given reader value after succeeds)

theorem locate {decoder : Decoder α} {post : α → Prop} (given : decoder.Yields post)
    (place : Place) : (Decoder.locate place decoder).Yields post := by
  intro reader value after succeeds
  unfold Decoder.locate at succeeds
  split at succeeds
  · next ran =>
      cases succeeds
      exact given _ _ _ ran
  · cases succeeds

theorem locateBy {decoder : Decoder α} {post : α → Prop} (given : decoder.Yields post)
    (place : Reader → Place) : (Decoder.locateBy place decoder).Yields post := by
  intro reader value after succeeds
  unfold Decoder.locateBy at succeeds
  split at succeeds
  · next ran =>
      cases succeeds
      exact given _ _ _ ran
  · cases succeeds

theorem inside {decoder : Decoder α} {post : α → Prop} (given : decoder.Yields post)
    (inner : Reader) : (Decoder.inside inner decoder).Yields fun result => post result.1 := by
  intro reader value after succeeds
  unfold Decoder.inside at succeeds
  split at succeeds
  · next ran =>
      cases succeeds
      exact given _ _ _ ran
  · cases succeeds

/-- Repeating a step gives as many values as asked for, all with its property. -/
theorem repeated {step : Nat → Decoder α} {post : α → Prop}
    (given : ∀ number, (step number).Yields post) (count number : Nat) :
    (Decoder.repeated step count number).Yields fun values =>
      values.length = count ∧ ∀ value ∈ values, post value := by
  induction count generalizing number with
  | zero => exact .pure ⟨rfl, by simp⟩
  | succ count induction =>
      refine (given number).bind fun value holds => ?_
      refine (induction (number + 1)).bind fun others ⟨length, all⟩ => ?_
      refine .pure ⟨by simp [length], ?_⟩
      intro other member
      rcases List.mem_cons.mp member with rfl | member
      · exact holds
      · exact all other member

theorem counted {item : Nat → Decoder α} {post : α → Prop}
    (given : ∀ number, (item number).Yields post) :
    (Decoder.counted item).Yields fun values =>
      values.length < UInt32.size ∧ ∀ value ∈ values, post value := by
  refine bind' fun count => ?_
  refine (repeated given count.toNat 0).mono fun values ⟨length, all⟩ => ?_
  exact ⟨length ▸ count.toNat_lt, all⟩

end Yields

/-! ## Sections -/

/-- A property of what is read so far that holds at the start and that every section keeps.
The order moves forward to a section first, unless it is a custom one. -/
structure Invariant (property : Progress → Prop) : Prop where
  start : property {}
  custom : ∀ progress, property progress → (sectionContents .custom progress).Yields property
  forward : ∀ id progress, progress.order < id.order → property progress →
    (sectionContents id { progress with order := id.order }).Yields property

section

variable {property : Progress → Prop}

theorem sectionBody_yields {id : SectionId} {progress : Progress}
    (given : (sectionContents id progress).Yields property) (contents : Reader) :
    (sectionBody id contents progress).Yields property :=
  .bind ((given.locate _).inside contents) fun _ holds => .ite (.throw _ _) (.pure holds)

theorem sectionStep_yields (invariant : Invariant property) {progress : Progress}
    (holds : property progress) : (sectionStep progress).Yields property := by
  refine .bind' fun first => ?_
  cases SectionId.ofByte? first with
  | none => exact .bind' fun _ => .bind' fun _ => .bind' fun _ => .throw _ _
  | some id =>
      have later : ∀ after, (sectionContents id after).Yields property → Yields
          (do
            let size ← Decoder.locateBy (fun reader => .part "section size" reader.position) u32
            let contents ← Decoder.locateBy
              (fun reader => .part "section data" reader.position) (sub size.toNat)
            sectionBody id contents after)
          property :=
        fun after given => .bind' fun _ => .bind' fun contents => sectionBody_yields given contents
      cases id with
      | custom => exact .bind (.pure (invariant.custom progress holds)) later
      | _ =>
          dsimp only
          split
          · exact .bind (.throw _ _) later
          · next forward =>
              exact .bind (.pure (invariant.forward _ _ (Nat.lt_of_not_le forward) holds)) later

theorem sections_yields (invariant : Invariant property) (fuel : Nat) {progress : Progress}
    (holds : property progress) : (sections fuel progress).Yields property := by
  induction fuel generalizing progress with
  | zero => exact .pure holds
  | succ fuel induction =>
      refine .bind' fun finished => .ite (.pure holds) ?_
      exact (sectionStep_yields invariant holds).bind fun after given => induction given

theorem module_yields (invariant : Invariant property) :
    Decoder.module.Yields fun module => ∃ progress, property progress ∧ progress.module = module := by
  refine .bind' fun first => .ite (.throw _ _) (.bind' fun second => .ite (.throw _ _) ?_)
  refine .bind' fun left => .bind (sections_yields invariant left invariant.start) ?_
  exact fun progress holds => .ite (.throw _ _) (.pure ⟨progress, holds, rfl⟩)

end

def Kept (property : Module → Prop) : Prop :=
  ∀ id progress, property progress.module →
    (sectionContents id progress).Yields fun after => property after.module

theorem Kept.invariant {property : Module → Prop} (kept : Kept property) (start : property {}) :
    Invariant fun progress => property progress.module where
  start := start
  custom progress := kept .custom progress
  forward id progress _ := kept id { progress with order := id.order }

end Decoder

theorem decode_invariant {property : Progress → Prop} (invariant : Decoder.Invariant property)
    {bytes : List UInt8} {module : Module} (accepted : decode bytes = .ok module) :
    ∃ progress, property progress ∧ progress.module = module := by
  unfold decode at accepted
  split at accepted
  · next read =>
      cases accepted
      exact Decoder.module_yields invariant _ _ _ read
  · cases accepted

theorem decode_keeps {property : Module → Prop} (start : property {}) (kept : Decoder.Kept property)
    {bytes : List UInt8} {module : Module} (accepted : decode bytes = .ok module) :
    property module := by
  rcases decode_invariant (kept.invariant start) accepted with ⟨progress, holds, rfl⟩
  exact holds

end WasmLowering.Binary
