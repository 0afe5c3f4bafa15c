import Mathlib.Data.List.Forall2
import WasmLowering.Binary.Decode

/-! How decoders use their bytes.

A decoder may be described by a grammar: a relation between the bytes that are read
and the value. `decoder.Exact grammar` says that it succeeds on what the grammar
derives and on nothing else. Most decoders are only known to be *steady*: what they
do depends on the bytes and not on where these stand, and a success has used up the
first of them. A steady decoder that leaves nothing `Consumes` its bytes. -/

namespace WasmLowering.Binary

namespace Decoder

variable {α β : Type}

theorem bind_eq_ok_iff {first : Decoder α} {next : α → Decoder β} {reader after : Reader}
    {result : β} :
    (first >>= next) reader = .ok result after ↔
      ∃ value between, first reader = .ok value between ∧ next value between = .ok result after := by
  show EStateM.bind first next reader = .ok result after ↔ _
  unfold EStateM.bind
  cases first reader <;> simp [and_assoc]

theorem pure_eq_ok_iff {value result : α} {reader after : Reader} :
    (pure value : Decoder α) reader = .ok result after ↔ value = result ∧ reader = after := by
  show EStateM.Result.ok value reader = .ok result after ↔ _
  simp

theorem map_eq_ok_iff {decoder : Decoder α} {change : α → β} {reader after : Reader} {result : β} :
    (change <$> decoder) reader = .ok result after ↔
      ∃ value, decoder reader = .ok value after ∧ change value = result := by
  show EStateM.map change decoder reader = .ok result after ↔ _
  unfold EStateM.map
  cases decoder reader <;> simp [and_comm]

theorem not_throw_eq_ok {error : DecodeError} {result : α} {reader after : Reader} :
    ¬(throw error : Decoder α) reader = .ok result after := nofun

theorem remaining_eq_ok_iff {reader after : Reader} {left : Nat} :
    remaining reader = .ok left after ↔ reader.rest.length = left ∧ reader = after := by
  show EStateM.Result.ok reader.remaining reader = .ok left after ↔ _
  simp [Reader.remaining]

theorem locate_eq_ok_iff {place : Place} {decoder : Decoder α} {value : α}
    {reader after : Reader} :
    locate place decoder reader = .ok value after ↔ decoder reader = .ok value after := by
  unfold locate
  cases decoder reader <;> simp

theorem locateBy_eq_ok_iff {place : Reader → Place} {decoder : Decoder α} {value : α}
    {reader after : Reader} :
    locateBy place decoder reader = .ok value after ↔ decoder reader = .ok value after := by
  unfold locateBy
  cases decoder reader <;> simp

theorem inside_eq_ok_iff {inner reader after : Reader} {decoder : Decoder α}
    {result : α × Reader} :
    inside inner decoder reader = .ok result after ↔
      decoder inner = .ok result.1 result.2 ∧ after = reader := by
  unfold inside
  cases decoder inner <;> simp [Prod.ext_iff, eq_comm]

/-! ## Steady decoders -/

def Steady (decoder : Decoder α) : Prop :=
  ∀ start other bytes value after, decoder ⟨start, bytes⟩ = .ok value after →
    ∃ used rest, bytes = used ++ rest ∧ after = ⟨start + used.length, rest⟩ ∧
      decoder ⟨other, bytes⟩ = .ok value ⟨other + used.length, rest⟩

namespace Steady

theorem pure (value : α) : Steady (Pure.pure value : Decoder α) := by
  intro start other bytes result after succeeds
  rcases pure_eq_ok_iff.mp succeeds with ⟨rfl, rfl⟩
  exact ⟨[], bytes, rfl, rfl, rfl⟩

theorem throw (error : DecodeError) : Steady (MonadExcept.throw error : Decoder α) :=
  nofun

theorem bind {first : Decoder α} {next : α → Decoder β} (given : first.Steady)
    (later : ∀ value, (next value).Steady) : Steady (first >>= next) := by
  intro start other bytes result after succeeds
  rcases bind_eq_ok_iff.mp succeeds with ⟨value, between, ran, goesOn⟩
  rcases given start other bytes value between ran with ⟨used, left, rfl, rfl, same⟩
  rcases later value _ (other + used.length) left result after goesOn with
    ⟨more, rest, rfl, rfl, sameLater⟩
  refine ⟨used ++ more, rest, by simp, by simp [Nat.add_assoc], ?_⟩
  refine bind_eq_ok_iff.mpr ⟨value, _, same, ?_⟩
  simpa [Nat.add_assoc] using sameLater

theorem ite {condition : Prop} [Decidable condition] {yes no : Decoder α} (ifYes : yes.Steady)
    (ifNo : no.Steady) : Steady (if condition then yes else no) := by
  split
  · exact ifYes
  · exact ifNo

theorem locate {decoder : Decoder α} (given : decoder.Steady) (place : Place) :
    (Decoder.locate place decoder).Steady := by
  intro start other bytes value after succeeds
  simp only [locate_eq_ok_iff] at succeeds ⊢
  exact given start other bytes value after succeeds

theorem repeated {step : Nat → Decoder α} (given : ∀ number, (step number).Steady)
    (count number : Nat) : (Decoder.repeated step count number).Steady := by
  induction count generalizing number with
  | zero => exact .pure []
  | succ count induction =>
      exact (given number).bind fun value => (induction _).bind fun others => .pure _

theorem remaining : Decoder.remaining.Steady := by
  intro start other bytes value after succeeds
  rcases remaining_eq_ok_iff.mp succeeds with ⟨rfl, rfl⟩
  exact ⟨[], bytes, rfl, rfl, rfl⟩

end Steady

/-! ## Grammars -/

/-- The decoder succeeds on bytes that begin with what the grammar derives, and then
it has used just that. -/
def Exact (decoder : Decoder α) (grammar : List UInt8 → α → Prop) : Prop :=
  ∀ start bytes value after, decoder ⟨start, bytes⟩ = .ok value after ↔
    ∃ used rest, bytes = used ++ rest ∧ grammar used value ∧ after = ⟨start + used.length, rest⟩

/-- The decoder reads these bytes as the value, wherever they stand and whatever
follows. -/
def Reads (decoder : Decoder α) (used : List UInt8) (value : α) : Prop :=
  ∀ start rest, decoder ⟨start, used ++ rest⟩ = .ok value ⟨start + used.length, rest⟩

def Consumes (decoder : Decoder α) (bytes : List UInt8) (value : α) : Prop :=
  ∀ start, decoder ⟨start, bytes⟩ = .ok value ⟨start + bytes.length, []⟩

theorem Exact.reads {decoder : Decoder α} {grammar : List UInt8 → α → Prop}
    (exact : decoder.Exact grammar) {used : List UInt8} {value : α} (derived : grammar used value) :
    decoder.Reads used value :=
  fun start rest => (exact start _ value _).mpr ⟨used, rest, rfl, derived, rfl⟩

theorem Exact.steady {decoder : Decoder α} {grammar : List UInt8 → α → Prop}
    (exact : decoder.Exact grammar) : decoder.Steady := by
  intro start other bytes value after succeeds
  rcases (exact start bytes value after).mp succeeds with ⟨used, rest, rfl, derived, rfl⟩
  exact ⟨used, rest, rfl, rfl, exact.reads derived other rest⟩

/-- A step whose value is converted. The conversion has an inverse on the values
that the step gives. -/
theorem Exact.map {decoder : Decoder α} {grammar : List UInt8 → α → Prop}
    (exact : decoder.Exact grammar) {change : α → β} {back : β → α}
    (back_change : ∀ used value, grammar used value → back (change value) = value)
    (change_back : ∀ result, change (back result) = result) :
    Exact (do return change (← decoder)) fun used result => grammar used (back result) := by
  intro start bytes result after
  rw [bind_eq_ok_iff]
  constructor
  · rintro ⟨value, between, ran, isResult⟩
    rcases pure_eq_ok_iff.mp isResult with ⟨rfl, rfl⟩
    rcases (exact start bytes value between).mp ran with ⟨used, rest, isBytes, derived, isAfter⟩
    refine ⟨used, rest, isBytes, ?_, isAfter⟩
    show grammar used (back (change value))
    rwa [back_change used value derived]
  · rintro ⟨used, rest, isBytes, derived, isAfter⟩
    refine ⟨back result, after, ?_, ?_⟩
    · exact (exact start bytes _ after).mpr ⟨used, rest, isBytes, derived, isAfter⟩
    · exact pure_eq_ok_iff.mpr ⟨change_back result, rfl⟩

/-- A grammar for a step that is repeated gives one for all its runs. -/
theorem Exact.repeated {step : Nat → Decoder α} {grammar : List UInt8 → α → Prop}
    (exact : ∀ number, (step number).Exact grammar) (count number : Nat) :
    (Decoder.repeated step count number).Exact fun used values =>
      values.length = count ∧ ∃ forms, used = forms.flatten ∧ List.Forall₂ grammar forms values := by
  induction count generalizing number with
  | zero =>
      intro start bytes values after
      rw [Decoder.repeated, pure_eq_ok_iff]
      constructor
      · rintro ⟨rfl, rfl⟩
        exact ⟨[], bytes, rfl, ⟨rfl, [], rfl, .nil⟩, rfl⟩
      · rintro ⟨used, rest, rfl, ⟨isEmpty, forms, rfl, each⟩, rfl⟩
        cases List.length_eq_zero_iff.mp isEmpty
        cases each
        exact ⟨rfl, rfl⟩
  | succ count induction =>
      intro start bytes values after
      rw [Decoder.repeated, bind_eq_ok_iff]
      constructor
      · rintro ⟨value, between, ran, later⟩
        rcases bind_eq_ok_iff.mp later with ⟨others, last, ranLater, isResult⟩
        rcases pure_eq_ok_iff.mp isResult with ⟨rfl, rfl⟩
        rcases (exact number _ _ _ _).mp ran with ⟨used, left, rfl, derived, rfl⟩
        rcases (induction _ _ _ _ _).mp ranLater with
          ⟨more, rest, rfl, ⟨rfl, forms, rfl, each⟩, rfl⟩
        refine ⟨used ++ forms.flatten, rest, by simp, ⟨rfl, used :: forms, rfl, ?_⟩, ?_⟩
        · exact .cons derived each
        · simp [Nat.add_assoc]
      · rintro ⟨used, rest, rfl, ⟨isLength, forms, rfl, each⟩, rfl⟩
        cases each with
        | nil => cases isLength
        | @cons form value forms others derived each =>
            refine ⟨value, ⟨start + form.length, forms.flatten ++ rest⟩, ?_, ?_⟩
            · simpa using (exact number).reads derived start (forms.flatten ++ rest)
            · refine bind_eq_ok_iff.mpr ⟨others, _, ?_, rfl⟩
              refine (induction _ _ _ _ _).mpr ⟨forms.flatten, rest, rfl, ⟨?_, forms, rfl, each⟩, ?_⟩
              · exact Nat.succ.inj isLength
              · simp [Nat.add_assoc]

theorem byte_exact : byte.Exact fun used value => used = [value] := by
  intro start bytes value after
  cases bytes with
  | nil => simp [byte]
  | cons first rest =>
      simp only [byte, EStateM.Result.ok.injEq]
      constructor
      · rintro ⟨rfl, rfl⟩
        exact ⟨[first], rest, rfl, rfl, rfl⟩
      · rintro ⟨used, left, isBytes, rfl, rfl⟩
        cases isBytes
        exact ⟨rfl, rfl⟩

theorem bytes_exact (count : Nat) :
    (bytes count).Exact fun used value => used = value ∧ value.length = count := by
  intro start contents value after
  unfold bytes
  split
  · next enough =>
      have enough : count ≤ contents.length := enough
      simp only [Reader.skip, EStateM.Result.ok.injEq]
      constructor
      · rintro ⟨rfl, rfl⟩
        refine ⟨contents.take count, contents.drop count, ?_, ⟨rfl, ?_⟩, ?_⟩
        · exact (List.take_append_drop count contents).symm
        · exact List.length_take_of_le enough
        · rw [List.length_take_of_le enough]
      · rintro ⟨used, rest, rfl, ⟨rfl, rfl⟩, rfl⟩
        simp
  · next short =>
      have short : ¬count ≤ contents.length := short
      simp only [reduceCtorEq, false_iff]
      rintro ⟨used, rest, rfl, ⟨rfl, rfl⟩, rfl⟩
      simp at short

/-! ## Reading known bytes -/

namespace Reads

theorem pure (value : α) : Reads (Pure.pure value : Decoder α) [] value :=
  fun _ _ => rfl

theorem bind {first : Decoder α} {next : α → Decoder β} {used more : List UInt8} {value : α}
    {result : β} (given : first.Reads used value) (later : (next value).Reads more result) :
    Reads (first >>= next) (used ++ more) result := by
  intro start rest
  rw [List.append_assoc]
  refine bind_eq_ok_iff.mpr ⟨value, _, given start (more ++ rest), ?_⟩
  rw [later, List.length_append, Nat.add_assoc]

theorem map {decoder : Decoder α} {used : List UInt8} {value : α} (given : decoder.Reads used value)
    (change : α → β) : Reads (do return change (← decoder)) used (change value) := by
  have both : Reads (do return change (← decoder)) (used ++ []) (change value) :=
    given.bind (.pure (change value))
  rwa [List.append_nil] at both

theorem locateBy {decoder : Decoder α} {used : List UInt8} {value : α}
    (given : decoder.Reads used value) (place : Reader → Place) :
    (Decoder.locateBy place decoder).Reads used value :=
  fun start rest => locateBy_eq_ok_iff.mpr (given start rest)

theorem locate {decoder : Decoder α} {used : List UInt8} {value : α}
    (given : decoder.Reads used value) (place : Place) :
    (Decoder.locate place decoder).Reads used value :=
  fun start rest => locate_eq_ok_iff.mpr (given start rest)

theorem repeated {step : Nat → Decoder α} {forms : List (List UInt8)} {values : List α}
    (each : List.Forall₂ (fun used value => ∀ number, (step number).Reads used value) forms values)
    (number : Nat) : (Decoder.repeated step values.length number).Reads forms.flatten values := by
  induction each generalizing number with
  | nil => exact .pure []
  | cons first _ induction =>
      exact (first number).bind ((induction (number + 1)).map _)

end Reads

/-! ## Reading everything -/

/-- What a steady decoder has read to the end it reads so wherever it stands. -/
theorem Steady.consumes {decoder : Decoder α} (steady : decoder.Steady) {start : Nat}
    {bytes : List UInt8} {value : α} {after : Reader}
    (ran : decoder ⟨start, bytes⟩ = .ok value after) (finished : after.rest = []) :
    decoder.Consumes bytes value := by
  intro other
  rcases steady start other bytes value after ran with ⟨used, rest, rfl, rfl, same⟩
  have noRest : rest = [] := finished
  simpa [noRest] using same

theorem Reads.consumes {decoder : Decoder α} {bytes : List UInt8} {value : α}
    (given : decoder.Reads bytes value) : decoder.Consumes bytes value := by
  intro start
  simpa using given start []

theorem Reads.bind_consumes {first : Decoder α} {next : α → Decoder β} {used more : List UInt8}
    {value : α} {result : β} (given : first.Reads used value)
    (later : (next value).Consumes more result) :
    Consumes (first >>= next) (used ++ more) result := by
  intro start
  apply bind_eq_ok_iff.mpr
  refine ⟨value, _, given start more, ?_⟩
  rw [later, List.length_append, Nat.add_assoc]

namespace Consumes

theorem bind {first : Decoder α} {next : α → Decoder β} {bytes : List UInt8} {value : α}
    {result : β} (given : first.Consumes bytes value) (later : (next value).Consumes [] result) :
    Consumes (first >>= next) bytes result := by
  intro start
  exact bind_eq_ok_iff.mpr ⟨value, _, given start, later _⟩

theorem bind_pure_iff {decoder : Decoder α} (steady : decoder.Steady) {change : α → β}
    {bytes : List UInt8} {result : β} :
    Consumes (decoder >>= fun value => Pure.pure (change value)) bytes result ↔
      ∃ value, decoder.Consumes bytes value ∧ change value = result := by
  constructor
  · intro consumed
    rcases bind_eq_ok_iff.mp (consumed 0) with ⟨value, between, ran, isResult⟩
    rcases pure_eq_ok_iff.mp isResult with ⟨rfl, rfl⟩
    exact ⟨value, steady.consumes ran rfl, rfl⟩
  · rintro ⟨value, consumed, rfl⟩ start
    exact bind_eq_ok_iff.mpr ⟨value, _, consumed start, rfl⟩

end Consumes

end Decoder

end WasmLowering.Binary
