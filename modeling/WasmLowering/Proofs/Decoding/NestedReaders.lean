import WasmLowering.Proofs.Decoding.Reading
import WasmLowering.Binary.Leb128

/-! Readers within readers.

In a session any number of readers are open: the one of the input, and those that were
made of the bytes that another one skipped. Each of them can be asked at any time. What
a request does to a reader, successful or not, is to pass some of the bytes that are
left to it. So a reader always stands at its offset in the input, its end never moves,
and no request reaches beyond it. -/

namespace WasmLowering.Binary

/-! ## Passing bytes -/

namespace Reader

@[simp] theorem position_skip (reader : Reader) (count : Nat) :
    (reader.skip count).position = reader.position + count := rfl

@[simp] theorem remaining_skip (reader : Reader) (count : Nat) :
    (reader.skip count).remaining = reader.remaining - count :=
  List.length_drop

@[simp] theorem position_window (reader : Reader) (count : Nat) :
    (reader.window count).position = reader.position := rfl

theorem remaining_window {reader : Reader} {count : Nat} (enough : count ≤ reader.remaining) :
    (reader.window count).remaining = count :=
  List.length_take_of_le enough

theorem skip_skip (reader : Reader) (first second : Nat) :
    (reader.skip first).skip second = reader.skip (first + second) := by
  simp [skip, Nat.add_assoc]

/-- The bytes of a window and those behind it are the bytes that were left. -/
theorem window_append_skip (reader : Reader) (count : Nat) :
    (reader.window count).rest ++ (reader.skip count).rest = reader.rest :=
  List.take_append_drop count reader.rest

def Passes (before after : Reader) : Prop :=
  ∃ count ≤ before.remaining, after = before.skip count

theorem Passes.refl (reader : Reader) : reader.Passes reader :=
  ⟨0, Nat.zero_le _, rfl⟩

theorem Passes.trans {first second third : Reader} (one : first.Passes second)
    (other : second.Passes third) : first.Passes third := by
  rcases one with ⟨count, enough, rfl⟩
  rcases other with ⟨more, still, rfl⟩
  rw [remaining_skip] at still
  exact ⟨count + more, by omega, skip_skip first count more⟩

theorem passes_cons (position : Nat) (byte : UInt8) (rest : List UInt8) :
    Passes ⟨position, byte :: rest⟩ ⟨position + 1, rest⟩ :=
  ⟨1, Nat.le_add_left 1 rest.length, rfl⟩

/-- The reader stands at its position in the input: the bytes left to it are those that
the input has from there on, up to an end within the input. -/
structure StandsIn (input : List UInt8) (reader : Reader) : Prop where
  inside : reader.position + reader.remaining ≤ input.length
  rest : reader.rest = (input.drop reader.position).take reader.remaining

theorem standsIn_ofBytes (input : List UInt8) : (ofBytes input).StandsIn input where
  inside := Nat.le_of_eq (Nat.zero_add _)
  rest := List.take_length.symm

namespace StandsIn

variable {input : List UInt8} {reader : Reader}

theorem skip (stands : reader.StandsIn input) {count : Nat} (enough : count ≤ reader.remaining) :
    (reader.skip count).StandsIn input where
  inside := by
    have inside := stands.inside
    rw [position_skip, remaining_skip]
    omega
  rest := by
    show reader.rest.drop count = _
    rw [stands.rest, List.drop_take, List.drop_drop, position_skip, remaining_skip]

theorem window (stands : reader.StandsIn input) {count : Nat} (enough : count ≤ reader.remaining) :
    (reader.window count).StandsIn input where
  inside := by
    have inside := stands.inside
    rw [position_window, remaining_window enough]
    omega
  rest := by
    show reader.rest.take count = _
    rw [stands.rest, List.take_take, Nat.min_eq_left enough, position_window,
      remaining_window enough]

theorem passes (stands : reader.StandsIn input) {after : Reader} (further : reader.Passes after) :
    after.StandsIn input := by
  rcases further with ⟨count, enough, rfl⟩
  exact stands.skip enough

theorem take_rest (stands : reader.StandsIn input) {count : Nat} (enough : count ≤ reader.remaining) :
    reader.rest.take count = (input.drop reader.position).take count := by
  rw [stands.rest, List.take_take, Nat.min_eq_left enough]

end StandsIn

end Reader

/-! ## What a step does to its reader -/

def DecodeError.StoppedAt (error : DecodeError) (reader : Reader) : Prop :=
  error = .endOfData ∨ error = .overflow reader.position ∨ error = .invalidName reader.position

inductive Further {α : Type} (before : Reader) : EStateM.Result DecodeError Reader α → Prop
  | ok {value : α} {after : Reader} (passes : before.Passes after) :
      Further before (.ok value after)
  | error {error : DecodeError} {after : Reader} (passes : before.Passes after)
      (stopped : error.StoppedAt after) : Further before (.error error after)

theorem Further.passing {α : Type} {before middle : Reader}
    {result : EStateM.Result DecodeError Reader α} (further : Further middle result)
    (passes : before.Passes middle) : Further before result := by
  cases further with
  | ok rest => exact .ok (passes.trans rest)
  | error rest stopped => exact .error (passes.trans rest) stopped

namespace Decoder

variable {α β : Type}

def Passing (decoder : Decoder α) : Prop :=
  ∀ reader, Further reader (decoder reader)

def Whole (decoder : Decoder α) : Prop :=
  ∀ reader error after, decoder reader = .error error after → after = reader

theorem Passing.pure (value : α) : (Pure.pure value : Decoder α).Passing :=
  fun reader => .ok (.refl reader)

theorem Passing.of_ok {decoder : Decoder α} (given : decoder.Passing) {reader after : Reader}
    {value : α} (ran : decoder reader = .ok value after) : reader.Passes after := by
  have further := given reader
  rw [ran] at further
  cases further with
  | ok passes => exact passes

theorem Passing.of_error {decoder : Decoder α} (given : decoder.Passing) {reader after : Reader}
    {error : DecodeError} (fails : decoder reader = .error error after) :
    reader.Passes after ∧ error.StoppedAt after := by
  have further := given reader
  rw [fails] at further
  cases further with
  | error passes stopped => exact ⟨passes, stopped⟩

theorem Passing.bind {first : Decoder α} {next : α → Decoder β} (given : first.Passing)
    (later : ∀ value, (next value).Passing) : (first >>= next).Passing := by
  intro reader
  show Further reader (EStateM.bind first next reader)
  unfold EStateM.bind
  cases ran : first reader with
  | ok value between => exact (later value between).passing (given.of_ok ran)
  | error error after => exact .error (given.of_error ran).1 (given.of_error ran).2

theorem Passing.map {decoder : Decoder α} (given : decoder.Passing) (change : α → β) :
    Passing (do return change (← decoder)) :=
  given.bind fun value => .pure (change value)

theorem Whole.map {decoder : Decoder α} (given : decoder.Whole) (change : α → β) :
    Whole (do return change (← decoder)) := by
  intro reader error after fails
  have fails : EStateM.bind decoder (fun value => Pure.pure (change value)) reader =
      .error error after := fails
  unfold EStateM.bind at fails
  cases ran : decoder reader with
  | ok value between =>
      rw [ran] at fails
      cases fails
  | error cause stop =>
      rw [ran] at fails
      cases fails
      exact given reader _ _ ran

theorem byte_passing : byte.Passing := by
  rintro ⟨position, bytes⟩
  cases bytes with
  | nil => exact .error (.refl _) (.inl rfl)
  | cons first rest => exact .ok (Reader.passes_cons position first rest)

theorem byte_whole : byte.Whole := by
  rintro ⟨position, bytes⟩ error after fails
  cases bytes with
  | nil =>
      cases fails
      rfl
  | cons first rest => cases fails

theorem bytes_passing (count : Nat) : (bytes count).Passing := by
  intro reader
  unfold bytes
  split
  · next enough => exact .ok ⟨count, enough, rfl⟩
  · exact .error (.refl reader) (.inl rfl)

theorem bytes_whole (count : Nat) : (bytes count).Whole := by
  intro reader error after fails
  unfold bytes at fails
  split at fails
  · cases fails
  · cases fails
    rfl

theorem sub_passing (count : Nat) : (sub count).Passing := by
  intro reader
  unfold sub
  split
  · next enough => exact .ok ⟨count, enough, rfl⟩
  · exact .error (.refl reader) (.inl rfl)

theorem sub_whole (count : Nat) : (sub count).Whole := by
  intro reader error after fails
  unfold sub at fails
  split at fails
  · cases fails
  · cases fails
    rfl

theorem unsigned_passing (bits : Nat) : (unsigned bits).Passing := by
  have from_passing : ∀ (bytes : List UInt8) (shift value position : Nat),
      Further ⟨position, bytes⟩ (Leb128.unsignedFrom bits shift value position bytes) := by
    intro bytes
    induction bytes with
    | nil => exact fun _ _ position => .error (.refl _) (.inl rfl)
    | cons first rest induction =>
        intro shift value position
        have passes := Reader.passes_cons position first rest
        rw [Leb128.unsignedFrom]
        split
        · exact .error passes (.inr (.inl rfl))
        · split
          · exact (induction _ _ _).passing passes
          · exact .ok passes
  exact fun reader => from_passing reader.rest 0 0 reader.position

theorem signed_passing (bits : Nat) : (signed bits).Passing := by
  have from_passing : ∀ (bytes : List UInt8) (count value position : Nat),
      Further ⟨position, bytes⟩ (Leb128.signedFrom bits count value position bytes) := by
    intro bytes
    induction bytes with
    | nil => exact fun _ _ position => .error (.refl _) (.inl rfl)
    | cons first rest induction =>
        intro count value position
        have passes := Reader.passes_cons position first rest
        rw [Leb128.signedFrom]
        split
        · split
          · exact .error passes (.inr (.inl rfl))
          · exact (induction _ _ _).passing passes
        · generalize (if 64 ≤ first.toNat then _ else _ : Int) = extended
          dsimp only
          split
          · exact .ok passes
          · exact .error passes (.inr (.inl rfl))
  exact fun reader => from_passing reader.rest 0 0 reader.position

theorem name_passing : name.Passing := by
  refine ((unsigned_passing 32).map _).bind fun size => (bytes_passing _).bind fun content => ?_
  intro reader
  cases String.fromUTF8? content.toByteArray with
  | some text => exact .ok (.refl reader)
  | none => exact .error (.refl reader) (.inr (.inr rfl))

def forCount (count : Int) (step : Nat → Decoder α) : Decoder α :=
  match count with
  | .ofNat count => step count
  | .negSucc _ => throw .endOfData

theorem forCount_passing (count : Int) {step : Nat → Decoder α}
    (given : ∀ count, (step count).Passing) : (forCount count step).Passing := by
  cases count with
  | ofNat count => exact given count
  | negSucc _ => exact fun reader => .error (.refl reader) (.inl rfl)

theorem forCount_whole (count : Int) {step : Nat → Decoder α}
    (given : ∀ count, (step count).Whole) : (forCount count step).Whole := by
  cases count with
  | ofNat count => exact given count
  | negSucc _ =>
      intro reader error after fails
      cases fails
      rfl

end Decoder

/-! ## Requests -/

inductive Request where
  | byte
  | u32
  | u64
  | s32
  | s33
  | s64
  | word32
  | word64
  | name
  | bytes (count : Int)
  | sub (count : Int)

inductive Answer where
  | byte (value : UInt8)
  | number (value : Int)
  | text (value : String)
  | bytes (contents : List UInt8)
  | reader (inner : Reader)

def Answer.readers : Answer → List Reader
  | reader inner => [inner]
  | _ => []

namespace Request

def ask : Request → Decoder Answer
  | byte => do return .byte (← Decoder.byte)
  | u32 => do return .number (← Decoder.u32).toNat
  | u64 => do return .number (← Decoder.u64).toNat
  | s32 => do return .number (← Decoder.s32)
  | s33 => do return .number (← Decoder.s33)
  | s64 => do return .number (← Decoder.s64)
  | word32 => do return .number (← Decoder.word32).toNat
  | word64 => do return .number (← Decoder.word64).toNat
  | name => do return .text (← Decoder.name)
  | bytes count => do return .bytes (← Decoder.forCount count Decoder.bytes)
  | sub count => do return .reader (← Decoder.forCount count Decoder.sub)

def IsFixed : Request → Prop
  | byte | word32 | word64 | bytes _ | sub _ => True
  | _ => False

theorem ask_passing (request : Request) : request.ask.Passing := by
  cases request with
  | byte => exact Decoder.byte_passing.map _
  | u32 => exact ((Decoder.unsigned_passing 32).map _).map _
  | u64 => exact ((Decoder.unsigned_passing 64).map _).map _
  | s32 => exact (Decoder.signed_passing 32).map _
  | s33 => exact (Decoder.signed_passing 33).map _
  | s64 => exact (Decoder.signed_passing 64).map _
  | word32 => exact ((Decoder.bytes_passing 4).map _).map _
  | word64 => exact ((Decoder.bytes_passing 8).map _).map _
  | name => exact Decoder.name_passing.map _
  | bytes count => exact (Decoder.forCount_passing count Decoder.bytes_passing).map _
  | sub count => exact (Decoder.forCount_passing count Decoder.sub_passing).map _

theorem ask_whole {request : Request} (fixed : request.IsFixed) : request.ask.Whole := by
  cases request with
  | byte => exact Decoder.byte_whole.map _
  | word32 => exact ((Decoder.bytes_whole 4).map _).map _
  | word64 => exact ((Decoder.bytes_whole 8).map _).map _
  | bytes count => exact (Decoder.forCount_whole count Decoder.bytes_whole).map _
  | sub count => exact (Decoder.forCount_whole count Decoder.sub_whole).map _
  | u32 | u64 | s32 | s33 | s64 | name => exact fixed.elim

theorem ask_byte {input : List UInt8} {reader : Reader} (stands : reader.StandsIn input)
    (given : 0 < reader.remaining) : ∃ value, input[reader.position]? = some value ∧
      byte.ask reader = .ok (.byte value) (reader.skip 1) := by
  have first : reader.rest[0]? = input[reader.position]? := by
    rw [stands.rest, List.getElem?_take_of_lt given, List.getElem?_drop, Nat.add_zero]
  rcases reader with ⟨position, _ | ⟨value, rest⟩⟩
  · cases given
  · exact ⟨value, first.symm, rfl⟩

theorem ask_byte_atEnd {reader : Reader} (ended : reader.remaining = 0) :
    byte.ask reader = .error .endOfData reader := by
  rcases reader with ⟨position, _ | ⟨value, rest⟩⟩
  · rfl
  · cases ended

theorem ask_bytes {reader : Reader} {count : Nat} (enough : count ≤ reader.remaining) :
    (bytes count).ask reader = .ok (.bytes (reader.rest.take count)) (reader.skip count) := by
  have ran : Decoder.bytes count reader = .ok (reader.rest.take count) (reader.skip count) :=
    if_pos enough
  exact Decoder.bind_eq_ok_iff.mpr ⟨_, _, ran, rfl⟩

theorem ask_sub {reader : Reader} {count : Nat} (enough : count ≤ reader.remaining) :
    (sub count).ask reader = .ok (.reader (reader.window count)) (reader.skip count) := by
  have ran : Decoder.sub count reader = .ok (reader.window count) (reader.skip count) :=
    if_pos enough
  exact Decoder.bind_eq_ok_iff.mpr ⟨_, _, ran, rfl⟩

theorem ask_lacking {reader : Reader} {count : Int} (lacking : count < 0 ∨ reader.remaining < count) :
    (bytes count).ask reader = .error .endOfData reader ∧
      (sub count).ask reader = .error .endOfData reader := by
  have fails : ∀ {α : Type} (decoder : Decoder α) (answer : α → Answer),
      decoder reader = .error .endOfData reader →
        (do return answer (← decoder) : Decoder Answer) reader = .error .endOfData reader := by
    intro α decoder answer ran
    show EStateM.bind decoder _ reader = _
    rw [EStateM.bind, ran]
  cases count with
  | ofNat count =>
      have short : ¬count ≤ reader.remaining := by
        rcases lacking with negative | short
        · exact absurd negative (Int.not_lt.mpr (Int.natCast_nonneg count))
        · exact Nat.not_le.mpr (Int.ofNat_lt.mp short)
      exact ⟨fails _ _ (if_neg short), fails _ _ (if_neg short)⟩
  | negSucc _ => exact ⟨rfl, rfl⟩

theorem ask_reader {request : Request} {reader inner after : Reader}
    (answers : request.ask reader = .ok (.reader inner) after) :
    ∃ count ≤ reader.remaining, inner = reader.window count := by
  cases request with
  | sub count =>
      rcases Decoder.bind_eq_ok_iff.mp answers with ⟨made, between, ran, isAnswer⟩
      cases (Decoder.pure_eq_ok_iff.mp isAnswer).1
      cases count with
      | ofNat count =>
          have ran : Decoder.sub count reader = .ok inner between := ran
          unfold Decoder.sub at ran
          split at ran
          · next enough =>
              cases ran
              exact ⟨count, enough, rfl⟩
          · cases ran
      | negSucc _ => cases ran
  | _ =>
      rcases Decoder.bind_eq_ok_iff.mp answers with ⟨value, between, ran, isAnswer⟩
      cases (Decoder.pure_eq_ok_iff.mp isAnswer).1

end Request

/-! ## Sessions -/

def serve (readers : List Reader) (call : Nat × Request) : List Reader :=
  match readers[call.1]? with
  | none => readers
  | some reader =>
      match call.2.ask reader with
      | .ok answer after => readers.set call.1 after ++ answer.readers
      | .error _ after => readers.set call.1 after

def session (input : List UInt8) (calls : List (Nat × Request)) : List Reader :=
  calls.foldl serve [.ofBytes input]

theorem session_append (input : List UInt8) (calls later : List (Nat × Request)) :
    session input (calls ++ later) = later.foldl serve (session input calls) :=
  List.foldl_append

theorem session_concat (input : List UInt8) (calls : List (Nat × Request)) (call : Nat × Request) :
    session input (calls ++ [call]) = serve (session input calls) call :=
  session_append input calls [call]

section

variable {input : List UInt8} {readers : List Reader} {number : Nat} {reader : Reader}

theorem serve_of_ok {request : Request} {answer : Answer} {after : Reader}
    (isOpen : readers[number]? = some reader) (answers : request.ask reader = .ok answer after) :
    serve readers (number, request) = readers.set number after ++ answer.readers := by
  simp only [serve, isOpen, answers]

theorem serve_of_error {request : Request} {error : DecodeError} {after : Reader}
    (isOpen : readers[number]? = some reader) (fails : request.ask reader = .error error after) :
    serve readers (number, request) = readers.set number after := by
  simp only [serve, isOpen, fails]

theorem serve_other {asked : Nat} (request : Request) (different : number ≠ asked)
    (isOpen : readers[number]? = some reader) :
    (serve readers (asked, request))[number]? = some reader := by
  have inside : number < readers.length := (List.getElem?_eq_some_iff.mp isOpen).1
  have kept : ∀ after, (readers.set asked after)[number]? = some reader := fun after => by
    rw [List.getElem?_set_ne different.symm, isOpen]
  cases found : readers[asked]? with
  | none => simpa only [serve, found] using isOpen
  | some other =>
      cases ran : request.ask other with
      | ok answer after =>
          rw [serve_of_ok found ran, List.getElem?_append_left (by simpa using inside), kept]
      | error error after => rw [serve_of_error found ran, kept]

theorem serve_asked (request : Request) (isOpen : readers[number]? = some reader) :
    ∃ after, (serve readers (number, request))[number]? = some after ∧ reader.Passes after := by
  have inside : number < readers.length := (List.getElem?_eq_some_iff.mp isOpen).1
  cases ran : request.ask reader with
  | ok answer after =>
      refine ⟨after, ?_, request.ask_passing.of_ok ran⟩
      rw [serve_of_ok isOpen ran, List.getElem?_append_left (by simpa using inside),
        List.getElem?_set_self inside]
  | error error after =>
      refine ⟨after, ?_, (request.ask_passing.of_error ran).1⟩
      rw [serve_of_error isOpen ran, List.getElem?_set_self inside]

theorem serve_passes (call : Nat × Request) (isOpen : readers[number]? = some reader) :
    ∃ after, (serve readers call)[number]? = some after ∧ reader.Passes after := by
  rcases call with ⟨asked, request⟩
  by_cases same : number = asked
  · subst same
    exact serve_asked request isOpen
  · exact ⟨reader, serve_other request same isOpen, .refl reader⟩

theorem foldl_serve_passes (later : List (Nat × Request)) (isOpen : readers[number]? = some reader) :
    ∃ now, (later.foldl serve readers)[number]? = some now ∧ reader.Passes now := by
  induction later generalizing readers reader with
  | nil => exact ⟨reader, isOpen, .refl reader⟩
  | cons call later induction =>
      rcases serve_passes call isOpen with ⟨after, isAfter, passes⟩
      rcases induction isAfter with ⟨now, isNow, further⟩
      exact ⟨now, isNow, passes.trans further⟩

theorem serve_standsIn (stand : ∀ reader ∈ readers, reader.StandsIn input)
    (call : Nat × Request) : ∀ reader ∈ serve readers call, reader.StandsIn input := by
  rcases call with ⟨asked, request⟩
  cases found : readers[asked]? with
  | none => simpa only [serve, found] using stand
  | some before =>
      have stood := stand before (List.mem_of_getElem? found)
      have kept : ∀ after, before.Passes after →
          ∀ reader ∈ readers.set asked after, reader.StandsIn input := by
        intro after passes reader member
        rcases List.mem_or_eq_of_mem_set member with old | rfl
        · exact stand reader old
        · exact stood.passes passes
      cases ran : request.ask before with
      | error error after =>
          rw [serve_of_error found ran]
          exact kept after (request.ask_passing.of_error ran).1
      | ok answer after =>
          rw [serve_of_ok found ran]
          intro reader member
          rcases List.mem_append.mp member with old | opened
          · exact kept after (request.ask_passing.of_ok ran) reader old
          · cases answer with
            | reader inner =>
                rcases Request.ask_reader ran with ⟨count, enough, rfl⟩
                rw [List.mem_singleton.mp opened]
                exact stood.window enough
            | byte _ | number _ | text _ | bytes _ => cases opened

theorem session_standsIn (input : List UInt8) (calls : List (Nat × Request)) :
    ∀ reader ∈ session input calls, reader.StandsIn input := by
  have kept : ∀ (calls : List (Nat × Request)) (readers : List Reader),
      (∀ reader ∈ readers, reader.StandsIn input) →
      ∀ reader ∈ calls.foldl serve readers, reader.StandsIn input := by
    intro calls
    induction calls with
    | nil => exact fun _ stand => stand
    | cons call calls induction => exact fun readers stand => induction _ (serve_standsIn stand call)
  refine kept calls _ fun reader member => ?_
  rw [List.mem_singleton.mp member]
  exact Reader.standsIn_ofBytes input

end

/-- What is known of a reader that is open after some calls. -/
structure KeepsPlace (input : List UInt8) (calls : List (Nat × Request)) (number : Nat)
    (reader : Reader) : Prop where
  /-- Its position is its offset in the input, and its end is within the input. -/
  stands : reader.StandsIn input
  /-- Whatever is asked later, of this reader or another one, it only moves on towards its
  end, which stays where it is. -/
  stays : ∀ later, ∃ now, (session input (calls ++ later))[number]? = some now ∧
    reader.position ≤ now.position ∧ now.position ≤ reader.position + reader.remaining ∧
    now.position + now.remaining = reader.position + reader.remaining
  /-- The next byte is that of the input at its position, if it is not at its end. -/
  next : 0 < reader.remaining → ∃ value, input[reader.position]? = some value ∧
    Request.byte.ask reader = .ok (.byte value) (reader.skip 1)
  ended : reader.remaining = 0 → Request.byte.ask reader = .error .endOfData reader
  /-- As many bytes as are left to it can be read at once. -/
  contents : ∀ count : Nat, count ≤ reader.remaining → (Request.bytes count).ask reader =
    .ok (.bytes ((input.drop reader.position).take count)) (reader.skip count)
  /-- A reader within it begins where it stood and ends where it stands afterwards, and
  has just the bytes that it has skipped. -/
  opens : ∀ count : Nat, count ≤ reader.remaining → ∃ inner after,
    session input (calls ++ [(number, .sub count)]) =
      (session input calls).set number after ++ [inner] ∧
    inner.position = reader.position ∧ inner.remaining = count ∧
    after.position = inner.position + inner.remaining ∧ inner.rest ++ after.rest = reader.rest
  /-- More bytes than are left to it cannot be asked for, nor fewer than none. -/
  lacks : ∀ count : Int, count < 0 ∨ reader.remaining < count →
    (Request.bytes count).ask reader = .error .endOfData reader ∧
      (Request.sub count).ask reader = .error .endOfData reader
  /-- A failure tells no other position than that of the reader afterwards. -/
  tells : ∀ (request : Request) error after,
    request.ask reader = .error error after → error.StoppedAt after
  /-- A request of known size that fails changes nothing. -/
  refuses : ∀ request : Request, request.IsFixed → ∀ error after,
    request.ask reader = .error error after →
      session input (calls ++ [(number, request)]) = session input calls
  /-- A request to another reader does not move it. -/
  apart : ∀ (request : Request) asked, asked ≠ number →
    (session input (calls ++ [(asked, request)]))[number]? = some reader

/-- In every session, of any calls to readers nested to any depth, each open reader keeps
its place in the input. -/
theorem session_keeps_places (input : List UInt8) (calls : List (Nat × Request)) (number : Nat)
    (reader : Reader) (isOpen : (session input calls)[number]? = some reader) :
    KeepsPlace input calls number reader where
  stands := session_standsIn input calls reader (List.mem_of_getElem? isOpen)
  stays later := by
    rw [session_append]
    rcases foldl_serve_passes later isOpen with ⟨now, isNow, count, enough, rfl⟩
    refine ⟨_, isNow, ?_⟩
    rw [Reader.position_skip, Reader.remaining_skip]
    omega
  next := Request.ask_byte (session_standsIn input calls reader (List.mem_of_getElem? isOpen))
  ended := Request.ask_byte_atEnd
  contents count enough := by
    have stands := session_standsIn input calls reader (List.mem_of_getElem? isOpen)
    rw [Request.ask_bytes enough, stands.take_rest enough]
  opens count enough := by
    refine ⟨reader.window count, reader.skip count, ?_, rfl, Reader.remaining_window enough, ?_,
      reader.window_append_skip count⟩
    · rw [session_concat, serve_of_ok isOpen (Request.ask_sub enough), Answer.readers]
    · rw [Reader.position_skip, Reader.position_window, Reader.remaining_window enough]
  lacks _ lacking := Request.ask_lacking lacking
  tells request error after fails := (request.ask_passing.of_error fails).2
  refuses request fixed error after fails := by
    cases Request.ask_whole fixed reader error after fails
    rcases List.getElem?_eq_some_iff.mp isOpen with ⟨inside, isReader⟩
    rw [session_concat, serve_of_error isOpen fails, ← isReader, List.set_getElem_self]
  apart request asked different := by
    rw [session_concat]
    exact serve_other request different.symm isOpen

/-- The reader of the input gives a byte and then opens a reader of four. Within that one
a reader of two is opened, where a number ends too early, and its parent is asked for
more than it has left. -/
def nestedCalls : List (Nat × Request) :=
  [(0, .byte), (0, .sub 4), (1, .u32), (1, .sub 2), (2, .u32), (1, .word32), (0, .bytes (-1))]

theorem session_keeps_places_nested :
    session [0xAA, 0x03, 0x80, 0x80, 0x05, 0xBB] nestedCalls =
        [⟨5, [0xBB]⟩, ⟨4, [0x05]⟩, ⟨4, []⟩] ∧
      KeepsPlace [0xAA, 0x03, 0x80, 0x80, 0x05, 0xBB] nestedCalls 1 ⟨4, [0x05]⟩ :=
  ⟨by decide, session_keeps_places _ nestedCalls 1 _ (by decide)⟩

end WasmLowering.Binary
