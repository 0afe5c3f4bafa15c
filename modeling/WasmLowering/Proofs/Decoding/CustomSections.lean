import WasmLowering.Proofs.Decoding.Framing

/-! Custom sections make no difference but in names.

Wherever custom sections are put between the sections of a module, it is decoded or
refused as before, and what is decoded is the same without names. All that is asked of
a custom section is that it begins with a name; what follows may be anything, also in
a name section. -/

namespace WasmLowering.Binary

/-- The second list is the first with custom sections put in anywhere. -/
inductive Inserted : List Frame → List Frame → Prop where
  | done : Inserted [] []
  | keep {original extended : List Frame} (frame : Frame) (others : Inserted original extended) :
      Inserted (frame :: original) (frame :: extended)
  | insert {original extended : List Frame} {frame : Frame} (isCustom : frame.kind? = some .custom)
      (named : frame.Named) (others : Inserted original extended) :
      Inserted original (frame :: extended)

namespace Inserted

theorem refl (frames : List Frame) : Inserted frames frames := by
  induction frames with
  | nil => exact .done
  | cons frame frames induction => exact .keep frame induction

theorem append {original extended : List Frame} (inserted : Inserted original extended)
    (more : List Frame) : Inserted (original ++ more) (extended ++ more) := by
  induction inserted with
  | done => exact .refl more
  | keep frame _ induction => exact .keep frame induction
  | insert isCustom named _ induction => exact .insert isCustom named induction

variable {original extended : List Frame} {before after : Progress}

theorem run (inserted : Inserted original extended) (ran : Run before original after) :
    Run before extended after := by
  induction inserted generalizing before with
  | done => exact ran
  | keep frame _ induction =>
      cases ran with
      | step first others => exact .step first (induction others)
  | insert isCustom named _ induction => exact .step (.custom isCustom named rfl) (induction ran)

theorem run_original (inserted : Inserted original extended) (ran : Run before extended after)
    {other : Progress} (same : before.unnamed = other.unnamed) :
    ∃ result, Run other original result ∧ result.unnamed = after.unnamed := by
  induction inserted generalizing before other with
  | done =>
      cases ran
      exact ⟨other, .done other, same.symm⟩
  | keep frame _ induction =>
      cases ran with
      | step first others =>
          rcases first.alike same with ⟨between, step, sameStep⟩
          rcases induction others sameStep.symm with ⟨result, later, sameResult⟩
          exact ⟨result, .step step later, sameResult⟩
  | insert isCustom named _ induction =>
      cases ran with
      | step first others =>
          cases first with
          | custom _ _ kept => exact induction others (kept.trans same)
          | other id isId notCustom =>
              rw [isCustom] at isId
              cases isId
              exact absurd rfl notCustom

end Inserted

/-! ## Whole modules -/

def decodeUnnamed (bytes : List UInt8) : Option Module := (decode bytes).toOption.map Module.unnamed

theorem decodeUnnamed_eq_some_iff {bytes : List UInt8} {contents : Module} :
    decodeUnnamed bytes = some contents ↔
      ∃ frames final, bytes = Encode.header ++ frames.flatMap Frame.bytes ∧ Run {} frames final ∧
        final.bodies = final.declared ∧ final.module.unnamed = contents := by
  unfold decodeUnnamed
  rw [Option.map_eq_some_iff]
  constructor
  · rintro ⟨module, isModule, rfl⟩
    rcases decode_run (eq_ok_of_toOption isModule) with ⟨frames, final, isBytes, ran, complete, rfl⟩
    exact ⟨frames, final, isBytes, ran, complete, rfl⟩
  · rintro ⟨frames, final, rfl, ran, complete, rfl⟩
    rcases decode_of_run ran complete with ⟨module, accepted, same⟩
    exact ⟨module, by rw [accepted]; rfl, same⟩

theorem frames_of_decoded {head tail : List UInt8} {frames all : List Frame}
    (isHead : head.length = Encode.header.length)
    (same : head ++ frames.flatMap Frame.bytes ++ tail = Encode.header ++ all.flatMap Frame.bytes) :
    head = Encode.header ∧ ∃ more, all = frames ++ more ∧ tail = more.flatMap Frame.bytes := by
  rw [List.append_assoc] at same
  rcases List.append_inj same isHead with ⟨sameHead, sameRest⟩
  exact ⟨sameHead, Frame.flatMap_bytes_append_inj sameRest⟩

/-- Custom sections between the sections of a module change nothing but names. -/
theorem decode_ignores_custom {head tail : List UInt8} {original extended : List Frame}
    (isHead : head.length = Encode.header.length) (inserted : Inserted original extended) :
    (decode (head ++ extended.flatMap Frame.bytes ++ tail)).toOption.map Module.unnamed =
      (decode (head ++ original.flatMap Frame.bytes ++ tail)).toOption.map Module.unnamed := by
  apply Option.ext
  intro contents
  show decodeUnnamed _ = some contents ↔ decodeUnnamed _ = some contents
  rw [decodeUnnamed_eq_some_iff, decodeUnnamed_eq_some_iff]
  constructor
  · rintro ⟨all, final, isBytes, ran, complete, rfl⟩
    rcases frames_of_decoded isHead isBytes with ⟨rfl, more, rfl, rfl⟩
    rcases (inserted.append more).run_original ran rfl with ⟨result, ranOriginal, same⟩
    exact ⟨original ++ more, result, by simp, ranOriginal,
      Progress.complete_of_unnamed same complete, congrArg Progress.module same⟩
  · rintro ⟨all, final, isBytes, ran, complete, rfl⟩
    rcases frames_of_decoded isHead isBytes with ⟨rfl, more, rfl, rfl⟩
    exact ⟨extended ++ more, final, by simp, (inserted.append more).run ran, complete, rfl⟩

def declaringOne : List Frame :=
  [⟨1, ⟨[4], [1, 0x60, 0, 0], .last (by decide) (by decide)⟩⟩,
    ⟨3, ⟨[2], [1, 0], .last (by decide) (by decide)⟩⟩]

/-- A name section that calls the first function `f` and breaks off in the next name. -/
def brokenNames : Frame :=
  ⟨0, ⟨[13], [4, 0x6E, 0x61, 0x6D, 0x65, 1, 6, 2, 0, 1, 0x66, 0, 7], .last (by decide) (by decide)⟩⟩

def emptyBody : List UInt8 := [10, 4, 1, 2, 0, 0x0B]

theorem decode_ignores_custom_brokenNames : ∃ module named,
    decode (Encode.header ++ declaringOne.flatMap Frame.bytes ++ emptyBody) = .ok module ∧
      decode (Encode.header ++ (declaringOne ++ [brokenNames]).flatMap Frame.bytes ++ emptyBody) =
        .ok named ∧
      module.funcs.map (·.name) = [""] ∧ named.funcs.map (·.name) = ["$f"] ∧
      named.unnamed = module.unnamed := by
  have isNamed : brokenNames.Named :=
    ⟨⟨[4], [0x6E, 0x61, 0x6D, 0x65], .last (by decide) (by decide)⟩, "name",
      [1, 6, 2, 0, 1, 0x66, 0, 7], rfl, by decide⟩
  have inserted : Inserted declaringOne (declaringOne ++ [brokenNames]) :=
    .keep _ (.keep _ (.insert rfl isNamed .done))
  rcases exists_of_run (decode (Encode.header ++ declaringOne.flatMap Frame.bytes ++ emptyBody))
    (·.funcs.map (·.name)) [""] (by decide +kernel) with ⟨module, accepted, isUnnamed⟩
  rcases exists_of_run
    (decode (Encode.header ++ (declaringOne ++ [brokenNames]).flatMap Frame.bytes ++ emptyBody))
    (·.funcs.map (·.name)) ["$f"] (by decide +kernel) with ⟨named, acceptedNamed, areNamed⟩
  have same : (decode (Encode.header ++ _ ++ emptyBody)).toOption.map _ = _ :=
    decode_ignores_custom rfl inserted
  refine ⟨module, named, accepted, acceptedNamed, isUnnamed, areNamed, ?_⟩
  rw [accepted, acceptedNamed] at same
  exact Option.some.inj same

end WasmLowering.Binary
