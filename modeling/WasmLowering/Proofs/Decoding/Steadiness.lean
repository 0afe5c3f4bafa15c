import WasmLowering.Proofs.Decoding.Extension

/-! Sections are read the same way wherever they stand.

Every decoder that a section is made of is steady, so what a section gives depends
on its bytes alone, and what it has read is the beginning of them. -/

namespace WasmLowering.Binary.Decoder

/-! ## Numbers -/

theorem byte_steady : byte.Steady := byte_exact.steady
theorem bytes_steady (count : Nat) : (bytes count).Steady := (bytes_exact count).steady
theorem u32_steady : u32.Steady := u32_exact.steady

/-! ## Bytes behind their size -/

structure Sized where
  size : List UInt8
  contents : List UInt8
  sized : Leb128.Unsigned 32 size contents.length

def Sized.bytes (sized : Sized) : List UInt8 := sized.size ++ sized.contents

theorem sub_eq_ok_iff {count start : Nat} {bytes : List UInt8} {inner after : Reader} :
    sub count ⟨start, bytes⟩ = .ok inner after ↔
      ∃ contents rest, bytes = contents ++ rest ∧ contents.length = count ∧
        inner = ⟨start, contents⟩ ∧ after = ⟨start + count, rest⟩ := by
  unfold sub
  split
  · next enough =>
      have enough : count ≤ bytes.length := enough
      simp only [Reader.window, Reader.skip, EStateM.Result.ok.injEq]
      constructor
      · rintro ⟨rfl, rfl⟩
        refine ⟨bytes.take count, bytes.drop count, ?_, ?_, rfl, rfl⟩
        · exact (List.take_append_drop count bytes).symm
        · exact List.length_take_of_le enough
      · rintro ⟨contents, rest, rfl, rfl, rfl, rfl⟩
        simp
  · next short =>
      have short : ¬count ≤ bytes.length := short
      simp only [reduceCtorEq, false_iff]
      rintro ⟨contents, rest, rfl, rfl, -⟩
      simp at short

/-- A reader of sized bytes comes from reading the size and cutting off as much. -/
theorem sized_of_ok {start : Nat} {bytes : List UInt8} {size : UInt32}
    {behind inner after : Reader} (isSize : u32 ⟨start, bytes⟩ = .ok size behind)
    (isInner : sub size.toNat behind = .ok inner after) :
    ∃ (sized : Sized) (rest : List UInt8), bytes = sized.bytes ++ rest ∧
      inner = ⟨start + sized.size.length, sized.contents⟩ ∧
      after = ⟨start + sized.bytes.length, rest⟩ := by
  rcases (u32_exact _ _ _ _).mp isSize with ⟨used, left, rfl, form, rfl⟩
  rcases sub_eq_ok_iff.mp isInner with ⟨contents, rest, rfl, isLength, rfl, rfl⟩
  refine ⟨⟨used, contents, isLength ▸ form⟩, rest, ?_, rfl, ?_⟩
  · simp [Sized.bytes]
  · simp [Sized.bytes, isLength, Nat.add_assoc]

theorem Sized.toNat_length (sized : Sized) :
    (UInt32.ofNat sized.contents.length).toNat = sized.contents.length :=
  UInt32.toNat_ofNat_of_lt' sized.sized.lt

theorem Sized.size_reads (sized : Sized) : u32.Reads sized.size (.ofNat sized.contents.length) := by
  apply u32_exact.reads
  show Leb128.Unsigned 32 sized.size (UInt32.ofNat sized.contents.length).toNat
  rw [sized.toNat_length]
  exact sized.sized

theorem Sized.reads (sized : Sized) (start : Nat) (rest : List UInt8) :
    ∃ size behind, u32 ⟨start, sized.bytes ++ rest⟩ = .ok size behind ∧
      sub size.toNat behind = .ok ⟨start + sized.size.length, sized.contents⟩
        ⟨start + sized.bytes.length, rest⟩ := by
  refine ⟨.ofNat sized.contents.length, ⟨start + sized.size.length, sized.contents ++ rest⟩, ?_, ?_⟩
  · rw [Sized.bytes, List.append_assoc]
    exact sized.size_reads start (sized.contents ++ rest)
  · refine sub_eq_ok_iff.mpr ⟨sized.contents, rest, rfl, sized.toNat_length.symm, rfl, ?_⟩
    simp [Sized.bytes, Nat.add_assoc, sized.toNat_length]

theorem Sized.append_inj {one other : Sized} {rest otherRest : List UInt8}
    (same : one.bytes ++ rest = other.bytes ++ otherRest) : one = other ∧ rest = otherRest := by
  rcases one.reads 0 rest with ⟨size, behind, isSize, isInner⟩
  rcases other.reads 0 otherRest with ⟨otherSize, otherBehind, isOtherSize, isOtherInner⟩
  rw [same, isOtherSize] at isSize
  cases isSize
  rw [isInner] at isOtherInner
  simp only [EStateM.Result.ok.injEq, Reader.mk.injEq, Nat.zero_add] at isOtherInner
  rcases isOtherInner with ⟨⟨sameLength, sameContents⟩, -, sameRest⟩
  refine ⟨?_, sameRest⟩
  have sameSize : one.size = other.size := by
    simp only [Sized.bytes, List.append_assoc] at same
    exact (List.append_inj same sameLength).1
  cases one
  cases other
  simp_all

theorem fromUTF8?_eq_some_iff {content : List UInt8} {text : String} :
    String.fromUTF8? content.toByteArray = some text ↔ content.toByteArray = text.toUTF8 := by
  unfold String.fromUTF8?
  split
  · next isValid =>
      rw [Option.some.injEq, ← String.toByteArray_inj]
      rfl
  · next notValid =>
      simp only [reduceCtorEq, false_iff]
      intro equal
      rw [equal] at notValid
      exact notValid text.isValidUTF8

theorem name_exact : name.Exact fun used text =>
    ∃ title : Sized, used = title.bytes ∧ title.contents.toByteArray = text.toUTF8 := by
  intro start bytes text after
  constructor
  · intro ran
    rcases bind_eq_ok_iff.mp ran with ⟨size, behind, isSize, ran⟩
    rcases bind_eq_ok_iff.mp ran with ⟨content, last, isContent, ran⟩
    rcases (u32_exact _ _ _ _).mp isSize with ⟨used, left, rfl, form, rfl⟩
    rcases (bytes_exact _ _ _ _ _).mp isContent with ⟨more, rest, rfl, ⟨rfl, isLength⟩, rfl⟩
    cases isText : String.fromUTF8? more.toByteArray with
    | none =>
        rw [isText] at ran
        cases ran
    | some found =>
        rw [isText] at ran
        rcases pure_eq_ok_iff.mp ran with ⟨rfl, rfl⟩
        let title : Sized := ⟨used, more, isLength ▸ form⟩
        refine ⟨title.bytes, rest, by simp [title, Sized.bytes], ⟨title, rfl, ?_⟩, ?_⟩
        · exact fromUTF8?_eq_some_iff.mp isText
        · simp [title, Sized.bytes, Nat.add_assoc]
  · rintro ⟨used, rest, rfl, ⟨title, rfl, isText⟩, rfl⟩
    have content := (bytes_exact title.contents.length).reads ⟨Eq.refl title.contents, rfl⟩
    refine Reads.bind title.size_reads ?_ start rest
    rw [title.toNat_length]
    intro start rest
    refine bind_eq_ok_iff.mpr ⟨title.contents, _, content start rest, ?_⟩
    rw [fromUTF8?_eq_some_iff.mpr isText]
    rfl

theorem name_steady : name.Steady := name_exact.steady

theorem counted_steady {α : Type} {item : Nat → Decoder α} (given : ∀ number, (item number).Steady) :
    (counted item).Steady :=
  u32_steady.bind fun count => .repeated given count.toNat 0

/-! ## Types and code -/

theorem reference_steady : reference.Steady := reference_extends.steady
theorem valueType_steady : valueType.Steady := valueType_extends.steady
theorem valueTypes_steady : valueTypes.Steady := valueTypes_extends.steady
theorem referenceType_steady : referenceType.Steady := referenceType_extends.steady

theorem declarationOf_steady (types : List FuncType) (position : Index) :
    (declarationOf types position).Steady :=
  (declarationOf_extends types position).steady

theorem limits_steady (isMemory : Bool) : (limits isMemory).Steady :=
  byte_steady.bind fun _ => .ite (.throw _) (.ite (.throw _)
    (u32_steady.bind fun _ => .ite (u32_steady.bind fun _ => .pure _) (.pure _)))

theorem code_steady (context : CodeContext) : (code context).Steady :=
  (code_extends context).steady

theorem constantCode_steady (types : List FuncType) : (constantCode types).Steady :=
  (code_steady _).bind fun _ => .ite (.pure _) (.throw _)

/-! ## Entries of sections -/

theorem typeEntry_steady : typeEntry.Steady :=
  byte_steady.bind fun _ => .ite (.throw _)
    (valueTypes_steady.bind fun _ => valueTypes_steady.bind fun _ => .pure _)

theorem table_steady : table.Steady :=
  referenceType_steady.bind fun _ => (limits_steady false).bind fun _ => .pure _

theorem memory_steady : memory.Steady :=
  (limits_steady true).bind fun _ => .pure _

theorem globalType_steady : globalType.Steady :=
  valueType_steady.bind fun _ => byte_steady.bind fun _ => .ite (.throw _) (.pure _)

theorem tag_steady (types : List FuncType) : (tag types).Steady :=
  byte_steady.bind fun _ => .ite (.throw _)
    (u32_steady.bind fun _ => (declarationOf_steady types _).bind fun _ => .pure _)

theorem func_steady (types : List FuncType) : (func types).Steady :=
  u32_steady.bind fun _ => (declarationOf_steady types _).bind fun _ => .pure _

theorem importEntry_steady (types : List FuncType) (number : Nat) :
    (importEntry types number).Steady := by
  refine name_steady.bind fun moduleName => name_steady.bind fun fieldName => ?_
  refine byte_steady.bind fun kind => ?_
  dsimp only
  split
  · exact (func_steady types).bind fun _ => .pure _
  · exact table_steady.bind fun _ => .pure _
  · exact memory_steady.bind fun _ => .pure _
  · exact globalType_steady.bind fun _ => .pure _
  · exact (tag_steady types).bind fun _ => .pure _
  · exact .throw _

theorem globalEntry_steady (types : List FuncType) (number : Nat) :
    (globalEntry types number).Steady :=
  globalType_steady.bind fun _ => .bind ((constantCode_steady types).locate _) fun _ => .pure _

theorem exportEntry_steady (bindings : Bindings) : (exportEntry bindings).Steady :=
  name_steady.bind fun _ => byte_steady.bind fun _ => .ite (.throw _)
    (u32_steady.bind fun _ => .ite (.throw _) (.pure _))

theorem exportEntries_steady (count number : Nat) (bindings : Bindings) :
    (exportEntries count number bindings).Steady := by
  induction count generalizing number bindings with
  | zero => exact .pure _
  | succ count induction =>
      exact (exportEntry_steady bindings).bind fun _ => (induction _ _).bind fun _ => .pure _

theorem element_steady (types : List FuncType) (usesExpressions isPassive : Bool) (number : Nat) :
    (element types usesExpressions isPassive number).Steady := by
  have function : ∀ instrs : List Instr, (elementFunction instrs).Steady := by
    intro instrs
    unfold elementFunction
    split
    · exact .pure _
    · exact .throw _
  refine .ite ((constantCode_steady types).bind fun instrs => .ite (.pure _) ?_) ?_
  · exact .bind ((function instrs).locate _) fun _ => .pure _
  · exact reference_steady.bind fun _ => .pure _

/-- What follows the place of a segment: the kind of its elements, and these. -/
theorem elementRest_steady (types : List FuncType) (usesKind usesExpressions isPassive : Prop)
    [Decidable usesKind] [Decidable usesExpressions] [Decidable isPassive] (table : Reference)
    (offset : List Instr) : Steady (do
      if usesKind then
        if usesExpressions then
          let _ ← referenceType
        else
          let kind ← byte
          if kind ≠ 0 then throw (.elementKind kind)
      let functions ← counted (element types (decide usesExpressions) (decide isPassive))
      return if isPassive then none
        else some (ElementSegment.mk table offset functions.flatten)) := by
  have last := counted_steady (element_steady types (decide usesExpressions) (decide isPassive))
  refine .ite (.ite (referenceType_steady.bind fun _ => ?_) ?_) ?_
  · exact last.bind fun _ => .pure _
  · refine byte_steady.bind fun kind => .ite (.throw _) ?_
    exact last.bind fun _ => .pure _
  · exact last.bind fun _ => .pure _

theorem elementSegment_steady (types : List FuncType) : (elementSegment types).Steady := by
  refine u32_steady.bind fun flags => .ite (.throw _) (.ite ?_ ?_)
  · refine reference_steady.bind fun table => .ite ?_ ?_
    · exact .bind (.pure _) fun offset => elementRest_steady types _ _ _ _ _
    · exact (constantCode_steady types).bind fun offset => elementRest_steady types _ _ _ _ _
  · refine .bind (.pure _) fun table => .ite ?_ ?_
    · exact .bind (.pure _) fun offset => elementRest_steady types _ _ _ _ _
    · exact (constantCode_steady types).bind fun offset => elementRest_steady types _ _ _ _ _

/-! ## Code and data -/

theorem localGroups_steady (count total : Nat) : (localGroups count total).Steady := by
  induction count generalizing total with
  | zero => exact .pure _
  | succ count induction =>
      refine u32_steady.bind fun size => valueType_steady.bind fun type => .ite (.throw _) ?_
      exact (induction _).bind fun _ => .pure _

theorem funcBody_steady (types : List FuncType) : (funcBody types).Steady :=
  u32_steady.bind fun _ => (localGroups_steady _ _).bind fun _ => (code_steady _).bind fun _ =>
    .ite (.throw _) (Steady.remaining.bind fun _ => .ite (.throw _) (.pure _))

theorem funcBody_consumes {types : List FuncType} {reader after : Reader}
    {body : List ValueType × List Instr} (ran : funcBody types reader = .ok body after) :
    (funcBody types).Consumes reader.rest body := by
  refine (funcBody_steady types).consumes ran ?_
  rcases bind_eq_ok_iff.mp ran with ⟨groups, _, _, ran⟩
  rcases bind_eq_ok_iff.mp ran with ⟨locals, _, _, ran⟩
  rcases bind_eq_ok_iff.mp ran with ⟨⟨instrs, terminator⟩, last, _, ran⟩
  dsimp only at ran
  split at ran
  · cases ran
  · rcases bind_eq_ok_iff.mp ran with ⟨left, _, isLeft, ran⟩
    rcases remaining_eq_ok_iff.mp isLeft with ⟨rfl, rfl⟩
    split at ran
    · cases ran
    · next noneLeft =>
        cases ran
        exact List.length_eq_zero_iff.mp (not_not.mp noneLeft)

theorem sizedBody_exact (types : List FuncType) (number : Nat) :
    (sizedBody types number).Exact fun used body =>
      ∃ sized : Sized, used = sized.bytes ∧ (funcBody types).Consumes sized.contents body := by
  intro start bytes body after
  constructor
  · intro ran
    rcases bind_eq_ok_iff.mp ran with ⟨size, behind, isSize, ran⟩
    rcases bind_eq_ok_iff.mp ran with ⟨inner, between, isInner, ran⟩
    rcases bind_eq_ok_iff.mp ran with ⟨result, last, isResult, ran⟩
    rcases pure_eq_ok_iff.mp ran with ⟨rfl, rfl⟩
    rcases inside_eq_ok_iff.mp isResult with ⟨isBody, rfl⟩
    rcases sized_of_ok isSize isInner with ⟨sized, rest, rfl, rfl, rfl⟩
    exact ⟨_, rest, rfl, ⟨sized, rfl, funcBody_consumes (locateBy_eq_ok_iff.mp isBody)⟩, rfl⟩
  · rintro ⟨used, rest, rfl, ⟨sized, rfl, isBody⟩, rfl⟩
    rcases sized.reads start rest with ⟨size, behind, isSize, isInner⟩
    refine bind_eq_ok_iff.mpr ⟨size, behind, isSize, ?_⟩
    refine bind_eq_ok_iff.mpr ⟨_, _, isInner, ?_⟩
    let inner : Reader := ⟨start + sized.size.length + sized.contents.length, []⟩
    refine bind_eq_ok_iff.mpr ⟨(body, inner), _, inside_eq_ok_iff.mpr ⟨?_, rfl⟩, rfl⟩
    exact locateBy_eq_ok_iff.mpr (isBody (start + sized.size.length))

theorem dataTarget_steady (number : Nat) : (dataTarget number).Steady := by
  refine u32_steady.bind fun flags => ?_
  split
  · exact .pure _
  · exact .pure _
  · exact reference_steady.bind fun _ => .pure _
  · exact .throw _

theorem dataSegment_steady (types : List FuncType) (number : Nat) :
    (dataSegment types number).Steady := by
  refine (dataTarget_steady number).bind fun target => ?_
  cases target with
  | none => exact u32_steady.bind fun _ => (bytes_steady _).bind fun _ => .pure _
  | some memory =>
      refine .bind ((constantCode_steady types).locate _) fun _ => ?_
      exact u32_steady.bind fun _ => (bytes_steady _).bind fun _ => .pure _

end WasmLowering.Binary.Decoder
