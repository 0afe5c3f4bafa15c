import WasmLowering.Proofs.Decoding.InstructionReading
import WasmLowering.Proofs.Decoding.Steadiness

/-! The parts of sketches, and how they are read back.

Each part has a description: the part of a module that it stands for, with value types in
place of their bytes, references by position, and offsets as constants. The bytes that are
written for a part are read as its description, if its value types are ones and its types
exist. Code is given as bytes, so it is described by what is read of them. -/

namespace WasmLowering.Binary

/-! ## What the parts describe -/

def TypeSketch.described (sketch : TypeSketch) : FuncType :=
  { signature := ⟨sketch.params.map .ofByte, sketch.results.map .ofByte⟩ }

def ImportSketch.described (sketch : ImportSketch) : Import :=
  ⟨sketch.moduleName, sketch.fieldName, .func⟩

def LimitsSketch.described (sketch : LimitsSketch) : Limits :=
  match sketch.maximum with
  | none => { initial := sketch.minimum.toUInt64 }
  | some maximum =>
      { initial := sketch.minimum.toUInt64, maximum := maximum.toUInt64, hasMaximum := true }

def GlobalSketch.described (sketch : GlobalSketch) (initial : List Instr) : Global :=
  { type := .ofByte sketch.type, isMutable := sketch.isMutable, initial }

def ExportSketch.described (sketch : ExportSketch) : Export :=
  ⟨sketch.name, .ofByte sketch.kind, .index sketch.position⟩

def describedOffset (value : UInt32) : List Instr := [.const (.number (.i32 value))]

def ElementSketch.described (sketch : ElementSketch) : ElementSegment :=
  ⟨.index 0, describedOffset sketch.offset, sketch.functions.map .index⟩

def DataSketch.described (sketch : DataSketch) : DataSegment :=
  { memory := .index 0, offset := describedOffset sketch.offset, bytes := sketch.bytes }

def describedDeclaration (types : List FuncType) (position : UInt32) : Declaration :=
  ⟨some (.index position), ((types[position.toNat]?).getD {}).signature⟩

def IsValueType (byte : UInt8) : Prop := (ValueType.declared? byte).isSome

instance (byte : UInt8) : Decidable (IsValueType byte) := inferInstanceAs (Decidable (_ = true))

theorem IsValueType.declared {byte : UInt8} (isType : IsValueType byte) :
    ValueType.declared? byte = some (.ofByte byte) := by
  unfold IsValueType ValueType.declared? at *
  split at isType <;> simp_all

/-! ## Numbers, names and lists -/

open Decoder (Reads)

theorem encodeU32_form (value : UInt32) : Leb128.Unsigned 32 (encodeU32 value) value.toNat :=
  Leb128.writeUnsigned_unsigned value.toNat_lt (by decide)

theorem encodeU32_reads (value : UInt32) : Decoder.u32.Reads (encodeU32 value) value :=
  Decoder.index_reads (encodeU32_form value)

theorem length_encodeU32_le (value : UInt32) : (encodeU32 value).length ≤ 5 := by
  have bounded : ∀ fuel number, (Leb128.writeUnsigned fuel number).length ≤ fuel + 1 := by
    intro fuel
    induction fuel with
    | zero => exact fun _ => Nat.le_refl 1
    | succ fuel induction =>
        intro number
        unfold Leb128.writeUnsigned
        split
        · simp
        · exact Nat.succ_le_succ (induction _)
  exact bounded 4 value.toNat

theorem encodeU32_ne_nil (value : UInt32) : encodeU32 value ≠ [] := (encodeU32_form value).ne_nil

namespace Encode

def sized (contents : List UInt8) (fits : contents.length < UInt32.size) : Decoder.Sized where
  size := Encode.length contents
  contents := contents
  sized := by
    have form := encodeU32_form (.ofNat contents.length)
    rwa [UInt32.toNat_ofNat_of_lt' fits] at form

theorem toList_loop_eq (content : ByteArray) (position : Nat) (before : List UInt8) :
    ByteArray.toList.loop content position before =
      before.reverse ++ content.data.toList.drop position := by
  fun_induction ByteArray.toList.loop content position before with
  | case1 position before inside induction =>
      have inList : position < content.data.toList.length := inside
      have isItem : content.get! position = content.data.toList[position] :=
        getElem!_pos content.data position inside
      rw [induction, List.drop_eq_getElem_cons inList, isItem]
      simp
  | case2 position before outside =>
      have beyond : content.data.toList.length ≤ position := Nat.le_of_not_lt outside
      rw [List.drop_of_length_le beyond, List.append_nil]

theorem toByteArray_toList (content : ByteArray) : content.toList.toByteArray = content := by
  apply ByteArray.ext
  rw [ByteArray.toList, toList_loop_eq]
  exact List.data_toByteArray

theorem length_reads {α : Type} (items : List α) :
    Decoder.u32.Reads (length items) (.ofNat items.length) :=
  encodeU32_reads _

theorem length_item_le {α : Type} {encode : α → List UInt8} {items : List α} {item : α}
    (member : item ∈ items) : (encode item).length ≤ (list encode items).length := by
  have isPart : encode item ∈ items.map encode := List.mem_map_of_mem member
  have inside := (List.sublist_flatten_of_mem isPart).length_le
  rw [← List.flatMap_def] at inside
  rw [list, List.length_append]
  exact Nat.le_trans inside (Nat.le_add_left _ _)

/-- A list has no more items than bytes, if each item has one at least. -/
theorem length_le_list {α : Type} {encode : α → List UInt8} {items : List α}
    (nonempty : ∀ item ∈ items, encode item ≠ []) :
    items.length ≤ (list encode items).length := by
  have all : items.length ≤ (items.flatMap encode).length := by
    induction items with
    | nil => exact Nat.le_refl 0
    | cons first rest induction =>
        have others := induction fun item member => nonempty item (List.mem_cons_of_mem _ member)
        have one := List.length_pos_iff.mpr (nonempty first List.mem_cons_self)
        rw [List.flatMap_cons, List.length_append, List.length_cons]
        omega
  rw [list, List.length_append]
  exact Nat.le_trans all (Nat.le_add_left _ _)

theorem length_le_vector (bytes : List UInt8) : bytes.length ≤ (vector bytes).length := by
  rw [vector, List.length_append]
  exact Nat.le_add_left _ _

theorem length_le_framed (id : UInt8) (contents : List UInt8) :
    contents.length ≤ (framed id contents).length :=
  Nat.le_succ_of_le (length_le_vector contents)

theorem name_reads {text : String} (fits : (name text).length < UInt32.size) :
    Decoder.name.Reads (name text) text := by
  have contentsFit := Nat.lt_of_le_of_lt (length_le_vector text.toUTF8.toList) fits
  exact Decoder.name_exact.reads ⟨sized _ contentsFit, rfl, toByteArray_toList _⟩

/-- Items that are not too long are read one after another, whatever their numbers. -/
theorem items_read {α β : Type} {item : Nat → Decoder β} {encode : α → List UInt8}
    {items : List α} {values : List β} (fits : (list encode items).length < UInt32.size)
    (each : List.Forall₂ (fun given value => (encode given).length < UInt32.size →
      ∀ number, (item number).Reads (encode given) value) items values) (first : Nat) :
    (Decoder.repeated item items.length first).Reads (items.flatMap encode) values := by
  have itemsFit : ∀ given ∈ items, (encode given).length < UInt32.size :=
    fun given member => Nat.lt_of_le_of_lt (length_item_le member) fits
  have forms : List.Forall₂ (fun given value => ∀ number, (item number).Reads (encode given) value)
      items values := by
    apply (List.forall₂_and_left _ _).mpr ⟨itemsFit, each⟩ |>.imp
    exact fun given value both => both.2 both.1
  rw [each.length_eq, List.flatMap_def]
  exact Reads.repeated (List.forall₂_map_left_iff.mpr forms) first

theorem count_fits {α : Type} {encode : α → List UInt8} {items : List α}
    (nonempty : ∀ item ∈ items, encode item ≠ [])
    (fits : (list encode items).length < UInt32.size) :
    (UInt32.ofNat items.length).toNat = items.length :=
  UInt32.toNat_ofNat_of_lt' (Nat.lt_of_le_of_lt (length_le_list nonempty) fits)

/-- A list that is not too long is read if each of its items is. -/
theorem list_reads {α β : Type} {item : Nat → Decoder β} {encode : α → List UInt8}
    {items : List α} {values : List β} (nonempty : ∀ item ∈ items, encode item ≠ [])
    (fits : (list encode items).length < UInt32.size)
    (each : List.Forall₂ (fun given value => (encode given).length < UInt32.size →
      ∀ number, (item number).Reads (encode given) value) items values) :
    (Decoder.counted item).Reads (list encode items) values := by
  apply (length_reads items).bind
  rw [count_fits nonempty fits]
  exact items_read fits each 0

theorem single_reads {α : Type} {item : Decoder α} {used : List UInt8} {value : α}
    (given : item.Reads used value) :
    (Decoder.counted fun _ => item).Reads (1 :: used) [value] := by
  apply (encodeU32_reads 1).bind
  exact given.map fun value => [value]

theorem list_reads_map {α β : Type} {item : Nat → Decoder β} {encode : α → List UInt8}
    {items : List α} {describe : α → β} (nonempty : ∀ item ∈ items, encode item ≠ [])
    (fits : (list encode items).length < UInt32.size)
    (each : ∀ given ∈ items, (encode given).length < UInt32.size →
      ∀ number, (item number).Reads (encode given) (describe given)) :
    (Decoder.counted item).Reads (list encode items) (items.map describe) := by
  apply list_reads nonempty fits
  rw [List.forall₂_map_right_iff, List.forall₂_same]
  exact each

end Encode

/-! ## Types and entities -/

theorem IsValueType.reads {byte : UInt8} (isType : IsValueType byte) :
    Decoder.valueType.Reads [byte] (.ofByte byte) :=
  Decoder.valueType_reads isType.declared

theorem valueTypes_reads {bytes : List UInt8} (fits : bytes.length < UInt32.size)
    (areTypes : ∀ byte ∈ bytes, IsValueType byte) :
    Decoder.valueTypes.Reads (Encode.vector bytes) (bytes.map .ofByte) := by
  have each : List.Forall₂ (fun used type => ∀ _ : Nat, Decoder.valueType.Reads used type)
      (bytes.map fun byte => [byte]) (bytes.map .ofByte) := by
    rw [List.forall₂_map_left_iff, List.forall₂_map_right_iff, List.forall₂_same]
    exact fun byte member _ => (areTypes byte member).reads
  have forms := Reads.repeated each 0
  have flat : (bytes.map fun byte => [byte]).flatten = bytes := by
    rw [← List.flatMap_def, List.flatMap_singleton']
  rw [List.length_map, flat] at forms
  apply (Encode.length_reads bytes).bind
  rw [UInt32.toNat_ofNat_of_lt' fits]
  exact forms.bounded (Nat.le_refl _)

theorem byte_reads (byte : UInt8) : Decoder.byte.Reads [byte] byte := Decoder.byte_exact.reads rfl

theorem TypeSketch.reads {sketch : TypeSketch}
    (params : ∀ byte ∈ sketch.params, IsValueType byte)
    (results : ∀ byte ∈ sketch.results, IsValueType byte)
    (fits : (Encode.type sketch).length < UInt32.size) :
    Decoder.typeEntry.Reads (Encode.type sketch) sketch.described := by
  rw [Encode.type, List.length_cons, List.length_append] at fits
  have paramsFit : sketch.params.length < UInt32.size := by
    have := Encode.length_le_vector sketch.params
    omega
  have resultsFit : sketch.results.length < UInt32.size := by
    have := Encode.length_le_vector sketch.results
    omega
  apply (byte_reads 0x60).bind
  apply (valueTypes_reads paramsFit params).bind
  exact (valueTypes_reads resultsFit results).map _

theorem declaration_reads {types : List FuncType} {position : UInt32}
    (inside : position.toNat < types.length) :
    (Decoder.declarationOf types position).Reads [] (describedDeclaration types position) := by
  have isType := List.getElem?_eq_getElem inside
  rw [describedDeclaration, isType]
  exact Decoder.declarationOf_reads isType

theorem func_reads {types : List FuncType} {position : UInt32}
    (inside : position.toNat < types.length) :
    (Decoder.func types).Reads (encodeU32 position)
      { declaration := describedDeclaration types position } := by
  rw [← List.append_nil (encodeU32 position)]
  apply (encodeU32_reads position).bind
  exact (declaration_reads inside).map _

theorem ImportSketch.reads {types : List FuncType} {sketch : ImportSketch}
    (inside : sketch.type.toNat < types.length)
    (fits : (Encode.importEntry sketch).length < UInt32.size) (number : Nat) :
    (Decoder.importEntry types number).Reads (Encode.importEntry sketch)
      (sketch.described, .func { declaration := describedDeclaration types sketch.type }) := by
  rw [Encode.importEntry, List.append_assoc] at fits ⊢
  rw [List.length_append, List.length_append] at fits
  have moduleFits : (Encode.name sketch.moduleName).length < UInt32.size := by omega
  have fieldFits : (Encode.name sketch.fieldName).length < UInt32.size := by omega
  apply (Encode.name_reads moduleFits).bind
  apply (Encode.name_reads fieldFits).bind
  apply (byte_reads 0).bind
  exact (func_reads inside).map fun func => (sketch.described, Decoder.Imported.func func)

namespace LimitsSketch

theorem length_le (sketch : LimitsSketch) : (Encode.limits sketch).length ≤ 11 := by
  unfold Encode.limits
  have minimum := length_encodeU32_le sketch.minimum
  split
  · rw [List.length_cons]
    omega
  · next maximum _ =>
      have := length_encodeU32_le maximum
      rw [List.length_cons, List.length_append]
      omega

theorem reads (sketch : LimitsSketch) (isMemory : Bool) :
    (Decoder.limits isMemory).Reads (Encode.limits sketch) sketch.described := by
  rcases sketch with ⟨minimum, maximum⟩
  cases maximum with
  | none =>
      apply (byte_reads 0).bind
      cases isMemory <;> exact (encodeU32_reads minimum).map _
  | some maximum =>
      apply (byte_reads 1).bind
      cases isMemory <;> exact (encodeU32_reads minimum).bind ((encodeU32_reads maximum).map _)

theorem reads_table (sketch : LimitsSketch) :
    Decoder.table.Reads (0x70 :: Encode.limits sketch)
      { element := .funcref, limits := sketch.described } := by
  have isType : Decoder.valueType.Reads [0x70] .funcref := Decoder.valueType_reads rfl
  have isReference : Decoder.referenceType.Reads ([0x70] ++ []) .funcref := isType.bind (.pure _)
  apply isReference.bind
  exact (sketch.reads false).map _

theorem reads_memory (sketch : LimitsSketch) :
    Decoder.memory.Reads (Encode.limits sketch) { limits := sketch.described } :=
  (sketch.reads true).map _

end LimitsSketch

/-! ## Code -/

def ReadsAs (context : CodeContext) (bytes : List UInt8) (instrs : List Instr) : Prop :=
  (Decoder.code context).Consumes (bytes ++ [Encode.finish]) (instrs, .finish)

theorem ReadsAs.constant {types : List FuncType} {bytes : List UInt8} {instrs : List Instr}
    (isCode : ReadsAs ⟨types, true⟩ bytes instrs) :
    (Decoder.constantCode types).Reads (bytes ++ [Encode.finish]) instrs := by
  have whole := Decoder.Consumes.reads (Decoder.code_extends _) isCode
  rw [← List.append_nil (bytes ++ [Encode.finish])]
  exact whole.bind (.pure _)

theorem ofInt_toInt32 (value : UInt32) : UInt32.ofInt value.toInt32.toInt = value := by
  have below : (value.toNat : Int) < 2 ^ 32 := by exact_mod_cast value.toNat_lt
  have residue : value.toInt32.toInt % 2 ^ 32 = value.toNat := by
    rw [Int32.toInt, UInt32.toBitVec_toInt32, BitVec.toInt_eq_toNat_bmod]
    exact Int.bmod_emod.trans (Int.emod_eq_of_lt (Int.natCast_nonneg _) below)
  rw [UInt32.ofInt, residue, Int.toNat_natCast, UInt32.ofNat_toNat]

theorem s32_reads (value : Int32) : Decoder.s32.Reads (encodeS64 value.toInt64) value.toInt := by
  apply (Decoder.signed_exact (by decide)).reads
  rw [encodeS64, Int32.toInt_toInt64]
  exact Leb128.writeSigned_signed (by decide) value.le_toInt value.toInt_lt (by decide)

theorem offset_reads (types : List FuncType) (value : UInt32) :
    (Decoder.constantCode types).Reads (Encode.offset value) (describedOffset value) := by
  have isConst := (s32_reads value.toInt32).map fun number =>
    Instr.const (.number (.i32 (.ofInt number)))
  rw [ofInt_toInt32] at isConst
  have closed : ∀ fuel, (Decoder.instrs ⟨types, true⟩ (fuel + 1)).Reads [Encode.finish]
      ([], .finish) := fun _ => (byte_reads 0x0B).bind (.pure _)
  have whole : ∀ fuel, (Decoder.instrs ⟨types, true⟩ (fuel + 2)).Reads (Encode.offset value)
      (describedOffset value, .finish) := by
    intro fuel
    apply (byte_reads 0x41).bind
    apply (isConst.locateBy _).bind
    exact (closed fuel).bind (.pure _)
  apply ReadsAs.constant
  exact (whole (encodeS64 value.toInt32.toInt64 ++ [Encode.finish]).length).consumes

theorem GlobalSketch.reads {types : List FuncType} {sketch : GlobalSketch} {initial : List Instr}
    (isType : IsValueType sketch.type) (isInitial : ReadsAs ⟨types, true⟩ sketch.initial initial)
    (number : Nat) :
    (Decoder.globalEntry types number).Reads (Encode.global sketch) (sketch.described initial) := by
  have flag : Decoder.globalType.Reads [sketch.type, if sketch.isMutable then 1 else 0]
      { type := .ofByte sketch.type, isMutable := sketch.isMutable } := by
    apply isType.reads.bind
    cases sketch.isMutable <;> exact (byte_reads _).bind (.pure _)
  apply flag.bind
  exact (isInitial.constant.locate _).map _

theorem localGroups_reads {bytes : List UInt8} (areTypes : ∀ byte ∈ bytes, IsValueType byte)
    {total : Nat} (few : total + bytes.length ≤ maxLocals) :
    (Decoder.localGroups bytes.length total).Reads (bytes.flatMap fun type => [1, type])
      (bytes.map .ofByte) := by
  induction bytes generalizing total with
  | nil => exact .pure []
  | cons first others induction =>
      rw [List.forall_mem_cons] at areTypes
      rw [List.length_cons] at few
      have stillFew : total + 1 + others.length ≤ maxLocals := by omega
      have notMany : ¬maxLocals < total + (1 : UInt32).toNat := by
        show ¬maxLocals < total + 1
        omega
      apply (encodeU32_reads 1).bind
      apply areTypes.1.reads.bind
      dsimp only
      rw [if_neg notMany]
      exact (induction areTypes.2 stillFew).map _

theorem FuncSketch.reads {types : List FuncType} {sketch : FuncSketch} {body : List Instr}
    (areTypes : ∀ byte ∈ sketch.locals, IsValueType byte) (few : sketch.locals.length ≤ maxLocals)
    (isBody : ReadsAs ⟨types, false⟩ sketch.body body)
    (fits : (Encode.code sketch).length < UInt32.size) (number : Nat) :
    (Decoder.sizedBody types number).Reads (Encode.code sketch)
      (sketch.locals.map .ofByte, body) := by
  have fitsInside := Nat.lt_of_le_of_lt (Encode.length_le_vector _) fits
  apply (Decoder.sizedBody_exact types number).reads
  refine ⟨Encode.sized _ fitsInside, rfl, ?_⟩
  show (Decoder.funcBody types).Consumes (Encode.list _ _ ++ sketch.body ++ _) _
  have locals := localGroups_reads areTypes ((Nat.zero_add _).trans_le few)
  rw [Encode.list, List.append_assoc, List.append_assoc]
  apply (Encode.length_reads sketch.locals).bind_consumes
  rw [UInt32.toNat_ofNat_of_lt' (Nat.lt_of_le_of_lt few (by decide))]
  apply locals.bind_consumes
  apply Decoder.Consumes.bind isBody
  intro start
  rfl

/-! ## Exports and segments -/

def boundExports (sketches : List ExportSketch) (number : Nat) : List (String × Index) :=
  (sketches.zipIdx number).map fun (sketch, number) => (sketch.name, .ofNat number)

theorem ExportSketch.reads {sketch : ExportSketch} {bindings : Bindings} (isKind : sketch.kind ≤ 4)
    (fits : (Encode.exportEntry sketch).length < UInt32.size)
    (free : bindings.has sketch.name = false) :
    (Decoder.exportEntry bindings).Reads (Encode.exportEntry sketch) sketch.described := by
  rw [Encode.exportEntry, List.length_append] at fits
  have nameFits : (Encode.name sketch.name).length < UInt32.size := by omega
  apply (Encode.name_reads nameFits).bind
  apply (byte_reads sketch.kind).bind
  dsimp only
  rw [if_neg (UInt8.not_lt.mpr isKind), free]
  exact (encodeU32_reads sketch.position).map _

theorem exportEntries_reads {sketches : List ExportSketch}
    (areKinds : ∀ sketch ∈ sketches, sketch.kind ≤ 4)
    (fit : ∀ sketch ∈ sketches, (Encode.exportEntry sketch).length < UInt32.size)
    (distinct : (sketches.map (·.name)).Nodup) (number : Nat) {bindings : Bindings}
    (free : ∀ sketch ∈ sketches, bindings.has sketch.name = false) :
    (Decoder.exportEntries sketches.length number bindings).Reads
      (sketches.flatMap Encode.exportEntry)
      (sketches.map (·.described), bindings.putAll (boundExports sketches number)) := by
  induction sketches generalizing number bindings with
  | nil => exact .pure _
  | cons first others induction =>
      rw [List.forall_mem_cons] at fit areKinds free
      rw [List.map_cons, List.nodup_cons] at distinct
      have stillFree : ∀ sketch ∈ others,
          (bindings.put first.name (.ofNat number)).has sketch.name = false := by
        intro sketch member
        have different : first.name ≠ sketch.name := by
          intro same
          exact distinct.1 (same ▸ List.mem_map_of_mem member)
        rw [Bindings.has_eq_isSome, Bindings.find?_put, if_neg different, ← Bindings.has_eq_isSome]
        exact free.2 sketch member
      apply (ExportSketch.reads areKinds.1 fit.1 free.1).bind
      exact (induction areKinds.2 fit.2 distinct.2 (number + 1) stillFree).map _

theorem ElementSketch.reads (types : List FuncType) {sketch : ElementSketch}
    (fits : (Encode.element sketch).length < UInt32.size) :
    (Decoder.elementSegment types).Reads (Encode.element sketch) (some sketch.described) := by
  have one : ∀ position number, (Decoder.element types false false number).Reads
      (encodeU32 position) [.index position] := by
    intro position number
    exact ((encodeU32_reads position).map Reference.index).map fun function => [function]
  have functionsFit : (Encode.list encodeU32 sketch.functions).length < UInt32.size := by
    rw [Encode.element, List.length_cons, List.length_append] at fits
    omega
  have functions := Encode.list_reads_map (fun position _ => encodeU32_ne_nil position)
    functionsFit fun position _ _ => one position
  have isFlat : (sketch.functions.map fun position => [Reference.index position]).flatten =
      sketch.functions.map .index := by
    rw [← List.flatMap_def, ← List.map_eq_flatMap]
  apply (encodeU32_reads 0).bind
  apply (offset_reads types sketch.offset).bind
  rw [ElementSketch.described, ← isFlat]
  exact functions.map fun functions => some (ElementSegment.mk _ _ functions.flatten)

theorem DataSketch.reads (types : List FuncType) {sketch : DataSketch}
    (fits : (Encode.data sketch).length < UInt32.size) (number : Nat) :
    (Decoder.dataSegment types number).Reads (Encode.data sketch) sketch.described := by
  have bytesFit : sketch.bytes.length < UInt32.size := by
    have := Encode.length_le_vector sketch.bytes
    rw [Encode.data, List.length_cons, List.length_append] at fits
    omega
  have target : (Decoder.dataTarget number).Reads [0] (some (.index 0)) :=
    (encodeU32_reads 0).bind (.pure _)
  apply target.bind
  apply ((offset_reads types sketch.offset).locate _).bind
  apply (Encode.length_reads sketch.bytes).bind
  rw [UInt32.toNat_ofNat_of_lt' bytesFit]
  exact ((Decoder.bytes_exact _).reads ⟨rfl, rfl⟩).map _

end WasmLowering.Binary
