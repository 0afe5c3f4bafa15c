import WasmLowering.Proofs.Decoding.Grounded

/-! What the sections of a module bring, entry by entry.

The readers of types, imports, functions, exports, globals, segments and bodies are
followed once, and what is said of the entities of a decoded module comes from the facts
here. -/

namespace WasmLowering

/-- Parameters that a binary module can declare: not too many, and the placeholder
is not among their types. -/
structure ParamsDeclared (params : List ValueType) : Prop where
  count : params.length < UInt32.size
  types : ∀ type ∈ params, type ≠ .any

open Instr (Each ConstantBody GroundedBody)

structure ElementSegment.Grounded (types : List FuncType) (segment : ElementSegment) : Prop where
  table : segment.table.isIndex
  offset : ConstantBody types segment.offset
  functions : ∀ reference ∈ segment.functions, reference.isIndex

structure DataSegment.Grounded (types : List FuncType) (segment : DataSegment) : Prop where
  memory : segment.memory.isIndex
  offset : ConstantBody types segment.offset

namespace Binary

namespace Decoder

/-! ## Types -/

theorem valueType_declared : valueType.Yields fun type => type ≠ .any := by
  refine .bind' fun byte => ?_
  unfold valueTypeOf
  split
  · next type declared =>
      refine .pure fun isAny => ?_
      unfold ValueType.declared? at declared
      split at declared <;> cases declared
      contradiction
  · exact .throw _ _

theorem valueTypes_declared : valueTypes.Yields ParamsDeclared := by
  refine .bind' fun count => .bind' fun left => .ite (.throw _ _) ?_
  refine (Yields.repeated (fun _ => valueType_declared) count.toNat 0).mono fun types known => ?_
  exact ⟨known.1 ▸ count.toNat_lt, known.2⟩

theorem typeEntry_params :
    typeEntry.Yields fun type => ParamsDeclared type.signature.params := by
  refine .bind' fun form => .ite (.throw _ _) ?_
  exact valueTypes_declared.bind fun params declared => .bind' fun results => .pure declared

/-! ## Imports and functions -/

namespace Imported

def kind : Imported → ExternKind
  | .func _ => .func
  | .table _ => .table
  | .memory _ => .memory
  | .global _ => .global
  | .tag _ => .except

/-- An entity as an import brings it, without names and code. -/
def Fresh (types : List FuncType) : Imported → Prop
  | .func entity =>
      ∃ declaration : Declaration, declaration.IsEntry types ∧ entity = { declaration }
  | .table entity => entity.name = ""
  | .memory entity => entity.name = ""
  | .global entity => entity.name = "" ∧ entity.initial = []
  | .tag entity => entity.name = ""

end Imported

variable (types : List FuncType)

theorem func_fresh : (func types).Yields fun func => Imported.Fresh types (.func func) :=
  .bind' fun _ => (declarationOf_entry _ _).bind fun declaration isEntry =>
    .pure ⟨declaration, isEntry, rfl⟩

theorem importEntry_fresh (number : Nat) :
    (importEntry types number).Yields fun entry =>
      entry.2.kind = entry.1.kind ∧ entry.2.Fresh types := by
  have table : table.Yields (·.name = "") := .bind' fun _ => .bind' fun _ => .pure rfl
  have memory : memory.Yields (·.name = "") := .bind' fun _ => .pure rfl
  have global : globalType.Yields fun global => global.name = "" ∧ global.initial = [] :=
    .bind' fun _ => .bind' fun _ => .ite (.throw _ _) (.pure ⟨rfl, rfl⟩)
  have tag : (tag types).Yields (·.name = "") :=
    .bind' fun _ => .ite (.throw _ _) (.bind' fun _ => .bind' fun _ => .pure rfl)
  refine .bind' fun moduleName => .bind' fun fieldName => .bind' fun kind => ?_
  dsimp only
  split
  · next isKind => exact .bind (func_fresh types) fun _ fresh => .pure ⟨isKind.symm, fresh⟩
  · next isKind => exact .bind table fun _ fresh => .pure ⟨isKind.symm, fresh⟩
  · next isKind => exact .bind memory fun _ fresh => .pure ⟨isKind.symm, fresh⟩
  · next isKind => exact .bind global fun _ fresh => .pure ⟨isKind.symm, fresh⟩
  · next isKind => exact .bind tag fun _ fresh => .pure ⟨isKind.symm, fresh⟩
  · exact .throw _ _

/-! ## Exports -/

theorem exportEntry_known (bindings : Bindings) :
    (exportEntry bindings).Yields fun entry =>
      entry.target.isIndex ∧ bindings.find? entry.name = none := by
  refine .bind' fun name => .bind' fun kind => .ite (.throw _ _) (.bind' fun position => ?_)
  dsimp only
  split
  · exact .throw _ _
  · next unbound =>
      rw [Bindings.has_eq_isSome] at unbound
      exact .pure ⟨rfl, by simpa using unbound⟩

/-! ## Globals and segments -/

theorem globalEntry_constant (number : Nat) :
    (globalEntry types number).Yields fun global => ConstantBody types global.initial :=
  .bind' fun _ => .bind ((constantCode_constant types).locate _) fun _ known => .pure known

theorem elementFunction_index (instrs : List Instr) :
    (elementFunction instrs).Yields fun reference => reference.isIndex := by
  unfold elementFunction
  split
  · exact .pure rfl
  · exact .throw _ _

theorem element_indices (usesExpressions isPassive : Bool) (number : Nat) :
    (element types usesExpressions isPassive number).Yields fun functions =>
      ∀ reference ∈ functions, reference.isIndex := by
  refine .ite (.bind' fun instrs => .ite (.pure nofun) ?_) ?_
  · refine .bind ((elementFunction_index instrs).locate _) fun reference isIndex => .pure ?_
    simpa using isIndex
  · refine reference_index.bind fun reference isIndex => .pure ?_
    simpa using isIndex

theorem elementFunctions_grounded (usesExpressions isPassive : Prop) [Decidable usesExpressions]
    [Decidable isPassive] {table : Reference} {offset : List Instr} (isIndex : table.isIndex)
    (constant : ConstantBody types offset) :
    Yields (do
        let functions ← Decoder.counted (element types (decide usesExpressions) (decide isPassive))
        return if isPassive then none else some (ElementSegment.mk table offset functions.flatten))
      fun segment => ∀ kept ∈ segment, kept.Grounded types := by
  refine .bind (Yields.counted (element_indices types _ _)) fun functions all => .pure ?_
  split
  · exact nofun
  · rintro kept ⟨⟩
    refine ⟨isIndex, constant, fun reference member => ?_⟩
    rcases List.mem_flatten.mp member with ⟨group, isGroup, inGroup⟩
    exact all.2 group isGroup reference inGroup

theorem elementKind_yields {post : Option ElementSegment → Prop} (usesKind usesExpressions : Prop)
    [Decidable usesKind] [Decidable usesExpressions] {last : Decoder (Option ElementSegment)}
    (given : last.Yields post) :
    Yields
      (if usesKind then
        if usesExpressions then do
          let _ ← referenceType
          last
        else do
          let kind ← byte
          if kind ≠ 0 then do
            let _ ← (MonadExcept.throw (.elementKind kind) : Decoder Unit)
            last
          else last
      else last)
      post :=
  .ite (.ite (.bind' fun _ => given) (.bind' fun _ => .ite (.throw _ _) given)) given

theorem elementSegment_grounded :
    (elementSegment types).Yields fun segment => ∀ kept ∈ segment, kept.Grounded types := by
  refine .bind' fun flags => .ite (.throw _ _) ?_
  have later := fun (table : Reference) (offset : List Instr) (isIndex : table.isIndex)
      (constant : ConstantBody types offset) =>
    elementKind_yields ((decide (flags &&& 1 ≠ 0) || decide (flags &&& 2 ≠ 0)) = true)
      (flags &&& 4 ≠ 0)
      (elementFunctions_grounded types (flags &&& 4 ≠ 0) (flags &&& 1 ≠ 0) isIndex constant)
  have passive := fun (table : Reference) (isIndex : table.isIndex) =>
    Yields.bind (.pure (.nil types)) fun offset => later table offset isIndex
  have active := fun (table : Reference) (isIndex : table.isIndex) =>
    (constantCode_constant types).bind fun offset => later table offset isIndex
  apply Yields.ite
  · refine reference_index.bind fun table isIndex => ?_
    exact .ite (passive table isIndex) (active table isIndex)
  · refine .bind (.pure rfl) fun table isZero => ?_
    subst isZero
    exact .ite (passive _ rfl) (active _ rfl)

theorem dataTarget_index (number : Nat) :
    (dataTarget number).Yields fun memory => ∀ reference ∈ memory, reference.isIndex := by
  refine .bind' fun flags => ?_
  split
  · exact .pure (by simp [Reference.isIndex])
  · exact .pure (by simp)
  · exact reference_index.bind fun memory isIndex => .pure (by simpa using isIndex)
  · exact .throw _ _

theorem dataSegment_grounded (number : Nat) :
    (dataSegment types number).Yields (DataSegment.Grounded types) := by
  refine (dataTarget_index number).bind fun memory isIndex => ?_
  cases memory with
  | none => exact .bind' fun _ => .bind' fun _ => .pure ⟨rfl, .nil types⟩
  | some reference =>
      refine .bind ((constantCode_constant types).locate _) fun offset constant => ?_
      exact .bind' fun _ => .bind' fun _ => .pure ⟨isIndex reference rfl, constant⟩

/-! ## Bodies -/

def LocalsDeclared (locals : List ValueType) : Prop :=
  locals.length ≤ maxLocals ∧ ∀ type ∈ locals, type ≠ .any

theorem localGroups_declared (count : Nat) {total : Nat} (within : total ≤ maxLocals) :
    (localGroups count total).Yields fun locals =>
      total + locals.length ≤ maxLocals ∧ ∀ type ∈ locals, type ≠ .any := by
  induction count generalizing total with
  | zero => exact .pure ⟨by simpa using within, nofun⟩
  | succ count induction =>
      refine .bind' fun size => valueType_declared.bind fun type declared => ?_
      dsimp only
      split
      · exact .throw _ _
      · refine (induction (by omega)).bind fun others known => .pure ⟨?_, ?_⟩
        · simp only [List.length_append, List.length_replicate]
          omega
        · intro other member
          rcases List.mem_append.mp member with member | member
          · rw [List.eq_of_mem_replicate member]
            exact declared
          · exact known.2 other member

structure BodyKnown (body : List ValueType × List Instr) : Prop where
  locals : LocalsDeclared body.1
  instrs : Each (Instr.Known types) body.2

variable {types} in
theorem BodyKnown.grounded {body : List ValueType × List Instr} (known : BodyKnown types body) :
    GroundedBody types body.2 :=
  known.instrs.mono fun _ instr => instr.grounded

theorem funcBody_known : (funcBody types).Yields (BodyKnown types) := by
  refine .bind' fun groups => ?_
  refine (localGroups_declared groups.toNat (Nat.zero_le _)).bind fun locals declared => ?_
  refine (code_known ⟨types, false⟩).bind fun result known => .ite (.throw _ _) ?_
  refine .bind' fun left => .ite (.throw _ _) (.pure ⟨⟨?_, declared.2⟩, known⟩)
  exact Nat.zero_add locals.length ▸ declared.1

theorem sizedBody_known (number : Nat) : (sizedBody types number).Yields (BodyKnown types) :=
  .bind' fun _ => .bind' fun inner =>
    .bind (((funcBody_known types).locateBy _).inside inner) fun _ known => .pure known

end Decoder

/-! ## Where functions come from -/

namespace Module

open Decoder (Imported)

variable {module : Module} {func : Func}

theorem mem_funcs_addImports {types : List FuncType} {entries : List (Import × Imported)}
    (known : ∀ entry ∈ entries, entry.2.kind = entry.1.kind ∧ entry.2.Fresh types)
    (member : func ∈ (addImports module entries).funcs) :
    func ∈ module.funcs ∨ Imported.Fresh types (.func func) := by
  refine (List.mem_append.mp member).imp_right fun isImported => ?_
  rcases List.mem_filterMap.mp isImported with ⟨⟨entry, imported⟩, isEntry, chosen⟩
  cases imported <;> cases chosen
  exact (known _ isEntry).2

theorem mem_funcs_addBodies {first : Nat} {bodies : List (List ValueType × List Instr)}
    (member : func ∈ (addBodies module first bodies).funcs) :
    func ∈ module.funcs ∨ ∃ original ∈ module.funcs, ∃ body ∈ bodies,
      func = { original with locals := original.locals ++ body.1, body := body.2 } := by
  refine (List.mem_append.mp member).imp List.mem_of_mem_take fun isDefined => ?_
  rcases List.mem_iff_getElem?.mp isDefined with ⟨place, found⟩
  rcases List.getElem?_zipWith_eq_some.mp found with ⟨original, body, isFunc, isBody, rfl⟩
  exact ⟨original, List.mem_of_mem_drop (List.mem_of_getElem? isFunc), body,
    List.mem_of_getElem? isBody, rfl⟩

end Module

end Binary

end WasmLowering
