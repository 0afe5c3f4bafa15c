import WasmLowering.Proofs.Lowering.IndirectCalls

/-! Indirect calls are checked exactly.

The C code compares two type ids when a function is called through a table: that of
the table element, and that of the call. Both come from entries of the type section,
and both entries have the signature that the function and the call have in the decoded
module, so the ids are equal if and only if these signatures are. Entries with equal
signatures and names of types do not matter. -/

namespace WasmLowering

theorem Binary.decode_funcs_wellFormed {bytes : List UInt8} {module : Module}
    (accepted : decode bytes = .ok module) : ∀ func ∈ module.funcs, func.WellFormed module.types := by
  rcases decode_assembled accepted with ⟨_, _, _, read, complete, same⟩
  exact funcs_wellFormed same read.known complete (decode_decoded accepted)

theorem Module.Applied.signatures {module named : Module} (applied : module.resolve.Applied named) :
    named.types.map (·.signature) = module.types.map (·.signature) := by
  rw [applied.others]
  apply map_zipWith_view
  · exact fun _ _ => rfl
  · rw [Naming.length_nameTable, Naming.length_entityNames, Module.entityCount]

namespace Emission

/-! ## Table elements -/

/-- A table element is the function that a reference means, with a type entry that has
the signature of the function. -/
def ElementChecked (module named : Module) (reference : Reference) (element : C.Element) : Prop :=
  ∃ (position : Index) (func : Func), reference = .index position ∧
    module.funcs[position.toNat]? = some func ∧
    (named.entityNames .func)[position.toNat]? = some element.func.name ∧
    module.HasType element.typeIndex func.declaration.signature

theorem external_name (kind : ExternKind) (name : String) (symbols : EntitySymbols) :
    Meets True (external kind name) symbols fun result _ => result.name = name := by
  refine .bind_get ((Meets.lift ?_ symbols).mono fun _ _ known => known.1)
  refine (Gives.ofResult _).bind fun symbol _ => ?_
  exact .ok rfl

theorem element_func (named : Module) (reference : Reference) (symbols : EntitySymbols) :
    Meets True (element named reference) symbols fun result _ => ∃ func,
      named.func? reference = some func ∧ result.func.name = func.name ∧
        named.typeIndex? func.declaration = some result.typeIndex := by
  refine (Meets.lift (Gives.ofResult (funcOf named reference)) symbols).bind ?_
  intro func _ ⟨isFunc, _⟩
  refine (Meets.lift (Gives.ofResult (found (named.typeIndex? func.declaration) _)) _).bind ?_
  intro typeIndex _ ⟨isIndex, _⟩
  refine (external_name .func func.name _).bind fun result _ isName => ?_
  exact .pure ⟨func, found_eq_ok isFunc, isName, found_eq_ok isIndex⟩

theorem elementCopy_elements (named : Module) (segment : ElementSegment) (symbols : EntitySymbols) :
    Meets True (elementCopy named segment) symbols fun copy _ =>
      List.Forall₂ (fun reference result => ∃ func, named.func? reference = some func ∧
        result.func.name = func.name ∧
        named.typeIndex? func.declaration = some result.typeIndex)
        segment.functions copy.elements := by
  refine .skip fun _ _ => .skip fun _ _ => .skip fun _ _ => ?_
  refine (Meets.mapM (fun reference after => element_func named reference after) _).bind ?_
  intro elements _ areElements
  exact .pure areElements

section

variable {module named : Module} (applied : module.resolve.Applied named)
  (declared : ∀ func ∈ module.funcs, func.declaration.IsEntry module.types)
include applied declared

/-- The type entry of a function in a module with names has the signature that the
function had before. -/
theorem func_hasType {position : Nat} {func : Func} {typeIndex : Index}
    (isFunc : named.funcs[position]? = some func)
    (isIndex : named.typeIndex? func.declaration = some typeIndex) :
    ∃ source, module.funcs[position]? = some source ∧
      module.HasType typeIndex source.declaration.signature := by
  rcases getElem?_of_forall₂ applied.funcs.flip isFunc with ⟨entry, isEntry, known⟩
  rw [List.getElem?_zipIdx] at isEntry
  rcases Option.map_eq_some_iff.mp isEntry with ⟨resolved, isResolved, rfl⟩
  have declarations := congrArg (·[position]?) (Module.map_declaration_resolve module)
  simp only [List.getElem?_map, isResolved, Option.map_some] at declarations
  rcases Option.map_eq_some_iff.mp declarations.symm with ⟨source, isSource, sameDeclaration⟩
  refine ⟨source, isSource, ?_⟩
  have succeeds := known.declaration
  simp only [← sameDeclaration] at succeeds
  rcases (Module.applied_namedAs applied).typeIndex rfl
    (declared source (List.mem_of_getElem? isSource)) succeeds with ⟨_, other, isOther, has⟩
  cases isOther.symm.trans isIndex
  exact has

theorem element_checked {reference newReference : Reference} {result : C.Element} {func : Func}
    (isIndex : reference.isIndex)
    (renamed : (Naming.Scope.ofModule module.resolve).entity .func reference = .ok newReference)
    (isFunc : named.func? newReference = some func) (isName : result.func.name = func.name)
    (isEntry : named.typeIndex? func.declaration = some result.typeIndex) :
    ElementChecked module named reference result := by
  cases reference with
  | name => cases isIndex
  | index position =>
      rcases (Module.applied_namedAs applied).entity rfl renamed with ⟨name, rfl, isNamed⟩
      rw [Module.func?, isNamed.found] at isFunc
      rcases func_hasType applied declared isFunc isEntry with ⟨source, isSource, has⟩
      refine ⟨position, source, rfl, isSource, ?_, has⟩
      rw [Module.entityNames, List.getElem?_map, isName, show named.funcs[position.toNat]? = _ from isFunc]
      rfl

theorem elements_checked {program : C.Program} {after : Stages} (built : Built named program after)
    (indexed : module.Indexed) :
    List.Forall₂ (fun segment copy =>
      List.Forall₂ (ElementChecked module named) segment.functions copy.elements)
      module.elements program.elementCopies := by
  have copies := (Meets.mapM (fun segment symbols => elementCopy_elements named segment symbols)
    after.tableAllocation).of_ok built.elementCopies
  apply forall₂_chain applied.elements copies
  intro segment member namedSegment _ copy applies areElements
  rcases bind_eq_ok applies with ⟨table, _, remaining⟩
  rcases bind_eq_ok remaining with ⟨offset, _, remaining⟩
  rcases bind_eq_ok remaining with ⟨functions, areFunctions, isSegment⟩
  cases isSegment
  have indices := (List.forall_mem_append.mp (indexed.elements segment member)).2
  apply forall₂_chain (mapM_eq_ok areFunctions) areElements
  intro reference isFunction newReference _ result renamed ⟨func, isFunc, isName, isEntry⟩
  have isIndex := indices _ (List.mem_map_of_mem isFunction)
  exact element_checked applied declared isIndex renamed isFunc isName isEntry

end

/-! ## Registered types -/

theorem scalarOf_eq_ok {type : ValueType} {scalar : Scalar} (succeeds : scalarOf type = .ok scalar) :
    scalar.toValueType = type := by
  unfold scalarOf at succeeds
  split at succeeds
  · next found isFound =>
      cases succeeds
      exact ((ValueType.scalar?_eq_some_iff _ _).mp isFound).symm
  · cases succeeds

theorem mapM_scalarOf_eq_ok {types : List ValueType} {scalars : List Scalar}
    (succeeds : types.mapM scalarOf = .ok scalars) : scalars.map (·.toValueType) = types := by
  have same := map_eq_of_forall₂ (mapM_eq_ok succeeds) fun _ _ isScalar => scalarOf_eq_ok isScalar
  exact same.trans (List.map_id' types)

end Emission

namespace C

def entrySignature (entry : List Scalar × List Scalar) : Signature :=
  ⟨entry.1.map (·.toValueType), entry.2.map (·.toValueType)⟩

theorem toValueType_injective : Function.Injective Scalar.toValueType := by
  intro left right same
  have found := Scalar.scalar?_toValueType left
  rw [same, Scalar.scalar?_toValueType] at found
  exact (Option.some.inj found).symm

theorem entrySignature_injective : Function.Injective entrySignature := by
  rintro ⟨params, results⟩ ⟨otherParams, otherResults⟩ same
  rcases Signature.mk.inj same with ⟨sameParams, sameResults⟩
  have injective := List.map_injective_iff.mpr toValueType_injective
  exact Prod.ext (injective sameParams) (injective sameResults)

/-- Ids that type entries are registered with: they are equal exactly where parameters
and results are. -/
structure Registers (types : List (List Scalar × List Scalar)) (ids : List UInt32) : Prop where
  length : ids.length = types.length
  exact : ∀ first < types.length, ∀ second < types.length,
    ids[first]? = ids[second]? ↔ types[first]? = types[second]?

/-- The comparison in front of an indirect call: the id in the table element is that of
the type entry of the call. -/
def Passes (ids : List UInt32) (element : Element) (call : IndirectCall) : Prop :=
  ∃ id, ids[element.typeIndex.toNat]? = some id ∧ ids[call.typeIndex.toNat]? = some id

theorem passes_iff {types : List (List Scalar × List Scalar)} {ids : List UInt32}
    (registers : Registers types ids) {element : Element} {call : IndirectCall}
    {callee site : Signature}
    (isCallee : (types.map entrySignature)[element.typeIndex.toNat]? = some callee)
    (isSite : (types.map entrySignature)[call.typeIndex.toNat]? = some site) :
    Passes ids element call ↔ callee = site := by
  rw [List.getElem?_map, Option.map_eq_some_iff] at isCallee isSite
  rcases isCallee with ⟨first, isFirst, rfl⟩
  rcases isSite with ⟨second, isSecond, rfl⟩
  have firstInside := (List.getElem?_eq_some_iff.mp isFirst).1
  have secondInside := (List.getElem?_eq_some_iff.mp isSecond).1
  rw [entrySignature_injective.eq_iff, ← Option.some_inj, ← isFirst, ← isSecond,
    ← registers.exact _ firstInside _ secondInside]
  rw [← registers.length] at firstInside secondInside
  constructor
  · intro ⟨id, isId, isOther⟩
    rw [isId, isOther]
  · intro same
    have isId := List.getElem?_eq_getElem firstInside
    exact ⟨_, isId, same ▸ isId⟩

end C

namespace Emission

theorem Built.types_registered {module : Module} {program : C.Program} {after : Stages}
    (built : Built module program after) :
    program.types.map C.entrySignature = module.types.map (·.signature) := by
  have entries : ∀ (type : FuncType) (symbols : EntitySymbols),
      Meets True (liftM (typeEntry type) : Emit _) symbols fun entry _ =>
        C.entrySignature entry = type.signature := by
    intro type symbols
    refine (Meets.lift (Gives.ofResult (typeEntry type)) symbols).mono ?_
    intro entry _ ⟨isEntry, _⟩
    rcases bind_eq_ok isEntry with ⟨params, areParams, remaining⟩
    rcases bind_eq_ok remaining with ⟨results, areResults, isPair⟩
    cases isPair
    rw [C.entrySignature, mapM_scalarOf_eq_ok areParams, mapM_scalarOf_eq_ok areResults]
  exact map_eq_of_forall₂ ((Meets.mapM entries _).of_ok built.types) fun _ _ same => same

theorem definedFuncs_named {module named : Module} (decoded : module.Decoded)
    (applied : module.resolve.Applied named) :
    List.Forall₂ (Module.FuncNamed module) module.definedFuncs named.definedFuncs := by
  have same := Module.applied_namedAs applied
  have lengths : module.definedFuncs.length = named.definedFuncs.length := by
    have counts := congrArg List.length same.signatures
    simp only [List.length_map] at counts
    simp [Module.definedFuncs, counts, same.importCount]
  apply List.forall₂_iff_get.mpr
  refine ⟨lengths, ?_⟩
  intro number inside alsoInside
  rcases Module.definedFunc_named decoded applied (List.getElem?_eq_getElem inside) with
    ⟨namedFunc, isNamedFunc, isNamed⟩
  cases (List.getElem?_eq_getElem alsoInside).symm.trans isNamedFunc
  exact isNamed

/-- The functions of a program are the defined ones, and their calls are checked. -/
theorem Built.funcs_checked {module named : Module} {program : C.Program} {after : Stages}
    (built : Built named program after) (decoded : module.Decoded)
    (applied : module.resolve.Applied named)
    (grounded : ∀ func ∈ module.funcs, Instr.GroundedBody module.types func.body) :
    List.Forall₂ (FuncChecked module named) module.definedFuncs program.functions := by
  apply forall₂_chain (definedFuncs_named decoded applied) built.lowered
  intro func isFunc namedFunc isNamedFunc function isNamed lowered
  apply lowerFunc_checked (Module.applied_namedAs applied) isNamed isNamedFunc _ lowered
  intro declaration member
  rcases List.mem_filterMap.mp member with ⟨instr, isInstr, isCalled⟩
  exact (grounded func (List.mem_of_mem_drop isFunc) instr isInstr).calls declaration isCalled

end Emission

open Emission

/-- A module in which a function is called through a table with another type entry than its
own. Both entries have the same signature. -/
def calledAcrossEntries : List UInt8 :=
  Binary.Encode.header ++
    -- The types `[] -> []` and twice `[i32] -> [i32]`.
    [1, 14, 3, 0x60, 0, 0, 0x60, 1, 0x7F, 1, 0x7F, 0x60, 1, 0x7F, 1, 0x7F] ++
    -- Two functions of the last type, a table, and the first function in it.
    [3, 3, 2, 2, 2] ++ [4, 4, 1, 0x70, 0, 1] ++ [9, 7, 1, 0, 0x41, 0, 0x0B, 1, 0] ++
    -- The second function calls with the second type.
    [10, 16, 2, 4, 0, 0x20, 0, 0x0B, 9, 0, 0x20, 0, 0x41, 0, 0x11, 1, 0, 0x0B]

def C.Program.checks (program : C.Program) : List (List Index) × List (List Index) :=
  (program.elementCopies.map fun copy => copy.elements.map (·.typeIndex),
    program.functions.map fun function =>
      (Stmt.indirectCallsOfList function.body).map (·.typeIndex))

end WasmLowering
