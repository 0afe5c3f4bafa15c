import WasmLowering.Proofs.Lowering.Frame
import WasmLowering.Proofs.Lowering.Function
import WasmLowering.Proofs.Lowering.Parts
import WasmLowering.Proofs.Naming.Reapplication
import WasmLowering.Proofs.Naming.Stability

/-! Compiling a module that has been compiled.

A module that has been written has a name for everything, so it keeps all of them.
Whether its references can be replaced again depends on the slots only. -/

namespace WasmLowering

namespace Emission

/-! ## Functions that are written have names for their slots -/

theorem namedParams_given {func : Func} {params : List (Scalar × String)}
    (succeeds : namedParams func = .ok params) : ∀ name ∈ func.paramNames, name ≠ "" := by
  intro name member
  rcases List.mem_iff_getElem?.mp member with ⟨slot, isName⟩
  have inside : slot < func.params.length := by
    rw [← Bindings.length_reverse func.paramBindings func.params.length]
    exact (List.getElem?_eq_some_iff.mp isName).1
  have isEntry : (func.params.zip func.paramNames).zipIdx[slot]? =
      some ((func.params[slot], name), slot) := by
    simp [List.getElem?_zip_eq_some, inside, isName]
  rcases getElem?_of_forall₂ (mapM_eq_ok succeeds) isEntry with ⟨result, _, isResult⟩
  rcases bind_eq_ok isResult with ⟨_, isGiven, _⟩
  exact promised_eq_ok isGiven

theorem namedLocals_given {func : Func} {locals : List (Scalar × String)}
    (succeeds : namedLocals func = .ok locals) : ∀ name ∈ func.localNames, name ≠ "" := by
  intro name member
  rcases bind_eq_ok succeeds with ⟨_, areSupported, remaining⟩
  rcases bind_eq_ok remaining with ⟨grouped, areGrouped, _⟩
  rcases List.mem_iff_getElem?.mp member with ⟨slot, isName⟩
  have inside : slot < func.locals.length := by
    rw [← Bindings.length_reverse func.localBindings func.locals.length]
    exact (List.getElem?_eq_some_iff.mp isName).1
  rcases (supportedLocals_gives func).of_ok areSupported _ (List.getElem_mem inside) with
    ⟨scalar, isScalar⟩
  have isEntry : ((func.locals[slot], name), slot) ∈
      (func.locals.zip func.localNames).zipIdx.filter (·.1.1 = scalar.toValueType) := by
    rw [List.mem_filter, List.mk_mem_zipIdx_iff_getElem?, List.getElem?_zip_eq_some]
    exact ⟨⟨List.getElem?_eq_getElem inside, isName⟩, by simpa using isScalar⟩
  have isListed : scalar ∈ Scalar.all := by cases scalar <;> decide
  rcases List.mem_iff_getElem?.mp isListed with ⟨position, isAt⟩
  rcases getElem?_of_forall₂ (mapM_eq_ok areGrouped) isAt with ⟨group, _, isGroup⟩
  rcases List.mem_iff_getElem?.mp isEntry with ⟨place, isPlace⟩
  rcases getElem?_of_forall₂ (mapM_eq_ok isGroup) isPlace with ⟨result, _, isResult⟩
  rcases bind_eq_ok isResult with ⟨_, isGiven, _⟩
  exact promised_eq_ok isGiven

theorem lowerFunc_given {module : Module} {symbols : EntitySymbols} {func : Func}
    {function : C.Function} (succeeds : lowerFunc module symbols func = .ok function) :
    ∀ name ∈ func.paramNames ++ func.localNames, name ≠ "" := by
  rcases lowerFunc_eq_ok succeeds with ⟨_, lowered⟩
  exact List.forall_mem_append.mpr
    ⟨namedParams_given lowered.params, namedLocals_given lowered.locals⟩

end Emission

open Naming Emission

/-! ## Naming again -/

namespace Module

theorem exists_definedFunc_applied {module named : Module}
    (applied : module.resolve.Applied named) {namedFunc : Func}
    (member : namedFunc ∈ named.definedFuncs) :
    ∃ func ∈ module.definedFuncs, ∃ own number,
      FuncApplied module.resolve (module.importCount .func) (module.importCount .func + number)
        (resolveFunc { func with name := own }) namedFunc := by
  have same := applied_namedAs applied
  rcases List.mem_iff_getElem?.mp member with ⟨number, isNamed⟩
  have inside : number < module.definedFuncs.length := by
    have bounded := (List.getElem?_eq_some_iff.mp isNamed).1
    have counts := same.entityCount .func
    simp only [definedFuncs, List.length_drop, same.importCount, entityCount] at bounded counts ⊢
    omega
  have isFunc := List.getElem?_eq_getElem inside
  rcases definedFunc_applied applied isFunc with ⟨own, other, isOther, known⟩
  cases isOther.symm.trans isNamed
  exact ⟨_, List.mem_of_getElem? isFunc, own, number, known⟩

theorem settled_of_emit {module named : Module} (applied : module.resolve.Applied named)
    {program : C.Program} (emitted : named.emit = .ok program) : ModuleSettled named := by
  have same := applied_namedAs applied
  constructor
  · intro kind
    refine ⟨?_, same.given kind⟩
    rw [same.entityNames, same.entityBindings, entityNames_resolve, entityBindings_resolve]
    exact nameTable_sound module kind
  · intro func member
    rcases emit_built emitted with ⟨after, built⟩
    rcases List.mem_iff_getElem?.mp member with ⟨number, isFunc⟩
    rcases getElem?_of_forall₂ built.lowered isFunc with ⟨function, _, lowered⟩
    have given := List.forall_mem_append.mp (lowerFunc_given lowered)
    refine ⟨given.1, given.2, ?_⟩
    rcases exists_definedFunc_applied applied member with ⟨source, _, own, place, known⟩
    rw [Scope.instrs_blockLabels _ (known.body (Nat.le_add_right _ _))]
    exact own_labelInstrs _ (mem_localPass (funcLabel_mem_takenNames _))

end Module

/-! ## Slots that are found -/

theorem Index.ne_missing {position : Index} (below : position.toNat + 1 < UInt32.size) :
    position ≠ Index.missing := by
  intro equal
  have limit : Index.missing.toNat + 1 = UInt32.size := rfl
  rw [equal] at below
  omega

namespace Func

/-- A name of a parameter is found unless it is bound to the mark of a missing one. -/
theorem slot?_param {func : Func} {name : String} {position : Index}
    (bound : func.paramBindings.find? name = some position) :
    (func.slot? (.name name)).isSome ↔ position ≠ Index.missing := by
  simp only [slot?, bound]
  split <;> simp_all

/-- A name that no parameter has is found where the local is, behind the parameters. -/
theorem slot?_local {func : Func} {name : String} {position : Index}
    (free : func.paramBindings.find? name = none)
    (bound : func.localBindings.find? name = some position) :
    (func.slot? (.name name)).isSome ↔
      UInt32.ofNat func.params.length + position ≠ Index.missing := by
  simp only [slot?, free, bound]
  split <;> simp_all

/-- The positions of all slots fit, and no parameter is bound to the mark of a missing
one. -/
structure Addressable (func : Func) : Prop where
  slots : func.slotCount < UInt32.size
  params : ∀ name, func.paramBindings.find? name ≠ some Index.missing

namespace Addressable

variable {func : Func}

theorem paramPass_ne (addressable : func.Addressable) {name : String} {place : Index}
    (bound : (paramPass func).2.find? name = some place) : place ≠ Index.missing := by
  rcases (paramPass_named func).fromBefore name place bound with old | ⟨_, _, slot, wasEmpty, rfl⟩
  · intro equal
    exact addressable.params name (equal ▸ old)
  · have inside : slot < func.params.length := by
      simpa [paramNames] using (List.getElem?_eq_some_iff.mp wasEmpty).1
    have few : func.params.length + func.locals.length < UInt32.size := addressable.slots
    apply Index.ne_missing
    rw [Nat.zero_add, Index.toNat_ofNat (by omega)]
    omega

theorem found (addressable : func.Addressable) {slot : Nat} {name : String} (given : name ≠ "")
    (isSlot : ((resolveFunc func).paramNames ++ (resolveFunc func).localNames)[slot]? =
      some name) : ((resolveFunc func).slot? (.name name)).isSome := by
  have paramCount : (resolveFunc func).paramNames.length = func.params.length :=
    Bindings.length_reverse _ _
  have localCount : (resolveFunc func).localNames.length = func.locals.length :=
    Bindings.length_reverse _ _
  have few : func.params.length + func.locals.length < UInt32.size := addressable.slots
  rcases isParam : (resolveFunc func).paramBindings.find? name with _ | place
  · -- Then the slot is a local, which is found at its own position.
    rcases Nat.lt_or_ge slot func.params.length with before | behind
    · rw [List.getElem?_append_left (paramCount ▸ before)] at isSlot
      rcases (Bindings.shows_of_reverse isSlot).bound given with ⟨place, bound, _⟩
      rw [bound] at isParam
      cases isParam
    · rw [List.getElem?_append_right (paramCount ▸ behind), paramCount] at isSlot
      have inside := (List.getElem?_eq_some_iff.mp isSlot).1
      rw [localCount] at inside
      rcases (Bindings.shows_of_reverse isSlot).bound given with ⟨place, bound, isPlace⟩
      rw [slot?_local isParam bound]
      apply Index.ne_missing
      have params : (resolveFunc func).params.length = func.params.length := rfl
      rw [UInt32.toNat_add, params, Index.toNat_ofNat (by omega), isPlace]
      omega
  · rw [slot?_param isParam]
    exact addressable.paramPass_ne isParam

end Addressable

end Func

namespace Module

namespace FuncApplied

variable {module : Module} {imported number : Nat} {func named : Func}

theorem params (known : FuncApplied module imported number func named) :
    named.params = func.params :=
  congrArg Signature.params known.signature

theorem slot?_eq (known : FuncApplied module imported number func named) :
    named.slot? = func.slot? := by
  funext place
  simp only [Func.slot?, known.paramBindings, known.localBindings, known.params]

theorem slotNames (known : FuncApplied module imported number func named) :
    named.paramNames ++ named.localNames = func.paramNames ++ func.localNames := by
  simp only [Func.paramNames, Func.localNames, known.paramBindings, known.localBindings,
    known.params, known.locals]

end FuncApplied

theorem slot_found {module : Module} {func : Func} (addressable : func.Addressable)
    (given : ∀ name ∈ (resolveFunc func).paramNames ++ (resolveFunc func).localNames, name ≠ "")
    {place result : Reference}
    (succeeds : (Scope.ofFunc module (resolveFunc func)).slot place = .ok result) :
    ((resolveFunc func).slot? result).isSome := by
  cases place with
  | name text =>
      simp only [Scope.slot, Scope.ofFunc] at succeeds
      split at succeeds
      · next isFound =>
          cases succeeds
          exact isFound
      · cases succeeds
  | index slot =>
      rcases Scope.slot_named succeeds with ⟨name, rfl, isSlot⟩
      exact addressable.found (given name (List.mem_of_getElem? isSlot)) isSlot

theorem slotsFound_of_addressable {module named : Module}
    (applied : module.resolve.Applied named) (settled : ModuleSettled named)
    (addressable : ∀ func ∈ module.definedFuncs, func.Addressable) : named.SlotsFound := by
  intro namedFunc member
  rcases exists_definedFunc_applied applied member with ⟨func, isFunc, own, number, known⟩
  have isSettled := settled.funcs namedFunc member
  have given := List.forall_mem_append.mpr ⟨isSettled.params, isSettled.locals⟩
  rw [known.slotNames] at given
  have ownAddressable : ({ func with name := own } : Func).Addressable :=
    ⟨(addressable func isFunc).slots, (addressable func isFunc).params⟩
  have again := (applied_namedAs applied).again_ofFunc (resolveFunc { func with name := own })
    namedFunc
  have inBody := again.slotsFound
    (fun place result succeeds =>
      known.slot?_eq ▸ slot_found ownAddressable given succeeds)
    namedFunc.slotCount 0 (known.body (Nat.le_add_right _ _))
  simp [Func.SlotsFound, Func.uses, inBody]

end Module

/-- A compiled module keeps all its names when it is named again. Replacing its references
and compiling it again succeed exactly if every slot that a body refers to is found, and
then they change nothing. All slots are found if no parameter of the module was bound to
the mark of a missing one, and the slots of each function can be counted. -/
theorem Module.compile_again {module : Module} {options : CompileOptions} {compiled : Compiled}
    (compiles : module.compile options = .ok compiled) :
    compiled.module.resolve = compiled.module ∧
    (∀ named, compiled.module.applyNames = .ok named ↔
      named = compiled.module ∧ compiled.module.SlotsFound) ∧
    (∀ again, compiled.module.compile options = .ok again ↔
      again = compiled ∧ compiled.module.SlotsFound) ∧
    ((∀ func ∈ module.definedFuncs, func.Addressable) → compiled.module.SlotsFound) := by
  rcases compile_eq_ok compiles with ⟨isNamed, _, program, emitted, _⟩
  have applied := applyNames_applied isNamed
  have settled := settled_of_emit applied emitted
  have repeats := applyNames_repeats applied
  have resolved := resolve_settled settled
  have compilesAgain : compiled.module.SlotsFound →
      compiled.module.compile options = .ok compiled := by
    intro found
    rw [compile, resolved, repeats.succeeds found, ← isNamed]
    exact compiles
  refine ⟨resolved, ?_, ?_, slotsFound_of_addressable applied settled⟩
  · intro named
    constructor
    · exact repeats.only named
    · intro ⟨same, found⟩
      exact same ▸ repeats.succeeds found
  · intro again
    constructor
    · intro isAgain
      have isNamedAgain := (compile_eq_ok isAgain).1
      rw [resolved] at isNamedAgain
      have found := (repeats.only _ isNamedAgain).2
      exact ⟨Except.ok.inj (isAgain.symm.trans (compilesAgain found)), found⟩
    · intro ⟨same, found⟩
      exact same ▸ compilesAgain found

/-- A function with a parameter and a local, a block that has a label already and a loop
that has none, and references by name and by position. -/
def halfNamed : Module where
  types := [{ signature := ⟨[.i32], [.i32]⟩ }]
  funcs := [{
    declaration := ⟨some (.index 0), ⟨[.i32], [.i32]⟩⟩
    locals := [.i32]
    paramBindings := Bindings.empty.put "$l0" 0
    body := [
      .block ⟨"$out", {}⟩ [
        .loop {} [.localGet (.index 0), .brIf (.index 1), .br (.name "$out")]],
      .localGet (.index 0), .localTee (.index 1)] }]
  exports := [{ name := "f" }]

theorem Module.compile_again_halfNamed : ∃ compiled,
    halfNamed.compile {} = .ok compiled ∧ compiled.module.resolve = compiled.module ∧
      compiled.module.compile {} = .ok compiled := by
  rcases exists_of_run (halfNamed.compile {}) (fun _ => ()) () (by decide +kernel) with
    ⟨compiled, compiles, _⟩
  have known := compile_again compiles
  have addressable : ∀ func ∈ halfNamed.definedFuncs, func.Addressable := by
    simp only [definedFuncs, halfNamed, importCount, EntityKind.ofExtern?, importsOf,
      List.filter_nil, List.length_nil, Nat.zero_min, List.drop_zero, List.forall_mem_singleton]
    refine ⟨by decide, fun name => ?_⟩
    have unbound : Bindings.empty.find? name = none := rfl
    rw [Bindings.find?_put, unbound]
    split <;> decide
  have found := known.2.2.2 addressable
  exact ⟨compiled, compiles, known.1, (known.2.2.1 compiled).mpr ⟨rfl, found⟩⟩

def lostLocal : Module where
  types := [{}]
  funcs := [{
    declaration := ⟨some (.index 0), {}⟩
    locals := [.i32]
    paramBindings := Bindings.empty.put "$x" Index.missing
    localBindings := Bindings.empty.put "$x" 0
    body := [.const (.number (.i32 7)), .localSet (.index 0)] }]

/-- The position of the local becomes its name, which is then found nowhere. -/
theorem Module.compile_again_lost : ∃ compiled,
    lostLocal.compile {} = .ok compiled ∧
      ∀ again, compiled.module.compile {} ≠ .ok again := by
  rcases exists_of_run (lostLocal.compile {})
      (fun compiled => (compiled.module.compile {}).toOption.isNone) true (by decide +kernel) with
    ⟨compiled, compiles, fails⟩
  refine ⟨compiled, compiles, fun again isAgain => ?_⟩
  rw [isAgain] at fails
  cases fails

end WasmLowering
