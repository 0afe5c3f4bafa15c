import WasmLowering.Proofs.Lowering.Points

/-! Lowering functions of a decoded module. -/

namespace WasmLowering

namespace Emission

variable {lenient : Prop}

/-! ## Parameters and locals -/

theorem namedParams_gives {func : Func} (named : ∀ name ∈ func.paramNames, name ≠ "") :
    Gives lenient (namedParams func) fun params => params.map (·.2) = func.paramNames := by
  have item : ∀ entry ∈ (func.params.zip func.paramNames).zipIdx,
      Gives lenient (do
        promised (entry.1.2 ≠ "") (.unnamedParam entry.2 func.name)
        return (← scalarOf entry.1.1, entry.1.2)) fun result => result.2 = entry.1.2 := by
    rintro ⟨⟨type, name⟩, position⟩ member
    have isName : name ∈ func.paramNames := (List.of_mem_zip (List.fst_mem_of_mem_zipIdx member)).2
    refine (Gives.promised (named name isName) _).bind fun _ _ => ?_
    exact (scalarOf_gives type).bind fun scalar _ => .ok rfl
  refine (Gives.mapM item).mono fun params areParams => ?_
  rw [map_eq_of_forall₂ areParams fun entry result same => same]
  rw [Module.map_fst_zipIdx_view _ Prod.snd 0]
  exact List.map_snd_zip (Nat.le_of_eq (Bindings.length_reverse _ _))

structure LocalsDeclared (func : Func) (locals : List (Scalar × String)) : Prop where
  scalars : ∀ type ∈ func.locals, ∃ scalar : Scalar, type = scalar.toValueType
  declared : ∀ scalar name, (scalar, name) ∈ locals ↔ ∃ slot : Nat,
    func.locals[slot]? = some scalar.toValueType ∧ func.localNames[slot]? = some name

theorem LocalsDeclared.mem {func : Func} {locals : List (Scalar × String)}
    (declared : LocalsDeclared func locals) {name : String} (isLocal : name ∈ func.localNames) :
    name ∈ locals.map (·.2) := by
  rcases List.mem_iff_getElem?.mp isLocal with ⟨slot, isName⟩
  have inside : slot < func.locals.length := by
    rw [← Bindings.length_reverse func.localBindings func.locals.length]
    exact (List.getElem?_eq_some_iff.mp isName).1
  have isType := List.getElem?_eq_getElem inside
  rcases declared.scalars _ (List.mem_of_getElem? isType) with ⟨scalar, isScalar⟩
  rw [isScalar] at isType
  exact List.mem_map.mpr ⟨(scalar, name), (declared.declared _ _).mpr ⟨slot, isType, isName⟩, rfl⟩

theorem mem_zip_localNames (func : Func) (type : ValueType) (name : String) :
    (type, name) ∈ func.locals.zip func.localNames ↔ ∃ slot : Nat,
      func.locals[slot]? = some type ∧ func.localNames[slot]? = some name := by
  rw [List.mem_iff_getElem?]
  simp only [List.getElem?_zip_eq_some]

theorem supportedLocals_gives (func : Func) :
    Gives lenient (func.locals.forM fun type =>
      if type.scalar? = none then unsupported (.localType type func.name) else return)
      fun _ => ∀ type ∈ func.locals, ∃ scalar : Scalar, type = scalar.toValueType := by
  refine Gives.forM fun type _ => ?_
  split
  · exact .unsupported _ _
  · next isScalar =>
      rcases Option.ne_none_iff_exists'.mp isScalar with ⟨scalar, found⟩
      exact .ok ⟨scalar, (type.scalar?_eq_some_iff scalar).mp found⟩

theorem localGroup_gives {func : Func} (named : ∀ name ∈ func.localNames, name ≠ "")
    (scalar : Scalar) :
    Gives lenient (((func.locals.zip func.localNames).zipIdx.filter
      (·.1.1 = scalar.toValueType)).mapM fun entry => do
        promised (entry.1.2 ≠ "") (.unnamedLocal entry.2 func.name)
        return (scalar, entry.1.2)) fun result => ∀ value, value ∈ result ↔
          value.1 = scalar ∧ (scalar.toValueType, value.2) ∈ func.locals.zip func.localNames := by
  have item : ∀ entry ∈ (func.locals.zip func.localNames).zipIdx.filter
      (·.1.1 = scalar.toValueType), Gives lenient (do
        promised (entry.1.2 ≠ "") (.unnamedLocal entry.2 func.name)
        return (scalar, entry.1.2)) fun result => result = (scalar, entry.1.2) := by
    rintro ⟨⟨type, name⟩, position⟩ member
    have isEntry := List.fst_mem_of_mem_zipIdx (List.mem_of_mem_filter member)
    exact (Gives.promised (named name (List.of_mem_zip isEntry).2) _).bind fun _ _ => .ok rfl
  refine (Gives.mapM item).mono ?_
  rintro results areResults ⟨other, name⟩
  have same := map_eq_of_forall₂ areResults fun entry result isResult => isResult
  rw [List.map_id'] at same
  rw [same, List.mem_map]
  constructor
  · rintro ⟨⟨⟨type, _⟩, position⟩, member, isEntry⟩
    cases isEntry
    rw [List.mem_filter] at member
    have isType : type = scalar.toValueType := by simpa using member.2
    exact ⟨rfl, isType ▸ List.fst_mem_of_mem_zipIdx member.1⟩
  · rintro ⟨isScalar, member⟩
    rcases List.mem_iff_getElem?.mp member with ⟨position, isEntry⟩
    refine ⟨((scalar.toValueType, name), position), List.mem_filter.mpr ⟨?_, by simp⟩, ?_⟩
    · exact List.mk_mem_zipIdx_iff_getElem?.mpr isEntry
    · rw [show other = scalar from isScalar]

theorem namedLocals_gives {func : Func} (named : ∀ name ∈ func.localNames, name ≠ "") :
    Gives lenient (namedLocals func) (LocalsDeclared func) := by
  refine (supportedLocals_gives func).bind fun _ scalars => ?_
  refine (Gives.mapM fun scalar _ => localGroup_gives named scalar).bind
    fun grouped areGrouped => ?_
  refine .ok ⟨scalars, fun scalar name => ?_⟩
  rw [mem_flatten_of_forall₂ areGrouped, ← mem_zip_localNames]
  constructor
  · rintro ⟨other, _, rfl, member⟩
    exact member
  · intro member
    exact ⟨scalar, by cases scalar <;> decide, rfl, member⟩

theorem mem_declared {func : Func} {params locals : List (Scalar × String)}
    (areParams : params.map (·.2) = func.paramNames) (areLocals : LocalsDeclared func locals) :
    ∀ name ∈ func.paramNames ++ func.localNames, name ∈ (params ++ locals).map (·.2) := by
  intro name member
  rw [List.map_append, areParams]
  rcases List.mem_append.mp member with member | member
  · exact List.mem_append_left _ member
  · exact List.mem_append_right _ (areLocals.mem member)

/-! ## The names of slots -/

end Emission

namespace Module.FuncNamed

open Naming

variable {module : Module} {func named : Func}

theorem params (isNamed : module.FuncNamed func named) : named.params = func.params :=
  congrArg Signature.params isNamed.signature

theorem results (isNamed : module.FuncNamed func named) : named.results = func.results :=
  congrArg Signature.results isNamed.signature

theorem slotNames (isNamed : module.FuncNamed func named) :
    named.paramNames ++ named.localNames =
      (resolveFunc func).paramNames ++ (resolveFunc func).localNames := by
  unfold Func.paramNames Func.localNames
  rw [isNamed.paramBindings, isNamed.localBindings, isNamed.params, isNamed.locals]
  rfl

theorem variableType (isNamed : module.FuncNamed func named) (place : Reference) :
    named.variableType place = (resolveFunc func).variableType place := by
  unfold Func.variableType Func.slot? Func.slotType
  rw [isNamed.paramBindings, isNamed.localBindings, isNamed.params, isNamed.locals]
  rfl

theorem given (isNamed : module.FuncNamed func named) (decoded : func.Decoded) :
    ∀ name ∈ named.paramNames ++ named.localNames, name ≠ "" := by
  intro name member
  rw [isNamed.slotNames] at member
  rcases List.mem_iff_getElem?.mp member with ⟨slot, has⟩
  exact (Func.resolved_slot decoded has).1

theorem slotType (isNamed : module.FuncNamed func named) (decoded : func.Decoded)
    (single : func.SingleNames) {slot : Index} {type : ValueType} {name : String}
    (known : func.slotType? slot = some type)
    (isName : (named.paramNames ++ named.localNames)[slot.toNat]? = some name) :
    named.variableType (.name name) = type ∧ type ≠ .any := by
  unfold Func.slotType? at known
  split at known
  · cases known
  · next present =>
      rw [isNamed.slotNames] at isName
      have below : slot.toNat < Index.missing.toNat := by
        have bound := slot.toNat_lt
        have different : slot.toNat ≠ Index.missing.toNat := fun same =>
          present (UInt32.toNat_inj.mp same)
        have limit : Index.missing.toNat = 2 ^ 32 - 1 := rfl
        omega
      have means := (single.means decoded isName below).2
      have isType : some (named.variableType (.name name)) = some type := by
        rw [isNamed.variableType, ← known]
        exact means.symm
      refine ⟨Option.some.inj isType, ?_⟩
      rcases List.mem_append.mp (List.mem_of_getElem? known) with member | member
      · exact decoded.params.types type member
      · exact decoded.localTypes type member

end Module.FuncNamed

namespace Emission

variable {lenient : Prop} {module named : Module} {func namedFunc : Func}

def EntitySymbols.Binds (symbols : EntitySymbols) (key : EntityKey) : Prop :=
  (symbols.bound.lookup key).isSome

theorem external_gives {symbols : EntitySymbols} {kind : ExternKind} {name : String}
    (bound : lenient ∨ symbols.Binds (kind, name)) :
    Gives lenient (symbols.external kind name) fun external =>
      external.kind = kind ∧ external.name = name := by
  unfold EntitySymbols.external
  rcases isBound : symbols.bound.lookup (kind, name) with _ | symbol
  · rcases bound with isLenient | known
    · exact .inl isLenient
    · rw [EntitySymbols.Binds, isBound] at known
      cases known
  · exact .ok ⟨rfl, rfl⟩

def EntitySymbols.Cover (symbols : EntitySymbols) (named : Module) : Prop :=
  ∀ kind entity, EntityKind.ofExtern? kind = some entity →
    ∀ name ∈ named.entityNames entity, symbols.Binds (kind, name)

theorem exists_setting (namedAs : module.NamedAs named) (isNamed : module.FuncNamed func namedFunc)
    (decoded : func.Decoded) (single : func.SingleNames) {symbols : EntitySymbols}
    (cover : lenient ∨ symbols.Cover named) {declared : List String}
    (areDeclared : ∀ name ∈ namedFunc.paramNames ++ namedFunc.localNames, name ∈ declared)
    (singleResults : ∀ callee ∈ named.funcs, callee.results.length ≤ 1) :
    ∃ naming, Setting lenient module func naming ⟨named, symbols, namedFunc, declared⟩
      (namedFunc.paramNames ++ namedFunc.localNames) ∧
      Naming.NamedCode naming [] (.body func.body) (.body namedFunc.body) := by
  rcases isNamed.body with ⟨naming, resolved, slots, namedBody⟩
  refine ⟨naming, ⟨namedAs, resolved, ?_, ?_, areDeclared, ?_, singleResults⟩, namedBody⟩
  · rw [isNamed.slotNames]
    exact slots
  · exact fun slot type name => isNamed.slotType decoded single
  · intro kind entity position name isKind isName
    have bound := cover.imp_right fun covers =>
      covers kind entity isKind name (List.mem_of_getElem? isName.isName)
    refine (external_gives bound).mono fun external ⟨sameKind, sameName⟩ => ?_
    rw [C.External.position?, sameKind, sameName, isKind, Option.bind_some, isName.found]

/-! ## Function bodies -/

structure FunctionEmitted (module named : Module) (func namedFunc : Func) (function : C.Function) :
    Prop where
  params : function.params.map (·.2) = namedFunc.paramNames
  locals : LocalsDeclared namedFunc function.locals
  body : ∃ stmts falls isUsed, function.body = stmts ++ labelIf isUsed ⟨0, Naming.funcLabel⟩ ∧
    Emits module named (namedFunc.paramNames ++ namedFunc.localNames)
      [⟨⟨func.results, []⟩, 0, isUsed⟩] (.body func.body) [] stmts falls func.results.reverse
  nodup : (C.labelsOf function.body).Nodup
  returned : C.TargetAt 0 func.results function.returned

/-- The label of the function is the only one that is open at first. -/
theorem openFunction_meets (name : String) {results : List ValueType} :
    Meets lenient (openLabel name false ⟨Naming.funcLabel, ⟨none, ⟨[], results⟩⟩⟩) {}
      fun opened inner => opened = ⟨⟨0, Naming.funcLabel⟩, false, ⟨[], results⟩, 0⟩ ∧
        inner.Fits [] [⟨results, []⟩] [] ∧ inner.labels = [opened] ∧ inner.labelCount = 1 := by
  refine .bind_get (.bind_promised (Nat.le_refl _) ?_)
  refine (Meets.set _ _).bind ?_
  rintro _ _ rfl
  refine .pure ⟨rfl, ⟨rfl, rfl, rfl, rfl, List.nodup_singleton _, ?_⟩, rfl, rfl⟩
  intro label member
  rw [List.mem_singleton.mp member]
  exact List.suffix_refl _

theorem body_meets {scope : Scope} {naming : Naming.Scope} {slotNames : List String}
    (setting : Setting lenient module func naming scope slotNames)
    (sameResults : scope.func.results = func.results)
    (namedBody : Naming.NamedCode naming [] (.body func.body) (.body scope.func.body))
    (typed : func.WellTyped module) (single : func.results.length ≤ 1) :
    Meets lenient scope.body {} fun result _ =>
      (∃ stmts falls isUsed, result.1 = stmts ++ labelIf isUsed ⟨0, Naming.funcLabel⟩ ∧
        Emits module scope.module slotNames [⟨⟨func.results, []⟩, 0, isUsed⟩] (.body func.body) []
          stmts falls func.results.reverse) ∧
      (C.labelsOf result.1).Nodup ∧ C.TargetAt 0 func.results result.2 := by
  rcases typed with ⟨assign, typedBody⟩
  unfold Scope.body
  rw [sameResults]
  refine (openFunction_meets scope.name).bind ?_
  rintro opened inner ⟨isOpened, fits, innerLabels, innerCount⟩
  refine (typed_lowers setting typedBody namedBody fits).bind ?_
  intro result mid inside
  rcases inside.stack with ⟨above, isStack, isAbove⟩
  refine Meets.bind_check (fun falls => checkHeight_meets _ _ ?_) ?_
  · rw [State.height, isStack, isAbove falls]
    simp
  refine (labelStmts_meets opened mid).bind ?_
  rintro label after ⟨isLabel, same⟩
  subst label after
  refine (closeLabel_meets scope.name isStack (by rw [isOpened]; rfl)).bind ?_
  rintro _ _ rfl
  refine .bind_get ((resultSlot_meets _ single _).bind ?_)
  rintro returned last ⟨isReturned, -⟩
  have depth : (func.results.reverse ++ []).length - 1 = 0 := by
    rw [List.append_nil, List.length_reverse]
    omega
  subst isOpened
  refine .pure ⟨⟨result.stmts, result.falls, _, rfl, inside.emits _ ?_⟩, ?_, depth ▸ isReturned⟩
  · rw [innerLabels]
    exact .cons (fun isUsed => List.contains_iff_mem.mpr isUsed) .nil
  · have own := Numbered.labelIf (mid.targets.contains 0) ⟨0, Naming.funcLabel⟩
    have insideNumbered := inside.numbered
    have counts := inside.counts
    rw [innerCount] at insideNumbered counts
    rw [C.labelsOf_append]
    exact ((own.append insideNumbered (Nat.zero_le _) counts).perm List.perm_append_comm).nodup

/-- A function that is well typed, with one name at most for every slot, is lowered,
unless something is not supported. -/
theorem lowerFunc_gives (namedAs : module.NamedAs named)
    (isNamed : module.FuncNamed func namedFunc) (member : namedFunc ∈ named.funcs)
    (decoded : func.Decoded) (single : func.SingleNames) (typed : func.WellTyped module)
    {symbols : EntitySymbols} (cover : lenient ∨ symbols.Cover named)
    (singleResults : ∀ callee ∈ named.funcs, callee.results.length ≤ 1) :
    Gives lenient (lowerFunc named symbols namedFunc)
      (FunctionEmitted module named func namedFunc) := by
  have bound := cover.imp_right fun covers =>
    covers .func .func rfl namedFunc.name (List.mem_map_of_mem member)
  refine (external_gives bound).bind fun external _ => ?_
  refine (resultOf_gives _).bind fun result singleResult => ?_
  refine (namedParams_gives fun name isParam =>
    isNamed.given decoded name (List.mem_append_left _ isParam)).bind fun params areParams => ?_
  refine (namedLocals_gives fun name isLocal =>
    isNamed.given decoded name (List.mem_append_right _ isLocal)).bind fun locals areLocals => ?_
  have areDeclared := mem_declared areParams areLocals
  rw [isNamed.results] at singleResult
  rcases exists_setting namedAs isNamed decoded single cover areDeclared singleResults with
    ⟨naming, setting, namedBody⟩
  have lowered := body_meets setting isNamed.results namedBody typed singleResult
  refine Gives.bind lowered ?_
  rintro ⟨⟨body, returned⟩, state⟩ ⟨emitted, nodup, isReturned⟩
  exact .ok ⟨areParams, areLocals, emitted, nodup, isReturned⟩

/-! ## Points of functions -/

end Emission

open Emission

/-- When a module is written, an instruction of a defined function is lowered from a
state. Nothing is asked of the symbols that have been chosen. -/
structure Module.Reaches (named : Module) (number : Nat) (place : Place) (visited : State) :
    Prop where
  checked : checkModule named = .ok ()
  visits : ∃ symbols func params locals, named.definedFuncs[number]? = some func ∧
    namedParams func = .ok params ∧ namedLocals func = .ok locals ∧
    Scope.Reaches ⟨named, symbols, func, (params ++ locals).map (·.2)⟩ place visited

namespace Emission

variable {lenient : Prop} {module named : Module} {func : Func}

/-- A module that passes has no tags, and its functions give one result at most. -/
theorem checkModule_gives (module : Module) :
    Gives lenient (checkModule module) fun _ =>
      module.tags = [] ∧ ∀ func ∈ module.funcs, func.results.length ≤ 1 := by
  unfold checkModule
  refine Gives.refuse fun _ => ?_
  refine Gives.refuse fun _ => ?_
  refine Gives.refuse fun noTags => ?_
  have tables : Gives lenient (module.tables.forM fun table =>
      if table.element ≠ .funcref then unsupported (.tableOf table.element) else return)
      fun _ => ∀ table ∈ module.tables, True := by
    refine Gives.forM fun table _ => ?_
    split
    · exact .unsupported _ _
    · exact .ok trivial
  refine tables.bind fun _ _ => ?_
  refine Gives.mono (Gives.forM (?_ : ∀ entry ∈ module.funcs.zipIdx, Gives lenient _ fun _ =>
    entry.1.results.length ≤ 1)) fun _ single => ⟨by simpa using noTags, fun func member => ?_⟩
  · rintro ⟨func, position⟩ _
    dsimp only
    split
    · exact .unsupported _ _
    · next few => exact .ok (Nat.not_lt.mp few)
  · rcases List.mem_iff_getElem?.mp member with ⟨position, isFunc⟩
    exact single (func, position) (List.mk_mem_zipIdx_iff_getElem?.mpr isFunc)

theorem reaches_point (decoded : module.Decoded) (applied : module.resolve.Applied named)
    {number : Nat} (isFunc : module.definedFuncs[number]? = some func) (single : func.SingleNames)
    {assign : Assignment} (typed : func.TypedBy module assign) {place : Place} {visited : State}
    (reaches : named.Reaches number place visited) : assign place = some visited.point := by
  rcases reaches.visits with ⟨symbols, namedFunc, params, locals, isNamedFunc, areParams, areLocals,
    opened, inner, opens, visits⟩
  rcases Module.definedFunc_named decoded applied isFunc with ⟨other, isOther, isNamed⟩
  cases isOther.symm.trans isNamedFunc
  have funcDecoded := decoded.definedFunc isFunc
  have given := isNamed.given funcDecoded
  have declaredParams := (namedParams_gives fun name isParam =>
    given name (List.mem_append_left _ isParam)).of_ok areParams
  have declaredLocals := (namedLocals_gives fun name isLocal =>
    given name (List.mem_append_right _ isLocal)).of_ok areLocals
  have singleResults := ((checkModule_gives named).of_ok reaches.checked).2
  rcases exists_setting (Module.applied_namedAs applied) isNamed funcDecoded single (.inl trivial)
    (mem_declared declaredParams declaredLocals) singleResults with ⟨naming, setting, namedBody⟩
  have fits := ((openFunction_meets _).of_ok opens).2.1
  rw [isNamed.results] at fits
  exact typed_visits setting typed namedBody fits visits

end Emission

end WasmLowering
