import WasmLowering.Compile
import WasmLowering.Proofs.Decoding.ModuleStructure
import WasmLowering.Proofs.Lowering.LoweredStatements

/-! The indirect calls of functions.

An indirect call is read with an entry of the type section, gets the name of the entry,
and is lowered to a call that is checked against the entry with this name. So the calls
among the statements of a function come from the calls in its body, in order and without
those that cannot be reached, and each is checked against an entry with its signature.
Nothing has to be typed for this. -/

namespace WasmLowering

/-! ## Indirect calls in code and in statements -/

def Instr.indirectCalls (body : List Instr) : List Declaration :=
  (visitedOfList (fun _ => true) body).filterMap called?

namespace Instr

@[simp] theorem indirectCalls_nil : indirectCalls [] = [] := rfl

theorem indirectCalls_cons (instr : Instr) (rest : List Instr) :
    indirectCalls (instr :: rest) = indirectCalls [instr] ++ indirectCalls rest := by
  simp [indirectCalls, visitedOfList]

theorem indirectCalls_singleton (instr : Instr) :
    indirectCalls [instr] = instr.called?.toList ++ instr.bodies.flatMap indirectCalls := by
  have inside : ∀ bodies : List (List Instr),
      (bodies.flatMap (visitedOfList fun _ => true)).filterMap called? =
        bodies.flatMap indirectCalls := by
    intro bodies
    rw [List.filterMap_flatMap]
    rfl
  rw [indirectCalls, visitedOfList, visitedOfList, List.append_nil, visited_eq, ← inside]
  cases isCalled : instr.called? with
  | none => simp [isCalled]
  | some declaration => simp [isCalled]

end Instr

namespace C

/-- An indirect call: the type of the pointer that is called, and the type entry that
the table element has to be of. -/
structure IndirectCall where
  prototype : Prototype
  typeIndex : Index
  deriving DecidableEq, Repr

mutual

def Stmt.indirectCalls : Stmt → List IndirectCall
  | .callIndirect _ _ prototype typeIndex _ _ => [⟨prototype, typeIndex⟩]
  | .ifThen _ body => Stmt.indirectCallsOfList body
  | .ifThenElse _ thenBody elseBody =>
      Stmt.indirectCallsOfList thenBody ++ Stmt.indirectCallsOfList elseBody
  | _ => []

def Stmt.indirectCallsOfList : List Stmt → List IndirectCall
  | [] => []
  | stmt :: rest => stmt.indirectCalls ++ Stmt.indirectCallsOfList rest

end

theorem Stmt.indirectCallsOfList_append (first others : List Stmt) :
    Stmt.indirectCallsOfList (first ++ others) =
      Stmt.indirectCallsOfList first ++ Stmt.indirectCallsOfList others := by
  induction first with
  | nil => rfl
  | cons stmt rest induction => simp [Stmt.indirectCallsOfList, induction]

mutual

theorem Stmt.leaves_indirectCalls (stmt : Stmt) :
    stmt.leaves.flatMap Stmt.indirectCalls = stmt.indirectCalls := by
  cases stmt with
  | ifThen condition body => exact Stmt.leavesOfList_indirectCalls body
  | ifThenElse condition thenBody elseBody =>
      rw [leaves, List.flatMap_append, Stmt.leavesOfList_indirectCalls thenBody,
        Stmt.leavesOfList_indirectCalls elseBody, indirectCalls]
  | _ => exact List.append_nil _

theorem Stmt.leavesOfList_indirectCalls (stmts : List Stmt) :
    (Stmt.leavesOfList stmts).flatMap Stmt.indirectCalls = Stmt.indirectCallsOfList stmts := by
  match stmts with
  | [] => rfl
  | stmt :: rest =>
      rw [leavesOfList, List.flatMap_append, Stmt.leaves_indirectCalls stmt,
        Stmt.leavesOfList_indirectCalls rest, indirectCallsOfList]

end

theorem Stmt.indirectCalls_subset {stmts others : List Stmt}
    (subset : Stmt.leavesOfList stmts ⊆ Stmt.leavesOfList others) :
    Stmt.indirectCallsOfList stmts ⊆ Stmt.indirectCallsOfList others := by
  rw [← Stmt.leavesOfList_indirectCalls, ← Stmt.leavesOfList_indirectCalls]
  intro call member
  rcases List.mem_flatMap.mp member with ⟨leaf, isLeaf, inLeaf⟩
  exact List.mem_flatMap.mpr ⟨leaf, subset isLeaf, inLeaf⟩

end C

namespace Emission

open C (IndirectCall Stmt)

/-! ## Lowering single instructions -/

def CallFree (lowered : Lowered) (_ : State) : Prop :=
  Stmt.indirectCallsOfList lowered.stmts = []

variable {scope : Scope} {state : State}

theorem binary_callFree (opcode : Opcode) : Meets True (scope.binary opcode) state CallFree := by
  unfold Scope.binary
  split
  · exact .unsupported _ _ _
  · exact .skip fun _ _ => .skip fun _ _ => .skip fun _ _ => .skip fun _ _ => .pure rfl

theorem unary_callFree (opcode : Opcode) : Meets True (scope.unary opcode) state CallFree := by
  unfold Scope.unary
  split
  · exact .unsupported _ _ _
  · exact .skip fun _ _ => .skip fun _ _ => .skip fun _ _ => .skip fun _ _ => .pure rfl

theorem setPlace_callFree (place : Reference) :
    Meets True (scope.setPlace place) state fun stmts _ => Stmt.indirectCallsOfList stmts = [] :=
  .skip fun _ _ => .skip fun _ _ => .pure rfl

theorem instr_callFree {instr : Instr} (plain : instr.isConstruct = false)
    (notCall : instr.called? = none) : Meets True (scope.instr instr) state CallFree := by
  cases instr with
  | block | loop | ifElse => cases plain
  | callIndirect => cases notCall
  | binary opcode | compare opcode => exact binary_callFree opcode
  | convert opcode | unary opcode => exact unary_callFree opcode
  | localSet place =>
      exact (setPlace_callFree place).bind fun _ _ free => .skip fun _ _ => .pure free
  | localTee place => exact (setPlace_callFree place).bind fun _ _ free => .pure free
  | unreachable | nop => exact .pure rfl
  | br | brIf | brTable | leave | drop | const | call | select | localGet | globalGet | globalSet
  | load | store | memoryGrow | memorySize | memoryFill | memoryCopy =>
      repeat refine .skip fun _ _ => ?_
      exact .pure rfl
  | _ => exact .unsupported _ _ _

theorem found_eq_ok {α : Type} {option : Option α} {otherwise : Defect} {value : α}
    (isFound : found option otherwise = .ok value) : option = some value := by
  cases option with
  | none => cases isFound
  | some other =>
      cases isFound
      rfl

theorem callIndirect_calls (declaration : Declaration) (table : Reference) :
    Meets True (scope.callIndirect declaration table) state fun lowered _ => ∃ call,
      Stmt.indirectCallsOfList lowered.stmts = [call] ∧
        scope.module.typeIndex? declaration = some call.typeIndex ∧
        prototypeOf declaration.signature = .ok call.prototype := by
  unfold Scope.callIndirect
  refine .skip fun _ _ => ?_
  dsimp only
  split
  · exact .unsupported _ _ _
  refine (Meets.lift (Gives.ofResult (found (scope.module.typeIndex? declaration) _)) _).bind ?_
  intro typeIndex _ ⟨isFound, _⟩
  refine .skip fun _ _ => .skip fun _ _ => .skip fun _ _ => .skip fun _ _ => ?_
  refine (Meets.lift (Gives.ofResult (prototypeOf declaration.signature)) _).bind ?_
  intro prototype _ ⟨isPrototype, _⟩
  repeat refine .skip fun _ _ => ?_
  exact .pure ⟨_, rfl, found_eq_ok isFound, isPrototype⟩

end Emission

/-! ## Type entries under their names -/

def Module.HasType (module : Module) (typeIndex : Index) (signature : Signature) : Prop :=
  (module.types.map (·.signature))[typeIndex.toNat]? = some signature

/-- A declaration that comes from the type section leads back to its entry when it has
been given a name. -/
theorem Module.NamedAs.typeIndex {module named : Module} (same : module.NamedAs named)
    {scope : Naming.Scope} (isScope : scope.module = module.resolve)
    {declaration result : Declaration} (isEntry : declaration.IsEntry module.types)
    (succeeds : scope.declaration declaration = .ok result) :
    result.signature = declaration.signature ∧
      ∃ typeIndex, named.typeIndex? result = some typeIndex ∧
        module.HasType typeIndex declaration.signature := by
  refine ⟨Naming.Scope.declaration_signature succeeds, ?_⟩
  rcases isEntry with ⟨position, type, isType, rfl⟩
  rcases bind_eq_ok succeeds with ⟨reference, isReference, isResult⟩
  cases isResult
  rcases same.entity isScope isReference with ⟨name, rfl, isNamed⟩
  exact ⟨position, isNamed.found, by simp [Module.HasType, isType]⟩

theorem Naming.Scope.instr_called {scope : Naming.Scope} {labels : List String}
    {instr named : Instr} (plain : instr.head? = none) (notCall : instr.called? = none)
    (succeeds : scope.instr labels instr = .ok named) :
    named.isConstruct = false ∧ named.called? = none := by
  cases instr with
  | block | loop | ifElse | tryCatch => cases plain
  | callIndirect => cases notCall
  | brTable | memoryCopy =>
      rcases bind_eq_ok succeeds with ⟨_, _, remaining⟩
      rcases bind_eq_ok remaining with ⟨_, _, isAll⟩
      cases isAll
      exact ⟨rfl, rfl⟩
  | atomic =>
      rw [Scope.instr] at succeeds
      split at succeeds
      · cases succeeds
        exact ⟨rfl, rfl⟩
      · rcases bind_eq_ok succeeds with ⟨_, _, isAll⟩
        cases isAll
        exact ⟨rfl, rfl⟩
  | br | brIf | rethrow | throwTag | call | globalGet | globalSet | localGet | localSet | localTee
  | load | store | memorySize | memoryGrow | memoryFill =>
      rcases bind_eq_ok succeeds with ⟨_, _, isAll⟩
      cases isAll
      exact ⟨rfl, rfl⟩
  | _ =>
      cases succeeds
      exact ⟨rfl, rfl⟩

namespace Emission

open C (IndirectCall Stmt)

/-! ## Lowering bodies -/

/-- A call has the type of its declaration, and is checked against a type entry with
the same signature. -/
structure Checked (module : Module) (declaration : Declaration) (call : IndirectCall) : Prop where
  entry : module.HasType call.typeIndex declaration.signature
  prototype : prototypeOf declaration.signature = .ok call.prototype

def AllChecked (module : Module) (declarations : List Declaration) (stmts : List Stmt) : Prop :=
  ∃ kept, kept.Sublist declarations ∧
    List.Forall₂ (Checked module) kept (Stmt.indirectCallsOfList stmts)

namespace AllChecked

variable {module : Module} {declarations others : List Declaration} {stmts : List Stmt}

theorem none (free : Stmt.indirectCallsOfList stmts = []) : AllChecked module declarations stmts :=
  ⟨[], List.nil_sublist _, free ▸ .nil⟩

theorem mono (checked : AllChecked module declarations stmts)
    (more : declarations.Sublist others) : AllChecked module others stmts := by
  rcases checked with ⟨kept, isPart, areChecked⟩
  exact ⟨kept, isPart.trans more, areChecked⟩

theorem append {later : List Stmt} (first : AllChecked module declarations stmts)
    (second : AllChecked module others later) :
    AllChecked module (declarations ++ others) (stmts ++ later) := by
  rcases first with ⟨kept, isPart, areChecked⟩
  rcases second with ⟨alsoKept, isAlsoPart, alsoChecked⟩
  refine ⟨kept ++ alsoKept, isPart.append isAlsoPart, ?_⟩
  rw [Stmt.indirectCallsOfList_append]
  exact List.rel_append areChecked alsoChecked

theorem of_calls {inner : List Stmt} (checked : AllChecked module declarations inner)
    (same : Stmt.indirectCallsOfList stmts = Stmt.indirectCallsOfList inner) :
    AllChecked module declarations stmts := by
  rcases checked with ⟨kept, isPart, areChecked⟩
  exact ⟨kept, isPart, same ▸ areChecked⟩

end AllChecked

theorem labelStmts_callFree (opened : OpenLabel) (state : State) :
    Meets True (labelStmts opened) state fun label _ => Stmt.indirectCallsOfList label = [] := by
  refine .bind_get (.pure ?_)
  split
  · rfl
  · rfl

structure SameCode (module : Module) (naming : Naming.Scope) (scope : Scope) : Prop where
  same : module.NamedAs scope.module
  isNaming : naming.module = module.resolve

section

variable {module : Module} {naming : Naming.Scope} {scope : Scope}

/-- An indirect call is checked against the type entry that it was read with. -/
theorem callIndirect_checked (sameCode : SameCode module naming scope) {names : List String}
    {declaration : Declaration} {table : Reference} {first : Instr}
    (isEntry : declaration.IsEntry module.types)
    (named : Naming.NamedCode naming names (.instr (.callIndirect declaration table))
      (.instr first)) (state : State) :
    Meets True (scope.instr first) state fun lowered _ => ∃ call,
      Stmt.indirectCallsOfList lowered.stmts = [call] ∧ Checked module declaration call := by
  rcases named.plain rfl with ⟨_, isFirst, succeeds⟩
  cases isFirst
  rcases bind_eq_ok succeeds with ⟨namedDeclaration, isDeclaration, remaining⟩
  rcases bind_eq_ok remaining with ⟨namedTable, _, isAll⟩
  cases isAll
  rcases sameCode.same.typeIndex sameCode.isNaming isEntry isDeclaration with
    ⟨sameSignature, typeIndex, isIndex, has⟩
  apply (callIndirect_calls namedDeclaration namedTable).mono
  intro lowered _ ⟨call, areCalls, isCallIndex, isPrototype⟩
  have sameIndex : typeIndex = call.typeIndex := Option.some.inj (isIndex.symm.trans isCallIndex)
  subst sameIndex
  exact ⟨call, areCalls, has, sameSignature ▸ isPrototype⟩

mutual

theorem instr_checked (sameCode : SameCode module naming scope) (instr : Instr)
    {names : List String} {first : Instr}
    (named : Naming.NamedCode naming names (.instr instr) (.instr first))
    (entries : ∀ declaration ∈ Instr.indirectCalls [instr], declaration.IsEntry module.types)
    (state : State) : Meets True (scope.instr first) state fun lowered _ =>
      AllChecked module (Instr.indirectCalls [instr]) lowered.stmts := by
  rw [Instr.indirectCalls_singleton] at entries ⊢
  match instr with
  | .block head body =>
      rcases named.block with ⟨newHead, newBody, isBlock, _, namedBody⟩
      cases isBlock
      simp only [Instr.bodies, Instr.called?, Option.toList_none, List.nil_append,
        List.flatMap_singleton] at entries ⊢
      refine .skip fun opened _ => ?_
      refine (instrs_checked sameCode body namedBody entries _).bind fun lowered _ checked => ?_
      refine .skip fun _ _ => (labelStmts_callFree opened _).bind fun label _ free => ?_
      refine .skip fun _ _ => .pure (checked.of_calls ?_)
      rw [Stmt.indirectCallsOfList_append, free, List.append_nil]
  | .loop head body =>
      rcases named.loop with ⟨newHead, newBody, isLoop, _, namedBody⟩
      cases isLoop
      simp only [Instr.bodies, Instr.called?, Option.toList_none, List.nil_append,
        List.flatMap_singleton] at entries ⊢
      refine .skip fun opened _ => ?_
      refine (instrs_checked sameCode body namedBody entries _).bind fun lowered _ checked => ?_
      refine .skip fun _ _ => (labelStmts_callFree opened _).bind fun label _ free => ?_
      refine .skip fun _ _ => .pure (checked.of_calls ?_)
      rw [Stmt.indirectCallsOfList_append, free, List.nil_append]
  | .ifElse head thenBody elseBody =>
      rcases named.ifElse with ⟨newHead, newThen, newElse, isIf, _, namedThen, namedElse⟩
      cases isIf
      simp only [Instr.bodies, Instr.called?, Option.toList_none, List.nil_append,
        List.flatMap_cons, List.flatMap_nil, List.append_nil, List.forall_mem_append] at entries ⊢
      cases newElse with
      | nil =>
          rw [Scope.instr]
          refine .skip fun _ _ => .skip fun _ _ => .skip fun opened _ => ?_
          refine (instrs_checked sameCode thenBody namedThen entries.1 _).bind
            fun thenPart _ thenChecked => ?_
          refine .skip fun _ _ => (labelStmts_callFree opened _).bind fun label _ free => ?_
          refine .skip fun _ _ => .pure ?_
          apply (thenChecked.mono (List.sublist_append_left _ _)).of_calls
          simp [Lowered.through, Stmt.indirectCallsOfList, Stmt.indirectCalls, free]
      | cons firstElse others =>
          rw [Scope.instr]
          refine .skip fun _ _ => .skip fun _ _ => .skip fun opened _ => ?_
          refine (instrs_checked sameCode thenBody namedThen entries.1 _).bind
            fun thenPart _ thenChecked => ?_
          refine .skip fun _ _ => .skip fun _ _ => .skip fun _ _ => ?_
          refine (instrs_checked sameCode elseBody namedElse entries.2 _).bind
            fun elsePart _ elseChecked => ?_
          refine .skip fun _ _ => (labelStmts_callFree opened _).bind fun label _ free => ?_
          refine .skip fun _ _ => .pure ((thenChecked.append elseChecked).of_calls ?_)
          rw [Stmt.indirectCallsOfList_append]
          simp [Stmt.indirectCallsOfList, Stmt.indirectCalls, free]
  | .callIndirect declaration table =>
      have isEntry := entries declaration (by simp [Instr.called?])
      apply (callIndirect_checked sameCode isEntry named state).mono
      intro lowered _ ⟨call, areCalls, checked⟩
      exact ⟨[declaration], List.Sublist.refl _, areCalls ▸ .cons checked .nil⟩
  | .tryCatch head body catches =>
      rcases named with ⟨_, _, _, succeeds⟩
      rcases bind_eq_ok succeeds with ⟨_, _, remaining⟩
      rcases bind_eq_ok remaining with ⟨_, _, remaining⟩
      rcases bind_eq_ok remaining with ⟨_, _, isAll⟩
      cases isAll
      exact .unsupported _ _ _
  | .br _ | .brIf _ | .brTable _ _ | .leave | .unreachable | .nop | .drop | .localSet _
  | .localTee _ | .binary _ | .compare _ | .convert _ | .unary _ | .call _ | .const _ | .select _
  | .globalGet _ | .globalSet _ | .localGet _ | .load _ _ _ _ | .store _ _ _ _ | .memoryGrow _
  | .memorySize _ | .memoryFill _ | .memoryCopy _ _ | .throwTag _ | .rethrow _ | .ternary _
  | .simd .. | .simdLane .. | .simdShuffle .. | .atomic .. | .refFunc _ | .other _ =>
      rcases named.plain rfl with ⟨_, isFirst, succeeds⟩
      cases isFirst
      have kept := Naming.Scope.instr_called rfl rfl succeeds
      exact (instr_callFree kept.1 kept.2).mono fun lowered _ free => .none free

theorem instrs_checked (sameCode : SameCode module naming scope) (body : List Instr)
    {names : List String} {newBody : List Instr}
    (named : Naming.NamedCode naming names (.body body) (.body newBody))
    (entries : ∀ declaration ∈ Instr.indirectCalls body, declaration.IsEntry module.types)
    (state : State) : Meets True (scope.instrs newBody) state fun lowered _ =>
      AllChecked module (Instr.indirectCalls body) lowered.stmts := by
  match body with
  | [] =>
      cases named.body_nil
      exact .pure (.none rfl)
  | instr :: rest =>
      rcases named.body_cons with ⟨first, others, isBody, namedInstr, namedRest⟩
      cases isBody
      rw [Instr.indirectCalls_cons, List.forall_mem_append] at entries
      rw [Instr.indirectCalls_cons]
      refine (instr_checked sameCode instr namedInstr entries.1 _).bind fun lowered _ checked => ?_
      split
      · refine (instrs_checked sameCode rest namedRest entries.2 _).bind
          fun later _ laterChecked => ?_
        exact .pure (checked.append laterChecked)
      · exact .pure (checked.mono (List.sublist_append_left _ _))

end

end

/-! ## Functions -/

theorem body_calls (scope : Scope) :
    Meets True scope.body {} fun result _ => ∃ opened inner lowered middle,
      openLabel scope.name false ⟨Naming.funcLabel, ⟨none, ⟨[], scope.func.results⟩⟩⟩ {} =
        .ok (opened, inner) ∧
      scope.instrs scope.func.body inner = .ok (lowered, middle) ∧
      Stmt.indirectCallsOfList result.1 = Stmt.indirectCallsOfList lowered.stmts := by
  refine (Meets.run _ _).bind fun opened inner opens => ?_
  refine (Meets.run _ _).bind fun lowered middle isLowered => ?_
  refine Meets.mono ?_ fun result _ sameCalls =>
    ⟨opened, inner, lowered, middle, opens, isLowered, sameCalls⟩
  have ends : ∀ after, Meets True (do
      let label ← labelStmts opened
      closeLabel scope.name opened
      let returned ← Scope.resultSlot ((← get).height - 1) scope.func.results
      return (lowered.stmts ++ label, returned)) after fun result _ =>
        Stmt.indirectCallsOfList result.1 = Stmt.indirectCallsOfList lowered.stmts := by
    intro after
    refine (labelStmts_callFree opened after).bind fun label _ free => ?_
    refine .skip fun _ _ => .skip fun _ _ => .skip fun _ _ => .pure ?_
    rw [Stmt.indirectCallsOfList_append, free, List.append_nil]
  dsimp only
  split
  · exact .skip fun _ after => ends after
  · exact ends middle

structure FuncChecked (module named : Module) (func : Func) (function : C.Function) : Prop where
  emitted : AllChecked module (Instr.indirectCalls func.body) function.body
  lowered : ∃ (scope : Scope) (last : State), scope.module = named ∧
    scope.func ∈ named.definedFuncs ∧ scope.func.name = function.name ∧
    scope.body {} = .ok ((function.body, function.returned), last) ∧
    ∀ (place : Place) (visited : State) (heads : List BlockHead) (declaration : Declaration)
      (table : Reference), scope.Reaches place visited →
      (Code.body func.body).at? place.reverse = some (heads, .callIndirect declaration table) →
        ∃ call ∈ Stmt.indirectCallsOfList function.body, Checked module declaration call

theorem lowerFunc_checked {module named : Module} {func namedFunc : Func} {function : C.Function}
    {symbols : EntitySymbols} (same : module.NamedAs named)
    (isNamed : module.FuncNamed func namedFunc) (member : namedFunc ∈ named.definedFuncs)
    (entries : ∀ declaration ∈ Instr.indirectCalls func.body, declaration.IsEntry module.types)
    (succeeds : lowerFunc named symbols namedFunc = .ok function) :
    FuncChecked module named func function := by
  rcases lowerFunc_lowered isNamed member succeeds with ⟨scope, isLowered⟩
  rcases isLowered.body with ⟨last, lowersBody⟩
  refine ⟨?_, scope, last, isLowered.isModule, isLowered.member, isLowered.name, lowersBody, ?_⟩
  · rcases lowerFunc_eq_ok succeeds with ⟨_, lowersFunc⟩
    rcases (body_calls _).of_ok lowersFunc.body with
      ⟨opened, inner, lowered, middle, opens, isBody, sameCalls⟩
    rcases isNamed.body with ⟨naming, isNaming, _, namedBody⟩
    have sameCode : SameCode module naming
        ⟨named, symbols, namedFunc, (function.params ++ function.locals).map (·.2)⟩ :=
      ⟨same, isNaming⟩
    have checked := (instrs_checked sameCode func.body namedBody entries inner).of_ok isBody
    exact checked.of_calls sameCalls
  · intro place visited heads declaration table reaches isAt
    rcases isLowered.reached place visited heads _ reaches isAt with
      ⟨naming, names, instr, result, next, isNaming, namedInstr, lowers, subset⟩
    have sameCode : SameCode module naming scope := ⟨isLowered.isModule ▸ same, isNaming⟩
    have isEntry : declaration.IsEntry module.types :=
      entries declaration (List.mem_filterMap.mpr ⟨_, Code.mem_visited_of_at isAt, rfl⟩)
    rcases (callIndirect_checked sameCode isEntry namedInstr visited).of_ok lowers with
      ⟨call, areCalls, isChecked⟩
    refine ⟨call, Stmt.indirectCalls_subset subset ?_, isChecked⟩
    rw [areCalls]
    exact List.mem_singleton_self call

end Emission

end WasmLowering
