import WasmLowering.Proofs.Lowering.Emitted
import WasmLowering.Proofs.Naming.NamedCode

/-! Lowering instructions that apply operations.

Each of them becomes one statement. It applies the same operation to the slots of
the operands, and puts the result where the operands were. -/

namespace WasmLowering

theorem Module.Names.item {named : Module} {kind : EntityKind} {position : Index} {name : String}
    (isNamed : named.Names kind position name) {α : Type} (items : List α) (nameOf : α → String)
    (areItems : named.entityNames kind = items.map nameOf) :
    ∃ item, (named.entityIndex? kind (.name name)).bind (fun found => items[found.toNat]?) =
      some item ∧ items[position.toNat]? = some item ∧ nameOf item = name := by
  have isName := isNamed.isName
  rw [areItems, List.getElem?_map] at isName
  rcases Option.map_eq_some_iff.mp isName with ⟨item, isItem, sameName⟩
  exact ⟨item, by rw [isNamed.found, Option.bind_some, isItem], isItem, sameName⟩

theorem C.SlotsAt.append {start : Nat} {types others : List ValueType}
    {slots otherSlots : List C.Slot} (first : C.SlotsAt start types slots)
    (later : C.SlotsAt (start + types.length) others otherSlots) :
    C.SlotsAt start (types ++ others) (slots ++ otherSlots) := by
  induction first with
  | nil => simpa using later
  | cons isFirst _ induction =>
      refine .cons isFirst (induction ?_)
      rwa [List.length_cons, Nat.add_comm _ 1, ← Nat.add_assoc] at later

theorem Module.application_of_access {module : Module} {memory : Index} {operation : Operation}
    {type : Signature} {application : Application}
    (accesses : module.access? memory operation type = some application) :
    application = ⟨operation, type⟩ := by
  unfold Module.access? at accesses
  split at accesses
  · exact (Option.some.inj accesses).symm
  · cases accesses

theorem Instr.head?_of_application {module : Module} {instr : Instr} {application : Application}
    (applies : module.application? instr = some application) : instr.head? = none := by
  cases instr <;> first | rfl | cases applies

theorem Instr.isConstruct_of_application {module : Module} {instr : Instr}
    {application : Application} (applies : module.application? instr = some application) :
    instr.isConstruct = false := by
  cases instr <;> first | rfl | cases applies

theorem Instr.isConstruct_of_extension {instr : Instr} (beyond : instr.isExtension = true) :
    instr.isConstruct = false := by
  cases instr <;> first | rfl | cases beyond

theorem C.Stmt.labels_of_effect {module : Module} {stmt : C.Stmt} {effect : C.Effect}
    (isEffect : stmt.effect? module = some effect) : stmt.labels = [] := by
  cases stmt <;> first | rfl | cases isEffect

theorem C.TargetAt.resultsFor {start : Nat} {results : List ValueType} {target : Option C.Slot}
    (isTarget : C.TargetAt start results target) : C.resultsFor target = results.length := by
  cases isTarget with
  | nothing => rfl
  | value => rfl

namespace Emission

open C (Slot SlotsAt TargetAt)

/-- What is known where a function is lowered: the module is a named one, the names
of slots are those of the parameters and locals, and the symbols that references
need have been chosen. -/
structure Setting (lenient : Prop) (module : Module) (func : Func) (naming : Naming.Scope)
    (scope : Scope) (slotNames : List String) : Prop where
  namedAs : module.NamedAs scope.module
  resolved : naming.module = module.resolve
  slots : ∀ slot reference, naming.slot (.index slot) = .ok reference →
    ∃ name, reference = .name name ∧ slotNames[slot.toNat]? = some name
  slotTypes : ∀ slot type name, func.slotType? slot = some type →
    slotNames[slot.toNat]? = some name →
      scope.func.variableType (.name name) = type ∧ type ≠ .any
  declared : ∀ name ∈ slotNames, name ∈ scope.declared
  externals : ∀ kind entity position name, EntityKind.ofExtern? kind = some entity →
    scope.module.Names entity position name →
      Gives lenient (scope.symbols.external kind name) fun external =>
        external.position? scope.module = some position
  singleResults : ∀ callee ∈ scope.module.funcs, callee.results.length ≤ 1

/-- One statement applies an operation to the topmost operands. -/
structure Performs (named : Module) (application : Application) (state : State)
    (rest : List ValueType) (result : Lowered) (last : State) : Prop where
  stmt : ∃ stmt arguments target, result = .through [stmt] ∧
    stmt.effect? named = some ⟨application.operation, arguments, target⟩ ∧
    SlotsAt rest.length application.type.params arguments ∧
    TargetAt rest.length application.type.results target
  last : ∃ mentioned,
    last = { state with stack := application.type.results.reverse ++ rest, mentioned }

namespace State.Fits

variable {lenient : Prop} {state : State} {names : List String} {labels : List LabelType}
  {before : List ValueType}

theorem mentioning (fits : state.Fits names labels before) (mentioned : List C.Ident) :
    { state with mentioned }.Fits names labels before :=
  ⟨fits.stack, fits.opens⟩

theorem pushed (fits : state.Fits names labels before) (type : ValueType) :
    { state with stack := type :: state.stack }.Fits names labels (type :: before) :=
  ⟨congrArg (type :: ·) fits.stack, fits.opens⟩

theorem depth (fits : state.Fits names labels before) {operand : Nat}
    (inside : operand < before.length) :
    state.height - 1 - operand =
      (before.drop (operand + 1) ++ LabelType.floor labels).length := by
  rw [State.height, fits.stack, List.length_append, List.length_append, List.length_drop]
  omega

theorem top (fits : state.Fits names labels before) (func : String) {operand : Nat}
    {type : ValueType} (isType : before[operand]? = some type) :
    Meets lenient (top func operand) state fun slot after =>
      slot.IsAt (before.drop (operand + 1) ++ LabelType.floor labels).length type ∧
        state.Mentions after := by
  have inside := (List.getElem?_eq_some_iff.mp isType).1
  have onStack : state.stack[operand]? = some type := by
    rw [fits.stack, List.getElem?_append_left inside, isType]
  exact fits.depth inside ▸ top_meets func (fits.enough inside) onStack

theorem topAs (fits : state.Fits names labels before) (func : String) {operand : Nat}
    (type : ValueType) (inside : operand < before.length) :
    Meets lenient (topAs func operand type) state fun slot after =>
      slot.IsAt (before.drop (operand + 1) ++ LabelType.floor labels).length type ∧
        state.Mentions after :=
  fits.depth inside ▸ topAs_meets func type (fits.enough inside)

theorem pop (fits : state.Fits names labels before) (func : String) (operands : List ValueType)
    {below : List ValueType} {count : Nat} (isCount : operands.length = count)
    (isBefore : before = operands ++ below) :
    Meets lenient (pop func count) state fun _ after =>
      after = { state with stack := below ++ LabelType.floor labels } := by
  have inside : count ≤ before.length := by
    rw [isBefore, List.length_append, isCount]
    exact Nat.le_add_right _ _
  refine (pop_meets func (fits.enough inside)).mono ?_
  rintro _ _ rfl
  rw [fits.stack, isBefore, List.append_assoc, ← isCount, List.drop_left]

theorem popped (operands : List ValueType) {below : List ValueType}
    (fits : state.Fits names labels (operands ++ below)) (mentioned : List C.Ident) :
    { state with stack := below ++ LabelType.floor labels, mentioned }.Fits names labels below :=
  ⟨rfl, fits.opens⟩

theorem operands {types below : List ValueType}
    (fits : state.Fits names labels (types.reverse ++ below)) (scope : Scope) :
    Meets lenient (scope.operands types.length) state fun slots after =>
      SlotsAt (below ++ LabelType.floor labels).length types slots ∧ state.Mentions after := by
  have start : state.height - types.length = (below ++ LabelType.floor labels).length := by
    rw [State.height, fits.stack]
    simp
  have onTop : (state.stack.take types.length).reverse = types := by
    rw [fits.stack, List.append_assoc, List.take_left' (by simp), List.reverse_reverse]
  refine (operands_meets scope types.length (fits.enough (by simp))).mono ?_
  rintro slots after ⟨areSlots, mentions⟩
  rw [start, onTop] at areSlots
  exact ⟨areSlots, mentions⟩

theorem operandsBelow {type : ValueType} {types below : List ValueType}
    (fits : state.Fits names labels (type :: (types.reverse ++ below))) (scope : Scope) :
    Meets lenient (scope.operandsBelow types.length) state fun slots after =>
      SlotsAt (below ++ LabelType.floor labels).length types slots ∧ state.Mentions after := by
  have start : state.height - 1 - types.length = (below ++ LabelType.floor labels).length := by
    rw [State.height, fits.stack]
    simp
  have onTop : (state.stack.tail.take types.length).reverse = types := by
    rw [fits.stack, List.cons_append, List.tail_cons, List.append_assoc,
      List.take_left' (by simp), List.reverse_reverse]
  refine (operandsBelow_meets scope types.length (fits.enough (by simp))).mono ?_
  rintro slots after ⟨areSlots, mentions⟩
  rw [start, onTop] at areSlots
  exact ⟨areSlots, mentions⟩

end State.Fits

/-! ## Numeric instructions -/

namespace Scope

variable {lenient : Prop} {state : State} {names : List String} {labels : List LabelType}
  {below : List ValueType}

theorem binarySlots_meets (scope : Scope) {form : C.BinaryForm} {operand result : ValueType}
    (fitting : Opcode.fitsForm operand result form = true)
    (fits : state.Fits names labels (operand :: operand :: below)) :
    Meets lenient (scope.binarySlots form operand result) state fun slots after =>
      slots.1.IsAt (below ++ LabelType.floor labels).length result ∧
        SlotsAt (below ++ LabelType.floor labels).length [operand, operand]
          [slots.2.1, slots.2.2] ∧ state.Mentions after := by
  unfold Scope.binarySlots
  split
  · refine (fits.topAs scope.name result (by simp)).bind ?_
    rintro target _ ⟨isTarget, mentioned, rfl⟩
    refine ((fits.mentioning mentioned).top scope.name rfl).bind ?_
    rintro left _ ⟨isLeft, mentionedLeft, rfl⟩
    refine ((fits.mentioning mentionedLeft).top scope.name rfl).bind ?_
    rintro right _ ⟨isRight, mentionedRight, rfl⟩
    exact .pure ⟨isTarget, .cons isLeft (.cons isRight .nil), mentionedRight, rfl⟩
  · have signed : operand = .i32 ∨ operand = .i64 := by simpa [Opcode.fitsForm] using fitting
    refine .bind_promised signed ?_
    refine (fits.topAs scope.name result (by simp)).bind ?_
    rintro target _ ⟨isTarget, mentioned, rfl⟩
    refine ((fits.mentioning mentioned).top scope.name rfl).bind ?_
    rintro left _ ⟨isLeft, mentionedLeft, rfl⟩
    refine ((fits.mentioning mentionedLeft).top scope.name rfl).bind ?_
    rintro right _ ⟨isRight, mentionedRight, rfl⟩
    exact .pure ⟨isTarget, .cons isLeft (.cons isRight .nil), mentionedRight, rfl⟩
  · have signed : result = operand ∧ (operand = .i32 ∨ operand = .i64) := by
      simpa [Opcode.fitsForm] using fitting
    refine (fits.top scope.name rfl).bind ?_
    rintro left _ ⟨isLeft, mentionedLeft, rfl⟩
    refine .bind_promised signed.2 ?_
    refine ((fits.mentioning mentionedLeft).top scope.name rfl).bind ?_
    rintro right _ ⟨isRight, mentionedRight, rfl⟩
    exact .pure ⟨signed.1 ▸ isLeft, .cons isLeft (.cons isRight .nil), mentionedRight, rfl⟩
  · next notRelation notSigned notShift =>
    have same : result = operand := by
      simpa [Opcode.fitsForm, notRelation, notSigned, notShift] using fitting
    refine (fits.top scope.name rfl).bind ?_
    rintro left _ ⟨isLeft, mentionedLeft, rfl⟩
    refine ((fits.mentioning mentionedLeft).top scope.name rfl).bind ?_
    rintro right _ ⟨isRight, mentionedRight, rfl⟩
    exact .pure ⟨same ▸ isLeft, .cons isLeft (.cons isRight .nil), mentionedRight, rfl⟩

theorem binary_performs (scope : Scope) {opcode : Opcode} {type : Signature}
    (typed : opcode.typeIn? Opcode.numericTypes = some type)
    (fits : state.Fits names labels (type.params.reverse ++ below)) :
    Meets lenient (scope.binary opcode) state
      (Performs scope.module ⟨.numeric opcode, type⟩ state (below ++ LabelType.floor labels)) := by
  unfold Scope.binary
  split
  · exact .unsupported _ _ _
  · next operator isOperator =>
    rcases Opcode.binary_typed isOperator with ⟨operand, isTyped, fitting⟩
    cases typed.symm.trans isTyped
    have onTop : state.stack[1]? = some operand := by
      rw [fits.stack]
      rfl
    refine (typeAt_meets scope.name (fits.enough (by simp)) onTop).bind ?_
    rintro _ _ ⟨rfl, rfl⟩
    refine (scope.binarySlots_meets fitting fits).bind ?_
    rintro ⟨target, left, right⟩ _ ⟨isTarget, areOperands, mentioned, rfl⟩
    refine ((fits.mentioning mentioned).pop scope.name [_, _] rfl rfl).bind ?_
    rintro _ _ rfl
    refine (push_meets _ _).bind ?_
    rintro _ _ rfl
    exact .pure ⟨⟨_, _, _, rfl, rfl, areOperands, .value isTarget⟩, mentioned, rfl⟩

theorem unary_performs (scope : Scope) {opcode : Opcode} {type : Signature}
    (typed : opcode.typeIn? Opcode.numericTypes = some type)
    (fits : state.Fits names labels (type.params.reverse ++ below)) :
    Meets lenient (scope.unary opcode) state
      (Performs scope.module ⟨.numeric opcode, type⟩ state (below ++ LabelType.floor labels)) := by
  unfold Scope.unary
  split
  · exact .unsupported _ _ _
  · next function isFunction =>
    rcases Opcode.unary_typed isFunction with ⟨operand, isTyped⟩
    cases typed.symm.trans isTyped
    refine (fits.topAs scope.name opcode.info.result (by simp)).bind ?_
    rintro target _ ⟨isTarget, mentioned, rfl⟩
    refine ((fits.mentioning mentioned).top scope.name rfl).bind ?_
    rintro slot _ ⟨isSlot, mentionedSlot, rfl⟩
    refine ((fits.mentioning mentionedSlot).pop scope.name [_] rfl rfl).bind ?_
    rintro _ _ rfl
    refine (push_meets _ _).bind ?_
    rintro _ _ rfl
    exact .pure ⟨⟨_, _, _, rfl, rfl, .cons isSlot .nil, .value isTarget⟩, mentionedSlot, rfl⟩

theorem memoryOf_meets (scope : Scope) {position : Index} {name : String}
    (isNamed : scope.module.Names .memory position name) (state : State) :
    Meets lenient (liftM (memoryOf scope.module (.name name)) : Lowering Memory) state
      fun memory after => memory.name = name ∧ after = state := by
  rcases isNamed.item scope.module.memories (·.name) rfl with ⟨memory, isFound, _, sameName⟩
  refine (Meets.lift (Gives.found isFound _) state).mono ?_
  rintro _ _ ⟨rfl, rfl⟩
  exact ⟨sameName, rfl⟩

end Scope

namespace Setting

variable {lenient : Prop} {module : Module} {func : Func} {naming : Naming.Scope} {scope : Scope}
  {slotNames : List String} (setting : Setting lenient module func naming scope slotNames)

include setting

/-! ## Entities -/

theorem entity {kind : EntityKind} {position : Index} {reference : Reference}
    (succeeds : naming.entity kind (.index position) = .ok reference) :
    ∃ name, reference = .name name ∧ scope.module.Names kind position name :=
  setting.namedAs.entity setting.resolved succeeds

theorem external {kind : ExternKind} {entity : EntityKind} {position : Index} {name : String}
    (isKind : EntityKind.ofExtern? kind = some entity)
    (isNamed : scope.module.Names entity position name) (state : State) :
    Meets lenient (scope.external kind name) state fun external after =>
      external.position? scope.module = some position ∧ after = state :=
  Meets.lift (setting.externals kind entity position name isKind isNamed) state

/-! ## Memories -/

variable {state : State} {names : List String} {labels : List LabelType}
  {below : List ValueType}

theorem memory {position : Index} {name : String}
    (isNamed : scope.module.Names .memory position name) (state : State) :
    Meets lenient (scope.memory (.name name)) state fun external after =>
      external.position? scope.module = some position ∧ after = state := by
  refine (scope.memoryOf_meets isNamed state).bind ?_
  rintro memory _ ⟨rfl, rfl⟩
  exact setting.external rfl isNamed _

theorem load_performs {opcode : Opcode} {type : Signature} {position : Index} {name : String}
    {offset : UInt64} (typed : opcode.typeIn? Opcode.loadTypes = some type)
    (isNamed : scope.module.Names .memory position name)
    (fits : state.Fits names labels (type.params.reverse ++ below)) :
    Meets lenient (scope.load opcode (.name name) offset) state
      (Performs scope.module ⟨.load opcode position offset, type⟩ state
        (below ++ LabelType.floor labels)) := by
  cases Opcode.load_typed typed
  refine (scope.memoryOf_meets isNamed state).bind ?_
  rintro memory _ ⟨rfl, rfl⟩
  refine (fits.topAs scope.name opcode.info.result (by simp)).bind ?_
  rintro target _ ⟨isTarget, mentioned, rfl⟩
  refine (setting.external rfl isNamed _).bind ?_
  rintro external _ ⟨isPosition, rfl⟩
  refine ((fits.mentioning mentioned).top scope.name rfl).bind ?_
  rintro address _ ⟨isAddress, mentionedAddress, rfl⟩
  refine ((fits.mentioning mentionedAddress).pop scope.name [_] rfl rfl).bind ?_
  rintro _ _ rfl
  refine (push_meets _ _).bind ?_
  rintro _ _ rfl
  refine .pure ⟨⟨_, _, _, rfl, ?_, .cons isAddress .nil, .value isTarget⟩, mentionedAddress, rfl⟩
  exact congrArg (Option.map _) isPosition

theorem store_performs {opcode : Opcode} {type : Signature} {position : Index} {name : String}
    {offset : UInt64} (typed : opcode.typeIn? Opcode.storeTypes = some type)
    (isNamed : scope.module.Names .memory position name)
    (fits : state.Fits names labels (type.params.reverse ++ below)) :
    Meets lenient (scope.store opcode (.name name) offset) state
      (Performs scope.module ⟨.store opcode position offset, type⟩ state
        (below ++ LabelType.floor labels)) := by
  rcases Opcode.store_typed typed with ⟨stored, rfl⟩
  refine (setting.memory isNamed state).bind ?_
  rintro external _ ⟨isPosition, rfl⟩
  refine (fits.top scope.name rfl).bind ?_
  rintro address _ ⟨isAddress, mentioned, rfl⟩
  refine ((fits.mentioning mentioned).top scope.name rfl).bind ?_
  rintro value _ ⟨isValue, mentionedValue, rfl⟩
  refine ((fits.mentioning mentionedValue).pop scope.name [_, _] rfl rfl).bind ?_
  rintro _ _ rfl
  refine .pure ⟨⟨_, _, _, rfl, ?_, .cons isAddress (.cons isValue .nil), .nothing⟩,
    mentionedValue, rfl⟩
  exact congrArg (Option.map _) isPosition

theorem memorySize_performs {position : Index} {name : String}
    (isNamed : scope.module.Names .memory position name)
    (fits : state.Fits names labels below) :
    Meets lenient (scope.memorySize (.name name)) state
      (Performs scope.module ⟨.memorySize position, ⟨[], [.i32]⟩⟩ state
        (below ++ LabelType.floor labels)) := by
  refine (scope.memoryOf_meets isNamed state).bind ?_
  rintro memory _ ⟨rfl, rfl⟩
  refine (push_meets _ _).bind ?_
  rintro _ _ rfl
  refine ((fits.pushed .i32).top scope.name rfl).bind ?_
  rintro target _ ⟨isTarget, mentioned, rfl⟩
  refine (setting.external rfl isNamed _).bind ?_
  rintro external _ ⟨isPosition, rfl⟩
  refine .pure ⟨⟨_, _, _, rfl, ?_, .nil, .value isTarget⟩, mentioned, ?_⟩
  · exact congrArg (Option.map _) isPosition
  · rw [fits.stack]
    rfl

theorem memoryGrow_performs {position : Index} {name : String}
    (isNamed : scope.module.Names .memory position name)
    (fits : state.Fits names labels (.i32 :: below)) :
    Meets lenient (scope.memoryGrow (.name name)) state
      (Performs scope.module ⟨.memoryGrow position, ⟨[.i32], [.i32]⟩⟩ state
        (below ++ LabelType.floor labels)) := by
  refine (scope.memoryOf_meets isNamed state).bind ?_
  rintro memory _ ⟨rfl, rfl⟩
  refine (fits.top scope.name rfl).bind ?_
  rintro pages _ ⟨arePages, mentioned, rfl⟩
  refine (setting.external rfl isNamed _).bind ?_
  rintro external _ ⟨isPosition, rfl⟩
  refine .pure ⟨⟨_, _, _, rfl, ?_, .cons arePages .nil, .value arePages⟩, mentioned, ?_⟩
  · exact congrArg (Option.map _) isPosition
  · rw [fits.stack]
    rfl

theorem memoryFill_performs {position : Index} {name : String}
    (isNamed : scope.module.Names .memory position name)
    (fits : state.Fits names labels (.i32 :: .i32 :: .i32 :: below)) :
    Meets lenient (scope.memoryFill (.name name)) state
      (Performs scope.module ⟨.memoryFill position, ⟨[.i32, .i32, .i32], []⟩⟩ state
        (below ++ LabelType.floor labels)) := by
  refine (setting.memory isNamed state).bind ?_
  rintro external _ ⟨isPosition, rfl⟩
  refine (fits.top scope.name rfl).bind ?_
  rintro start _ ⟨isStart, mentioned, rfl⟩
  refine ((fits.mentioning mentioned).top scope.name rfl).bind ?_
  rintro value _ ⟨isValue, mentionedValue, rfl⟩
  refine ((fits.mentioning mentionedValue).top scope.name rfl).bind ?_
  rintro count _ ⟨isCount, mentionedCount, rfl⟩
  refine ((fits.mentioning mentionedCount).pop scope.name [_, _, _] rfl rfl).bind ?_
  rintro _ _ rfl
  refine .pure ⟨⟨_, _, _, rfl, ?_, .cons isStart (.cons isValue (.cons isCount .nil)), .nothing⟩,
    mentionedCount, rfl⟩
  exact congrArg (Option.map _) isPosition

theorem memoryCopy_performs {target source : Index} {targetName sourceName : String}
    (isTarget : scope.module.Names .memory target targetName)
    (isSource : scope.module.Names .memory source sourceName)
    (fits : state.Fits names labels (.i32 :: .i32 :: .i32 :: below)) :
    Meets lenient (scope.memoryCopy (.name targetName) (.name sourceName)) state
      (Performs scope.module ⟨.memoryCopy target source, ⟨[.i32, .i32, .i32], []⟩⟩ state
        (below ++ LabelType.floor labels)) := by
  refine (scope.memoryOf_meets isTarget state).bind ?_
  rintro targetMemory _ ⟨rfl, rfl⟩
  refine (scope.memoryOf_meets isSource _).bind ?_
  rintro sourceMemory _ ⟨rfl, rfl⟩
  refine (setting.external rfl isTarget _).bind ?_
  rintro targetExternal _ ⟨isTargetPosition, rfl⟩
  refine (setting.external rfl isSource _).bind ?_
  rintro sourceExternal _ ⟨isSourcePosition, rfl⟩
  refine (fits.top scope.name rfl).bind ?_
  rintro start _ ⟨isStart, mentioned, rfl⟩
  refine ((fits.mentioning mentioned).top scope.name rfl).bind ?_
  rintro origin _ ⟨isOrigin, mentionedOrigin, rfl⟩
  refine ((fits.mentioning mentionedOrigin).top scope.name rfl).bind ?_
  rintro count _ ⟨isCount, mentionedCount, rfl⟩
  refine ((fits.mentioning mentionedCount).pop scope.name [_, _, _] rfl rfl).bind ?_
  rintro _ _ rfl
  refine .pure ⟨⟨_, _, _, rfl, ?_, .cons isStart (.cons isOrigin (.cons isCount .nil)), .nothing⟩,
    mentionedCount, rfl⟩
  rw [C.Stmt.effect?, isTargetPosition, isSourcePosition]
  rfl

/-! ## Globals -/

theorem globalOf {position : Index} {name : String} {global : Global}
    (isGlobal : module.globals[position.toNat]? = some global)
    (isNamed : scope.module.Names .global position name) (state : State) :
    Meets lenient (liftM (globalOf scope.module (.name name)) : Lowering Global) state
      fun result after => result.name = name ∧ result.type = global.type ∧ after = state := by
  rcases isNamed.item scope.module.globals (·.name) rfl with ⟨result, isFound, isResult, sameName⟩
  have sameType : result.type = global.type := by
    have types := congrArg (·[position.toNat]?) setting.namedAs.globalTypes
    simpa [isGlobal, isResult] using types
  refine (Meets.lift (Gives.found isFound _) state).mono ?_
  rintro _ _ ⟨rfl, rfl⟩
  exact ⟨sameName, sameType, rfl⟩

theorem globalGet_performs {position : Index} {name : String} {global : Global}
    (isGlobal : module.globals[position.toNat]? = some global)
    (isNamed : scope.module.Names .global position name)
    (fits : state.Fits names labels below) :
    Meets lenient (scope.globalGet (.name name)) state
      (Performs scope.module ⟨.globalGet position, ⟨[], [global.type]⟩⟩ state
        (below ++ LabelType.floor labels)) := by
  refine (setting.globalOf isGlobal isNamed state).bind ?_
  rintro result _ ⟨rfl, sameType, rfl⟩
  rw [← sameType]
  refine (push_meets _ _).bind ?_
  rintro _ _ rfl
  refine ((fits.pushed result.type).top scope.name rfl).bind ?_
  rintro target _ ⟨isTarget, mentioned, rfl⟩
  refine (setting.external rfl isNamed _).bind ?_
  rintro external _ ⟨isPosition, rfl⟩
  refine .pure ⟨⟨_, _, _, rfl, ?_, .nil, .value isTarget⟩, mentioned, ?_⟩
  · exact congrArg (Option.map _) isPosition
  · rw [fits.stack]
    rfl

theorem globalSet_performs {position : Index} {name : String} {global : Global}
    (isGlobal : module.globals[position.toNat]? = some global)
    (isNamed : scope.module.Names .global position name)
    (fits : state.Fits names labels (global.type :: below)) :
    Meets lenient (scope.globalSet (.name name)) state
      (Performs scope.module ⟨.globalSet position, ⟨[global.type], []⟩⟩ state
        (below ++ LabelType.floor labels)) := by
  refine (setting.globalOf isGlobal isNamed state).bind ?_
  rintro result _ ⟨rfl, -, rfl⟩
  refine (setting.external rfl isNamed _).bind ?_
  rintro external _ ⟨isPosition, rfl⟩
  refine (fits.top scope.name rfl).bind ?_
  rintro value _ ⟨isValue, mentioned, rfl⟩
  refine ((fits.mentioning mentioned).pop scope.name [_] rfl rfl).bind ?_
  rintro _ _ rfl
  refine .pure ⟨⟨_, _, _, rfl, ?_, .cons isValue .nil, .nothing⟩, mentioned, rfl⟩
  exact congrArg (Option.map _) isPosition

/-! ## Calls -/

theorem call_performs {position : Index} {name : String} {callee : Func}
    (isCallee : module.funcs[position.toNat]? = some callee)
    (isNamed : scope.module.Names .func position name)
    (fits : state.Fits names labels (callee.params.reverse ++ below)) :
    Meets lenient (scope.call (.name name)) state
      (Performs scope.module
        ⟨.call position callee.results.length, callee.declaration.signature⟩ state
        (below ++ LabelType.floor labels)) := by
  rcases isNamed.item scope.module.funcs (·.name) rfl with ⟨result, isFound, isResult, sameName⟩
  have sameSignature : result.declaration.signature = callee.declaration.signature := by
    have signatures := congrArg (·[position.toNat]?) setting.namedAs.signatures
    simpa [isCallee, isResult] using signatures
  have single := setting.singleResults result (List.mem_of_getElem? isResult)
  have sameResults : result.results = callee.results := congrArg Signature.results sameSignature
  have sameParams : result.params = callee.params := congrArg Signature.params sameSignature
  refine (Meets.lift (Gives.found isFound _) state).bind ?_
  rintro found after ⟨isResult, same⟩
  subst found after
  rw [sameResults, sameParams, sameName]
  have enough : state.floor + callee.params.length ≤ state.height := fits.enough (by simp)
  have start : state.height - callee.params.length = (below ++ LabelType.floor labels).length := by
    rw [State.height, fits.stack]
    simp
  refine (need_meets scope.name enough).bind ?_
  rintro _ after same
  subst after
  refine .bind_get ((resultSlot_meets _ (sameResults ▸ single) _).bind ?_)
  rintro target _ ⟨isTarget, mentioned, rfl⟩
  refine (setting.external rfl isNamed _).bind ?_
  rintro external _ ⟨isPosition, rfl⟩
  refine ((fits.mentioning mentioned).operands scope).bind ?_
  rintro arguments _ ⟨areArguments, mentionedArguments, rfl⟩
  refine ((fits.mentioning mentionedArguments).pop scope.name _ List.length_reverse rfl).bind ?_
  rintro _ _ rfl
  refine (pushAll_meets _ _).bind ?_
  rintro _ _ rfl
  refine .pure ⟨⟨_, arguments, target, rfl, ?_, areArguments, start ▸ isTarget⟩,
    mentionedArguments, rfl⟩
  refine (congrArg (Option.map _) isPosition).trans ?_
  rw [Option.map_some, isTarget.resultsFor]

theorem callIndirect_performs {signature : Signature} {type table : Index}
    {typeName tableName : String} (isType : scope.module.Names .type type typeName)
    (isTable : scope.module.Names .table table tableName)
    (fits : state.Fits names labels (.i32 :: (signature.params.reverse ++ below))) :
    Meets lenient (scope.callIndirect ⟨some (.name typeName), signature⟩ (.name tableName)) state
      (Performs scope.module ⟨.callIndirect table type signature.results.length,
        ⟨signature.params ++ [.i32], signature.results⟩⟩ state
        (below ++ LabelType.floor labels)) := by
  rcases isTable.item scope.module.tables (·.name) rfl with ⟨result, isFound, isResult, sameName⟩
  refine (Meets.lift (Gives.found isFound _) state).bind ?_
  rintro found after ⟨isResult, same⟩
  subst found after
  rw [sameName]
  dsimp only
  split
  · exact .unsupported _ _ _
  · next single =>
    refine (Meets.lift (Gives.found isType.found _) state).bind ?_
    rintro typeIndex after ⟨isIndex, same⟩
    subst typeIndex after
    have enough : state.floor + (signature.params.length + 1) ≤ state.height :=
      fits.enough (by simp)
    have start : state.height - 1 - signature.params.length =
        (below ++ LabelType.floor labels).length := by
      rw [State.height, fits.stack]
      simp
    refine (need_meets scope.name enough).bind ?_
    rintro _ after same
    subst after
    refine .bind_get ((resultSlot_meets _ (Nat.not_lt.mp single) _).bind ?_)
    rintro target _ ⟨isTarget, mentioned, rfl⟩
    refine (setting.external rfl isTable _).bind ?_
    rintro external _ ⟨isPosition, rfl⟩
    refine (Meets.lift (prototypeOf_gives signature) _).bind ?_
    rintro prototype _ ⟨-, rfl⟩
    refine ((fits.mentioning mentioned).top scope.name rfl).bind ?_
    rintro position _ ⟨isSlot, mentionedPosition, rfl⟩
    refine ((fits.mentioning mentionedPosition).operandsBelow scope).bind ?_
    rintro arguments _ ⟨areArguments, mentionedArguments, rfl⟩
    refine ((fits.mentioning mentionedArguments).pop scope.name (_ :: signature.params.reverse)
      (by simp) rfl).bind ?_
    rintro _ _ rfl
    refine (pushAll_meets _ _).bind ?_
    rintro _ _ rfl
    refine .pure ⟨⟨_, arguments ++ [position], target, rfl, ?_,
      areArguments.append (.cons ⟨?_, isSlot.type⟩ .nil), start ▸ isTarget⟩, mentionedArguments,
      rfl⟩
    · refine (congrArg (Option.map _) isPosition).trans ?_
      rw [Option.map_some, isTarget.resultsFor]
    · rw [isSlot.depth]
      simp
      omega

theorem performs {instr target : Instr} {application : Application}
    (applies : module.application? instr = some application)
    (named : naming.instr names instr = .ok target)
    (fits : state.Fits names labels (application.type.params.reverse ++ below)) :
    Meets lenient (scope.instr target) state
      (Performs scope.module application state (below ++ LabelType.floor labels)) := by
  unfold Module.application? at applies
  split at applies
  · rcases Option.map_eq_some_iff.mp applies with ⟨type, typed, rfl⟩
    cases named
    exact scope.unary_performs typed fits
  · rcases Option.map_eq_some_iff.mp applies with ⟨type, typed, rfl⟩
    cases named
    exact scope.binary_performs typed fits
  · rcases Option.map_eq_some_iff.mp applies with ⟨type, typed, rfl⟩
    cases named
    exact scope.binary_performs typed fits
  · rcases Option.map_eq_some_iff.mp applies with ⟨type, typed, rfl⟩
    cases named
    exact scope.unary_performs typed fits
  · rcases Option.bind_eq_some_iff.mp applies with ⟨type, typed, accesses⟩
    cases Module.application_of_access accesses
    rcases bind_eq_ok named with ⟨reference, isReference, isTarget⟩
    cases isTarget
    rcases setting.entity isReference with ⟨name, rfl, isNamed⟩
    exact setting.load_performs typed isNamed fits
  · rcases Option.bind_eq_some_iff.mp applies with ⟨type, typed, accesses⟩
    cases Module.application_of_access accesses
    rcases bind_eq_ok named with ⟨reference, isReference, isTarget⟩
    cases isTarget
    rcases setting.entity isReference with ⟨name, rfl, isNamed⟩
    exact setting.store_performs typed isNamed fits
  · cases Module.application_of_access applies
    rcases bind_eq_ok named with ⟨reference, isReference, isTarget⟩
    cases isTarget
    rcases setting.entity isReference with ⟨name, rfl, isNamed⟩
    exact setting.memorySize_performs isNamed fits
  · cases Module.application_of_access applies
    rcases bind_eq_ok named with ⟨reference, isReference, isTarget⟩
    cases isTarget
    rcases setting.entity isReference with ⟨name, rfl, isNamed⟩
    exact setting.memoryGrow_performs isNamed fits
  · cases Module.application_of_access applies
    rcases bind_eq_ok named with ⟨reference, isReference, isTarget⟩
    cases isTarget
    rcases setting.entity isReference with ⟨name, rfl, isNamed⟩
    exact setting.memoryFill_performs isNamed fits
  · split at applies
    · cases Module.application_of_access applies
      rcases bind_eq_ok named with ⟨reference, isReference, remaining⟩
      rcases bind_eq_ok remaining with ⟨source, isSource, isTarget⟩
      cases isTarget
      rcases setting.entity isReference with ⟨name, rfl, isNamed⟩
      rcases setting.entity isSource with ⟨sourceName, rfl, isNamedSource⟩
      exact setting.memoryCopy_performs isNamed isNamedSource fits
    · cases applies
  · rcases Option.map_eq_some_iff.mp applies with ⟨global, isGlobal, rfl⟩
    rcases bind_eq_ok named with ⟨reference, isReference, isTarget⟩
    cases isTarget
    rcases setting.entity isReference with ⟨name, rfl, isNamed⟩
    exact setting.globalGet_performs isGlobal isNamed fits
  · rcases Option.map_eq_some_iff.mp applies with ⟨global, isGlobal, rfl⟩
    rcases bind_eq_ok named with ⟨reference, isReference, isTarget⟩
    cases isTarget
    rcases setting.entity isReference with ⟨name, rfl, isNamed⟩
    exact setting.globalSet_performs isGlobal isNamed fits
  · rcases Option.map_eq_some_iff.mp applies with ⟨callee, isCallee, rfl⟩
    rcases bind_eq_ok named with ⟨reference, isReference, isTarget⟩
    cases isTarget
    rcases setting.entity isReference with ⟨name, rfl, isNamed⟩
    exact setting.call_performs isCallee isNamed fits
  · split at applies
    · cases applies
      rcases bind_eq_ok named with ⟨declaration, isDeclaration, remaining⟩
      rcases bind_eq_ok isDeclaration with ⟨typeReference, isType, sameDeclaration⟩
      cases sameDeclaration
      rcases bind_eq_ok remaining with ⟨tableReference, isTable, isTarget⟩
      cases isTarget
      rcases setting.entity isType with ⟨typeName, rfl, isNamedType⟩
      rcases setting.entity isTable with ⟨tableName, rfl, isNamedTable⟩
      exact setting.callIndirect_performs isNamedType isNamedTable (by simpa using fits)
    · cases applies
  · cases applies

end Setting

end Emission

end WasmLowering
