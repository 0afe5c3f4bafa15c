import WasmLowering.C.Operator
import WasmLowering.Emission.EntitySymbols
import WasmLowering.Naming.Resolve

/-! Lowering function bodies to C statements.

The types of the operand stack are followed through the body, so that at every
instruction it is known which slots hold its operands. Blocks become labels
behind their bodies, loops become labels in front of them, and branches become
jumps that first copy the values they carry to where the label expects them.
Instructions that cannot be reached are left out. -/

namespace WasmLowering.Emission

open C (Slot Label Ident External Expr Jump Stmt)

/-- What does not change within a function: the module, the symbols of its
entities, the function, and the names of its parameters and locals. -/
structure Scope where
  module : Module
  symbols : EntitySymbols
  func : Func
  declared : List String

structure OpenLabel where
  label : Label
  isLoop : Bool
  signature : Signature
  /-- The height of the stack below the parameters of the construct. -/
  entry : Nat

/-- The types of what a branch to a label carries: a loop starts again with its
parameters, everything else ends with its results. -/
def OpenLabel.carried (opened : OpenLabel) : List ValueType :=
  if opened.isLoop then opened.signature.params else opened.signature.results

structure State where
  /-- The types of the operand stack, the top first. -/
  stack : List ValueType := []
  /-- The labels of the constructs around, the innermost first. The last one is
  that of the function. -/
  labels : List OpenLabel := []
  /-- The slots and labels so far, the newest first. -/
  mentioned : List Ident := []
  /-- The numbers of the labels that something jumps to. -/
  targets : List Nat := []
  /-- How many labels there are so far. -/
  labelCount : Nat := 0

namespace State

def height (state : State) : Nat := state.stack.length

/-- The part of the stack that the innermost construct cannot touch. -/
def floor (state : State) : Nat :=
  match state.labels with
  | [] => 0
  | opened :: _ => opened.entry

def typeAtDepth (state : State) (depth : Nat) : ValueType :=
  (state.stack[state.height - 1 - depth]?).getD .any

def mention (state : State) (ident : Ident) : State :=
  if state.mentioned.contains ident then state
  else { state with mentioned := ident :: state.mentioned }

end State

abbrev Lowering := StateT State (Except EmitError)

/-- Statements, and whether control can go on behind them. -/
structure Lowered where
  stmts : List Stmt
  falls : Bool

namespace Lowered

def through (stmts : List Stmt) : Lowered := ⟨stmts, true⟩

def final (stmt : Stmt) : Lowered := ⟨[stmt], false⟩

end Lowered

/-! The operand stack. Operands are counted from the top, starting with zero. -/

def push (type : ValueType) : Lowering Unit :=
  modify fun state => { state with stack := type :: state.stack }

def pushAll (types : List ValueType) : Lowering Unit :=
  modify fun state => { state with stack := types.reverse ++ state.stack }

def need (func : String) (count : Nat) : Lowering Unit := do
  let state ← get
  promised (state.floor + count ≤ state.height)
    (.needBelow func count state.height state.floor)

def pop (func : String) (count : Nat) : Lowering Unit := do
  let state ← get
  promised (state.floor + count ≤ state.height)
    (.popBelow func count state.height state.floor)
  set { state with stack := state.stack.drop count }

def resetStack (func : String) (height : Nat) : Lowering Unit := do
  let state ← get
  promised (height ≤ state.height) (.resetAbove height state.height func)
  set { state with stack := state.stack.drop (state.height - height) }

def checkHeight (func place : String) (expected : Nat) : Lowering Unit := do
  let state ← get
  promised (state.height = expected) (.unbalanced place func state.height expected)

def typeAt (func : String) (operand : Nat) : Lowering ValueType := do
  need func (operand + 1)
  return ((← get).stack[operand]?).getD .any

def slot (depth : Nat) (type : ValueType) : Lowering Slot := do
  let scalar ← Symbol.mangledType type
  let slot : Slot := ⟨depth, scalar⟩
  modify (·.mention (.slot slot))
  return slot

def top (func : String) (operand : Nat) : Lowering Slot := do
  let type ← typeAt func operand
  slot ((← get).height - 1 - operand) type

def topAs (func : String) (operand : Nat) (type : ValueType) : Lowering Slot := do
  need func (operand + 1)
  slot ((← get).height - 1 - operand) type

/-! Labels. -/

def openLabel (func : String) (isLoop : Bool) (head : BlockHead) : Lowering OpenLabel := do
  let state ← get
  let signature := head.declaration.signature
  let count := signature.params.length
  promised (state.floor + count ≤ state.height)
    (.blockParams head.label func count (state.height - state.floor))
  let label : Label := ⟨state.labelCount, head.label⟩
  let opened : OpenLabel := ⟨label, isLoop, signature, state.height - count⟩
  let state := state.mention (.label label)
  set { state with labels := opened :: state.labels, labelCount := state.labelCount + 1 }
  return opened

def closeLabel (func : String) (opened : OpenLabel) : Lowering Unit := do
  modify fun state => { state with labels := state.labels.tail }
  resetStack func opened.entry
  pushAll opened.signature.results

def labelStmts (opened : OpenLabel) : Lowering (List Stmt) := do
  return if (← get).targets.contains opened.label.number then [.label opened.label] else []

def findLabel (func : String) (target : Reference) : Lowering OpenLabel := do
  let name ← referenceName "label" target
  let labels := (← get).labels
  let opened := if name = Naming.funcLabel then labels.getLast?
    else labels.find? (·.label.name = name)
  found opened (.unknownLabel name func)

def copies : (source target : Nat) → List ValueType → Lowering (List (Slot × Slot))
  | _, _, [] => return []
  | source, target, type :: rest => do
      if source = target then copies (source + 1) (target + 1) rest
      else
        let left ← slot target type
        let right ← slot source ((← get).typeAtDepth source)
        return (left, right) :: (← copies (source + 1) (target + 1) rest)

def jumpTo (func : String) (target : Reference) : Lowering Jump := do
  let opened ← findLabel func target
  modify fun state => { state with targets := opened.label.number :: state.targets }
  let state ← get
  let carried := opened.carried
  promised (opened.entry + carried.length ≤ state.height)
    (.carriedValues opened.label.name func carried.length (state.height - opened.entry))
  return ⟨← copies (state.height - carried.length) opened.entry carried, opened.label⟩

namespace Scope

/-! Instructions. Slots get their symbols in the order in which they are asked
for here. -/

def name (scope : Scope) : String := scope.func.name

def external (scope : Scope) (kind : ExternKind) (name : String) : Lowering External :=
  scope.symbols.external kind name

def memory (scope : Scope) (reference : Reference) : Lowering External := do
  let memory ← memoryOf scope.module reference
  scope.external .memory memory.name

def place (scope : Scope) (place : Reference) : Lowering String := do
  let name ← referenceName "local" place
  promised (name ∈ scope.declared) (.noLocalSymbol place scope.name)
  return name

def binarySlots (scope : Scope) (form : C.BinaryForm) (type result : ValueType) :
    Lowering (Slot × Slot × Slot) := do
  match form with
  | .relation =>
      let target ← topAs scope.name 1 result
      let left ← top scope.name 1
      return (target, left, ← top scope.name 0)
  | .signedRelation =>
      promised (type = .i32 ∨ type = .i64) (.noSignedType type)
      let target ← topAs scope.name 1 result
      let left ← top scope.name 1
      return (target, left, ← top scope.name 0)
  | .signedShift =>
      let left ← top scope.name 1
      promised (type = .i32 ∨ type = .i64) (.noSignedType type)
      return (left, left, ← top scope.name 0)
  | _ =>
      let left ← top scope.name 1
      return (left, left, ← top scope.name 0)

def binary (scope : Scope) (opcode : Opcode) : Lowering Lowered := do
  match C.binaryOperator? opcode with
  | none => unsupported (.instruction opcode scope.name)
  | some operator =>
      let result := opcode.info.result
      let type ← typeAt scope.name 1
      let (target, left, right) ← scope.binarySlots operator.form type result
      pop scope.name 2
      push result
      return .through [.assign target (.binary opcode left right)]

def unary (scope : Scope) (opcode : Opcode) : Lowering Lowered := do
  match C.unaryFunction? opcode with
  | none => unsupported (.instruction opcode scope.name)
  | some _ =>
      let result := opcode.info.result
      let target ← topAs scope.name 0 result
      let operand ← top scope.name 0
      pop scope.name 1
      push result
      return .through [.assign target (.unary opcode operand)]

def load (scope : Scope) (opcode : Opcode) (memory : Reference) (offset : UInt64) :
    Lowering Lowered := do
  let memory ← memoryOf scope.module memory
  let result := opcode.info.result
  let target ← topAs scope.name 0 result
  let memory ← scope.external .memory memory.name
  let address ← top scope.name 0
  pop scope.name 1
  push result
  return .through [.assign target (.load opcode memory address offset)]

def store (scope : Scope) (opcode : Opcode) (memory : Reference) (offset : UInt64) :
    Lowering Lowered := do
  let memory ← scope.memory memory
  let address ← top scope.name 1
  let value ← top scope.name 0
  pop scope.name 2
  return .through [.store opcode memory address offset value]

def operands (scope : Scope) : (count : Nat) → Lowering (List Slot)
  | 0 => return []
  | count + 1 => do
      let first ← top scope.name count
      return first :: (← scope.operands count)

def resultSlot (depth : Nat) (results : List ValueType) : Lowering (Option Slot) :=
  match results with
  | [] => return none
  | type :: _ => do return some (← slot depth type)

def call (scope : Scope) (callee : Reference) : Lowering Lowered := do
  let func ← funcOf scope.module callee
  let count := func.params.length
  need scope.name count
  let target ← resultSlot ((← get).height - count) func.results
  let external ← scope.external .func func.name
  let arguments ← scope.operands count
  pop scope.name count
  pushAll func.results
  return .through [.call target external arguments]

def operandsBelow (scope : Scope) : (count : Nat) → Lowering (List Slot)
  | 0 => return []
  | count + 1 => do
      let first ← top scope.name (count + 1)
      return first :: (← scope.operandsBelow count)

def callIndirect (scope : Scope) (declaration : Declaration) (table : Reference) :
    Lowering Lowered := do
  let table ← tableOf scope.module table
  let signature := declaration.signature
  if 1 < signature.results.length then
    unsupported (.indirectResults signature.results.length scope.name)
  let typeIndex ← found (scope.module.typeIndex? declaration) (.noSignatureEntry signature)
  let count := signature.params.length
  need scope.name (count + 1)
  let target ← resultSlot ((← get).height - 1 - count) signature.results
  let external ← scope.external .table table.name
  let prototype ← prototypeOf signature
  let position ← top scope.name 0
  let arguments ← scope.operandsBelow count
  pop scope.name (count + 1)
  pushAll signature.results
  return .through [.callIndirect target external prototype typeIndex position arguments]

def select (scope : Scope) : Lowering Lowered := do
  let type ← typeAt scope.name 1
  let first ← top scope.name 2
  let condition ← top scope.name 0
  let second ← top scope.name 1
  pop scope.name 3
  push type
  return .through [.assign first (.select condition first second)]

def const (scope : Scope) (value : Constant) : Lowering Lowered := do
  push value.type
  let target ← top scope.name 0
  return .through [.assign target (.literal (← numberOf value))]

def localGet (scope : Scope) (place : Reference) : Lowering Lowered := do
  let type := scope.func.variableType place
  promised (type ≠ .any) (.unknownLocal place scope.name)
  push type
  let target ← top scope.name 0
  let name ← scope.place place
  return .through [.assign target (.named name)]

def setPlace (scope : Scope) (place : Reference) : Lowering (List Stmt) := do
  let name ← scope.place place
  return [.setNamed name (← top scope.name 0)]

def globalGet (scope : Scope) (place : Reference) : Lowering Lowered := do
  let global ← globalOf scope.module place
  push global.type
  let target ← top scope.name 0
  let external ← scope.external .global global.name
  return .through [.assign target (.global external)]

def globalSet (scope : Scope) (place : Reference) : Lowering Lowered := do
  let global ← globalOf scope.module place
  let external ← scope.external .global global.name
  let value ← top scope.name 0
  pop scope.name 1
  return .through [.setGlobal external value]

def memoryGrow (scope : Scope) (memory : Reference) : Lowering Lowered := do
  let memory ← memoryOf scope.module memory
  let pages ← top scope.name 0
  let external ← scope.external .memory memory.name
  return .through [.assign pages (.grow external pages)]

def memorySize (scope : Scope) (memory : Reference) : Lowering Lowered := do
  let memory ← memoryOf scope.module memory
  push .i32
  let target ← top scope.name 0
  let external ← scope.external .memory memory.name
  return .through [.assign target (.size external)]

def memoryFill (scope : Scope) (memory : Reference) : Lowering Lowered := do
  let memory ← scope.memory memory
  let start ← top scope.name 2
  let value ← top scope.name 1
  let count ← top scope.name 0
  pop scope.name 3
  return .through [.fill memory start value count]

def memoryCopy (scope : Scope) (target source : Reference) : Lowering Lowered := do
  let target ← memoryOf scope.module target
  let source ← memoryOf scope.module source
  let target ← scope.external .memory target.name
  let source ← scope.external .memory source.name
  let start ← top scope.name 2
  let origin ← top scope.name 1
  let count ← top scope.name 0
  pop scope.name 3
  return .through [.copy target source start origin count]

def jumps (scope : Scope) (targets : List Reference) : Lowering (List Jump) :=
  targets.mapM (jumpTo scope.name)

def checkEnd (scope : Scope) (construct : String) (opened : OpenLabel) (body : Lowered) :
    Lowering Unit := do
  if body.falls then
    checkHeight scope.name ("end of " ++ construct ++ " " ++ opened.label.name)
      (opened.entry + opened.signature.results.length)

mutual

def instr (scope : Scope) : Instr → Lowering Lowered
  | .binary opcode => scope.binary opcode
  | .compare opcode => scope.binary opcode
  | .convert opcode => scope.unary opcode
  | .unary opcode => scope.unary opcode
  | .block head body => do
      let opened ← openLabel scope.name false head
      let body ← scope.instrs body
      scope.checkEnd "block" opened body
      let label ← labelStmts opened
      closeLabel scope.name opened
      return ⟨body.stmts ++ label, body.falls || !label.isEmpty⟩
  | .loop head body => do
      let opened ← openLabel scope.name true head
      let body ← scope.instrs body
      scope.checkEnd "loop" opened body
      let label ← labelStmts opened
      closeLabel scope.name opened
      return ⟨label ++ body.stmts, body.falls⟩
  | .ifElse head thenBody [] => do
      let condition ← top scope.name 0
      pop scope.name 1
      let opened ← openLabel scope.name false head
      let body ← scope.instrs thenBody
      scope.checkEnd "if" opened body
      let label ← labelStmts opened
      closeLabel scope.name opened
      return .through (.ifThen condition body.stmts :: label)
  | .ifElse head thenBody (first :: others) => do
      let condition ← top scope.name 0
      pop scope.name 1
      let opened ← openLabel scope.name false head
      let thenPart ← scope.instrs thenBody
      scope.checkEnd "if" opened thenPart
      resetStack scope.name opened.entry
      pushAll opened.signature.params
      let elsePart ← scope.instrs (first :: others)
      scope.checkEnd "else" opened elsePart
      let label ← labelStmts opened
      closeLabel scope.name opened
      return ⟨.ifThenElse condition thenPart.stmts elsePart.stmts :: label,
        thenPart.falls || elsePart.falls || !label.isEmpty⟩
  | .br target => do
      return .final (.jump (← jumpTo scope.name target))
  | .brIf target => do
      let condition ← top scope.name 0
      pop scope.name 1
      return .through [.jumpIf condition (← jumpTo scope.name target)]
  | .brTable targets otherwise => do
      let position ← top scope.name 0
      pop scope.name 1
      let cases ← scope.jumps targets
      return .final (.switch position cases (← jumpTo scope.name otherwise))
  | .leave => do
      return .final (.jump (← jumpTo scope.name (.name Naming.funcLabel)))
  | .unreachable => return .final .trap
  | .call callee => scope.call callee
  | .callIndirect declaration table => scope.callIndirect declaration table
  | .const value => scope.const value
  | .drop => do
      pop scope.name 1
      return .through []
  | .nop => return .through []
  | .select _ => scope.select
  | .globalGet place => scope.globalGet place
  | .globalSet place => scope.globalSet place
  | .localGet place => scope.localGet place
  | .localSet place => do
      let stmts ← scope.setPlace place
      pop scope.name 1
      return .through stmts
  | .localTee place => do return .through (← scope.setPlace place)
  | .load opcode memory _ offset => scope.load opcode memory offset
  | .store opcode memory _ offset => scope.store opcode memory offset
  | .memoryGrow memory => scope.memoryGrow memory
  | .memorySize memory => scope.memorySize memory
  | .memoryFill memory => scope.memoryFill memory
  | .memoryCopy target source => scope.memoryCopy target source
  | instr => unsupported (.instruction instr.opcode scope.name)

def instrs (scope : Scope) : List Instr → Lowering Lowered
  | [] => return .through []
  | instr :: rest => do
      let first ← scope.instr instr
      if first.falls then
        let others ← scope.instrs rest
        return ⟨first.stmts ++ others.stmts, others.falls⟩
      else return first

end

def body (scope : Scope) : Lowering (List Stmt × Option Slot) := do
  let results := scope.func.results
  let opened ← openLabel scope.name false ⟨Naming.funcLabel, ⟨none, ⟨[], results⟩⟩⟩
  let body ← scope.instrs scope.func.body
  if body.falls then checkHeight scope.name "end of function" results.length
  let label ← labelStmts opened
  closeLabel scope.name opened
  let returned ← resultSlot ((← get).height - 1) results
  return (body.stmts ++ label, returned)

end Scope

/-! Functions. -/

def namedParams (func : Func) : Except EmitError (List (Scalar × String)) :=
  (func.params.zip func.paramNames).zipIdx.mapM fun ((type, name), position) => do
    promised (name ≠ "") (.unnamedParam position func.name)
    return (← scalarOf type, name)

def namedLocals (func : Func) : Except EmitError (List (Scalar × String)) := do
  func.locals.forM fun type =>
    if type.scalar? = none then unsupported (.localType type func.name) else return
  let locals := (func.locals.zip func.localNames).zipIdx
  let grouped ← Scalar.all.mapM fun scalar =>
    (locals.filter (·.1.1 = scalar.toValueType)).mapM fun ((_, name), position) => do
      promised (name ≠ "") (.unnamedLocal position func.name)
      return (scalar, name)
  return grouped.flatten

def lowerFunc (module : Module) (symbols : EntitySymbols) (func : Func) :
    Except EmitError C.Function := do
  let external ← symbols.external .func func.name
  let result ← resultOf func.results
  let params ← namedParams func
  let locals ← namedLocals func
  let scope : Scope := ⟨module, symbols, func, (params ++ locals).map (·.2)⟩
  let ((body, returned), state) ← scope.body.run {}
  return {
    name := func.name
    symbol := external.symbol
    result
    params
    locals
    body
    returned
    mentioned := state.mentioned.reverse }

end WasmLowering.Emission
