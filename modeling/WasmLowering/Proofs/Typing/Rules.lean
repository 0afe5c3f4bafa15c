import WasmLowering.Proofs.Typing.InstrTypes

/-! The typing rules of WebAssembly for decoded code.

Code is typed from one operand stack to another, both with the top first and
without what is below the innermost construct. Code that is never reached may be
typed from any stack, as the rules for branches allow. A typing assigns to every
instruction the whole operand stack in front of it.

The rules leave out what has nothing to do with stacks, such as alignments and the
mutability of globals, and let instructions beyond the core ones have any type;
this only admits more code. -/

namespace WasmLowering

inductive Code where
  | instr (instr : Instr)
  | body (instrs : List Instr)

/-- What a branch to a label finds: the types of the values it carries, in order,
and the whole stack below the construct, the top first. -/
structure LabelType where
  carried : List ValueType
  below : List ValueType
  deriving DecidableEq, Repr

/-- The part of the stack that the innermost construct cannot touch. -/
def LabelType.floor : List LabelType → List ValueType
  | [] => []
  | label :: _ => label.below

@[simp] theorem LabelType.floor_cons (label : LabelType) (labels : List LabelType) :
    floor (label :: labels) = label.below := rfl

/-- What a typing says of the point in front of an instruction: the whole operand
stack, the top first, and the heights at which the constructs around begin, the
innermost first. -/
structure PointType where
  stack : List ValueType
  entries : List Nat
  deriving DecidableEq, Repr

/-- A place in a body, the innermost number first: the number of an instruction in
its list, and the number of the list in the instruction it belongs to. -/
abbrev Place := List Nat

abbrev Assignment := Place → Option PointType

def PointType.under (labels : List LabelType) (before : List ValueType) : PointType :=
  ⟨before ++ LabelType.floor labels, labels.map (·.below.length)⟩

def Instr.isExtension : Instr → Bool
  | .tryCatch .. | .throwTag _ | .rethrow _ | .ternary _ | .simd .. | .simdLane ..
  | .simdShuffle .. | .atomic .. | .refFunc _ | .other _ => true
  | _ => false

def Instr.isConstruct : Instr → Bool
  | .block .. | .loop .. | .ifElse .. => true
  | _ => false

abbrev BlockHead.params (head : BlockHead) : List ValueType := head.declaration.signature.params

abbrev BlockHead.results (head : BlockHead) : List ValueType := head.declaration.signature.results

/-- The type of a parameter or local. The largest position refers to none. -/
def Func.slotType? (func : Func) (slot : Index) : Option ValueType :=
  if slot = Index.missing then none else (func.params ++ func.locals)[slot.toNat]?

section

variable (module : Module) (func : Func) (assign : Assignment)

/-- Code at a place is typed, under labels with the innermost first, from one stack
to another. -/
inductive Typed : (list : Place) → (number : Nat) → List LabelType → Code →
    (before after : List ValueType) → Prop
  | nil {list number labels types} : Typed list number labels (.body []) types types
  | cons {list number labels instr rest before middle after}
      (assigned : assign (number :: list) = some (.under labels before))
      (first : Typed list number labels (.instr instr) before middle)
      (others : Typed list (number + 1) labels (.body rest) middle after) :
      Typed list number labels (.body (instr :: rest)) before after
  | apply {list number labels instr application below}
      (applies : module.application? instr = some application) :
      Typed list number labels (.instr instr) (application.type.params.reverse ++ below)
        (application.type.results.reverse ++ below)
  | nop {list number labels types} : Typed list number labels (.instr .nop) types types
  | drop {list number labels type below} :
      Typed list number labels (.instr .drop) (type :: below) below
  | select {list number labels explicit type below}
      (agreed : explicit = none ∨ explicit = some [type]) :
      Typed list number labels (.instr (.select explicit)) (.i32 :: type :: type :: below)
        (type :: below)
  | const {list number labels value below} :
      Typed list number labels (.instr (.const value)) below (value.type :: below)
  | localGet {list number labels slot type below} (known : func.slotType? slot = some type) :
      Typed list number labels (.instr (.localGet (.index slot))) below (type :: below)
  | localSet {list number labels slot type below} (known : func.slotType? slot = some type) :
      Typed list number labels (.instr (.localSet (.index slot))) (type :: below) below
  | localTee {list number labels slot type below} (known : func.slotType? slot = some type) :
      Typed list number labels (.instr (.localTee (.index slot))) (type :: below) (type :: below)
  | block {list number labels head body below}
      (inside : Typed (0 :: number :: list) 0
        (⟨head.results, below ++ LabelType.floor labels⟩ :: labels) (.body body)
        head.params.reverse head.results.reverse) :
      Typed list number labels (.instr (.block head body)) (head.params.reverse ++ below)
        (head.results.reverse ++ below)
  | loop {list number labels head body below}
      (inside : Typed (0 :: number :: list) 0
        (⟨head.params, below ++ LabelType.floor labels⟩ :: labels) (.body body)
        head.params.reverse head.results.reverse) :
      Typed list number labels (.instr (.loop head body)) (head.params.reverse ++ below)
        (head.results.reverse ++ below)
  | ifElse {list number labels head thenBody elseBody below}
      (thenInside : Typed (0 :: number :: list) 0
        (⟨head.results, below ++ LabelType.floor labels⟩ :: labels) (.body thenBody)
        head.params.reverse head.results.reverse)
      (elseInside : Typed (1 :: number :: list) 0
        (⟨head.results, below ++ LabelType.floor labels⟩ :: labels) (.body elseBody)
        head.params.reverse head.results.reverse) :
      Typed list number labels (.instr (.ifElse head thenBody elseBody))
        (.i32 :: head.params.reverse ++ below) (head.results.reverse ++ below)
  | br {list number labels depth label above after}
      (isLabel : labels[depth.toNat]? = some label) :
      Typed list number labels (.instr (.br (.index depth))) (label.carried.reverse ++ above) after
  | brIf {list number labels depth label below}
      (isLabel : labels[depth.toNat]? = some label) :
      Typed list number labels (.instr (.brIf (.index depth)))
        (.i32 :: label.carried.reverse ++ below) (label.carried.reverse ++ below)
  | brTable {list number labels targets otherwise carried above after}
      (areLabels : ∀ target ∈ targets ++ [otherwise], ∃ depth label,
        target = .index depth ∧ labels[depth.toNat]? = some label ∧ label.carried = carried) :
      Typed list number labels (.instr (.brTable targets otherwise))
        (.i32 :: carried.reverse ++ above) after
  | leave {list number labels label above after} (isLast : labels.getLast? = some label) :
      Typed list number labels (.instr .leave) (label.carried.reverse ++ above) after
  | unreachable {list number labels before after} :
      Typed list number labels (.instr .unreachable) before after
  | extension {list number labels instr before after} (beyond : instr.isExtension = true) :
      Typed list number labels (.instr instr) before after

end

theorem Typed.nil_eq {module : Module} {func : Func} {assign : Assignment} {list : Place}
    {number : Nat} {labels : List LabelType} {before after : List ValueType}
    (typed : Typed module func assign list number labels (.body []) before after) :
    before = after := by
  cases typed
  rfl

def Func.TypedBy (func : Func) (module : Module) (assign : Assignment) : Prop :=
  Typed module func assign [] 0 [⟨func.results, []⟩] (.body func.body) [] func.results.reverse

def Func.WellTyped (func : Func) (module : Module) : Prop :=
  ∃ assign, func.TypedBy module assign

/-- Every body is typed, and every constant expression that is used is a single
instruction. -/
structure Module.Valid (module : Module) : Prop where
  funcs : ∀ func ∈ module.definedFuncs, func.WellTyped module
  globals : ∀ global ∈ module.definedGlobals, global.initial.length = 1
  elements : ∀ segment ∈ module.elements, segment.offset.length = 1
  datas : ∀ segment ∈ module.datas, segment.isPassive = false → segment.offset.length = 1

end WasmLowering
