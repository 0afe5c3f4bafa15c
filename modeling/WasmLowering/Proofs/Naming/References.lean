import WasmLowering.Proofs.Naming.NamedCode

/-! The references of a module.

Every reference is listed together with the index space it is looked up in. For
slots and labels this is a matter of where the reference stands, so the list is
made on the way through the code: the number of slots comes from the function, and
the number of open labels grows by one inside every structured instruction.

Not every position is a reference. Constant expressions hold the function of `ref.func`
by its bare position, which is listed by itself, and of some instructions no immediate
is kept. A fence has a place for a memory but does not refer to it. -/

namespace WasmLowering

/-- The index space of a reference: entities of a kind, the slots of the function
around it, or the labels that are open around it. -/
inductive Space where
  | entity (kind : EntityKind)
  | slot (count : Nat)
  | label (opened : Nat)
  deriving DecidableEq, Repr

/-- The number of positions in a space. Behind the open labels there is one
position more, which means the function. -/
def Space.size (module : Module) : Space → Nat
  | entity kind => module.entityCount kind
  | slot count => count
  | label opened => opened + 1

structure Use where
  space : Space
  reference : Reference
  deriving DecidableEq, Repr

namespace Use

def InRange (module : Module) (use : Use) : Prop :=
  match use.reference with
  | .index position => position.toNat < use.space.size module
  | .name _ => False

instance decidableInRange (module : Module) : (use : Use) → Decidable (use.InRange module)
  | ⟨space, .index position⟩ => inferInstanceAs (Decidable (position.toNat < space.size module))
  | ⟨_, .name _⟩ => inferInstanceAs (Decidable False)

theorem inRange_congr {left right : Module}
    (same : ∀ kind, left.entityCount kind = right.entityCount kind) (use : Use) :
    use.InRange left ↔ use.InRange right := by
  have sizes : use.space.size left = use.space.size right := by
    cases use.space <;> simp [Space.size, same]
  simp only [InRange, sizes]

end Use

/-! ## Code -/

def Declaration.uses (declaration : Declaration) : List Use :=
  declaration.typeRef.toList.map (Use.mk (.entity .type))

mutual

/-- The references of an instruction and of those inside it, in order. The function of
`ref.func` is not among them, nor the memory of a fence. -/
def Instr.uses (slots opened : Nat) : Instr → List Use
  | .block head body => head.declaration.uses ++ Instr.usesOfList slots (opened + 1) body
  | .loop head body => head.declaration.uses ++ Instr.usesOfList slots (opened + 1) body
  | .ifElse head thenBody elseBody =>
      head.declaration.uses ++ Instr.usesOfList slots (opened + 1) thenBody ++
        Instr.usesOfList slots (opened + 1) elseBody
  | .tryCatch head body catches =>
      head.declaration.uses ++ Instr.usesOfList slots (opened + 1) body ++
        Catch.usesOfList slots (opened + 1) catches
  | .br target => [⟨.label opened, target⟩]
  | .brIf target => [⟨.label opened, target⟩]
  | .brTable targets otherwise => (targets ++ [otherwise]).map (Use.mk (.label opened))
  | .rethrow depth => [⟨.label opened, depth⟩]
  | .throwTag tag => [⟨.entity .except, tag⟩]
  | .call callee => [⟨.entity .func, callee⟩]
  | .callIndirect declaration table => declaration.uses ++ [⟨.entity .table, table⟩]
  | .globalGet place => [⟨.entity .global, place⟩]
  | .globalSet place => [⟨.entity .global, place⟩]
  | .localGet place => [⟨.slot slots, place⟩]
  | .localSet place => [⟨.slot slots, place⟩]
  | .localTee place => [⟨.slot slots, place⟩]
  | .load _ memory _ _ => [⟨.entity .memory, memory⟩]
  | .store _ memory _ _ => [⟨.entity .memory, memory⟩]
  | .memorySize memory => [⟨.entity .memory, memory⟩]
  | .memoryGrow memory => [⟨.entity .memory, memory⟩]
  | .memoryFill memory => [⟨.entity .memory, memory⟩]
  | .memoryCopy target source => [⟨.entity .memory, target⟩, ⟨.entity .memory, source⟩]
  | .atomic opcode memory _ => if opcode = .atomicFence then [] else [⟨.entity .memory, memory⟩]
  | .unreachable | .nop | .drop | .leave | .select _ | .const _ | .unary _ | .binary _
  | .compare _ | .convert _ | .ternary _ | .simd .. | .simdLane .. | .simdShuffle ..
  | .refFunc _ | .other _ => []

def Instr.usesOfList (slots opened : Nat) : List Instr → List Use
  | [] => []
  | instr :: rest => instr.uses slots opened ++ Instr.usesOfList slots opened rest

def Catch.uses (slots opened : Nat) : Catch → List Use
  | .handler tag body =>
      tag.toList.map (Use.mk (.entity .except)) ++ Instr.usesOfList slots opened body

def Catch.usesOfList (slots opened : Nat) : List Catch → List Use
  | [] => []
  | handler :: rest => handler.uses slots opened ++ Catch.usesOfList slots opened rest

end

/-! ## Modules -/

def Func.uses (func : Func) : List Use :=
  func.declaration.uses ++ Instr.usesOfList func.slotCount 0 func.body

def Export.uses (entry : Export) : List Use :=
  (EntityKind.ofExtern? entry.kind).toList.map fun kind => ⟨.entity kind, entry.target⟩

def ElementSegment.uses (segment : ElementSegment) : List Use :=
  ⟨.entity .table, segment.table⟩ :: Instr.usesOfList 0 0 segment.offset ++
    segment.functions.map (Use.mk (.entity .func))

def DataSegment.uses (segment : DataSegment) : List Use :=
  if segment.isPassive then []
  else ⟨.entity .memory, segment.memory⟩ :: Instr.usesOfList 0 0 segment.offset

namespace Module

def funcUses (imported : Nat) (funcs : List Func) : List Use :=
  (funcs.take imported).flatMap (·.declaration.uses) ++ (funcs.drop imported).flatMap Func.uses

/-- The references of a module; the functions that its constants hold are not among them. -/
def uses (module : Module) : List Use :=
  funcUses (module.importCount .func) module.funcs ++
    module.globals.flatMap (fun global => Instr.usesOfList 0 0 global.initial) ++
    module.exports.flatMap Export.uses ++ module.elements.flatMap ElementSegment.uses ++
    module.datas.flatMap DataSegment.uses ++ module.starts.map (Use.mk (.entity .func))

end Module

/-! ## Functions that constants hold -/

def Instr.heldFunction? : Instr → Option Index
  | .refFunc callee => some callee
  | _ => none

theorem Instr.heldFunction?_eq_some_iff {instr : Instr} {callee : Index} :
    instr.heldFunction? = some callee ↔ instr = .refFunc callee := by
  cases instr <;> simp [heldFunction?]

def Instr.heldFunctions (body : List Instr) : List Index := body.filterMap heldFunction?

/-- The functions that initial values and offsets of segments hold by their positions. -/
def Module.heldFunctions (module : Module) : List Index :=
  module.globals.flatMap (fun global => Instr.heldFunctions global.initial) ++
    module.elements.flatMap (fun segment => Instr.heldFunctions segment.offset) ++
    module.datas.flatMap (fun segment => Instr.heldFunctions segment.offset)

/-! ## Naming keeps the references

Choosing names leaves every reference as it is. Labels are chosen too, but a
reference only depends on how many are open. -/

namespace Naming

theorem chooseLabel_declaration (letter : String) (head : BlockHead) (state : LabelState) :
    (chooseLabel letter head state).1.declaration = head.declaration := by
  unfold chooseLabel
  split <;> rfl

mutual

theorem uses_labelInstr (slots opened : Nat) (instr : Instr) (state : LabelState) :
    (labelInstr instr state).1.uses slots opened = instr.uses slots opened := by
  rcases isHead : instr.head? with _ | _
  · rw [labelInstr_plain isHead]
  · match instr, isHead with
    | .block head body, _ =>
        simp only [labelInstr, Instr.uses, chooseLabel_declaration, uses_labelInstrs]
    | .loop head body, _ =>
        simp only [labelInstr, Instr.uses, chooseLabel_declaration, uses_labelInstrs]
    | .ifElse head thenBody elseBody, _ =>
        simp only [labelInstr, Instr.uses, chooseLabel_declaration, uses_labelInstrs]
    | .tryCatch head body catches, _ =>
        simp only [labelInstr, Instr.uses, chooseLabel_declaration, uses_labelInstrs,
          uses_labelCatches]

theorem uses_labelInstrs (slots opened : Nat) (body : List Instr) (state : LabelState) :
    Instr.usesOfList slots opened (labelInstrs body state).1 =
      Instr.usesOfList slots opened body := by
  match body with
  | [] => rfl
  | instr :: rest => simp only [labelInstrs, Instr.usesOfList, uses_labelInstr, uses_labelInstrs]

theorem uses_labelCatches (slots opened : Nat) (catches : List Catch) (state : LabelState) :
    Catch.usesOfList slots opened (labelCatches catches state).1 =
      Catch.usesOfList slots opened catches := by
  match catches with
  | [] => rfl
  | .handler tag body :: rest =>
      simp only [labelCatches, labelCatch, Catch.usesOfList, Catch.uses, uses_labelInstrs,
        uses_labelCatches]

end

theorem uses_resolveFunc (func : Func) : (resolveFunc func).uses = func.uses := by
  show func.declaration.uses ++ Instr.usesOfList func.slotCount 0 (labelInstrs func.body _).1 =
    func.uses
  rw [uses_labelInstrs]
  rfl

end Naming

namespace Module

open Naming

theorem funcUses_congr (imported : Nat) {left right : List Func}
    (declared : left.map (·.declaration) = right.map (·.declaration))
    (uses : left.map Func.uses = right.map Func.uses) :
    funcUses imported left = funcUses imported right := by
  have declaredUses : left.map (·.declaration.uses) = right.map (·.declaration.uses) := by
    simpa [Function.comp_def] using congrArg (List.map Declaration.uses) declared
  simp only [funcUses, List.flatMap_def, List.map_take, List.map_drop, declaredUses, uses]

theorem map_uses_resolve (module : Module) :
    module.resolve.funcs.map Func.uses = module.funcs.map Func.uses := by
  have renamed : (resolveEntities module).funcs.map Func.uses = module.funcs.map Func.uses := by
    apply map_zipWith_view
    · exact fun _ _ => rfl
    · rw [length_nameTable, length_entityNames, Module.entityCount]
  have kept : Func.uses ∘ resolveFunc = Func.uses := funext uses_resolveFunc
  rw [← renamed, Module.resolve, List.map_append, List.map_map, kept, ← List.map_append,
    List.take_append_drop]

theorem uses_resolve (module : Module) : module.resolve.uses = module.uses := by
  have funcs := funcUses_congr (module.importCount .func)
    (map_declaration_resolve module) (map_uses_resolve module)
  have initials := congrArg (List.flatMap (Instr.usesOfList 0 0)) (map_initial_resolve module)
  rw [List.flatMap_map, List.flatMap_map] at initials
  rw [uses, uses, importCount_resolve, funcs, initials]
  rfl

theorem heldFunctions_resolve (module : Module) :
    module.resolve.heldFunctions = module.heldFunctions := by
  have initials := congrArg (List.flatMap Instr.heldFunctions) (map_initial_resolve module)
  rw [List.flatMap_map, List.flatMap_map] at initials
  rw [heldFunctions, heldFunctions, initials]
  rfl

end Module

end WasmLowering
