import Mathlib.Data.List.Nodup
import WasmLowering.Proofs.Lowering.Frame
import WasmLowering.Proofs.Lowering.OperandSteps

/-! What a function mentions it mentions once.

While a function is lowered, the slots and labels that it needs are collected; each is
added when it is asked for the first time. Parameters and locals are not among them, as
they have symbols from the start. -/

namespace WasmLowering.Emission

open C (Ident)

structure State.Listed (state : State) : Prop where
  nodup : state.mentioned.Nodup
  unnamed : ∀ name, .named name ∉ state.mentioned

/-- A computation that keeps the list of what is mentioned so. What is made of such
computations is one. -/
class Lists {α : Type} (action : Lowering α) : Prop where
  keeps : ∀ state : State, state.Listed → Meets True action state fun _ next => next.Listed

theorem State.Listed.mention {state : State} (listed : state.Listed) {ident : Ident}
    (unnamed : ∀ name, ident ≠ .named name) : (state.mention ident).Listed := by
  unfold State.mention
  split
  · exact listed
  · next isNew =>
      refine ⟨List.nodup_cons.mpr ⟨by simpa using isNew, listed.nodup⟩, ?_⟩
      intro name isNamed
      rcases List.mem_cons.mp isNamed with isNamed | isNamed
      · exact unnamed name isNamed.symm
      · exact listed.unnamed name isNamed

theorem State.Listed.of_mentioned {state next : State} (listed : state.Listed)
    (same : next.mentioned = state.mentioned) : next.Listed :=
  ⟨same ▸ listed.nodup, same ▸ listed.unnamed⟩

theorem State.Worked.listed {state next : State} (worked : state.Worked next)
    (listed : state.Listed) : next.Listed := by
  induction worked with
  | same => exact listed
  | setStack => exact listed.of_mentioned rfl
  | mention => exact listed.mention nofun
  | trans _ _ earlier later => exact later (earlier listed)

namespace Lists

variable {α β : Type}

instance (priority := low) of_operands (action : Lowering α) [isWork : OnOperands action] :
    Lists action where
  keeps state listed := (isWork.works state).mono fun _ _ worked => worked.listed listed

instance bind (first : Lowering α) (next : α → Lowering β) [isFirst : Lists first]
    [areNext : ∀ value, Lists (next value)] : Lists (first >>= next) where
  keeps state listed :=
    (isFirst.keeps state listed).bind fun value between kept => (areNext value).keeps between kept

instance ite (condition : Prop) [Decidable condition] (yes no : Lowering α) [isYes : Lists yes]
    [isNo : Lists no] : Lists (if condition then yes else no) := by
  split
  · exact isYes
  · exact isNo

instance mapM (items : List β) (action : β → Lowering α) [each : ∀ item, Lists (action item)] :
    Lists (items.mapM action) := by
  induction items with
  | nil => exact of_operands (pure [])
  | cons item rest induction =>
      rw [List.mapM_cons]
      infer_instance

theorem modifyOther {change : State → State}
    (same : ∀ state, (change state).mentioned = state.mentioned) :
    Lists (modify change : Lowering PUnit) where
  keeps state listed :=
    (Meets.modify change state).mono fun _ _ isNext =>
      isNext ▸ listed.of_mentioned (same state)

instance openLabel (func : String) (isLoop : Bool) (head : BlockHead) :
    Lists (Emission.openLabel func isLoop head) where
  keeps state listed := by
    apply Meets.bind_get
    apply (Meets.lift (Gives.ofResult _) state).bind
    intro _ _ _
    apply (Meets.set _ _).bind
    intro _ _ isNext
    subst isNext
    have mentions : (state.mention (.label ⟨state.labelCount, head.label⟩)).Listed :=
      listed.mention nofun
    exact .pure (mentions.of_mentioned rfl)

instance closeLabel (func : String) (opened : OpenLabel) :
    Lists (Emission.closeLabel func opened) :=
  @bind _ _ _ _ (modifyOther fun _ => rfl) inferInstance

instance jumpTo (func : String) (target : Reference) : Lists (Emission.jumpTo func target) := by
  unfold Emission.jumpTo
  refine @bind _ _ _ _ inferInstance fun opened => ?_
  exact @bind _ _ _ _ (modifyOther fun _ => rfl) inferInstance

variable (scope : Scope)

instance jumps (targets : List Reference) : Lists (scope.jumps targets) := by
  unfold Scope.jumps
  infer_instance

mutual

theorem instr (instr : Instr) : Lists (scope.instr instr) := by
  match instr with
  | .block head body | .loop head body =>
      have isBody := instrs body
      unfold Scope.instr
      infer_instance
  | .ifElse head thenBody [] =>
      have isBody := instrs thenBody
      unfold Scope.instr
      infer_instance
  | .ifElse head thenBody (first :: others) =>
      have isThen := instrs thenBody
      have isElse := instrs (first :: others)
      unfold Scope.instr
      -- Both parts at once are too much for the search of an instance.
      iterate 6 refine @bind _ _ _ _ inferInstance fun _ => ?_
      infer_instance
  | .br _ | .brIf _ | .brTable _ _ | .leave => exact bind _ _
  | .unreachable | .nop | .drop | .localSet _ | .localTee _ | .binary _ | .compare _ | .convert _
  | .unary _ | .call _ | .callIndirect _ _ | .const _ | .select _ | .globalGet _ | .globalSet _
  | .localGet _ | .load _ _ _ _ | .store _ _ _ _ | .memoryGrow _ | .memorySize _
  | .memoryFill _ | .memoryCopy _ _ | .tryCatch .. | .throwTag _ | .rethrow _ | .ternary _
  | .simd .. | .simdLane .. | .simdShuffle .. | .atomic .. | .refFunc _ | .other _ =>
      exact @of_operands _ _ (OnOperands.instr scope rfl rfl nofun)

theorem instrs (instrs : List Instr) : Lists (scope.instrs instrs) := by
  match instrs with
  | [] => exact of_operands (pure _)
  | first :: rest =>
      have isFirst := instr first
      have isRest := Lists.instrs rest
      unfold Scope.instrs
      infer_instance

end

theorem body : Lists scope.body := by
  have areLists := instrs scope scope.func.body
  unfold Scope.body
  infer_instance

end Lists

theorem lowerFunc_mentioned {module : Module} {symbols : EntitySymbols} {func : Func}
    {function : C.Function} (succeeds : lowerFunc module symbols func = .ok function) :
    function.mentioned.Nodup ∧ ∀ name, .named name ∉ function.mentioned := by
  rcases lowerFunc_eq_ok succeeds with ⟨last, lowered⟩
  have listed : last.Listed := ((Lists.body _).keeps {} ⟨List.nodup_nil, nofun⟩).of_ok lowered.body
  rw [lowered.mentioned]
  refine ⟨List.nodup_reverse.mpr listed.nodup, ?_⟩
  intro name isMentioned
  exact listed.unnamed name (List.mem_reverse.mp isMentioned)

end WasmLowering.Emission
