import WasmLowering.Proofs.Lowering.Program
import WasmLowering.Proofs.Simulation.Code

/-! Functions behave as C as they did before. -/

namespace WasmLowering

/-! ## Where a function starts -/

/-- Of entries that are written in order, one that no other contradicts is kept. -/
theorem foldl_update_of_mem {α β : Type} [DecidableEq α] {entries : List (α × β)} {key : α}
    {value : β} (member : (key, value) ∈ entries)
    (unique : ∀ other, (key, other) ∈ entries → other = value) (initial : α → β) :
    entries.foldl (fun current (name, given) => Function.update current name given) initial key =
      value := by
  induction entries using List.reverseRecOn with
  | nil => cases member
  | append_singleton entries entry induction =>
      rcases entry with ⟨name, given⟩
      rw [List.foldl_append, List.foldl_cons, List.foldl_nil]
      dsimp only
      by_cases same : name = key
      · subst same
        rw [Function.update_self]
        exact unique given (List.mem_append_right _ List.mem_cons_self)
      · rw [Function.update_of_ne (Ne.symm same)]
        refine induction ?_ fun other isOther => unique other (List.mem_append_left _ isOther)
        rcases List.mem_append.mp member with member | member
        · exact member
        · rw [List.mem_singleton] at member
          exact absurd (congrArg Prod.fst member).symm same

theorem eq_of_mem_zip {α β : Type} {keys : List α} (nodup : keys.Nodup) {values : List β} {key : α}
    {first second : β} (isFirst : (key, first) ∈ keys.zip values)
    (isSecond : (key, second) ∈ keys.zip values) : first = second := by
  rcases List.mem_iff_getElem?.mp isFirst with ⟨position, isPosition⟩
  rcases List.mem_iff_getElem?.mp isSecond with ⟨other, isOther⟩
  rw [List.getElem?_zip_eq_some] at isPosition isOther
  have inside := (List.getElem?_eq_some_iff.mp isPosition.1).1
  have same := (List.getElem?_inj inside nodup).mp (isPosition.1.trans isOther.1.symm)
  subst same
  exact Option.some.inj (isPosition.2.symm.trans isOther.2)

theorem map_eq_of_zip {α β : Type} {items : List α} {results : List β} {change : α → β}
    (lengths : items.length = results.length)
    (each : ∀ item result, (item, result) ∈ items.zip results → change item = result) :
    items.map change = results := by
  refine List.ext_getElem (by rw [List.length_map, lengths]) fun position inside insideToo => ?_
  rw [List.getElem_map]
  refine each _ _ (List.mem_of_getElem? (?_ : (items.zip results)[position]? = _))
  exact List.getElem?_zip_eq_some.mpr
    ⟨List.getElem?_eq_getElem _, List.getElem?_eq_getElem insideToo⟩

namespace Emission

variable {Value Store Trap : Type} {machine : Machine Value Store Trap} {module named : Module}
  {func namedFunc : Func} {function : C.Function}

theorem LocalsDeclared.mem_zero {locals : List (Scalar × String)}
    (declared : LocalsDeclared func locals) (zero : ValueType → Value) (name : String)
    (value : Value) :
    (name, value) ∈ locals.map (fun entry => (entry.2, zero entry.1.toValueType)) ↔
      (name, value) ∈ func.localNames.zip (func.locals.map zero) := by
  constructor
  · intro member
    rcases List.mem_map.mp member with ⟨⟨scalar, other⟩, isLocal, same⟩
    obtain ⟨rfl, rfl⟩ := Prod.mk.inj same
    rcases (declared.declared scalar other).mp isLocal with ⟨slot, isType, isName⟩
    refine List.mem_of_getElem? (List.getElem?_zip_eq_some.mpr ⟨isName, ?_⟩)
    rw [List.getElem?_map, isType, Option.map_some]
  · intro member
    rcases List.mem_iff_getElem?.mp member with ⟨slot, isSlot⟩
    rcases List.getElem?_zip_eq_some.mp isSlot with ⟨isName, isValue⟩
    rw [List.getElem?_map] at isValue
    rcases Option.map_eq_some_iff.mp isValue with ⟨type, isType, rfl⟩
    rcases declared.scalars type (List.mem_of_getElem? isType) with ⟨scalar, rfl⟩
    exact List.mem_map.mpr ⟨(scalar, name), (declared.declared _ _).mpr ⟨slot, isType, isName⟩, rfl⟩

/-- At first every name has the value of its slot: parameters their arguments, and
locals zero. -/
theorem FunctionEmitted.startPlaces
    (emitted : FunctionEmitted module named func namedFunc function)
    (isNamed : module.FuncNamed func namedFunc)
    (nodup : (namedFunc.paramNames ++ namedFunc.localNames).Nodup) {arguments : List Value}
    (counted : arguments.length = func.params.length) (store : Store) (slots : C.Slot → Value)
    (places : String → Value) :
    (namedFunc.paramNames ++ namedFunc.localNames).map
        (function.start machine arguments store slots places).places =
      arguments ++ func.locals.map machine.zero := by
  have paramCount : namedFunc.paramNames.length = arguments.length := by
    rw [counted, ← isNamed.params]
    exact Bindings.length_reverse _ _
  have localCount : namedFunc.localNames.length = (func.locals.map machine.zero).length := by
    rw [List.length_map, ← isNamed.locals]
    exact Bindings.length_reverse _ _
  -- What is written to a name is the value of the slot with that name.
  have isWritten : ∀ name value, (name, value) ∈ (function.params.map (·.2)).zip arguments ++
      function.locals.map (fun entry => (entry.2, machine.zero entry.1.toValueType)) ↔
      (name, value) ∈ (namedFunc.paramNames ++ namedFunc.localNames).zip
        (arguments ++ func.locals.map machine.zero) := by
    intro name value
    rw [List.zip_append paramCount, List.mem_append, List.mem_append, emitted.params,
      emitted.locals.mem_zero, isNamed.locals]
  refine map_eq_of_zip (by rw [List.length_append, List.length_append, paramCount, localCount]) ?_
  intro name value member
  refine foldl_update_of_mem ((isWritten name value).mpr member) ?_ places
  exact fun other isOther => eq_of_mem_zip nodup ((isWritten name other).mp isOther) member

/-! ## How a function ends -/

def Concludes (machine : Machine Value Store Trap) (named : Module) (func : Func)
    (function : C.Function) (config : C.Config Value Store) (fuel : Nat)
    (result : Source.Result Value Store Trap) : Prop :=
  (∃ outcome count, func.outcome? result = some outcome ∧
    function.run machine named count (.going config) = .ended outcome) ∨
  ∃ world count, result = .unfinished world ∧ fuel ≤ count ∧
    (function.run machine named count (.going config)).pending? = some world

/-- A function that has nothing left to do returns what the code leaves on the stack. -/
theorem run_returns {slotNames : List String} {frame : Source.Frame Value Store}
    {config : C.Config Value Store} (isHere : config.position = [[]])
    (isReturned : C.TargetAt 0 func.results function.returned)
    (agrees : Agrees slotNames func.results.reverse [] frame [] config) :
    function.run machine named 2 (.going config) =
      .ended (.returned (func.resultsOf frame.stack) frame.world) := by
  have returned : function.returned.toList.map config.slots = func.resultsOf frame.stack := by
    rw [← List.append_nil func.results.reverse] at agrees
    rcases agrees.row with ⟨values, rest, isStack, counted, isRow, _⟩
    rw [isReturned.map isRow, Func.resultsOf, isStack, ← counted, ← List.length_reverse,
      List.take_left, List.reverse_reverse]
  rw [C.Function.run, C.Function.advance, C.Function.step, isHere]
  show function.step machine named { config with position := [] } = _
  rw [C.Function.step]
  show C.Progress.ended (.returned (function.returned.toList.map config.slots) config.world) = _
  rw [returned, agrees.world]

theorem Arrives.returns {slotNames : List String} {config : C.Config Value Store}
    {frame : Source.Frame Value Store} {target : JumpTarget}
    (isType : target.type = ⟨func.results, []⟩)
    (arrives : Arrives machine named slotNames function [] config frame target)
    (found : target.isUsed = true → C.seekIn target.number function.body = some [[]])
    (isReturned : C.TargetAt 0 func.results function.returned) :
    ∃ count, function.run machine named count (.going config) =
      .ended (.returned (func.resultsOf frame.stack) frame.world) := by
  have height : ([] : List Value).length = target.type.below.length := by
    rw [isType]
    rfl
  rcases arrives.own height found with ⟨count, reached, _, run, isThere, agrees⟩
  rw [isType] at agrees
  refine ⟨count + 2, ?_⟩
  rw [C.Function.run_add, run, run_returns isThere isReturned agrees, Func.resultsOf,
    Func.resultsOf, List.take_take, Nat.min_self]

theorem Follows.concludes {slotNames : List String} {target : JumpTarget} {label : C.Label}
    {config : C.Config Value Store} {falls : Bool} {fuel : Nat}
    {result : Source.Result Value Store Trap} (isType : target.type = ⟨func.results, []⟩)
    (found : target.isUsed = true → C.seekIn target.number function.body = some [[]])
    (isReturned : C.TargetAt 0 func.results function.returned)
    (follows : Follows machine named slotNames function [target] [] fuel config falls
      [labelIf target.isUsed label] func.results.reverse result) :
    Concludes machine named func function config fuel result := by
  have floor : JumpTarget.floor [target] = [] := congrArg LabelType.below isType
  cases result with
  | falls frame =>
      rcases follows with ⟨_, count, reached, run, isThere, agrees⟩
      rw [floor] at agrees
      rw [← List.append_nil (labelIf target.isUsed label)] at isThere
      rcases run_labelIf machine isThere with ⟨more, passes⟩
      refine .inl ⟨_, count + (more + 2), rfl, ?_⟩
      rw [C.Function.run_add, run, C.Function.run_add, passes,
        run_returns rfl isReturned (agrees.moved _)]
  | branch depth frame =>
      rcases follows with ⟨other, isOther, arrives⟩
      cases depth with
      | zero =>
          cases isOther
          rcases arrives.returns isType found isReturned with ⟨count, returns⟩
          exact .inl ⟨_, count, rfl, returns⟩
      | succ depth => cases isOther
  | leave frame =>
      rcases follows with ⟨other, isOther, arrives⟩
      cases isOther
      rcases arrives.returns isType found isReturned with ⟨count, returns⟩
      exact .inl ⟨_, count, rfl, returns⟩
  | trapped cause world =>
      rcases follows with ⟨count, traps⟩
      exact .inl ⟨_, count, rfl, traps⟩
  | unfinished world =>
      rcases follows with ⟨count, enough, pending⟩
      exact .inr ⟨world, count, rfl, enough, pending⟩
  | stuck => exact follows.elim

theorem FunctionEmitted.concludes (emitted : FunctionEmitted module named func namedFunc function)
    (isNamed : module.FuncNamed func namedFunc)
    (nodup : (namedFunc.paramNames ++ namedFunc.localNames).Nodup) {arguments : List Value}
    (counted : arguments.length = func.params.length) (store : Store) (slots : C.Slot → Value)
    (places : String → Value) (fuel : Nat) :
    Concludes machine named func function (function.start machine arguments store slots places) fuel
      (func.runBody machine module arguments store fuel) := by
  rcases emitted.body with ⟨stmts, falls, isUsed, isBody, emits⟩
  have located : C.Located function.body (stmts ++ labelIf isUsed ⟨0, Naming.funcLabel⟩) [] := by
    rw [← isBody]
    exact .whole_body emitted.nodup
  have behind : C.Located function.body (labelIf isUsed ⟨0, Naming.funcLabel⟩ ++ []) [] := by
    rw [List.append_nil]
    exact located.drop
  have own := seekIn_labelIf behind
  have around : Around function [⟨⟨func.results, []⟩, 0, isUsed⟩] := by
    refine ⟨List.cons_ne_nil _ _, fun target member => ?_, fun target member used => ?_⟩
    · rw [List.mem_singleton.mp member]
      exact List.suffix_refl _
    · rw [List.mem_singleton.mp member] at used ⊢
      exact ⟨_, own used⟩
  have agrees : Agrees (namedFunc.paramNames ++ namedFunc.localNames) [] []
      (func.startFrame machine arguments store) []
      (function.start machine arguments store slots places) :=
    ⟨.nil, rfl, (emitted.startPlaces isNamed nodup counted store slots places).symm, rfl⟩
  have simulates : Simulates machine module named _ function fuel _ _ _ _ _ _ :=
    emits.simulates nodup
  refine (simulates around located ?_ agrees).concludes rfl own emitted.returned
  rw [← isBody]
  rfl

namespace Concludes

variable {config : C.Config Value Store} {fuel : Nat} {result : Source.Result Value Store Trap}

theorem ended (concludes : Concludes machine named func function config fuel result)
    {outcome : Outcome Value Store Trap} (isOutcome : func.outcome? result = some outcome) :
    ∃ count, function.run machine named count (.going config) = .ended outcome := by
  rcases concludes with ⟨other, count, isOther, ends⟩ | ⟨world, count, rfl, _⟩
  · cases isOutcome.symm.trans isOther
    exact ⟨count, ends⟩
  · cases isOutcome

theorem outcome (concludes : Concludes machine named func function config fuel result)
    {count : Nat} {outcome : Outcome Value Store Trap}
    (ends : function.run machine named count (.going config) = .ended outcome)
    (enough : count ≤ fuel) : func.outcome? result = some outcome := by
  rcases concludes with ⟨other, later, isOther, endsToo⟩ | ⟨world, later, _, further, pending⟩
  · rw [isOther, C.Function.ended_unique ends endsToo]
  · rw [C.Function.run_ended ends (Nat.le_trans enough further)] at pending
    cases pending

/-- Where the body has not ended, neither has the function, and what it does later
includes what has been observed. -/
theorem unfinished (concludes : Concludes machine named func function config fuel result)
    {world : World Value Store} (isUnfinished : result = .unfinished world) :
    ∃ count, fuel ≤ count ∧
      (function.run machine named count (.going config)).pending? = some world := by
  rcases concludes with ⟨outcome, count, isOutcome, _⟩ | ⟨other, count, isOther, enough, pending⟩
  · rw [isUnfinished] at isOutcome
    cases isOutcome
  · cases isUnfinished.symm.trans isOther
    exact ⟨count, enough, pending⟩

theorem of_pending (concludes : Concludes machine named func function config fuel result)
    (pending : ∀ count, ∃ world,
      (function.run machine named count (.going config)).pending? = some world) :
    ∃ world, result = .unfinished world := by
  rcases concludes with ⟨outcome, count, _, ends⟩ | ⟨world, _, isUnfinished, _⟩
  · rcases pending count with ⟨world, isPending⟩
    rw [ends] at isPending
    cases isPending
  · exact ⟨world, isUnfinished⟩

end Concludes

end Emission

/-! ## Behaviour -/

structure Func.BehavesAs {Value Store Trap : Type} (machine : Machine Value Store Trap)
    (module named : Module) (func : Func) (function : C.Function) (arguments : List Value)
    (store : Store) (config : C.Config Value Store) : Prop where
  /-- The code ends, or it goes on for ever; it is never stuck. -/
  decided : (∃ outcome, func.Ends machine module arguments store outcome) ∨
    ∃ worlds, func.Diverges machine module arguments store worlds
  /-- Both end in the same way: with the same results or the same trap, and with the
  same store after the same operations. -/
  ends : ∀ outcome, func.Ends machine module arguments store outcome ↔
    ∃ count, function.run machine named count (.going config) = .ended outcome
  /-- Both go on for ever, or none of them. -/
  diverges : (∃ worlds, func.Diverges machine module arguments store worlds) ↔
    ∀ count, ∃ world, (function.run machine named count (.going config)).pending? = some world
  /-- Meanwhile the same can be observed. -/
  observed : ∀ worlds, func.Diverges machine module arguments store worlds →
    (∀ fuel, ∃ count,
      (function.run machine named count (.going config)).pending? = some (worlds fuel)) ∧
    ∀ count world, (function.run machine named count (.going config)).pending? = some world →
      ∃ fuel, world.history <:+ (worlds fuel).history

open Emission

theorem Func.behavesAs_of_concludes {Value Store Trap : Type} {machine : Machine Value Store Trap}
    {module named : Module} {func : Func} {function : C.Function} {arguments : List Value}
    {store : Store} {config : C.Config Value Store}
    (concludes : ∀ fuel, Concludes machine named func function config fuel
      (func.runBody machine module arguments store fuel)) :
    func.BehavesAs machine module named function arguments store config := by
  refine ⟨?_, fun outcome => ⟨?_, ?_⟩, ⟨?_, ?_⟩, fun worlds diverges => ⟨?_, ?_⟩⟩
  · by_cases endless : ∀ fuel, ∃ world,
      func.runBody machine module arguments store fuel = .unfinished world
    · choose worlds areWorlds using endless
      exact .inr ⟨worlds, areWorlds⟩
    · rcases not_forall.mp endless with ⟨fuel, ends⟩
      rcases concludes fuel with ⟨outcome, _, isOutcome, _⟩ | ⟨world, _, isUnfinished, _⟩
      · exact .inl ⟨outcome, fuel, isOutcome⟩
      · exact absurd ⟨world, isUnfinished⟩ ends
  · rintro ⟨fuel, isOutcome⟩
    exact (concludes fuel).ended isOutcome
  · rintro ⟨count, ends⟩
    exact ⟨count, (concludes count).outcome ends (Nat.le_refl count)⟩
  · rintro ⟨worlds, diverges⟩ count
    rcases (concludes count).unfinished (diverges count) with ⟨later, enough, pending⟩
    rw [← Nat.add_sub_cancel' enough, C.Function.run_add] at pending
    exact C.Function.run_pending pending
  · intro pending
    choose worlds areWorlds using fun fuel => (concludes fuel).of_pending pending
    exact ⟨worlds, areWorlds⟩
  · intro fuel
    rcases (concludes fuel).unfinished (diverges fuel) with ⟨count, _, pending⟩
    exact ⟨count, pending⟩
  · intro count world pending
    rcases (concludes count).unfinished (diverges count) with ⟨later, enough, laterPending⟩
    rw [← Nat.add_sub_cancel' enough, C.Function.run_add] at laterPending
    exact ⟨count, C.Function.run_history pending laterPending⟩

def plainMachine : Machine Nat Unit Unit where
  literal _ := 0
  zero _ := 0
  isTrue value := value != 0
  caseOf value := value
  unreachable := ()
  perform _ _ _ := .trap () ()
  counted := nofun

theorem waiting_diverges (module : Module) (fuel : Nat) :
    Source.instrs plainMachine module fuel waitBody ⟨[], [1], ⟨(), []⟩⟩ =
      .unfinished ⟨(), []⟩ := by
  have rounds : ∀ count, Source.iterate (Source.instrs plainMachine module fuel
      [.localGet (.index 0), .brIf (.index 0)]) 0 count ⟨[], [1], ⟨(), []⟩⟩ =
      .unfinished ⟨(), []⟩ := by
    intro count
    induction count with
    | zero => rfl
    | succ count induction => exact induction
  rw [waitBody, Source.instrs, Source.instr]
  show ((Source.iterate _ 0 fuel ⟨[], [1], ⟨(), []⟩⟩).exit 0 []).andThen _ = _
  rw [rounds fuel]
  rfl

end WasmLowering
