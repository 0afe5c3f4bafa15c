import WasmLowering.Proofs.Results
import WasmLowering.Proofs.Simulation.Agreement

/-! Emitted statements follow the code that they are emitted for.

There is one lemma for every way in which statements are emitted; the induction
over these only puts them together. -/

namespace WasmLowering

/-! ## Operations -/

namespace Opcode

theorem numeric_single {opcode : Opcode} {type : Signature}
    (typed : opcode.typeIn? numericTypes = some type) : type.results.length = 1 := by
  have table : ∀ range ∈ numericTypes, range.type.results.length = 1 := by decide
  rcases typeIn?_range typed with ⟨range, member, rfl, _⟩
  exact table range member

end Opcode

theorem Module.access?_eq {module : Module} {memory : Index} {operation : Operation}
    {type : Signature} {application : Application}
    (applies : module.access? memory operation type = some application) :
    application = ⟨operation, type⟩ := by
  unfold access? at applies
  split at applies
  · exact (Option.some.inj applies).symm
  · cases applies

theorem Module.resultCount_of_application {module : Module} {instr : Instr}
    {application : Application} (applies : module.application? instr = some application) :
    application.operation.resultCount = application.type.results.length := by
  unfold application? at applies
  split at applies
  case h_1 | h_2 | h_3 | h_4 =>
    rcases Option.map_eq_some_iff.mp applies with ⟨type, typed, rfl⟩
    exact (Opcode.numeric_single typed).symm
  case h_5 =>
    rcases Option.bind_eq_some_iff.mp applies with ⟨type, typed, accesses⟩
    rw [access?_eq accesses, Opcode.load_typed typed]
    rfl
  case h_6 =>
    rcases Option.bind_eq_some_iff.mp applies with ⟨type, typed, accesses⟩
    rcases Opcode.store_typed typed with ⟨value, rfl⟩
    rw [access?_eq accesses]
    rfl
  case h_7 | h_8 | h_9 =>
    rw [access?_eq applies]
    rfl
  case h_10 =>
    split at applies
    · rw [access?_eq applies]
      rfl
    · cases applies
  case h_11 | h_12 | h_13 =>
    rcases Option.map_eq_some_iff.mp applies with ⟨entity, _, rfl⟩
    rfl
  case h_14 =>
    split at applies
    · cases applies
      rfl
    · cases applies
  case h_15 => cases applies

theorem C.Function.runStmt_of_effect {Value Store Trap : Type}
    (machine : Machine Value Store Trap) {module : Module} (function : C.Function)
    {stmt : C.Stmt} {effect : C.Effect} (isEffect : stmt.effect? module = some effect)
    (config : C.Config Value Store) (next : C.Position) :
    function.runStmt machine module config next stmt = perform machine config effect next := by
  unfold runStmt
  split
  case h_12 => rw [isEffect]
  all_goals cases isEffect

namespace Emission

open C (Position Label Slot Stmt Located)

variable {Value Store Trap : Type}

def Simulates (machine : Machine Value Store Trap) (module named : Module)
    (slotNames : List String) (function : C.Function) (fuel : Nat) (targets : List JumpTarget)
    (code : Code) (before : List ValueType) (stmts : List Stmt) (falls : Bool)
    (after : List ValueType) : Prop :=
  Around function targets → ∀ ⦃rest : List Stmt⦄ ⦃outer : Position⦄
    ⦃frame : Source.Frame Value Store⦄ ⦃below : List Value⦄ ⦃config : C.Config Value Store⦄,
    Located function.body (stmts ++ rest) outer →
    config.position = (stmts ++ rest) :: outer →
    Agrees slotNames before (JumpTarget.floor targets) frame below config →
    Follows machine named slotNames function targets below fuel config falls (rest :: outer) after
      (Source.code machine module fuel code frame)

variable {machine : Machine Value Store Trap} {module named : Module} {slotNames : List String}
  {function : C.Function} {fuel : Nat} {targets : List JumpTarget}

theorem run_stmt {config : C.Config Value Store} {stmt : Stmt} {rest : List Stmt}
    {outer : Position} (isHere : config.position = (stmt :: rest) :: outer) :
    function.run machine named 1 (.going config) =
      function.runStmt machine named config (rest :: outer) stmt := by
  rw [C.Function.run, C.Function.advance, C.Function.step, isHere]
  rfl

theorem Follows.ofStmt {config reached : C.Config Value Store} {stmt : Stmt} {rest : List Stmt}
    {outer : Position} (isHere : config.position = (stmt :: rest) :: outer)
    (runs : function.runStmt machine named config (rest :: outer) stmt = .going reached)
    (isThere : reached.position = rest :: outer) {after : List ValueType} {below : List Value}
    {frame : Source.Frame Value Store} {least : Nat}
    (agrees : Agrees slotNames after (JumpTarget.floor targets) frame below reached) :
    Follows machine named slotNames function targets below least config true (rest :: outer) after
      (.falls frame) :=
  ⟨rfl, 1, reached, (run_stmt isHere).trans runs, isThere, agrees⟩

/-! ## Instructions without jumps -/

theorem nop_simulates {types : List ValueType} :
    Simulates machine module named slotNames function fuel targets (.instr .nop) types [] true
      types := by
  intro _ rest outer frame below config _ isHere agrees
  rw [Source.code, Source.instr_nop]
  exact ⟨rfl, 0, config, rfl, isHere, agrees⟩

theorem drop_simulates {type : ValueType} {types : List ValueType} :
    Simulates machine module named slotNames function fuel targets (.instr .drop) (type :: types) []
      true types := by
  intro _ rest outer frame below config _ isHere agrees
  rcases agrees.top with ⟨value, others, isStack, _, lower⟩
  rw [Source.code, Source.instr, isStack]
  exact ⟨rfl, 0, config, rfl, isHere, lower⟩

theorem const_simulates {value : Number} {types : List ValueType} {slot : Slot}
    (isSlot : slot.IsAt (types ++ JumpTarget.floor targets).length value.scalar.toValueType) :
    Simulates machine module named slotNames function fuel targets (.instr (.const (.number value)))
      types [.assign slot (.literal value)] true (value.scalar.toValueType :: types) := by
  intro _ rest outer frame below config _ isHere agrees
  rw [Source.code, Source.instr]
  exact .ofStmt isHere rfl rfl ((agrees.push isSlot _).moved _)

theorem select_simulates {explicit : Option (List ValueType)} {type : ValueType}
    {types : List ValueType} {condition first second : Slot}
    (isFirst : first.IsAt (types ++ JumpTarget.floor targets).length type)
    (isSecond : second.IsAt ((types ++ JumpTarget.floor targets).length + 1) type)
    (isCondition : condition.IsAt ((types ++ JumpTarget.floor targets).length + 2) .i32) :
    Simulates machine module named slotNames function fuel targets (.instr (.select explicit))
      (.i32 :: type :: type :: types) [.assign first (.select condition first second)] true
      (type :: types) := by
  intro _ rest outer frame below config _ isHere agrees
  rcases agrees.top with ⟨conditionValue, _, isStack, holdsCondition, agreesSecond⟩
  rcases agreesSecond.top with ⟨secondValue, _, rfl, holdsSecond, agreesFirst⟩
  rcases agreesFirst.top with ⟨firstValue, others, rfl, holdsFirst, lower⟩
  have chosen : config.slots (if machine.isTrue (config.slots condition) then first else second) =
      if machine.isTrue conditionValue then firstValue else secondValue := by
    rw [holdsCondition condition isCondition]
    split
    · exact holdsFirst first isFirst
    · exact holdsSecond second isSecond
  rw [Source.code, Source.instr, isStack]
  refine .ofStmt isHere rfl rfl ?_
  rw [chosen]
  exact (lower.push isFirst _).moved _

theorem Agrees.place {types floor : List ValueType} {frame : Source.Frame Value Store}
    {below : List Value} {config : C.Config Value Store}
    (agrees : Agrees slotNames types floor frame below config) {place : Nat} {name : String}
    (isName : slotNames[place]? = some name) :
    frame.locals[place]? = some (config.places name) := by
  rw [agrees.locals, List.getElem?_map, isName, Option.map_some]

theorem localGet_simulates {place : Index} {name : String} {type : ValueType}
    {types : List ValueType} {slot : Slot} (isName : slotNames[place.toNat]? = some name)
    (isSlot : slot.IsAt (types ++ JumpTarget.floor targets).length type) :
    Simulates machine module named slotNames function fuel targets
      (.instr (.localGet (.index place))) types [.assign slot (.named name)] true
      (type :: types) := by
  intro _ rest outer frame below config _ isHere agrees
  rw [Source.code, Source.instr, agrees.place isName]
  exact .ofStmt isHere rfl rfl ((agrees.push isSlot _).moved _)

theorem localSet_simulates (nodup : slotNames.Nodup) {place : Index} {name : String}
    {type : ValueType} {types : List ValueType} {slot : Slot}
    (isName : slotNames[place.toNat]? = some name)
    (isSlot : slot.IsAt (types ++ JumpTarget.floor targets).length type) :
    Simulates machine module named slotNames function fuel targets
      (.instr (.localSet (.index place))) (type :: types) [.setNamed name slot] true types := by
  intro _ rest outer frame below config _ isHere agrees
  rcases agrees.top with ⟨value, others, isStack, holds, lower⟩
  rw [Source.code, Source.instr, isStack]
  refine .ofStmt isHere rfl rfl ?_
  rw [holds slot isSlot]
  exact (lower.setPlace nodup isName value).moved _

theorem localTee_simulates (nodup : slotNames.Nodup) {place : Index} {name : String}
    {type : ValueType} {types : List ValueType} {slot : Slot}
    (isName : slotNames[place.toNat]? = some name)
    (isSlot : slot.IsAt (types ++ JumpTarget.floor targets).length type) :
    Simulates machine module named slotNames function fuel targets
      (.instr (.localTee (.index place))) (type :: types) [.setNamed name slot] true
      (type :: types) := by
  intro _ rest outer frame below config _ isHere agrees
  rcases agrees.top with ⟨value, others, isStack, holds, _⟩
  rw [Source.code, Source.instr, isStack]
  refine .ofStmt isHere rfl rfl ?_
  rw [holds slot isSlot, ← isStack]
  exact (agrees.setPlace nodup isName value).moved _

theorem apply_simulates {instr : Instr} {types : List ValueType} {stmt : Stmt}
    {application : Application} {arguments : List Slot} {target : Option Slot}
    (applies : module.application? instr = some application)
    (effect : stmt.effect? named = some ⟨application.operation, arguments, target⟩)
    (areArguments : C.SlotsAt (types ++ JumpTarget.floor targets).length application.type.params
      arguments)
    (isTarget : C.TargetAt (types ++ JumpTarget.floor targets).length application.type.results
      target) :
    Simulates machine module named slotNames function fuel targets (.instr instr)
      (application.type.params.reverse ++ types) [stmt] true
      (application.type.results.reverse ++ types) := by
  intro _ rest outer frame below config _ isHere agrees
  rcases agrees.row with ⟨values, others, isStack, counted, isRow, lower⟩
  have areValues := areArguments.map isRow
  have step := (run_stmt isHere).trans
    (C.Function.runStmt_of_effect machine function effect config (rest :: outer))
  rw [C.Function.perform] at step
  dsimp only at step
  rw [areValues, ← agrees.world] at step
  have taken : (frame.stack.take application.type.params.length).reverse = values := by
    rw [isStack, ← counted, ← List.length_reverse, List.take_left, List.reverse_reverse]
  have dropped : frame.stack.drop application.type.params.length = others := by
    rw [isStack, ← counted, ← List.length_reverse, List.drop_left]
  have enough : application.type.params.length ≤ frame.stack.length := by
    rw [isStack, List.length_append, List.length_reverse, counted]
    exact Nat.le_add_right _ _
  rw [Source.code, Source.instr_of_application machine fuel applies, Source.applyOperation,
    if_pos enough, taken, dropped]
  dsimp only
  rcases answer : machine.perform application.operation values frame.world.store with
    ⟨results, store⟩ | ⟨cause, store⟩ | _
  · rw [answer] at step
    have resultCount : results.length = application.type.results.length :=
      (machine.counted _ _ _ _ _ answer).trans (Module.resultCount_of_application applies)
    have holds := isTarget.store lower.holds resultCount
    refine ⟨rfl, 1, _, step, rfl, ?_, lower.height, lower.locals, rfl⟩
    rw [List.append_assoc, List.append_assoc]
    exact holds
  · rw [answer] at step
    exact ⟨1, step⟩
  · rw [answer] at step
    -- A run that hangs is not ended by more steps.
    refine ⟨1 + fuel, Nat.le_add_left _ _, ?_⟩
    rw [C.Function.run_add, step, C.Function.run_of_advance machine named function rfl]
    rfl

/-! ## Jumps -/

theorem jumpFrom_arrives (around : Around function targets) {target : JumpTarget}
    (member : target ∈ targets) {above : List ValueType} {frame : Source.Frame Value Store}
    {below : List Value} {config : C.Config Value Store} {jump : C.Jump}
    (jumps : Jumps target
      (target.type.carried.reverse ++ above ++ JumpTarget.floor targets).length jump)
    (agrees : Agrees slotNames (target.type.carried.reverse ++ above) (JumpTarget.floor targets)
      frame below config)
    (step : function.run machine named 1 (.going config) = function.jumpFrom config jump) :
    Arrives machine named slotNames function below config frame target := by
  rcases around.found target member jumps.isUsed with ⟨position, isPosition⟩
  rcases around.lower target member with ⟨between, isFloor⟩
  rcases agrees.row with ⟨values, others, isStack, counted, isRow, lower⟩
  have onFloor : C.Holds config.slots (JumpTarget.floor targets) below := by
    have holds := lower.holds.lower
    rwa [← lower.stackLength, List.drop_left] at holds
  rw [← isFloor] at onFloor
  have onTarget := onFloor.lower
  have taken : frame.stack.take target.type.carried.length = values.reverse := by
    rw [isStack, ← counted, ← List.length_reverse, List.take_left]
  have source : (target.type.carried.reverse ++ above ++ JumpTarget.floor targets).length -
      target.type.carried.length = (above ++ JumpTarget.floor targets).length := by
    simp only [List.length_append, List.length_reverse]
    omega
  have down : target.type.below.length ≤ (above ++ JumpTarget.floor targets).length := by
    rw [← isFloor]
    simp only [List.length_append]
    omega
  have copies := jumps.copies
  rw [source] at copies
  rw [C.Function.jumpFrom, jumps.number, isPosition] at step
  refine ⟨jumps.isUsed, 1, _, below.drop between.length, Nat.one_pos, step, isPosition,
    List.drop_suffix _ _, ?_, onTarget.length_eq, lower.locals, lower.world⟩
  rw [taken]
  exact copies.stack down isRow rfl onTarget

theorem br_simulates {depth : Index} {target : JumpTarget}
    {above after : List ValueType} {jump : C.Jump}
    (isTarget : targets[depth.toNat]? = some target)
    (jumps : Jumps target
      (target.type.carried.reverse ++ above ++ JumpTarget.floor targets).length jump) :
    Simulates machine module named slotNames function fuel targets (.instr (.br (.index depth)))
      (target.type.carried.reverse ++ above) [.jump jump] false after := by
  intro around rest outer frame below config _ isHere agrees
  rw [Source.code, Source.instr]
  exact ⟨target, isTarget, jumpFrom_arrives around (List.mem_of_getElem? isTarget) jumps agrees
    (run_stmt isHere)⟩

theorem leave_simulates {target : JumpTarget}
    {above after : List ValueType} {jump : C.Jump} (isTarget : targets.getLast? = some target)
    (jumps : Jumps target
      (target.type.carried.reverse ++ above ++ JumpTarget.floor targets).length jump) :
    Simulates machine module named slotNames function fuel targets (.instr .leave)
      (target.type.carried.reverse ++ above) [.jump jump] false after := by
  intro around rest outer frame below config _ isHere agrees
  rw [Source.code, Source.instr]
  exact ⟨target, isTarget, jumpFrom_arrives around (List.mem_of_getLast? isTarget) jumps agrees
    (run_stmt isHere)⟩

theorem brIf_simulates {depth : Index} {target : JumpTarget}
    {types : List ValueType} {condition : Slot} {jump : C.Jump}
    (isTarget : targets[depth.toNat]? = some target)
    (isCondition : condition.IsAt
      (target.type.carried.reverse ++ types ++ JumpTarget.floor targets).length .i32)
    (jumps : Jumps target
      (target.type.carried.reverse ++ types ++ JumpTarget.floor targets).length jump) :
    Simulates machine module named slotNames function fuel targets (.instr (.brIf (.index depth)))
      (.i32 :: target.type.carried.reverse ++ types) [.jumpIf condition jump] true
      (target.type.carried.reverse ++ types) := by
  intro around rest outer frame below config _ isHere agrees
  rcases agrees.top with ⟨value, others, isStack, holds, lower⟩
  have step : function.run machine named 1 (.going config) = _ := run_stmt isHere
  rw [C.Function.runStmt, holds condition isCondition] at step
  rw [Source.code, Source.instr, isStack]
  dsimp only
  split
  · next isTrue =>
      rw [if_pos isTrue] at step
      exact ⟨target, isTarget, jumpFrom_arrives around (List.mem_of_getElem? isTarget) jumps lower
        step⟩
  · next isFalse =>
      rw [if_neg isFalse] at step
      exact ⟨rfl, 1, _, step, rfl, lower.moved _⟩

theorem brTable_simulates {cases : List Reference}
    {otherwise : Reference} {carried above after : List ValueType} {position : Slot}
    {jumps : List C.Jump} {last : C.Jump}
    (isPosition : position.IsAt
      (carried.reverse ++ above ++ JumpTarget.floor targets).length .i32)
    (areTargets : List.Forall₂ (fun reference jump => ∃ depth target,
      reference = .index depth ∧ targets[depth.toNat]? = some target ∧
        target.type.carried = carried ∧
        Jumps target (carried.reverse ++ above ++ JumpTarget.floor targets).length jump)
      (cases ++ [otherwise]) (jumps ++ [last])) :
    Simulates machine module named slotNames function fuel targets
      (.instr (.brTable cases otherwise)) (.i32 :: carried.reverse ++ above)
      [.switch position jumps last] false after := by
  intro around rest outer frame below config _ isHere agrees
  rcases agrees.top with ⟨value, others, isStack, holds, lower⟩
  have step : function.run machine named 1 (.going config) = _ := run_stmt isHere
  rw [C.Function.runStmt, holds position isPosition] at step
  rcases getD_of_forall₂ areTargets (machine.caseOf value) with
    ⟨depth, target, isReference, isTarget, rfl, jumps⟩
  rw [Source.code, Source.instr, isStack]
  dsimp only
  rw [isReference]
  exact ⟨target, isTarget, jumpFrom_arrives around (List.mem_of_getElem? isTarget) jumps lower step⟩

theorem unreachable_simulates {before after : List ValueType} :
    Simulates machine module named slotNames function fuel targets (.instr .unreachable) before
      [.trap] false after := by
  intro _ rest outer frame below config _ isHere agrees
  rw [Source.code, Source.instr, agrees.world]
  exact ⟨1, run_stmt isHere⟩

/-! ## Constructs -/

theorem block_simulates {head : BlockHead} {body : List Instr}
    {types : List ValueType} {stmts : List Stmt} {falls isUsed : Bool} {label : Label}
    (inside : Simulates machine module named slotNames function fuel
        (⟨⟨head.results, types ++ JumpTarget.floor targets⟩, label.number, isUsed⟩ :: targets)
        (.body body) head.params.reverse stmts falls head.results.reverse) :
    Simulates machine module named slotNames function fuel targets (.instr (.block head body))
      (head.params.reverse ++ types) (stmts ++ labelIf isUsed label) (falls || isUsed)
      (head.results.reverse ++ types) := by
  intro around rest outer frame below config located isHere agrees
  rw [List.append_assoc] at located isHere
  rcases agrees.enter with ⟨enough, isRest, entered⟩
  have own := seekIn_labelIf located.drop
  have follows := inside (around.cons fun used => ⟨_, own used⟩) located isHere entered
  rw [Source.code, Source.instr, Source.enter, if_pos enough]
  exact follows.close around agrees.height isRest located.drop

/-- A loop is followed through any number of rounds, each of which takes a step at
least. -/
theorem iterate_follows (around : Around function targets) {carried results types : List ValueType}
    {number : Nat} {isUsed falls : Bool} {start next : Position}
    (found : isUsed = true → C.seekIn number function.body = some start)
    {body : Source.Frame Value Store → Source.Result Value Store Trap}
    {values below : List Value} (isRest : values.length = types.length)
    (height : below.length = (JumpTarget.floor targets).length)
    (inside : ∀ frame config, config.position = start →
      Agrees slotNames carried.reverse (types ++ JumpTarget.floor targets) frame (values ++ below)
        config →
      Follows machine named slotNames function
        (⟨⟨carried, types ++ JumpTarget.floor targets⟩, number, isUsed⟩ :: targets)
        (values ++ below) fuel config falls next results.reverse (body frame))
    {rounds : Nat} (enough : rounds ≤ fuel) {frame : Source.Frame Value Store}
    {config : C.Config Value Store} (isHere : config.position = start)
    (agrees : Agrees slotNames carried.reverse (types ++ JumpTarget.floor targets) frame
      (values ++ below) config) :
    Follows machine named slotNames function targets below rounds config falls next
      (results.reverse ++ types)
      ((Source.iterate body carried.length rounds frame).exit carried.length values) := by
  induction rounds generalizing frame config with
  | zero =>
      refine ⟨0, Nat.le_refl 0, ?_⟩
      rw [agrees.world]
      rfl
  | succ rounds induction =>
      have round := inside frame config isHere agrees
      rw [Source.iterate]
      split
      · next again isAgain =>
          rw [isAgain] at round
          rcases round with ⟨target, isTarget, arrives⟩
          cases isTarget
          rcases arrives.own agrees.height found with
            ⟨count, reached, positive, run, isThere, later⟩
          have follows := induction (Nat.le_of_succ_le enough) isThere later
          refine (follows.prepend run).mono ?_
          omega
      · next others =>
          refine (round.outward around height rfl isRest ?_ _).mono enough
          exact fun again isAgain => others again isAgain

theorem loop_simulates {head : BlockHead} {body : List Instr}
    {types : List ValueType} {stmts : List Stmt} {falls isUsed : Bool} {label : Label}
    (inside : Simulates machine module named slotNames function fuel
        (⟨⟨head.params, types ++ JumpTarget.floor targets⟩, label.number, isUsed⟩ :: targets)
        (.body body) head.params.reverse stmts falls head.results.reverse) :
    Simulates machine module named slotNames function fuel targets (.instr (.loop head body))
      (head.params.reverse ++ types) (labelIf isUsed label ++ stmts) falls
      (head.results.reverse ++ types) := by
  intro around rest outer frame below config located isHere agrees
  rw [List.append_assoc] at located isHere
  rcases agrees.enter with ⟨enough, isRest, entered⟩
  rcases run_labelIf machine isHere with ⟨count, passes⟩
  have own := seekIn_labelIf located
  rw [Source.code, Source.instr, Source.enter, if_pos enough]
  refine Follows.mono (Nat.le_add_left fuel count) (Follows.prepend passes ?_)
  refine iterate_follows around own isRest agrees.height ?_ (Nat.le_refl fuel) rfl (entered.moved _)
  exact fun inner reached isThere innerAgrees =>
    inside (around.cons fun used => ⟨_, own used⟩) located.drop isThere innerAgrees

theorem conditional_follows (around : Around function targets)
    {params results types : List ValueType} {body : List Instr} {stmts rest : List Stmt}
    {falls isUsed : Bool} {label : Label} {outer : Position}
    (inside : Simulates machine module named slotNames function fuel
      (⟨⟨results, types ++ JumpTarget.floor targets⟩, label.number, isUsed⟩ :: targets)
      (.body body) params.reverse stmts falls results.reverse)
    (located : Located function.body stmts ((labelIf isUsed label ++ rest) :: outer))
    (behind : Located function.body (labelIf isUsed label ++ rest) outer)
    {frame : Source.Frame Value Store} {values below : List Value}
    (isRest : values.length = types.length)
    (height : below.length = (JumpTarget.floor targets).length) {config : C.Config Value Store}
    (isHere : config.position = stmts :: (labelIf isUsed label ++ rest) :: outer)
    (agrees : Agrees slotNames params.reverse (types ++ JumpTarget.floor targets) frame
      (values ++ below) config) :
    Follows machine named slotNames function targets below fuel config (falls || isUsed)
      (rest :: outer) (results.reverse ++ types)
      ((Source.instrs machine module fuel body frame).exit results.length values) := by
  rw [← List.append_nil stmts] at located isHere
  have own := seekIn_labelIf behind
  have follows := inside (around.cons fun used => ⟨_, own used⟩) located isHere agrees
  refine Follows.close around height isRest behind (follows.onward fun reached isThere => ?_)
  refine ⟨1, ?_⟩
  rw [C.Function.run, C.Function.advance, C.Function.step, isThere]
  rfl

theorem ifThen_simulates {head : BlockHead} {thenBody : List Instr} {types : List ValueType}
    {condition : Slot} {stmts : List Stmt} {falls isUsed : Bool} {label : Label}
    (isCondition : condition.IsAt
      (head.params.reverse ++ types ++ JumpTarget.floor targets).length .i32)
    (inside : Simulates machine module named slotNames function fuel
      (⟨⟨head.results, types ++ JumpTarget.floor targets⟩, label.number, isUsed⟩ :: targets)
      (.body thenBody) head.params.reverse stmts falls head.results.reverse)
    (same : head.params = head.results) :
    Simulates machine module named slotNames function fuel targets
      (.instr (.ifElse head thenBody [])) (.i32 :: head.params.reverse ++ types)
      (.ifThen condition stmts :: labelIf isUsed label) true (head.results.reverse ++ types) := by
  intro around rest outer frame below config located isHere agrees
  rw [List.cons_append] at located isHere
  rcases agrees.top with ⟨value, others, isStack, holds, lower⟩
  rcases lower.enter with ⟨enough, isRest, entered⟩
  have step : function.run machine named 1 (.going config) = _ := run_stmt isHere
  rw [C.Function.runStmt, holds condition isCondition] at step
  rw [Source.code, Source.instr, isStack]
  dsimp only
  rw [Source.enter, if_pos enough]
  refine Follows.mono (Nat.le_add_left fuel 1) (Follows.prepend step ?_)
  split
  · refine Follows.weaken (fun _ => rfl) (conditional_follows around inside located.thenOnly
      located.tail isRest agrees.height rfl (entered.moved _))
  · refine Follows.weaken (fun _ => rfl) (Follows.close around agrees.height isRest located.tail
      (?_ : Follows _ _ _ _ _ _ _ _ true _ _ (.falls _)))
    refine ⟨rfl, 0, _, rfl, rfl, ?_⟩
    rw [← same]
    exact entered.moved _

theorem ifThenElse_simulates {head : BlockHead} {thenBody elseBody : List Instr}
    {types : List ValueType} {condition : Slot} {thenStmts elseStmts : List Stmt}
    {thenFalls elseFalls isUsed : Bool} {label : Label}
    (isCondition : condition.IsAt
      (head.params.reverse ++ types ++ JumpTarget.floor targets).length .i32)
    (thenInside : Simulates machine module named slotNames function fuel
      (⟨⟨head.results, types ++ JumpTarget.floor targets⟩, label.number, isUsed⟩ :: targets)
      (.body thenBody) head.params.reverse thenStmts thenFalls head.results.reverse)
    (elseInside : Simulates machine module named slotNames function fuel
      (⟨⟨head.results, types ++ JumpTarget.floor targets⟩, label.number, isUsed⟩ :: targets)
      (.body elseBody) head.params.reverse elseStmts elseFalls head.results.reverse) :
    Simulates machine module named slotNames function fuel targets
      (.instr (.ifElse head thenBody elseBody)) (.i32 :: head.params.reverse ++ types)
      (.ifThenElse condition thenStmts elseStmts :: labelIf isUsed label)
      (thenFalls || elseFalls || isUsed) (head.results.reverse ++ types) := by
  intro around rest outer frame below config located isHere agrees
  rw [List.cons_append] at located isHere
  rcases agrees.top with ⟨value, others, isStack, holds, lower⟩
  rcases lower.enter with ⟨enough, isRest, entered⟩
  have step : function.run machine named 1 (.going config) = _ := run_stmt isHere
  rw [C.Function.runStmt, holds condition isCondition] at step
  rw [Source.code, Source.instr, isStack]
  dsimp only
  rw [Source.enter, if_pos enough]
  refine Follows.mono (Nat.le_add_left fuel 1) (Follows.prepend step ?_)
  split
  · refine Follows.weaken (fun canFall => ?_) (conditional_follows around thenInside
      located.thenBody located.tail isRest agrees.height rfl (entered.moved _))
    rw [Bool.or_assoc, Bool.or_left_comm, canFall, Bool.or_true]
  · refine Follows.weaken (fun canFall => ?_) (conditional_follows around elseInside
      located.elseBody located.tail isRest agrees.height rfl (entered.moved _))
    rw [Bool.or_assoc, canFall, Bool.or_true]

/-! ## Bodies -/

theorem nil_simulates {types : List ValueType} :
    Simulates machine module named slotNames function fuel targets (.body []) types [] true
      types := by
  intro _ rest outer frame below config _ isHere agrees
  rw [Source.code, Source.instrs_nil]
  exact ⟨rfl, 0, config, rfl, isHere, agrees⟩

theorem cons_simulates {instr : Instr} {rest : List Instr} {before middle after : List ValueType}
    {stmts others : List Stmt} {falls : Bool}
    (first : Simulates machine module named slotNames function fuel targets (.instr instr) before
      stmts true middle)
    (later : Simulates machine module named slotNames function fuel targets (.body rest) middle
      others falls after) :
    Simulates machine module named slotNames function fuel targets (.body (instr :: rest)) before
      (stmts ++ others) falls after := by
  intro around remaining outer frame below config located isHere agrees
  rw [List.append_assoc] at located isHere
  rw [Source.code, Source.instrs]
  refine (first around located isHere agrees).andThen fun next reached isThere nextAgrees => ?_
  exact later around located.drop isThere nextAgrees

theorem stop_simulates {instr : Instr} {rest : List Instr} {before middle after : List ValueType}
    {stmts : List Stmt}
    (first : Simulates machine module named slotNames function fuel targets (.instr instr) before
      stmts false middle) :
    Simulates machine module named slotNames function fuel targets (.body (instr :: rest)) before
      stmts false after := by
  intro around remaining outer frame below config located isHere agrees
  rw [Source.code, Source.instrs]
  exact (first around located isHere agrees).stops _

theorem Emits.simulates {code : Code} {before after : List ValueType} {stmts : List Stmt}
    {falls : Bool} (nodup : slotNames.Nodup)
    (emits : Emits module named slotNames targets code before stmts falls after) :
    Simulates machine module named slotNames function fuel targets code before stmts falls
      after := by
  induction emits with
  | nil => exact nil_simulates
  | cons _ _ first later => exact cons_simulates first later
  | stop _ first => exact stop_simulates first
  | apply applies effect areArguments isTarget =>
      exact apply_simulates applies effect areArguments isTarget
  | nop => exact nop_simulates
  | drop => exact drop_simulates
  | select isFirst isSecond isCondition => exact select_simulates isFirst isSecond isCondition
  | const isSlot => exact const_simulates isSlot
  | localGet isName isSlot => exact localGet_simulates isName isSlot
  | localSet isName isSlot => exact localSet_simulates nodup isName isSlot
  | localTee isName isSlot => exact localTee_simulates nodup isName isSlot
  | block _ inside => exact block_simulates inside
  | loop _ inside => exact loop_simulates inside
  | ifThen isCondition _ same inside => exact ifThen_simulates isCondition inside same
  | ifThenElse isCondition _ _ thenInside elseInside =>
      exact ifThenElse_simulates isCondition thenInside elseInside
  | br isTarget jumps => exact br_simulates isTarget jumps
  | brIf isTarget isCondition jumps => exact brIf_simulates isTarget isCondition jumps
  | brTable isPosition areTargets => exact brTable_simulates isPosition areTargets
  | leave isTarget jumps => exact leave_simulates isTarget jumps
  | unreachable => exact unreachable_simulates

end Emission

end WasmLowering
