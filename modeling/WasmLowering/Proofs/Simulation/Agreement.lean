import WasmLowering.Proofs.Semantics.Source
import WasmLowering.Proofs.Simulation.Runs
import WasmLowering.Proofs.Simulation.Slots

/-! What the two sides have in common while code runs, and when code ends. -/

namespace WasmLowering.Emission

open C (Position Label Located)

variable {Value Store Trap : Type}

/-- The slots hold the operands of the innermost construct and what is below it;
places hold the parameters and locals; and the worlds are the same. -/
structure Agrees (slotNames : List String) (types floor : List ValueType)
    (frame : Source.Frame Value Store) (below : List Value) (config : C.Config Value Store) :
    Prop where
  holds : C.Holds config.slots (types ++ floor) (frame.stack ++ below)
  height : below.length = floor.length
  locals : frame.locals = slotNames.map config.places
  world : frame.world = config.world

namespace Agrees

variable {slotNames : List String} {types floor : List ValueType}
  {frame : Source.Frame Value Store} {below : List Value} {config : C.Config Value Store}

theorem stackLength (agrees : Agrees slotNames types floor frame below config) :
    frame.stack.length = types.length := by
  have total := agrees.holds.length_eq
  rw [List.length_append, List.length_append, agrees.height] at total
  exact Nat.add_right_cancel total

theorem moved (agrees : Agrees slotNames types floor frame below config) (position : Position) :
    Agrees slotNames types floor frame below { config with position } :=
  ⟨agrees.holds, agrees.height, agrees.locals, agrees.world⟩

theorem top {type : ValueType}
    (agrees : Agrees slotNames (type :: types) floor frame below config) :
    ∃ value rest, frame.stack = value :: rest ∧
      C.HoldsAt config.slots (types ++ floor).length type value ∧
      Agrees slotNames types floor { frame with stack := rest } below config := by
  rcases isStack : frame.stack with _ | ⟨value, rest⟩
  · have length := agrees.stackLength
    rw [isStack] at length
    cases length
  · have holds := agrees.holds
    rw [isStack] at holds
    rcases holds with _ | ⟨isTop, isBelow⟩
    exact ⟨value, rest, rfl, isTop, isBelow, agrees.height, agrees.locals, agrees.world⟩

theorem row {params : List ValueType}
    (agrees : Agrees slotNames (params.reverse ++ types) floor frame below config) :
    ∃ values rest, frame.stack = values.reverse ++ rest ∧ values.length = params.length ∧
      C.HoldsRow config.slots (types ++ floor).length params values ∧
      Agrees slotNames types floor { frame with stack := rest } below config := by
  have holds := agrees.holds
  rw [List.append_assoc] at holds
  rcases holds.split with ⟨values, others, isStack, isRow, isBelow⟩
  have counts := isRow.length_eq
  have length := agrees.stackLength
  rw [List.length_append, List.length_reverse] at length
  -- The row is within the stack, as it is no longer.
  have isRest : frame.stack = values.reverse ++ frame.stack.drop values.length := by
    have taken := congrArg (List.take values.reverse.length) isStack
    rw [List.take_left, List.length_reverse, List.take_append_of_le_length (by omega)] at taken
    rw [← taken, List.take_append_drop]
  refine ⟨values, frame.stack.drop values.length, isRest, counts, isRow, ?_, agrees.height,
    agrees.locals, agrees.world⟩
  rw [isRest, List.append_assoc, List.append_cancel_left_eq] at isStack
  exact isStack ▸ isBelow

theorem push (agrees : Agrees slotNames types floor frame below config) {type : ValueType}
    {slot : C.Slot} (isSlot : slot.IsAt (types ++ floor).length type) (value : Value) :
    Agrees slotNames (type :: types) floor { frame with stack := value :: frame.stack } below
      { config with slots := Function.update config.slots slot value } :=
  ⟨agrees.holds.push isSlot value, agrees.height, agrees.locals, agrees.world⟩

theorem setPlace (agrees : Agrees slotNames types floor frame below config)
    (nodup : slotNames.Nodup) {place : Nat} {name : String}
    (isName : slotNames[place]? = some name) (value : Value) :
    Agrees slotNames types floor { frame with locals := frame.locals.set place value } below
      { config with places := Function.update config.places name value } := by
  refine ⟨agrees.holds, agrees.height, ?_, agrees.world⟩
  rcases List.getElem?_eq_some_iff.mp isName with ⟨inside, rfl⟩
  show frame.locals.set place value = slotNames.map (Function.update config.places _ value)
  rw [nodup.map_update, if_pos (List.getElem_mem inside), nodup.idxOf_getElem, agrees.locals]

theorem enter {params : List ValueType}
    (agrees : Agrees slotNames (params.reverse ++ types) floor frame below config) :
    params.length ≤ frame.stack.length ∧
      (frame.stack.drop params.length).length = types.length ∧
      Agrees slotNames params.reverse (types ++ floor)
        { frame with stack := frame.stack.take params.length }
        (frame.stack.drop params.length ++ below) config := by
  have length := agrees.stackLength
  rw [List.length_append, List.length_reverse] at length
  have rest : (frame.stack.drop params.length).length = types.length := by
    rw [List.length_drop]
    omega
  refine ⟨by omega, rest, ?_, ?_, agrees.locals, agrees.world⟩
  · rw [← List.append_assoc, ← List.append_assoc, List.take_append_drop]
    exact agrees.holds
  · rw [List.length_append, List.length_append, rest, agrees.height]

theorem exit {lower : List ValueType} {rest : List Value}
    (agrees : Agrees slotNames types (lower ++ floor) frame (rest ++ below) config)
    (isRest : rest.length = lower.length) :
    Agrees slotNames (types ++ lower) floor { frame with stack := frame.stack ++ rest } below
      config := by
  refine ⟨?_, ?_, agrees.locals, agrees.world⟩
  · rw [List.append_assoc, List.append_assoc]
    exact agrees.holds
  · have height := agrees.height
    rw [List.length_append, List.length_append, isRest] at height
    exact Nat.add_left_cancel height

end Agrees

/-! ## How code ends -/

structure Around (function : C.Function) (targets : List JumpTarget) : Prop where
  nonempty : targets ≠ []
  /-- The constructs around begin further down. -/
  lower : ∀ target ∈ targets, target.type.below <:+ JumpTarget.floor targets
  /-- The labels that are used are in the body. -/
  found : ∀ target ∈ targets, target.isUsed = true →
    ∃ position, C.seekIn target.number function.body = some position

theorem Around.cons {function : C.Function} {targets : List JumpTarget}
    (around : Around function targets) {carried below : List ValueType} {number : Nat}
    {isUsed : Bool}
    (found : isUsed = true → ∃ position, C.seekIn number function.body = some position) :
    Around function
      (⟨⟨carried, below ++ JumpTarget.floor targets⟩, number, isUsed⟩ :: targets) := by
  refine ⟨List.cons_ne_nil _ _, fun target member => ?_, fun target member => ?_⟩
  · rcases List.mem_cons.mp member with rfl | member
    · exact List.suffix_refl _
    · exact (around.lower target member).trans (List.suffix_append _ _)
  · rcases List.mem_cons.mp member with rfl | member
    · exact found
    · exact around.found target member

section

variable (machine : Machine Value Store Trap) (named : Module) (slotNames : List String)
  (function : C.Function)

/-- After some steps, of which there is at least one, a jump to a target has been made
with what it carries. -/
structure Arrives (below : List Value) (config : C.Config Value Store)
    (frame : Source.Frame Value Store) (target : JumpTarget) : Prop where
  isUsed : target.isUsed = true
  jump : ∃ count reached lower, 0 < count ∧
    function.run machine named count (.going config) = .going reached ∧
    C.seekIn target.number function.body = some reached.position ∧ lower <:+ below ∧
    Agrees slotNames target.type.carried.reverse target.type.below
      { frame with stack := frame.stack.take target.type.carried.length } lower reached

/-- What statements do from a configuration on is what code does. Where code has not
ended, some number of steps has been taken and the statements have not ended either. -/
def Follows (targets : List JumpTarget) (below : List Value) (least : Nat)
    (config : C.Config Value Store) (falls : Bool) (next : Position) (after : List ValueType) :
    Source.Result Value Store Trap → Prop
  | .falls frame => falls = true ∧ ∃ count reached,
      function.run machine named count (.going config) = .going reached ∧
      reached.position = next ∧
      Agrees slotNames after (JumpTarget.floor targets) frame below reached
  | .branch depth frame => ∃ target, targets[depth]? = some target ∧
      Arrives machine named slotNames function below config frame target
  | .leave frame => ∃ target, targets.getLast? = some target ∧
      Arrives machine named slotNames function below config frame target
  | .trapped cause world => ∃ count,
      function.run machine named count (.going config) = .ended (.trapped cause world)
  | .unfinished world => ∃ count, least ≤ count ∧
      (function.run machine named count (.going config)).pending? = some world
  | .stuck => False

end

variable {machine : Machine Value Store Trap} {named : Module} {slotNames : List String}
  {function : C.Function}

theorem Arrives.prepend {below : List Value} {config reached : C.Config Value Store}
    {frame : Source.Frame Value Store} {target : JumpTarget} {count : Nat}
    (run : function.run machine named count (.going config) = .going reached)
    (arrives : Arrives machine named slotNames function below reached frame target) :
    Arrives machine named slotNames function below config frame target := by
  rcases arrives with ⟨isUsed, later, last, lower, positive, laterRun, known⟩
  refine ⟨isUsed, count + later, last, lower, by omega, ?_, known⟩
  rw [C.Function.run_add, run, laterRun]

namespace Follows

variable {targets : List JumpTarget} {below : List Value} {least : Nat}
  {config : C.Config Value Store} {falls : Bool} {next : Position} {after : List ValueType}
  {result : Source.Result Value Store Trap}

theorem prepend {reached : C.Config Value Store} {count : Nat}
    (run : function.run machine named count (.going config) = .going reached)
    (follows : Follows machine named slotNames function targets below least reached falls next after
      result) :
    Follows machine named slotNames function targets below (count + least) config falls next after
      result := by
  cases result with
  | falls frame =>
      rcases follows with ⟨canFall, later, last, laterRun, known⟩
      refine ⟨canFall, count + later, last, ?_, known⟩
      rw [C.Function.run_add, run, laterRun]
  | branch depth frame =>
      rcases follows with ⟨target, isTarget, arrives⟩
      exact ⟨target, isTarget, arrives.prepend run⟩
  | leave frame =>
      rcases follows with ⟨target, isTarget, arrives⟩
      exact ⟨target, isTarget, arrives.prepend run⟩
  | trapped cause world =>
      rcases follows with ⟨later, ends⟩
      refine ⟨count + later, ?_⟩
      rw [C.Function.run_add, run, ends]
  | unfinished world =>
      rcases follows with ⟨later, enough, pending⟩
      refine ⟨count + later, Nat.add_le_add_left enough count, ?_⟩
      rw [C.Function.run_add, run, pending]
  | stuck => exact follows

theorem mono {fewer : Nat} (less : fewer ≤ least)
    (follows : Follows machine named slotNames function targets below least config falls next after
      result) :
    Follows machine named slotNames function targets below fewer config falls next after
      result := by
  cases result with
  | unfinished world =>
      rcases follows with ⟨count, enough, pending⟩
      exact ⟨count, Nat.le_trans less enough, pending⟩
  | _ => exact follows

theorem weaken {more : Bool} (implies : falls = true → more = true)
    (follows : Follows machine named slotNames function targets below least config falls next after
      result) :
    Follows machine named slotNames function targets below least config more next after result := by
  cases result with
  | falls frame => exact ⟨implies follows.1, follows.2⟩
  | _ => exact follows

theorem onward {further : Position}
    (follows : Follows machine named slotNames function targets below least config falls next after
      result)
    (more : ∀ reached : C.Config Value Store, reached.position = next →
      ∃ count, function.run machine named count (.going reached) =
        .going { reached with position := further }) :
    Follows machine named slotNames function targets below least config falls further after
      result := by
  cases result with
  | falls frame =>
      rcases follows with ⟨canFall, count, reached, run, isThere, agrees⟩
      rcases more reached isThere with ⟨later, laterRun⟩
      refine ⟨canFall, count + later, _, ?_, rfl, agrees.moved further⟩
      rw [C.Function.run_add, run, laterRun]
  | _ => exact follows

theorem andThen {middle : List ValueType} {between : Position}
    {rest : Source.Frame Value Store → Source.Result Value Store Trap}
    (first : Follows machine named slotNames function targets below least config true between middle
      result)
    (later : ∀ frame reached, reached.position = between →
      Agrees slotNames middle (JumpTarget.floor targets) frame below reached →
      Follows machine named slotNames function targets below least reached falls next after
        (rest frame)) :
    Follows machine named slotNames function targets below least config falls next after
      (result.andThen rest) := by
  cases result with
  | falls frame =>
      rcases first with ⟨_, count, reached, run, isThere, agrees⟩
      exact ((later frame reached isThere agrees).prepend run).mono (Nat.le_add_left _ _)
  | _ => exact first

theorem stops {middle : List ValueType} {between : Position}
    (first : Follows machine named slotNames function targets below least config false between
      middle result) (rest : Source.Frame Value Store → Source.Result Value Store Trap) :
    Follows machine named slotNames function targets below least config falls next after
      (result.andThen rest) := by
  cases result with
  | falls frame => cases first.1
  | _ => exact first

end Follows

/-! ## Constructs -/

/-- What is below a target further out is below the construct that is left. -/
theorem Arrives.outward {targets : List JumpTarget} (around : Around function targets)
    {rest below : List Value} (height : below.length = (JumpTarget.floor targets).length)
    {config : C.Config Value Store} {frame : Source.Frame Value Store} {target : JumpTarget}
    (member : target ∈ targets)
    (arrives : Arrives machine named slotNames function (rest ++ below) config frame target) :
    Arrives machine named slotNames function below config frame target := by
  rcases arrives with ⟨isUsed, count, reached, lower, positive, run, isThere, isLower, agrees⟩
  refine ⟨isUsed, count, reached, lower, positive, run, isThere, ?_, agrees⟩
  refine List.suffix_of_suffix_length_le isLower (List.suffix_append rest below) ?_
  rw [agrees.height, height]
  exact (around.lower target member).length_le

namespace Follows

variable {targets : List JumpTarget} {below rest : List Value} {least : Nat}
  {config : C.Config Value Store} {falls : Bool} {types lower : List ValueType}
  {result : Source.Result Value Store Trap} {own : JumpTarget}

theorem outward {next : Position} (around : Around function targets)
    (height : below.length = (JumpTarget.floor targets).length)
    (isOwn : own.type.below = lower ++ JumpTarget.floor targets)
    (isRest : rest.length = lower.length)
    (inside : Follows machine named slotNames function (own :: targets) (rest ++ below) least config
      falls next types result)
    (others : ∀ frame, result ≠ .branch 0 frame) (count : Nat) :
    Follows machine named slotNames function targets below least config falls next (types ++ lower)
      (result.exit count rest) := by
  cases result with
  | falls frame =>
      rcases inside with ⟨canFall, steps, reached, run, isThere, agrees⟩
      have floor : JumpTarget.floor (own :: targets) = lower ++ JumpTarget.floor targets := isOwn
      rw [floor] at agrees
      exact ⟨canFall, steps, reached, run, isThere, agrees.exit isRest⟩
  | branch depth frame =>
      cases depth with
      | zero => exact absurd rfl (others frame)
      | succ depth =>
          rcases inside with ⟨target, isTarget, arrives⟩
          rw [List.getElem?_cons_succ] at isTarget
          exact ⟨target, isTarget, arrives.outward around height (List.mem_of_getElem? isTarget)⟩
  | leave frame =>
      rcases inside with ⟨target, isTarget, arrives⟩
      rw [List.getLast?_cons_of_ne_nil around.nonempty] at isTarget
      exact ⟨target, isTarget, arrives.outward around height (List.mem_of_getLast? isTarget)⟩
  | trapped cause world => exact inside
  | unfinished world => exact inside
  | stuck => exact inside

end Follows

/-! ## Labels -/

theorem seekIn_labelIf {isUsed : Bool} {label : Label} {rest : List C.Stmt} {outer : Position}
    (located : Located function.body (labelIf isUsed label ++ rest) outer) (used : isUsed = true) :
    C.seekIn label.number function.body = some (rest :: outer) := by
  subst used
  exact located.label

theorem run_labelIf (machine : Machine Value Store Trap) {isUsed : Bool} {label : Label}
    {rest : List C.Stmt} {outer : Position} {config : C.Config Value Store}
    (isHere : config.position = (labelIf isUsed label ++ rest) :: outer) :
    ∃ count, function.run machine named count (.going config) =
      .going { config with position := rest :: outer } := by
  cases isUsed with
  | false =>
      refine ⟨0, ?_⟩
      rw [C.Function.run, ← show config.position = rest :: outer from isHere]
  | true =>
      refine ⟨1, ?_⟩
      rw [C.Function.run, C.Function.advance, C.Function.step, isHere]
      rfl

/-- A branch to the label of a construct arrives with the stack as it was below it. -/
theorem Arrives.own {below : List Value} {config : C.Config Value Store}
    {frame : Source.Frame Value Store} {target : JumpTarget}
    (height : below.length = target.type.below.length)
    (arrives : Arrives machine named slotNames function below config frame target) {next : Position}
    (found : target.isUsed = true → C.seekIn target.number function.body = some next) :
    ∃ count reached, 0 < count ∧
      function.run machine named count (.going config) = .going reached ∧
      reached.position = next ∧ Agrees slotNames target.type.carried.reverse target.type.below
        { frame with stack := frame.stack.take target.type.carried.length } below reached := by
  rcases arrives with ⟨isUsed, count, reached, lower, positive, run, isThere, isLower, agrees⟩
  have isNext : reached.position = next :=
    Option.some.inj (isThere.symm.trans (found isUsed))
  have same : lower = below := isLower.eq_of_length (agrees.height.trans height.symm)
  exact ⟨count, reached, positive, run, isNext, same ▸ agrees⟩

theorem Follows.close {targets : List JumpTarget} (around : Around function targets)
    {below rest : List Value} (height : below.length = (JumpTarget.floor targets).length)
    {carried lower : List ValueType} (isRest : rest.length = lower.length) {isUsed : Bool}
    {label : Label} {stmts : List C.Stmt} {outer : Position}
    (located : Located function.body (labelIf isUsed label ++ stmts) outer) {least : Nat}
    {config : C.Config Value Store} {falls : Bool} {result : Source.Result Value Store Trap}
    (inside : Follows machine named slotNames function
      (⟨⟨carried, lower ++ JumpTarget.floor targets⟩, label.number, isUsed⟩ :: targets)
      (rest ++ below) least config falls ((labelIf isUsed label ++ stmts) :: outer) carried.reverse
      result) :
    Follows machine named slotNames function targets below least config (falls || isUsed)
      (stmts :: outer) (carried.reverse ++ lower) (result.exit carried.length rest) := by
  by_cases branches : ∃ frame, result = .branch 0 frame
  · rcases branches with ⟨frame, rfl⟩
    rcases inside with ⟨target, isTarget, arrives⟩
    cases isTarget
    have heights : (rest ++ below).length = (lower ++ JumpTarget.floor targets).length := by
      rw [List.length_append, List.length_append, isRest, height]
    have used : isUsed = true := arrives.isUsed
    rcases arrives.own heights (seekIn_labelIf located) with
      ⟨count, reached, _, run, isThere, agrees⟩
    refine ⟨by rw [used, Bool.or_true], count, reached, run, isThere, ?_⟩
    exact agrees.exit isRest
  · have left := inside.outward around height rfl isRest
      (fun frame isBranch => branches ⟨frame, isBranch⟩) carried.length
    refine (left.onward fun reached isThere => run_labelIf machine isThere).weaken fun canFall => ?_
    rw [canFall, Bool.true_or]

end WasmLowering.Emission
