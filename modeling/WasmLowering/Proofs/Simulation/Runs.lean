import WasmLowering.Proofs.Lowering.Emitted

/-! Runs of C functions: where jumps lead, and what more steps can change. -/

namespace WasmLowering.C

/-! ## Labels -/

mutual

theorem Stmt.mem_labels_of_seek {number : Nat} (stmt : Stmt) {position : Position}
    (found : stmt.seek number = some position) : number ∈ stmt.labels := by
  cases stmt with
  | label label =>
      rw [Stmt.seek] at found
      split at found
      · next same => exact List.mem_singleton.mpr same.symm
      · cases found
  | ifThen condition body => exact mem_labelsOf_of_seekIn body found
  | ifThenElse condition thenBody elseBody =>
      rw [Stmt.seek] at found
      split at found
      · next isFound => exact List.mem_append_left _ (mem_labelsOf_of_seekIn thenBody isFound)
      · exact List.mem_append_right _ (mem_labelsOf_of_seekIn elseBody found)
  | _ => cases found

theorem mem_labelsOf_of_seekIn {number : Nat} (stmts : List Stmt) {position : Position}
    (found : seekIn number stmts = some position) : number ∈ labelsOf stmts := by
  cases stmts with
  | nil => cases found
  | cons stmt rest =>
      rw [seekIn] at found
      split at found
      · next isFound => exact List.mem_append_left _ (stmt.mem_labels_of_seek isFound)
      · exact List.mem_append_right _ (mem_labelsOf_of_seekIn rest found)

end

/-- A list of statements is somewhere in a body, with a position behind it: what is
found in it is found in the body. -/
structure Located (whole list : List Stmt) (outer : Position) : Prop where
  nodup : (labelsOf list).Nodup
  found : ∀ number position, seekIn number list = some position →
    seekIn number whole = some (position ++ outer)

namespace Located

variable {whole rest : List Stmt} {outer : Position}

theorem whole_body {body : List Stmt} (nodup : (labelsOf body).Nodup) : Located body body [] :=
  ⟨nodup, fun _ position found => by rw [found, List.append_nil]⟩

/-- A statement in which a label is not is skipped by the search for it. -/
theorem tail {stmt : Stmt} (located : Located whole (stmt :: rest) outer) :
    Located whole rest outer := by
  have parts := List.nodup_append.mp located.nodup
  refine ⟨parts.2.1, fun number position found => located.found number position ?_⟩
  have isNone : stmt.seek number = none := by
    rcases isFound : stmt.seek number with _ | other
    · rfl
    · exact absurd rfl (parts.2.2 number (stmt.mem_labels_of_seek isFound) number
        (mem_labelsOf_of_seekIn rest found))
  rw [seekIn, isNone]
  exact found

theorem drop {stmts : List Stmt} (located : Located whole (stmts ++ rest) outer) :
    Located whole rest outer := by
  induction stmts with
  | nil => exact located
  | cons stmt stmts induction => exact induction located.tail

theorem label {label : Label} (located : Located whole (.label label :: rest) outer) :
    seekIn label.number whole = some (rest :: outer) := by
  refine located.found label.number [rest] ?_
  rw [seekIn, Stmt.seek, if_pos rfl]
  rfl

/-- What is found in a part of a statement is found in the statement. -/
theorem part {stmt : Stmt} {body : List Stmt} (located : Located whole (stmt :: rest) outer)
    (nodup : (labelsOf body).Nodup)
    (found : ∀ number position, seekIn number body = some position →
      stmt.seek number = some position) : Located whole body (rest :: outer) := by
  refine ⟨nodup, fun number position isFound => ?_⟩
  have inside : seekIn number (stmt :: rest) = some (position ++ [rest]) := by
    rw [seekIn, found number position isFound]
  rw [located.found number _ inside, List.append_assoc, List.singleton_append]

theorem thenOnly {condition : Slot} {body : List Stmt}
    (located : Located whole (.ifThen condition body :: rest) outer) :
    Located whole body (rest :: outer) :=
  located.part (List.nodup_append.mp located.nodup).1 fun _ _ found => found

theorem thenBody {condition : Slot} {thenBody elseBody : List Stmt}
    (located : Located whole (.ifThenElse condition thenBody elseBody :: rest) outer) :
    Located whole thenBody (rest :: outer) := by
  have nodup := (List.nodup_append.mp located.nodup).1
  refine located.part (List.nodup_append.mp nodup).1 fun number position found => ?_
  rw [Stmt.seek, found]

theorem elseBody {condition : Slot} {thenBody elseBody : List Stmt}
    (located : Located whole (.ifThenElse condition thenBody elseBody :: rest) outer) :
    Located whole elseBody (rest :: outer) := by
  have parts := List.nodup_append.mp (List.nodup_append.mp located.nodup).1
  refine located.part parts.2.1 fun number position found => ?_
  have isNone : seekIn number thenBody = none := by
    rcases isFound : seekIn number thenBody with _ | other
    · rfl
    · exact absurd rfl (parts.2.2 number (mem_labelsOf_of_seekIn thenBody isFound) number
        (mem_labelsOf_of_seekIn elseBody found))
  rw [Stmt.seek, isNone]
  exact found

end Located

/-! ## Steps -/

namespace Function

variable {Value Store Trap : Type} (machine : Machine Value Store Trap) (module : Module)
  (function : Function)

theorem run_add (first second : Nat) (progress : Progress Value Store Trap) :
    function.run machine module (first + second) progress =
      function.run machine module second (function.run machine module first progress) := by
  induction first generalizing progress with
  | zero => rw [Nat.zero_add, run]
  | succ first induction => rw [Nat.succ_add, run, run, induction]

theorem run_of_advance {progress : Progress Value Store Trap}
    (stays : function.advance machine module progress = progress) (count : Nat) :
    function.run machine module count progress = progress := by
  induction count with
  | zero => rfl
  | succ count induction => rw [run, stays, induction]

variable {machine module function}

theorem run_ended {first second : Nat} {progress : Progress Value Store Trap}
    {outcome : Outcome Value Store Trap}
    (ends : function.run machine module first progress = .ended outcome) (later : first ≤ second) :
    function.run machine module second progress = .ended outcome := by
  rw [← Nat.add_sub_cancel' later, run_add, ends]
  exact run_of_advance machine module function rfl _

theorem ended_unique {first second : Nat} {progress : Progress Value Store Trap}
    {outcome other : Outcome Value Store Trap}
    (ends : function.run machine module first progress = .ended outcome)
    (endsToo : function.run machine module second progress = .ended other) : outcome = other := by
  have firstEnds := run_ended ends (Nat.le_add_right first second)
  have secondEnds := run_ended endsToo (Nat.le_add_left second first)
  exact Progress.ended.inj (firstEnds.symm.trans secondEnds)

/-! ## What is observed on the way -/

theorem jumpFrom_history {config : Config Value Store} {jump : Jump} {world : World Value Store}
    (pending : (function.jumpFrom config jump : Progress Value Store Trap).pending? = some world) :
    config.world.history <:+ world.history := by
  unfold jumpFrom at pending
  split at pending
  · cases pending
    exact List.suffix_refl _
  · cases pending

theorem perform_history {config : Config Value Store} {effect : Effect} {next : Position}
    {world : World Value Store}
    (pending : (perform machine config effect next).pending? = some world) :
    config.world.history <:+ world.history := by
  unfold perform at pending
  dsimp only at pending
  split at pending
  · cases pending
    exact List.suffix_cons _ _
  · cases pending
  · cases pending
    exact List.suffix_cons _ _

/-- A statement adds to the operations so far, or leaves them as they are. -/
theorem runStmt_history {config : Config Value Store} {next : Position} {stmt : Stmt}
    {world : World Value Store}
    (pending : (function.runStmt machine module config next stmt).pending? = some world) :
    config.world.history <:+ world.history := by
  unfold runStmt at pending
  split at pending
  -- A trap ends the run; jumps and conditions leave the world as it is.
  case h_5 => cases pending
  case h_6 | h_8 => exact jumpFrom_history pending
  case h_7 =>
    split at pending
    · exact jumpFrom_history pending
    · cases pending
      exact List.suffix_refl _
  case h_12 =>
    split at pending
    · exact perform_history pending
    · cases pending
  all_goals
    cases pending
    exact List.suffix_refl _

theorem step_history {config : Config Value Store} {world : World Value Store}
    (pending : (function.step machine module config).pending? = some world) :
    config.world.history <:+ world.history := by
  unfold step at pending
  split at pending
  · cases pending
  · cases pending
    exact List.suffix_refl _
  · exact runStmt_history pending

theorem advance_history {progress : Progress Value Store Trap} {world later : World Value Store}
    (before : progress.pending? = some world)
    (after : (function.advance machine module progress).pending? = some later) :
    world.history <:+ later.history := by
  cases progress with
  | going config =>
      cases before
      exact step_history after
  | hanging =>
      cases before
      cases after
      exact List.suffix_refl _
  | ended => cases before
  | stuck => cases before

theorem advance_pending {progress : Progress Value Store Trap} {later : World Value Store}
    (after : (function.advance machine module progress).pending? = some later) :
    ∃ world, progress.pending? = some world := by
  cases progress with
  | going config => exact ⟨_, rfl⟩
  | hanging world => exact ⟨world, rfl⟩
  | ended => cases after
  | stuck => cases after

theorem run_pending {count : Nat} {progress : Progress Value Store Trap}
    {later : World Value Store}
    (after : (function.run machine module count progress).pending? = some later) :
    ∃ world, progress.pending? = some world := by
  induction count generalizing progress with
  | zero => exact ⟨later, after⟩
  | succ count induction =>
      rcases induction after with ⟨middle, between⟩
      exact advance_pending between

theorem run_history {count : Nat} {progress : Progress Value Store Trap}
    {world later : World Value Store} (before : progress.pending? = some world)
    (after : (function.run machine module count progress).pending? = some later) :
    world.history <:+ later.history := by
  induction count generalizing progress world with
  | zero =>
      rw [run, before] at after
      cases after
      exact List.suffix_refl _
  | succ count induction =>
      rw [run] at after
      rcases run_pending after with ⟨middle, between⟩
      exact (advance_history before between).trans (induction between after)

end Function

end WasmLowering.C
