import WasmLowering.Instr.Traversal

/-! The ways through a body agree.

`events` and `inspect` are separate recursions. Both meet the instructions of a body in
the same order, and a callback that answers `false` leaves out what is inside the
instruction and nothing else. That the events are nested is said with a walker, which
follows them with a stack of open constructs: there is always only one event that it can
follow. -/

namespace WasmLowering

namespace Instr

/-! ## Bodies within bodies -/

theorem sizeOf_bodies_lt {instr : Instr} {body : List Instr} (member : body ∈ instr.bodies) :
    sizeOf body < sizeOf instr := by
  cases instr with
  | block | loop =>
      rw [List.mem_singleton.mp member]
      simp only [block.sizeOf_spec, loop.sizeOf_spec]
      omega
  | ifElse head thenBody elseBody =>
      rw [ifElse.sizeOf_spec]
      rcases List.mem_cons.mp member with rfl | member
      · omega
      · rw [List.mem_singleton.mp member]
        omega
  | tryCatch head first catches =>
      rw [tryCatch.sizeOf_spec]
      rcases List.mem_cons.mp member with rfl | member
      · omega
      · rcases List.mem_map.mp member with ⟨⟨tag, inner⟩, isHandler, rfl⟩
        have inList := List.sizeOf_lt_of_mem isHandler
        rw [Catch.handler.sizeOf_spec] at inList
        rw [Catch.body]
        omega
  | _ => cases member

/-- What holds of a body if it holds of the bodies in its first instruction and of the rest
holds of all bodies. -/
theorem body_induction {holds : List Instr → Prop} (nil : holds [])
    (cons : ∀ instr rest, (∀ body ∈ instr.bodies, holds body) → holds rest →
      holds (instr :: rest)) : ∀ body, holds body
  | [] => nil
  | instr :: rest =>
      cons instr rest (fun body _ => body_induction nil cons body) (body_induction nil cons rest)
termination_by body => sizeOf body
decreasing_by
  · have smaller := sizeOf_bodies_lt ‹_›
    rw [List.cons.sizeOf_spec]
    omega
  · rw [List.cons.sizeOf_spec]
    omega

/-- What is in the bodies of an instruction, at any depth. -/
def descendants (instr : Instr) : List Instr :=
  instr.bodies.flatMap (visitedOfList fun _ => true)

/-! ## Arms

A structured instruction has a first arm, which its beginning announces, and then others
that are announced one by one. -/

def firstArm : Instr → List Instr
  | .block _ body | .loop _ body | .ifElse _ body _ | .tryCatch _ body _ => body
  | _ => []

def laterArms : Instr → List (Event × List Instr)
  | .ifElse _ _ elseBody => [(.elseArm elseBody.length, elseBody)]
  | .tryCatch _ _ catches => catches.map fun handler => (.handler handler.tag, handler.body)
  | _ => []

theorem bodies_eq_arms {instr : Instr} {head : BlockHead} (isHead : instr.head? = some head) :
    instr.bodies = instr.firstArm :: instr.laterArms.map Prod.snd := by
  cases instr with
  | block | loop | ifElse | tryCatch => simp [bodies, firstArm, laterArms]
  | _ => cases isHead

theorem events_of_head?_eq_none {instr : Instr} (isPlain : instr.head? = none) :
    instr.events = [.plain instr] := by
  cases instr with
  | block | loop | ifElse | tryCatch => cases isPlain
  | _ => rw [events]; all_goals simp

theorem events_of_head?_eq_some {instr : Instr} {head : BlockHead}
    (isHead : instr.head? = some head) :
    instr.events = .enter instr head.label ::
      (eventsOfList instr.firstArm ++
        ((instr.laterArms.flatMap fun arm => arm.1 :: eventsOfList arm.2) ++
          [.leave instr head.label])) := by
  have handlers : ∀ catches : List Catch, Catch.eventsOfList catches =
      (catches.map fun handler => (Event.handler handler.tag, handler.body)).flatMap
        fun arm => arm.1 :: eventsOfList arm.2 := by
    intro catches
    induction catches with
    | nil => rfl
    | cons handler others induction =>
        cases handler
        simp [Catch.eventsOfList, Catch.events, Catch.tag, Catch.body, induction]
  cases instr with
  | block | loop | ifElse | tryCatch =>
      cases isHead
      simp [events, firstArm, laterArms, handlers]
  | _ => cases isHead

end Instr

open Instr (eventsOfList visitedOfList inspectOfList)

/-! ## Nested events -/

/-- A construct that was begun and not ended: the arms that were not announced yet, and
the instructions after it. -/
structure Construct where
  instr : Instr
  label : String
  arms : List (Event × List Instr)
  rest : List Instr

/-- The instructions that are left in an arm, and the constructs around it from the inside
out. -/
structure Walker where
  instrs : List Instr
  around : List Construct := []

namespace Walker

/-- An instruction is met in its turn. The next arm of a construct is announced when
nothing is left in the one before, and when no arm is left either the construct ends. Only
the innermost construct goes on. -/
inductive Step : Walker → Event → Walker → Prop where
  | plain {instr : Instr} {rest : List Instr} {around : List Construct}
      (isPlain : instr.head? = none) :
      Step ⟨instr :: rest, around⟩ (.plain instr) ⟨rest, around⟩
  | enter {instr : Instr} {head : BlockHead} {rest : List Instr} {around : List Construct}
      (isHead : instr.head? = some head) :
      Step ⟨instr :: rest, around⟩ (.enter instr head.label)
        ⟨instr.firstArm, ⟨instr, head.label, instr.laterArms, rest⟩ :: around⟩
  | announce {instr : Instr} {label : String} {event : Event} {body : List Instr}
      {arms : List (Event × List Instr)} {rest : List Instr} {around : List Construct} :
      Step ⟨[], ⟨instr, label, (event, body) :: arms, rest⟩ :: around⟩ event
        ⟨body, ⟨instr, label, arms, rest⟩ :: around⟩
  | leave {instr : Instr} {label : String} {rest : List Instr} {around : List Construct} :
      Step ⟨[], ⟨instr, label, [], rest⟩ :: around⟩ (.leave instr label) ⟨rest, around⟩

inductive Run : Walker → List Event → Walker → Prop where
  | done (walker : Walker) : Run walker [] walker
  | step {walker next last : Walker} {event : Event} {events : List Event}
      (first : Step walker event next) (others : Run next events last) :
      Run walker (event :: events) last

theorem Run.append {walker between last : Walker} {first second : List Event}
    (firstRun : Run walker first between) (secondRun : Run between second last) :
    Run walker (first ++ second) last := by
  induction firstRun with
  | done => exact secondRun
  | step first _ induction => exact .step first (induction secondRun)

theorem Step.unique {walker next other : Walker} {event otherEvent : Event}
    (step : Step walker event next) (otherStep : Step walker otherEvent other) :
    event = otherEvent ∧ next = other := by
  cases step with
  | plain isPlain =>
      cases otherStep with
      | plain => exact ⟨rfl, rfl⟩
      | enter isHead => cases isPlain.symm.trans isHead
  | enter isHead =>
      cases otherStep with
      | plain isPlain => cases isPlain.symm.trans isHead
      | enter isOther =>
          cases isHead.symm.trans isOther
          exact ⟨rfl, rfl⟩
  | announce => cases otherStep; exact ⟨rfl, rfl⟩
  | leave => cases otherStep; exact ⟨rfl, rfl⟩

/-- With nothing left and nothing open a walker has arrived, and there is one way to get
there. -/
theorem Run.unique {walker : Walker} {events others : List Event}
    (run : Run walker events ⟨[], []⟩) (otherRun : Run walker others ⟨[], []⟩) :
    others = events := by
  generalize isLast : (⟨[], []⟩ : Walker) = last at run
  induction run generalizing others with
  | done =>
      subst isLast
      cases otherRun with
      | done => rfl
      | step first _ => cases first
  | step first _ induction =>
      cases otherRun with
      | done => cases first
      | step otherFirst otherRest =>
          obtain ⟨rfl, rfl⟩ := first.unique otherFirst
          rw [induction otherRest isLast]

/-- What a walker that can follow each of some arms follows from the announcement of the
first to the end of the last. -/
theorem run_arms {instr : Instr} {label : String} {rest : List Instr} {around : List Construct}
    (arms : List (Event × List Instr))
    (bodies : ∀ body ∈ arms.map Prod.snd, ∀ around : List Construct,
      Run ⟨body, around⟩ (eventsOfList body) ⟨[], around⟩) :
    Run ⟨[], ⟨instr, label, arms, rest⟩ :: around⟩
      (arms.flatMap fun arm => arm.1 :: eventsOfList arm.2)
      ⟨[], ⟨instr, label, [], rest⟩ :: around⟩ := by
  induction arms with
  | nil => exact .done _
  | cons arm arms induction =>
      rw [List.map_cons, List.forall_mem_cons] at bodies
      exact .append (.step .announce (bodies.1 _)) (induction bodies.2)

theorem run_body (body : List Instr) : ∀ around : List Construct,
    Run ⟨body, around⟩ (eventsOfList body) ⟨[], around⟩ := by
  induction body using Instr.body_induction with
  | nil => exact fun around => .done _
  | cons instr rest bodies induction =>
      intro around
      cases isHead : instr.head? with
      | none =>
          rw [eventsOfList, Instr.events_of_head?_eq_none isHead]
          exact .step (.plain isHead) (induction around)
      | some head =>
          rw [Instr.bodies_eq_arms isHead, List.forall_mem_cons] at bodies
          rw [eventsOfList, Instr.events_of_head?_eq_some isHead]
          refine .append (.step (.enter isHead) ?_) (induction around)
          -- First what the beginning announces, then the other arms, and the end.
          exact .append (bodies.1 _) (.append (run_arms _ bodies.2) (.step .leave (.done _)))

end Walker

/-! ## Where instructions are met -/

def Event.instr? : Event → Option Instr
  | .enter instr _ | .plain instr => some instr
  | _ => none

theorem instr?_laterArms {instr : Instr} : ∀ arm ∈ instr.laterArms, arm.1.instr? = none := by
  intro arm member
  cases instr with
  | ifElse => rw [List.mem_singleton.mp member]; rfl
  | tryCatch =>
      rcases List.mem_map.mp member with ⟨handler, -, rfl⟩
      rfl
  | _ => cases member

theorem filterMap_arms (arms : List (Event × List Instr))
    (announced : ∀ arm ∈ arms, arm.1.instr? = none)
    (bodies : ∀ body ∈ arms.map Prod.snd,
      (eventsOfList body).filterMap Event.instr? = visitedOfList (fun _ => true) body) :
    (arms.flatMap fun arm => arm.1 :: eventsOfList arm.2).filterMap Event.instr? =
      (arms.map Prod.snd).flatMap (visitedOfList fun _ => true) := by
  induction arms with
  | nil => rfl
  | cons arm arms induction =>
      rw [List.forall_mem_cons] at announced
      rw [List.map_cons, List.forall_mem_cons] at bodies
      rw [List.flatMap_cons, List.cons_append, List.filterMap_cons_none announced.1,
        List.filterMap_append, bodies.1, induction announced.2 bodies.2, List.map_cons,
        List.flatMap_cons]

theorem filterMap_eventsOfList (body : List Instr) :
    (eventsOfList body).filterMap Event.instr? = visitedOfList (fun _ => true) body := by
  induction body using Instr.body_induction with
  | nil => rfl
  | cons instr rest bodies induction =>
      rw [eventsOfList, visitedOfList, List.filterMap_append, induction, List.append_left_inj]
      cases isHead : instr.head? with
      | none =>
          rw [Instr.events_of_head?_eq_none isHead, Instr.visited_of_head?_eq_none isHead]
          rfl
      | some head =>
          rw [Instr.visited_eq, Instr.events_of_head?_eq_some isHead]
          rw [Instr.bodies_eq_arms isHead, List.forall_mem_cons] at bodies
          simp [Event.instr?, bodies.1, filterMap_arms _ instr?_laterArms bodies.2,
            Instr.bodies_eq_arms isHead]

/-! ## Calls that leave instructions out -/

/-- The calls are for the instructions, one after another, but where the answer is `false`
the descendants that follow are left out. -/
inductive LeavesOut : List Instr → List (Instr × Bool) → Prop where
  | nil : LeavesOut [] []
  | enters {instr : Instr} {rest : List Instr} {calls : List (Instr × Bool)}
      (others : LeavesOut rest calls) : LeavesOut (instr :: rest) ((instr, true) :: calls)
  | skips {instr : Instr} {rest : List Instr} {calls : List (Instr × Bool)}
      (others : LeavesOut rest calls) :
      LeavesOut (instr :: (instr.descendants ++ rest)) ((instr, false) :: calls)

theorem LeavesOut.append {first second : List Instr} {calls others : List (Instr × Bool)}
    (leavesFirst : LeavesOut first calls) (leavesSecond : LeavesOut second others) :
    LeavesOut (first ++ second) (calls ++ others) := by
  induction leavesFirst with
  | nil => exact leavesSecond
  | enters _ induction => exact .enters induction
  | skips _ induction =>
      rw [List.cons_append, List.append_assoc, List.cons_append]
      exact .skips induction

section

variable {σ : Type} (callback : Instr → StateM σ Bool)

/-- What an inspection of some instructions and all their descendants is: the calls are made
one after another, with the state that is left by those before, and leave out what is
inside the instructions for which the answer is `false`. -/
structure Inspection (instrs : List Instr) (before : σ) (result : List (Instr × Bool) × σ) :
    Prop where
  answers : (((result.1.map Prod.fst).mapM callback).run before).run =
    (result.1.map Prod.snd, result.2)
  leavesOut : LeavesOut instrs result.1

variable {callback}

namespace Inspection

theorem nil (before : σ) : Inspection callback [] before ([], before) :=
  ⟨rfl, .nil⟩

theorem append {first second : List Instr} {before between after : σ}
    {calls others : List (Instr × Bool)}
    (inspectsFirst : Inspection callback first before (calls, between))
    (inspectsSecond : Inspection callback second between (others, after)) :
    Inspection callback (first ++ second) before (calls ++ others, after) where
  answers := by
    simp only [List.map_append, List.mapM_append, StateT.run_bind, StateT.run_pure, Id.run_bind,
      inspectsFirst.answers, inspectsSecond.answers, Id.run_pure]
  leavesOut := inspectsFirst.leavesOut.append inspectsSecond.leavesOut

theorem enters {instr : Instr} {rest : List Instr} {before between after : σ}
    {calls : List (Instr × Bool)} (answer : ((callback instr).run before).run = (true, between))
    (others : Inspection callback rest between (calls, after)) :
    Inspection callback (instr :: rest) before ((instr, true) :: calls, after) where
  answers := by
    simp only [List.map_cons, List.mapM_cons, StateT.run_bind, StateT.run_pure, Id.run_bind, answer,
      others.answers, Id.run_pure]
  leavesOut := .enters others.leavesOut

theorem skips {instr : Instr} {before after : σ}
    (answer : ((callback instr).run before).run = (false, after)) :
    Inspection callback (instr :: instr.descendants) before ([(instr, false)], after) where
  answers := by
    simp only [List.map_cons, List.map_nil, List.mapM_cons, List.mapM_nil, StateT.run_bind,
      StateT.run_pure, Id.run_bind, answer, Id.run_pure, pure_bind]
  leavesOut := by
    rw [← List.append_nil instr.descendants]
    exact .skips .nil

end Inspection

end

/-! ## Inspected bodies -/

section

variable {σ : Type} (callback : Instr → StateM σ Bool)

namespace Instr

def inspectBodies : List (List Instr) → StateM σ (List (Instr × Bool))
  | [] => pure []
  | body :: others => do return (← inspectOfList callback body) ++ (← inspectBodies others)

theorem inspect_eq (instr : Instr) :
    instr.inspect callback = instr.callFor callback (inspectBodies callback instr.bodies) := by
  have handlers : ∀ catches : List Catch,
      Catch.inspectOfList callback catches = inspectBodies callback (catches.map Catch.body) := by
    intro catches
    induction catches with
    | nil => rfl
    | cons handler others induction =>
        cases handler
        simp [Catch.inspectOfList, Catch.inspect, Catch.body, inspectBodies, induction]
  cases isHead : instr.head? with
  | none =>
      rw [bodies_of_head?_eq_none isHead, inspectBodies]
      cases instr with
      | block | loop | ifElse | tryCatch => cases isHead
      | _ => rw [inspect]; all_goals simp
  | some head =>
      cases instr with
      | block | loop | ifElse | tryCatch => simp [inspect, bodies, inspectBodies, handlers]
      | _ => cases isHead

variable {callback}

theorem run_callFor {instr : Instr} {inside : StateM σ (List (Instr × Bool))} {before after : σ}
    {enters : Bool} (answer : ((callback instr).run before).run = (enters, after)) :
    ((instr.callFor callback inside).run before).run =
      if enters then
        ((instr, true) :: (inside.run after).run.1, (inside.run after).run.2)
      else ([(instr, false)], after) := by
  cases enters <;> simp [callFor, answer]

theorem run_inspectOfList_cons (instr : Instr) (rest : List Instr) (before : σ) :
    ((inspectOfList callback (instr :: rest)).run before).run =
      let first := ((instr.inspect callback).run before).run
      let others := ((inspectOfList callback rest).run first.2).run
      (first.1 ++ others.1, others.2) := by
  simp [inspectOfList]

theorem run_inspectBodies_cons (body : List Instr) (others : List (List Instr)) (before : σ) :
    ((inspectBodies callback (body :: others)).run before).run =
      let first := ((inspectOfList callback body).run before).run
      let second := ((inspectBodies callback others).run first.2).run
      (first.1 ++ second.1, second.2) := by
  simp [inspectBodies]

end Instr

variable {callback}

open Instr (inspectBodies)

theorem Inspection.of_bodies (bodies : List (List Instr))
    (each : ∀ body ∈ bodies, ∀ before,
      Inspection callback (visitedOfList (fun _ => true) body) before
        ((inspectOfList callback body).run before).run) :
    ∀ before, Inspection callback (bodies.flatMap (visitedOfList fun _ => true)) before
      ((inspectBodies callback bodies).run before).run := by
  induction bodies with
  | nil => exact Inspection.nil
  | cons body others induction =>
      rw [List.forall_mem_cons] at each
      intro before
      rw [Instr.run_inspectBodies_cons, List.flatMap_cons]
      exact .append (each.1 before) (induction each.2 _)

theorem Inspection.of_body (body : List Instr) : ∀ before,
    Inspection callback (visitedOfList (fun _ => true) body) before
      ((inspectOfList callback body).run before).run := by
  induction body using Instr.body_induction with
  | nil => exact Inspection.nil
  | cons instr rest bodies induction =>
      intro before
      rw [Instr.run_inspectOfList_cons, visitedOfList, Instr.visited_eq, Instr.inspect_eq]
      refine .append ?_ (induction _)
      cases answer : ((callback instr).run before).run with
      | mk enters after =>
          rw [Instr.run_callFor answer]
          cases enters with
          | false => exact .skips answer
          | true => exact .enters answer (.of_bodies _ bodies _)

end

/-! ## Answers that depend on the instruction alone -/

section

variable {σ : Type} (effect : Instr → StateM σ Unit) (enters : Instr → Bool)

def answering (instr : Instr) : StateM σ Bool := do
  effect instr
  return enters instr

theorem run_answering (instr : Instr) (before : σ) :
    ((answering effect enters instr).run before).run =
      (enters instr, ((effect instr).run before).run.2) := by
  simp [answering]

theorem calls_answering_bodies (bodies : List (List Instr))
    (each : ∀ body ∈ bodies, ∀ before,
      ((inspectOfList (answering effect enters) body).run before).run.1 =
        (visitedOfList enters body).map fun instr => (instr, enters instr)) :
    ∀ before, ((Instr.inspectBodies (answering effect enters) bodies).run before).run.1 =
      (bodies.flatMap (visitedOfList enters)).map fun instr => (instr, enters instr) := by
  induction bodies with
  | nil => exact fun before => rfl
  | cons body others induction =>
      rw [List.forall_mem_cons] at each
      intro before
      simp only [Instr.run_inspectBodies_cons, each.1, induction each.2, List.flatMap_cons,
        List.map_append]

theorem calls_answering (body : List Instr) : ∀ before,
    ((inspectOfList (answering effect enters) body).run before).run.1 =
      (visitedOfList enters body).map fun instr => (instr, enters instr) := by
  induction body using Instr.body_induction with
  | nil => exact fun before => rfl
  | cons instr rest bodies induction =>
      intro before
      simp only [Instr.run_inspectOfList_cons, Instr.inspect_eq, induction, visitedOfList,
        Instr.visited_eq_cons, Instr.run_callFor (run_answering effect enters instr before),
        List.map_append, List.append_left_inj]
      cases isEntered : enters instr with
      | false => simp [isEntered]
      | true => simp [isEntered, calls_answering_bodies effect enters _ bodies]

end

/-! ## Agreement -/

/-- With a callback that always answers `true`, `inspect` calls for the instructions that
are met with events, each once and in their order. The events of a body, and no others, take
a walker from its beginning to its end. Whatever a callback answers, the calls are those with
the descendants of the instructions left out for which it answers `false`, and nothing else;
if the answers depend on the instruction alone, this is what is visited. -/
theorem traversals_agree (body : List Instr) :
    (∀ (σ : Type) (effect : Instr → StateM σ Unit) (before : σ),
      ((inspectOfList (answering effect fun _ => true) body).run before).run.1.map Prod.fst =
        (eventsOfList body).filterMap Event.instr?) ∧
    (∀ events : List Event,
      Walker.Run ⟨body, []⟩ events ⟨[], []⟩ ↔ events = eventsOfList body) ∧
    (∀ (σ : Type) (callback : Instr → StateM σ Bool) (before : σ),
      Inspection callback ((eventsOfList body).filterMap Event.instr?) before
        ((inspectOfList callback body).run before).run) ∧
    ∀ (σ : Type) (effect : Instr → StateM σ Unit) (enters : Instr → Bool) (before : σ),
      ((inspectOfList (answering effect enters) body).run before).run.1 =
        (visitedOfList enters body).map fun instr => (instr, enters instr) := by
  refine ⟨fun σ effect before => ?_, fun events => ⟨fun run => ?_, ?_⟩,
    fun σ callback before => ?_, fun σ effect enters => calls_answering effect enters body⟩
  · rw [calls_answering, filterMap_eventsOfList, List.map_map]
    exact List.map_id _
  · exact (Walker.run_body body []).unique run
  · rintro rfl
    exact Walker.run_body body []
  · rw [filterMap_eventsOfList]
    exact Inspection.of_body body before

end WasmLowering
