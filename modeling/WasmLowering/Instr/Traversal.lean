import WasmLowering.Instr

/-! Ways through a body, all depth first and in program order. `events` tells where
structured instructions begin and end; `inspect` calls a function for the instructions
themselves, which can leave out what is inside some of them; `visited` lists those
that are left where this does not depend on the calls before. -/

namespace WasmLowering

/-- What happens on the way through a body. Structured instructions begin and
end; in between an `ifElse` announces its second arm with the number of
instructions in it, and a `tryCatch` each handler. -/
inductive Event where
  | enter (instr : Instr) (label : String)
  | elseArm (size : Nat)
  | handler (tag : Option Reference)
  | leave (instr : Instr) (label : String)
  | plain (instr : Instr)

mutual

def Instr.events : Instr → List Event
  | .block head body =>
      .enter (.block head body) head.label ::
        (Instr.eventsOfList body ++ [.leave (.block head body) head.label])
  | .loop head body =>
      .enter (.loop head body) head.label ::
        (Instr.eventsOfList body ++ [.leave (.loop head body) head.label])
  | .ifElse head thenBody elseBody =>
      .enter (.ifElse head thenBody elseBody) head.label ::
        (Instr.eventsOfList thenBody ++ .elseArm elseBody.length ::
          (Instr.eventsOfList elseBody ++ [.leave (.ifElse head thenBody elseBody) head.label]))
  | .tryCatch head body catches =>
      .enter (.tryCatch head body catches) head.label ::
        (Instr.eventsOfList body ++ Catch.eventsOfList catches ++
          [.leave (.tryCatch head body catches) head.label])
  | instr => [.plain instr]

def Instr.eventsOfList : List Instr → List Event
  | [] => []
  | instr :: rest => instr.events ++ Instr.eventsOfList rest

def Catch.events : Catch → List Event
  | .handler tag body => .handler tag :: Instr.eventsOfList body

def Catch.eventsOfList : List Catch → List Event
  | [] => []
  | handler :: rest => handler.events ++ Catch.eventsOfList rest

end

mutual

def Instr.visited (enters : Instr → Bool) : Instr → List Instr
  | .block head body =>
      .block head body ::
        if enters (.block head body) then Instr.visitedOfList enters body else []
  | .loop head body =>
      .loop head body ::
        if enters (.loop head body) then Instr.visitedOfList enters body else []
  | .ifElse head thenBody elseBody =>
      .ifElse head thenBody elseBody ::
        if enters (.ifElse head thenBody elseBody) then
          Instr.visitedOfList enters thenBody ++ Instr.visitedOfList enters elseBody
        else []
  | .tryCatch head body catches =>
      .tryCatch head body catches ::
        if enters (.tryCatch head body catches) then
          Instr.visitedOfList enters body ++ Catch.visitedOfList enters catches
        else []
  | instr => [instr]

def Instr.visitedOfList (enters : Instr → Bool) : List Instr → List Instr
  | [] => []
  | instr :: rest => instr.visited enters ++ Instr.visitedOfList enters rest

def Catch.visited (enters : Instr → Bool) : Catch → List Instr
  | .handler _ body => Instr.visitedOfList enters body

def Catch.visitedOfList (enters : Instr → Bool) : List Catch → List Instr
  | [] => []
  | handler :: rest => handler.visited enters ++ Catch.visitedOfList enters rest

end

/-! What is inside an instruction is in its bodies. -/

namespace Instr

def bodies : Instr → List (List Instr)
  | .block _ body | .loop _ body => [body]
  | .ifElse _ thenBody elseBody => [thenBody, elseBody]
  | .tryCatch _ body catches => body :: catches.map Catch.body
  | _ => []

theorem bodies_of_head?_eq_none {instr : Instr} (isPlain : instr.head? = none) :
    instr.bodies = [] := by
  cases instr with
  | block | loop | ifElse | tryCatch => cases isPlain
  | _ => rfl

theorem visited_of_head?_eq_none {instr : Instr} {enters : Instr → Bool}
    (plain : instr.head? = none) : instr.visited enters = [instr] := by
  cases instr with
  | block | loop | ifElse | tryCatch => simp [head?] at plain
  | _ => rw [visited]; all_goals simp

/-- What is visited in a member of a body is visited in the body. -/
theorem mem_visitedOfList {enters : Instr → Bool} {instr found : Instr} {body : List Instr}
    (member : instr ∈ body) (inside : found ∈ instr.visited enters) :
    found ∈ visitedOfList enters body := by
  induction body with
  | nil => cases member
  | cons first rest induction =>
      rw [visitedOfList, List.mem_append]
      rcases List.mem_cons.mp member with rfl | later
      · exact .inl inside
      · exact .inr (induction later)

/-- What is visited in an instruction is itself and, if it is entered, what is in its
bodies. -/
theorem visited_eq_cons (enters : Instr → Bool) (instr : Instr) :
    instr.visited enters =
      instr :: if enters instr then instr.bodies.flatMap (visitedOfList enters) else [] := by
  have handlers : ∀ catches : List Catch, Catch.visitedOfList enters catches =
      (catches.map Catch.body).flatMap (visitedOfList enters) := by
    intro catches
    induction catches with
    | nil => rfl
    | cons handler others induction =>
        cases handler
        simp [Catch.visitedOfList, Catch.visited, Catch.body, induction]
  cases isHead : instr.head? with
  | none =>
      rw [visited_of_head?_eq_none isHead, bodies_of_head?_eq_none isHead, List.flatMap_nil,
        ite_self]
  | some head =>
      cases instr with
      | block | loop | ifElse | tryCatch => simp [visited, bodies, handlers]
      | _ => cases isHead

theorem visited_eq (instr : Instr) :
    instr.visited (fun _ => true) =
      instr :: instr.bodies.flatMap (visitedOfList fun _ => true) :=
  visited_eq_cons _ instr

end Instr

/-! A function that is called for instructions can keep a state from call to call. -/

section

variable {σ : Type} (callback : Instr → StateM σ Bool)

def Instr.callFor (instr : Instr) (inside : StateM σ (List (Instr × Bool))) :
    StateM σ (List (Instr × Bool)) := do
  let enters ← callback instr
  let others ← if enters then inside else pure []
  return (instr, enters) :: others

mutual

def Instr.inspect : Instr → StateM σ (List (Instr × Bool))
  | .block head body =>
      Instr.callFor callback (.block head body) (Instr.inspectOfList body)
  | .loop head body =>
      Instr.callFor callback (.loop head body) (Instr.inspectOfList body)
  | .ifElse head thenBody elseBody =>
      Instr.callFor callback (.ifElse head thenBody elseBody) do
        return (← Instr.inspectOfList thenBody) ++ (← Instr.inspectOfList elseBody)
  | .tryCatch head body catches =>
      Instr.callFor callback (.tryCatch head body catches) do
        return (← Instr.inspectOfList body) ++ (← Catch.inspectOfList catches)
  | instr => Instr.callFor callback instr (pure [])

def Instr.inspectOfList : List Instr → StateM σ (List (Instr × Bool))
  | [] => pure []
  | instr :: rest => do return (← instr.inspect) ++ (← Instr.inspectOfList rest)

def Catch.inspect : Catch → StateM σ (List (Instr × Bool))
  | .handler _ body => Instr.inspectOfList body

def Catch.inspectOfList : List Catch → StateM σ (List (Instr × Bool))
  | [] => pure []
  | handler :: rest => do return (← handler.inspect) ++ (← Catch.inspectOfList rest)

end

end

end WasmLowering
