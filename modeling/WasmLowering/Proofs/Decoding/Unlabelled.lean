import WasmLowering.Proofs.Decoding.Grounded

/-! Decoded code has no labels: the binary format has none, and the head of every
structured instruction is left without. -/

namespace WasmLowering

namespace Instr

def Unlabelled (body : List Instr) : Prop :=
  ∀ instr ∈ visitedOfList (fun _ => true) body, ∀ head, instr.head? = some head → head.label = ""

def UnlabelledCatches (catches : List Catch) : Prop :=
  ∀ instr ∈ Catch.visitedOfList (fun _ => true) catches,
    ∀ head, instr.head? = some head → head.label = ""

@[simp] theorem unlabelled_nil : Unlabelled [] := by
  simp [Unlabelled, visitedOfList]

theorem unlabelled_cons (instr : Instr) (rest : List Instr) :
    Unlabelled (instr :: rest) ↔ Unlabelled [instr] ∧ Unlabelled rest := by
  simp only [Unlabelled, visitedOfList, List.mem_append, List.append_nil]
  constructor
  · intro all
    exact ⟨fun other member => all other (.inl member), fun other member => all other (.inr member)⟩
  · rintro ⟨first, others⟩ other (member | member)
    · exact first other member
    · exact others other member

theorem unlabelled_plain {instr : Instr} (plain : instr.head? = none) : Unlabelled [instr] := by
  simp only [Unlabelled, visitedOfList, visited_of_head?_eq_none plain, List.append_nil,
    List.mem_singleton]
  rintro other rfl head isHead
  rw [plain] at isHead
  cases isHead

@[simp] theorem unlabelled_block (head : BlockHead) (body : List Instr) :
    Unlabelled [.block head body] ↔ head.label = "" ∧ Unlabelled body := by
  simp [Unlabelled, visitedOfList, visited, head?]

@[simp] theorem unlabelled_loop (head : BlockHead) (body : List Instr) :
    Unlabelled [.loop head body] ↔ head.label = "" ∧ Unlabelled body := by
  simp [Unlabelled, visitedOfList, visited, head?]

@[simp] theorem unlabelled_ifElse (head : BlockHead) (thenBody elseBody : List Instr) :
    Unlabelled [.ifElse head thenBody elseBody] ↔
      head.label = "" ∧ Unlabelled thenBody ∧ Unlabelled elseBody := by
  simp [Unlabelled, visitedOfList, visited, head?, or_imp, forall_and]

@[simp] theorem unlabelled_tryCatch (head : BlockHead) (body : List Instr)
    (catches : List Catch) :
    Unlabelled [.tryCatch head body catches] ↔
      head.label = "" ∧ Unlabelled body ∧ UnlabelledCatches catches := by
  simp [Unlabelled, UnlabelledCatches, visitedOfList, visited, head?, or_imp, forall_and]

@[simp] theorem unlabelledCatches_nil : UnlabelledCatches [] := by
  simp [UnlabelledCatches, Catch.visitedOfList]

@[simp] theorem unlabelledCatches_cons (tag : Option Reference) (body : List Instr)
    (rest : List Catch) :
    UnlabelledCatches (.handler tag body :: rest) ↔ Unlabelled body ∧ UnlabelledCatches rest := by
  simp [Unlabelled, UnlabelledCatches, Catch.visitedOfList, Catch.visited, or_imp, forall_and]

theorem GroundedBody.unlabelled {types : List FuncType} {body : List Instr}
    (grounded : GroundedBody types body) : Unlabelled body :=
  fun instr member head isHead => ((grounded instr member).heads head isHead).1

end Instr

end WasmLowering
