import WasmLowering.Proofs.Lowering.Body
import WasmLowering.Proofs.Lowering.IndirectCalls
import WasmLowering.Proofs.Symbols.Hygiene

/-! Jumps and labels match.

A label stands in a function if something jumps to it, and then once: in front of the
body of a loop, and behind everything else. `Laid` says where the labels of code stand.
Lowering lays code out so, whatever its types are, and that jumps and labels match
follows from the layout alone. -/

namespace WasmLowering

namespace C

/-! ## Labels and jumps of statements -/

mutual

def Stmt.placed : Stmt → List Label
  | .label place => [place]
  | .ifThen _ body => Stmt.placedOfList body
  | .ifThenElse _ thenBody elseBody => Stmt.placedOfList thenBody ++ Stmt.placedOfList elseBody
  | _ => []

def Stmt.placedOfList : List Stmt → List Label
  | [] => []
  | stmt :: rest => stmt.placed ++ Stmt.placedOfList rest

end

mutual

def Stmt.gotos : Stmt → List Label
  | .ifThen _ body => Stmt.gotosOfList body
  | .ifThenElse _ thenBody elseBody => Stmt.gotosOfList thenBody ++ Stmt.gotosOfList elseBody
  | .jump branch => [branch.target]
  | .jumpIf _ branch => [branch.target]
  | .switch _ cases otherwise => cases.map (·.target) ++ [otherwise.target]
  | _ => []

def Stmt.gotosOfList : List Stmt → List Label
  | [] => []
  | stmt :: rest => stmt.gotos ++ Stmt.gotosOfList rest

end

namespace Stmt

@[simp] theorem placedOfList_nil : placedOfList [] = [] := rfl

@[simp] theorem placedOfList_cons (stmt : Stmt) (rest : List Stmt) :
    placedOfList (stmt :: rest) = stmt.placed ++ placedOfList rest := rfl

@[simp] theorem placedOfList_append (first others : List Stmt) :
    placedOfList (first ++ others) = placedOfList first ++ placedOfList others := by
  induction first with
  | nil => rfl
  | cons stmt rest induction => simp [induction]

@[simp] theorem gotosOfList_nil : gotosOfList [] = [] := rfl

@[simp] theorem gotosOfList_cons (stmt : Stmt) (rest : List Stmt) :
    gotosOfList (stmt :: rest) = stmt.gotos ++ gotosOfList rest := rfl

@[simp] theorem gotosOfList_append (first others : List Stmt) :
    gotosOfList (first ++ others) = gotosOfList first ++ gotosOfList others := by
  induction first with
  | nil => rfl
  | cons stmt rest induction => simp [induction]

end Stmt

def labelFor (label : Label) (stmts : List Stmt) : List Stmt :=
  if label ∈ Stmt.gotosOfList stmts then [.label label] else []

theorem mem_placed_labelFor {label other : Label} {stmts : List Stmt} :
    other ∈ Stmt.placedOfList (labelFor label stmts) ↔
      other = label ∧ label ∈ Stmt.gotosOfList stmts := by
  unfold labelFor
  split
  · next isTarget => simp [Stmt.placed, isTarget]
  · next notTarget => simp [notTarget]

@[simp] theorem gotosOfList_labelFor (label : Label) (stmts : List Stmt) :
    Stmt.gotosOfList (labelFor label stmts) = [] := by
  unfold labelFor
  split <;> rfl

/-! ## Where labels stand -/

/-- The statements of code, inside constructs with the given labels. The labels of the
code itself are numbered from `first` on, in the order in which the constructs begin, and
those behind it from `next` on. A loop has its label in front of its body and every other
construct behind, if there is a jump to it; code that cannot be reached has no
statements. -/
inductive Laid : (around : List Label) → (first next : Nat) → Code → List Stmt →
    (falls : Bool) → Prop
  | plain {around number instr stmts falls} (isPlain : instr.isConstruct = false)
      (unlabelled : Stmt.placedOfList stmts = [])
      (outward : ∀ target ∈ Stmt.gotosOfList stmts, target ∈ around) :
      Laid around number number (.instr instr) stmts falls
  | block {around first next head body stmts falls}
      (inside : Laid (⟨first, head.label⟩ :: around) (first + 1) next (.body body) stmts falls) :
      Laid around first next (.instr (.block head body))
        (stmts ++ labelFor ⟨first, head.label⟩ stmts)
        (falls || !(labelFor ⟨first, head.label⟩ stmts).isEmpty)
  | loop {around first next head body stmts falls}
      (inside : Laid (⟨first, head.label⟩ :: around) (first + 1) next (.body body) stmts falls) :
      Laid around first next (.instr (.loop head body))
        (labelFor ⟨first, head.label⟩ stmts ++ stmts) falls
  | ifThen {around first next head thenBody condition stmts falls}
      (inside : Laid (⟨first, head.label⟩ :: around) (first + 1) next (.body thenBody) stmts
        falls) :
      Laid around first next (.instr (.ifElse head thenBody []))
        (.ifThen condition stmts :: labelFor ⟨first, head.label⟩ stmts) true
  | ifThenElse {around first middle next head thenBody elseBody condition thenStmts thenFalls
        elseStmts elseFalls}
      (thenInside : Laid (⟨first, head.label⟩ :: around) (first + 1) middle (.body thenBody)
        thenStmts thenFalls)
      (elseInside : Laid (⟨first, head.label⟩ :: around) middle next (.body elseBody) elseStmts
        elseFalls) :
      Laid around first next (.instr (.ifElse head thenBody elseBody))
        (.ifThenElse condition thenStmts elseStmts ::
          labelFor ⟨first, head.label⟩ (thenStmts ++ elseStmts))
        (thenFalls || elseFalls ||
          !(labelFor ⟨first, head.label⟩ (thenStmts ++ elseStmts)).isEmpty)
  | nil {around number} : Laid around number number (.body []) [] true
  | cons {around first middle next instr rest stmts others falls}
      (isFirst : Laid around first middle (.instr instr) stmts true)
      (later : Laid around middle next (.body rest) others falls) :
      Laid around first next (.body (instr :: rest)) (stmts ++ others) falls
  | stop {around first next instr rest stmts}
      (isFirst : Laid around first next (.instr instr) stmts false) :
      Laid around first next (.body (instr :: rest)) stmts false

namespace Laid

variable {around : List Label} {first next : Nat} {code : Code} {stmts : List Stmt} {falls : Bool}

theorem le (laid : Laid around first next code stmts falls) : first ≤ next := by
  induction laid with
  | plain | nil => exact Nat.le_refl _
  | block _ induction | loop _ induction | ifThen _ induction => exact Nat.le_of_succ_le induction
  | ifThenElse _ _ thenInduction elseInduction | cons _ _ thenInduction elseInduction => omega
  | stop _ induction => exact induction

/-- The label of a construct has the number before those of what is inside. -/
theorem own (label : Label) (stmts : List Stmt) :
    Emission.Numbered label.number (label.number + 1)
      ((Stmt.placedOfList (labelFor label stmts)).map (·.number)) := by
  unfold labelFor
  split
  · exact ⟨by simp [Stmt.placed], List.nodup_singleton _⟩
  · exact .nil _ _

/-- The labels in code have different numbers, and all of them are given to it. -/
theorem numbered (laid : Laid around first next code stmts falls) :
    Emission.Numbered first next ((Stmt.placedOfList stmts).map (·.number)) := by
  induction laid with
  | plain _ unlabelled => exact unlabelled ▸ .nil _ _
  | nil => exact .nil _ _
  | stop _ induction => exact induction
  | @block _ first _ head _ stmts _ inside induction =>
      rw [Stmt.placedOfList_append, List.map_append]
      refine (((own ⟨first, head.label⟩ stmts).append induction ?_ inside.le).perm ?_)
      · exact Nat.le_succ _
      · exact List.perm_append_comm
  | @loop _ first _ head _ stmts _ inside induction =>
      rw [Stmt.placedOfList_append, List.map_append]
      exact (own ⟨first, head.label⟩ stmts).append induction (Nat.le_succ _) inside.le
  | @ifThen _ first _ head _ _ stmts _ inside induction =>
      rw [Stmt.placedOfList_cons, List.map_append]
      refine (((own ⟨first, head.label⟩ stmts).append induction ?_ inside.le).perm ?_)
      · exact Nat.le_succ _
      · exact List.perm_append_comm
  | @ifThenElse _ first _ _ head _ _ _ thenStmts _ elseStmts _ thenInside elseInside thenInduction
      elseInduction =>
      have inside := thenInduction.append elseInduction thenInside.le elseInside.le
      have above := Nat.le_trans thenInside.le elseInside.le
      rw [← List.map_append] at inside
      rw [Stmt.placedOfList_cons, List.map_append]
      refine (((own ⟨first, head.label⟩ (thenStmts ++ elseStmts)).append inside ?_ above).perm ?_)
      · exact Nat.le_succ _
      · exact List.perm_append_comm
  | cons isFirst later firstInduction laterInduction =>
      rw [Stmt.placedOfList_append, List.map_append]
      exact firstInduction.append laterInduction isFirst.le later.le

theorem found (laid : Laid around first next code stmts falls) :
    ∀ target ∈ Stmt.gotosOfList stmts,
      target ∈ Stmt.placedOfList stmts ∨ target ∈ around := by
  induction laid with
  | plain _ _ outward => exact fun target member => .inr (outward target member)
  | nil => exact nofun
  | stop _ induction => exact induction
  | block _ induction | loop _ induction | ifThen _ induction =>
      intro target member
      simp only [Stmt.gotosOfList_append, Stmt.gotosOfList_cons, Stmt.gotos, gotosOfList_labelFor,
        List.append_nil, List.nil_append] at member
      simp only [Stmt.placedOfList_append, Stmt.placedOfList_cons, Stmt.placed, List.mem_append,
        mem_placed_labelFor]
      rcases induction target member with inside | isAround
      · exact .inl (by simp [inside])
      · rcases List.mem_cons.mp isAround with rfl | isOutside
        · exact .inl (by simp [member])
        · exact .inr isOutside
  | ifThenElse _ _ thenInduction elseInduction =>
      intro target member
      simp only [Stmt.gotosOfList_cons, Stmt.gotos, gotosOfList_labelFor, List.append_nil] at member
      simp only [Stmt.placedOfList_cons, Stmt.placed, List.mem_append, mem_placed_labelFor,
        Stmt.gotosOfList_append]
      grind
  | cons _ _ firstInduction laterInduction =>
      intro target member
      rw [Stmt.gotosOfList_append, List.mem_append] at member
      rw [Stmt.placedOfList_append, List.mem_append]
      grind

theorem used (laid : Laid around first next code stmts falls) :
    Stmt.placedOfList stmts ⊆ Stmt.gotosOfList stmts := by
  induction laid with
  | plain _ unlabelled => exact unlabelled ▸ List.nil_subset _
  | nil => exact List.nil_subset _
  | stop _ induction => exact induction
  | block _ induction | loop _ induction | ifThen _ induction =>
      intro label member
      simp only [Stmt.placedOfList_append, Stmt.placedOfList_cons, Stmt.placed, List.mem_append,
        mem_placed_labelFor] at member
      simp only [Stmt.gotosOfList_append, Stmt.gotosOfList_cons, Stmt.gotos, gotosOfList_labelFor,
        List.append_nil, List.nil_append]
      grind
  | ifThenElse _ _ thenInduction elseInduction =>
      intro label member
      simp only [Stmt.placedOfList_cons, Stmt.placed, List.mem_append, mem_placed_labelFor,
        Stmt.gotosOfList_append] at member
      simp only [Stmt.gotosOfList_cons, Stmt.gotos, gotosOfList_labelFor, List.append_nil]
      grind
  | cons _ _ firstInduction laterInduction =>
      intro label member
      rw [Stmt.placedOfList_append, List.mem_append] at member
      rw [Stmt.gotosOfList_append, List.mem_append]
      exact member.imp (firstInduction ·) (laterInduction ·)

end Laid

end C

end WasmLowering
