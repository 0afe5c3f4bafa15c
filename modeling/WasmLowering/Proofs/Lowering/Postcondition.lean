import Mathlib.Data.List.Forall2
import WasmLowering.Emission.Emit

/-! What computations are known to give, unless something is not supported.

`Gives` and `Meets` rule out every other failure, that is a promise about the
module that is broken, or an import without an entity. A lenient reading lets
them pass, and only says what is known of success. -/

namespace WasmLowering.Emission

variable {σ α β : Type} {lenient : Prop}

theorem promised_eq_ok {condition : Prop} [Decidable condition] {otherwise : Defect} {value : Unit}
    (succeeds : promised condition otherwise = .ok value) : condition := by
  by_contra fails
  rw [promised, require, if_neg fails] at succeeds
  cases succeeds

theorem lift_eq_ok {result : Except EmitError α} {state after : σ} {value : α}
    (succeeds : (liftM result : StateT σ (Except EmitError) α) state = .ok (value, after)) :
    result = .ok value ∧ after = state := by
  cases result with
  | error error => cases succeeds
  | ok other =>
      cases succeeds
      exact ⟨rfl, rfl⟩

/-- The result has a property, or it fails on something that is not supported. -/
def Gives (lenient : Prop) (result : Except EmitError α) (post : α → Prop) : Prop :=
  match result with
  | .ok value => post value
  | .error error => lenient ∨ ∃ what, error = .unsupported what

namespace Gives

theorem ok {value : α} {post : α → Prop} (holds : post value) :
    Gives lenient (.ok value) post :=
  holds

theorem unsupported (what : Unsupported) (post : α → Prop) :
    Gives lenient (WasmLowering.unsupported what) post :=
  .inr ⟨what, rfl⟩

theorem bind {first : Except EmitError α} {next : α → Except EmitError β} {middle : α → Prop}
    {post : β → Prop} (given : Gives lenient first middle)
    (later : ∀ value, middle value → Gives lenient (next value) post) :
    Gives lenient (first >>= next) post := by
  cases first with
  | ok value => exact later value given
  | error error => exact given

theorem refuse {condition : Prop} [Decidable condition] {what : Unsupported}
    {next : PUnit → Except EmitError α} {post : α → Prop}
    (later : ¬condition → Gives lenient (next ()) post) :
    Gives lenient (if condition then WasmLowering.unsupported what >>= next else next ()) post := by
  split
  · exact .inr ⟨what, rfl⟩
  · next fails => exact later fails

theorem map {result : Except EmitError α} {change : α → β} {post : β → Prop}
    (given : Gives lenient result fun value => post (change value)) :
    Gives lenient (result.map change) post := by
  cases result with
  | ok value => exact given
  | error error => exact given

theorem mono {result : Except EmitError α} {strong weak : α → Prop}
    (given : Gives lenient result strong)
    (weaker : ∀ value, strong value → weak value) : Gives lenient result weak := by
  cases result with
  | ok value => exact weaker value given
  | error error => exact given

theorem of_ok {result : Except EmitError α} {value : α} {post : α → Prop}
    (given : Gives True result post) (isOk : result = .ok value) : post value := by
  subst isOk
  exact given

theorem ofResult (result : Except EmitError α) :
    Gives True result fun value => result = .ok value := by
  cases result with
  | ok value => exact rfl
  | error error => exact .inl trivial

theorem promised {condition : Prop} [Decidable condition] (holds : condition) (otherwise : Defect) :
    Gives lenient (WasmLowering.promised condition otherwise) fun _ => True := by
  rw [WasmLowering.promised, require, if_pos holds]
  trivial

theorem found {value : α} {option : Option α} (isFound : option = some value)
    (otherwise : Defect) : Gives lenient (WasmLowering.found option otherwise) fun result =>
      result = value := by
  subst isFound
  exact rfl

theorem mapM {change : α → Except EmitError β} {related : α → β → Prop} {items : List α}
    (given : ∀ item ∈ items, Gives lenient (change item) (related item)) :
    Gives lenient (items.mapM change) fun results => List.Forall₂ related items results := by
  induction items with
  | nil => exact .nil
  | cons item rest induction =>
      rw [List.mapM_cons]
      refine (given item List.mem_cons_self).bind fun first isFirst => ?_
      refine bind (induction fun other member => given other (List.mem_cons_of_mem _ member)) ?_
      exact fun others areOthers => .cons isFirst areOthers

theorem forM {check : α → Except EmitError PUnit} {known : α → Prop} {items : List α}
    (given : ∀ item ∈ items, Gives lenient (check item) fun _ => known item) :
    Gives lenient (items.forM check) fun _ => ∀ item ∈ items, known item := by
  induction items with
  | nil => exact .ok nofun
  | cons item rest induction =>
      refine (given item List.mem_cons_self).bind fun _ first => ?_
      refine (induction fun other member => given other (List.mem_cons_of_mem _ member)).mono ?_
      intro _ others other member
      rcases List.mem_cons.mp member with rfl | member
      · exact first
      · exact others other member

end Gives

/-- From a state, the computation ends with a value and a state that have a
property, or fails on something that is not supported. -/
def Meets (lenient : Prop) (action : StateT σ (Except EmitError) α) (state : σ)
    (post : α → σ → Prop) : Prop :=
  Gives lenient (action state) fun result => post result.1 result.2

namespace Meets

theorem pure {value : α} {state : σ} {post : α → σ → Prop} (holds : post value state) :
    Meets lenient (Pure.pure value) state post :=
  holds

theorem bind {first : StateT σ (Except EmitError) α} {next : α → StateT σ (Except EmitError) β}
    {state : σ} {middle : α → σ → Prop} {post : β → σ → Prop}
    (given : Meets lenient first state middle)
    (later : ∀ value after, middle value after → Meets lenient (next value) after post) :
    Meets lenient (first >>= next) state post :=
  Gives.bind given fun result holds => later result.1 result.2 holds

theorem mono {action : StateT σ (Except EmitError) α} {state : σ} {strong weak : α → σ → Prop}
    (given : Meets lenient action state strong)
    (weaker : ∀ value after, strong value after → weak value after) :
    Meets lenient action state weak :=
  Gives.mono given fun result holds => weaker result.1 result.2 holds

theorem and {action : StateT σ (Except EmitError) α} {state : σ} {first second : α → σ → Prop}
    (isFirst : Meets lenient action state first) (isSecond : Meets lenient action state second) :
    Meets lenient action state fun value after => first value after ∧ second value after := by
  unfold Meets Gives at *
  split
  · next result isResult =>
      rw [isResult] at isFirst isSecond
      exact ⟨isFirst, isSecond⟩
  · next error isError =>
      rw [isError] at isFirst
      exact isFirst

theorem of_ok {action : StateT σ (Except EmitError) α} {state after : σ} {value : α}
    {post : α → σ → Prop} (given : Meets True action state post)
    (isOk : action state = .ok (value, after)) : post value after := by
  rw [Meets, isOk] at given
  exact given

theorem anything (action : StateT σ (Except EmitError) α) (state : σ) :
    Meets True action state fun _ _ => True :=
  (Gives.ofResult (action state)).mono fun _ _ => trivial

theorem lift {result : Except EmitError α} {post : α → Prop} (given : Gives lenient result post)
    (state : σ) :
    Meets lenient (liftM result : StateT σ (Except EmitError) α) state fun value after =>
      post value ∧ after = state := by
  cases result with
  | ok value => exact ⟨given, rfl⟩
  | error error => exact given

theorem unsupported (what : Unsupported) (state : σ) (post : α → σ → Prop) :
    Meets lenient (liftM (WasmLowering.unsupported what : Except EmitError α) :
      StateT σ (Except EmitError) α) state post :=
  .inr ⟨what, rfl⟩

theorem bind_get {next : σ → StateT σ (Except EmitError) α} {state : σ} {post : α → σ → Prop}
    (later : Meets lenient (next state) state post) :
    Meets lenient (MonadState.get >>= next) state post :=
  later

theorem bind_promised {next : Unit → StateT σ (Except EmitError) α} {state : σ}
    {post : α → σ → Prop} {condition : Prop} [Decidable condition] {otherwise : Defect}
    (holds : condition) (later : Meets lenient (next ()) state post) :
    Meets lenient
      ((liftM (promised condition otherwise) : StateT σ (Except EmitError) Unit) >>= next) state
      post := by
  rw [promised, require, if_pos holds]
  exact later

theorem bind_check {check : StateT σ (Except EmitError) PUnit}
    {next : PUnit → StateT σ (Except EmitError) α} {state : σ} {post : α → σ → Prop}
    {condition : Prop} [Decidable condition]
    (passes : condition → Meets lenient check state fun _ after => after = state)
    (later : Meets lenient (next ()) state post) :
    Meets lenient (if condition then check >>= next else next ()) state post := by
  split
  · next holds => exact (passes holds).bind fun _ _ same => same ▸ later
  · exact later

theorem mapM {items : List α} {action : α → StateT σ (Except EmitError) β}
    {related : α → β → Prop}
    (each : ∀ item state, Meets lenient (action item) state fun value _ => related item value)
    (state : σ) :
    Meets lenient (items.mapM action) state fun values _ =>
      List.Forall₂ related items values := by
  induction items generalizing state with
  | nil => exact .pure .nil
  | cons item rest induction =>
      rw [List.mapM_cons]
      apply (each item state).bind
      intro value between isFirst
      apply (induction between).bind
      intro values _ areOthers
      exact .pure (.cons isFirst areOthers)

theorem set (next state : σ) :
    Meets lenient (MonadStateOf.set next : StateT σ (Except EmitError) PUnit) state fun _ after =>
      after = next :=
  rfl

theorem modify (change : σ → σ) (state : σ) :
    Meets lenient (modify change : StateT σ (Except EmitError) PUnit) state fun _ after =>
      after = change state :=
  rfl

end Meets

/-! ## C types

A type either has a C type or is not supported. -/

theorem scalarOf_gives (type : ValueType) :
    Gives lenient (scalarOf type) fun scalar => type.scalar? = some scalar := by
  unfold scalarOf
  split
  · next found => exact .ok found
  · exact .unsupported _ _

theorem mangledType_gives (type : ValueType) :
    Gives lenient (Symbol.mangledType type) fun scalar => type.scalar? = some scalar := by
  unfold Symbol.mangledType
  split
  · next found => exact .ok found
  · exact .unsupported _ _

theorem resultOf_gives (types : List ValueType) :
    Gives lenient (resultOf types) fun _ => types.length ≤ 1 := by
  unfold resultOf
  split
  · exact .ok (Nat.zero_le 1)
  · exact (scalarOf_gives _).bind fun _ _ => .ok (Nat.le_refl 1)
  · exact .unsupported _ _

theorem prototypeOf_gives (signature : Signature) :
    Gives lenient (prototypeOf signature) fun _ => signature.results.length ≤ 1 := by
  refine (resultOf_gives _).bind fun result single => ?_
  refine (Gives.mapM fun type _ => scalarOf_gives type).bind fun params _ => ?_
  exact .ok single

end WasmLowering.Emission
