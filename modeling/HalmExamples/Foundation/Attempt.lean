/-!
# Attempts that stop halfway

A computation that may give up leaves the state as it was at that point: nothing is
undone.  The rules say when a sequence of statements succeeds, that what every statement
keeps is kept by the whole, whether it succeeds or not, and how conditions are passed on.
-/

set_option autoImplicit false

namespace Foundation.Attempt

variable {Error State Value Result : Type}

def stateOf : EStateM.Result Error State Value → State
  | .ok _ state => state
  | .error _ state => state

theorem bind_of_ok (first : EStateM Error State Value) (rest : Value → EStateM Error State Result)
    (state next : State) (value : Value) (done : first state = .ok value next) :
    (first >>= rest) state = rest value next := by
  simp only [bind, EStateM.bind, done]

theorem bind_of_error (first : EStateM Error State Value)
    (rest : Value → EStateM Error State Result) (state next : State) (error : Error)
    (stopped : first state = .error error next) :
    (first >>= rest) state = .error error next := by
  simp only [bind, EStateM.bind, stopped]

theorem bind_eq_ok (first : EStateM Error State Value) (rest : Value → EStateM Error State Result)
    (state final : State) (result : Result) (done : (first >>= rest) state = .ok result final) :
    ∃ value next, first state = .ok value next ∧ rest value next = .ok result final := by
  cases here : first state with
  | ok value next =>
      rw [bind_of_ok first rest state next value here] at done
      exact ⟨value, next, rfl, done⟩
  | error error next =>
      rw [bind_of_error first rest state next error here] at done
      cases done

/-! ## Success -/

def Succeeds (attempt : EStateM Error State Value) (state : State) : Prop :=
  ∃ value next, attempt state = .ok value next

theorem succeeds_pure (value : Value) (state : State) :
    Succeeds (pure value : EStateM Error State Value) state :=
  ⟨value, state, rfl⟩

theorem succeeds_bind_of_ok (first : EStateM Error State Value)
    (rest : Value → EStateM Error State Result) (state next : State) (value : Value)
    (done : first state = .ok value next) :
    Succeeds (first >>= rest) state ↔ Succeeds (rest value) next := by
  rw [Succeeds, Succeeds, bind_of_ok first rest state next value done]

theorem not_succeeds_bind_of_error (first : EStateM Error State Value)
    (rest : Value → EStateM Error State Result) (state next : State) (error : Error)
    (stopped : first state = .error error next) : ¬ Succeeds (first >>= rest) state := by
  rintro ⟨value, final, done⟩
  rw [bind_of_error first rest state next error stopped] at done
  cases done

/-! ## What is kept either way -/

def Keeps {View : Type} (view : State → View) (attempt : EStateM Error State Value) : Prop :=
  ∀ state, view (stateOf (attempt state)) = view state

section Keeps

variable {View : Type} {view : State → View}

theorem keeps_pure (value : Value) : Keeps view (pure value : EStateM Error State Value) :=
  fun _ => rfl

theorem Keeps.bind {first : EStateM Error State Value}
    {rest : Value → EStateM Error State Result} (keeps : Keeps view first)
    (later : ∀ value, Keeps view (rest value)) : Keeps view (first >>= rest) := by
  intro state
  have here := keeps state
  cases done : first state with
  | ok value next =>
      rw [done] at here
      rw [bind_of_ok first rest state next value done, later value next]
      exact here
  | error error next =>
      rw [done] at here
      rw [bind_of_error first rest state next error done]
      exact here

end Keeps

/-! ## Conditions before and after -/

/-- With one condition for success and one for wherever it stops. -/
def Triple (pre : State → Prop) (attempt : EStateM Error State Value)
    (post : Value → State → Prop) (stopped : State → Prop) : Prop :=
  ∀ state, pre state →
    match attempt state with
    | .ok value next => post value next
    | .error _ next => stopped next

section Triple

variable {pre : State → Prop} {post : Value → State → Prop} {stopped : State → Prop}

theorem Triple.bind {first : EStateM Error State Value}
    {rest : Value → EStateM Error State Result} {final : Result → State → Prop}
    (triple : Triple pre first post stopped)
    (later : ∀ value, Triple (post value) (rest value) final stopped) :
    Triple pre (first >>= rest) final stopped := by
  intro state holds
  have here := triple state holds
  cases done : first state with
  | ok value next =>
      rw [done] at here
      rw [bind_of_ok first rest state next value done]
      exact later value next here
  | error error next =>
      rw [done] at here
      rw [bind_of_error first rest state next error done]
      exact here

theorem Triple.weaken {attempt : EStateM Error State Value} {before : State → Prop}
    {after : Value → State → Prop} (triple : Triple pre attempt post stopped)
    (enough : ∀ state, before state → pre state)
    (follows : ∀ value state, post value state → after value state) :
    Triple before attempt after stopped := by
  intro state holds
  have result := triple state (enough state holds)
  cases done : attempt state with
  | ok value next =>
      rw [done] at result
      exact follows value next result
  | error error next =>
      rw [done] at result
      exact result

theorem triple_pure (value : Value) (holds : ∀ state, pre state → post value state) :
    Triple pre (pure value : EStateM Error State Value) post stopped :=
  fun state before => holds state before

theorem Triple.ite {condition : Prop} [Decidable condition]
    {first second : EStateM Error State Value}
    (whenTrue : condition → Triple pre first post stopped)
    (whenFalse : ¬ condition → Triple pre second post stopped) :
    Triple pre (if condition then first else second) post stopped := by
  by_cases holds : condition
  · rw [if_pos holds]
    exact whenTrue holds
  · rw [if_neg holds]
    exact whenFalse holds

theorem Triple.of_ok {attempt : EStateM Error State Value}
    (triple : Triple pre attempt post stopped) (state next : State) (value : Value)
    (holds : pre state) (done : attempt state = .ok value next) : post value next := by
  have result := triple state holds
  rwa [done] at result

theorem Triple.of_error {attempt : EStateM Error State Value}
    (triple : Triple pre attempt post stopped) (state next : State) (error : Error)
    (holds : pre state) (done : attempt state = .error error next) : stopped next := by
  have result := triple state holds
  rwa [done] at result

end Triple

end Foundation.Attempt
