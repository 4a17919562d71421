import Mathlib.Data.List.Basic

/-!
# Runs of labelled transition functions

A step function in `Option` gives, for each state, the labels that are enabled
there.  `run` follows a schedule of labels, and `Along` says of a schedule that
every step of it is taken where a condition holds.  The invariant rule needs
the step to preserve the invariant under that condition only.
-/

set_option autoImplicit false

namespace Foundation.Schedule

variable {State Label : Type}

/-- The state after a schedule whose labels are enabled in turn. -/
def run (step : State → Label → Option State) : List Label → State → Option State
  | [], state => some state
  | label :: rest, state =>
      match step state label with
      | none => none
      | some next => run step rest next

def Along (step : State → Label → Option State) (allowed : State → Label → Prop) :
    List Label → State → Prop
  | [], _ => True
  | label :: rest, state =>
      allowed state label ∧
        match step state label with
        | none => True
        | some next => Along step allowed rest next

instance decidableAlong (step : State → Label → Option State)
    (allowed : State → Label → Prop) [∀ state label, Decidable (allowed state label)] :
    (labels : List Label) → (state : State) → Decidable (Along step allowed labels state)
  | [], _ => isTrue trivial
  | label :: rest, state =>
      match taken : step state label with
      | none => decidable_of_iff (allowed state label) (by simp [Along, taken])
      | some next =>
          have later := decidableAlong step allowed rest next
          decidable_of_iff (allowed state label ∧ Along step allowed rest next)
            (by simp [Along, taken])

theorem run_append (step : State → Label → Option State) (first second : List Label)
    (state : State) :
    run step (first ++ second) state = (run step first state).bind (run step second) := by
  induction first generalizing state with
  | nil => rfl
  | cons label rest ih =>
      simp only [List.cons_append, run]
      cases step state label with
      | none => rfl
      | some next => exact ih next

theorem along_append (step : State → Label → Option State) (allowed : State → Label → Prop)
    (first second : List Label) (state middle : State)
    (done : run step first state = some middle) :
    Along step allowed (first ++ second) state ↔
      Along step allowed first state ∧ Along step allowed second middle := by
  induction first generalizing state with
  | nil =>
      cases done
      simp [Along]
  | cons label rest ih =>
      simp only [run] at done
      simp only [List.cons_append, Along, and_assoc]
      cases taken : step state label with
      | none => simp [taken] at done
      | some next =>
          rw [taken] at done
          exact and_congr_right fun _ => ih next done

/-- One step lemma, taken where the schedule allows it, carries an invariant
through the whole run. -/
theorem run_preserves (step : State → Label → Option State)
    (allowed : State → Label → Prop) (invariant : State → Prop)
    (preserved : ∀ state label next, invariant state → allowed state label →
      step state label = some next → invariant next)
    (labels : List Label) (state final : State) (start : invariant state)
    (along : Along step allowed labels state) (done : run step labels state = some final) :
    invariant final := by
  induction labels generalizing state with
  | nil =>
      cases done
      exact start
  | cons label rest ih =>
      obtain ⟨here, later⟩ := along
      simp only [run] at done
      cases taken : step state label with
      | none => simp [taken] at done
      | some next =>
          rw [taken] at done later
          exact ih next (preserved state label next start here taken) later done

theorem along_of_forall (step : State → Label → Option State) (allowed : State → Label → Prop)
    (labels : List Label) (all : ∀ label ∈ labels, ∀ state, allowed state label) (state : State) :
    Along step allowed labels state := by
  induction labels generalizing state with
  | nil => trivial
  | cons label rest ih =>
      refine ⟨all label List.mem_cons_self state, ?_⟩
      cases step state label with
      | none => trivial
      | some next =>
          exact ih (fun later member => all later (List.mem_cons_of_mem label member)) next

theorem along_map {Kind : Type} (step : State → Label → Option State) (label : Kind → Label)
    (kinds : List Kind) (state : State) :
    Along step (fun _ taken => ∃ kind, taken = label kind) (kinds.map label) state :=
  along_of_forall step (fun _ taken => ∃ kind, taken = label kind) _
    (fun _ member _ => (List.mem_map.mp member).imp fun _ both => both.2.symm) state

theorem along_true (step : State → Label → Option State) (labels : List Label)
    (state : State) : Along step (fun _ _ => True) labels state :=
  along_of_forall step (fun _ _ => True) labels (fun _ _ _ => trivial) state

/-- The invariant rule for steps that need no condition. -/
theorem run_invariant (step : State → Label → Option State) (invariant : State → Prop)
    (preserved : ∀ state label next, invariant state →
      step state label = some next → invariant next)
    (labels : List Label) (state final : State) (start : invariant state)
    (done : run step labels state = some final) : invariant final :=
  run_preserves step (fun _ _ => True) invariant
    (fun current label next holds _ => preserved current label next holds)
    labels state final start (along_true step labels state) done

/-- An invariant that also speaks of the history, to which a label adds what `note` says. -/
theorem run_history {Event : Type} (step : State → Label → Option State)
    (note : Label → List Event) (allowed : State → Label → Prop)
    (invariant : List Event → State → Prop)
    (preserved : ∀ past state label next, invariant past state → allowed state label →
      step state label = some next → invariant (past ++ note label) next)
    (labels : List Label) (past : List Event) (state final : State) (start : invariant past state)
    (along : Along step allowed labels state) (done : run step labels state = some final) :
    invariant (past ++ labels.flatMap note) final := by
  induction labels generalizing past state with
  | nil =>
      cases done
      rw [List.flatMap_nil, List.append_nil]
      exact start
  | cons label rest ih =>
      obtain ⟨here, later⟩ := along
      simp only [run] at done
      cases taken : step state label with
      | none => simp [taken] at done
      | some next =>
          rw [taken] at done later
          rw [List.flatMap_cons, ← List.append_assoc]
          exact ih (past ++ note label) next (preserved past state label next start here taken)
            later done

/-- What a step breaks unless it is allowed, and what nothing repairs, holds at the end
exactly when it held at the start and every step was allowed. -/
theorem run_holds_iff (step : State → Label → Option State)
    (allowed : State → Label → Prop) (invariant holds : State → Prop)
    (preserved : ∀ state label next, invariant state → step state label = some next →
      invariant next ∧ (holds next ↔ holds state ∧ allowed state label))
    (labels : List Label) (state final : State) (start : invariant state)
    (done : run step labels state = some final) :
    holds final ↔ holds state ∧ Along step allowed labels state := by
  induction labels generalizing state with
  | nil =>
      cases done
      simp [Along]
  | cons label rest ih =>
      simp only [run] at done
      cases taken : step state label with
      | none => simp [taken] at done
      | some next =>
          rw [taken] at done
          obtain ⟨nextInvariant, oneStep⟩ := preserved state label next start taken
          rw [ih next nextInvariant done, oneStep, and_assoc]
          simp only [Along, taken]

/-- Two conditions that agree wherever a run can get to. -/
theorem along_congr (step : State → Label → Option State) (invariant : State → Prop)
    (possible : Label → Prop) (first second : State → Label → Prop)
    (preserved : ∀ state label next, invariant state → possible label →
      step state label = some next → invariant next)
    (same : ∀ state label, invariant state → possible label →
      (first state label ↔ second state label))
    (labels : List Label) (all : ∀ label ∈ labels, possible label) (state : State)
    (start : invariant state) :
    Along step first labels state ↔ Along step second labels state := by
  induction labels generalizing state with
  | nil => exact Iff.rfl
  | cons label rest ih =>
      have here : possible label := all label List.mem_cons_self
      simp only [Along, same state label start here]
      apply and_congr_right
      intro _
      cases taken : step state label with
      | none => exact Iff.rfl
      | some next =>
          exact ih (fun later member => all later (List.mem_cons_of_mem label member)) next
            (preserved state label next start here taken)

/-- Two conditions that agree as long as every step was allowed by one of them. -/
theorem along_iff_of_kept (step : State → Label → Option State) (invariant : State → Prop)
    (first allowed : State → Label → Prop)
    (kept : ∀ state label next, invariant state → allowed state label →
      step state label = some next → invariant next)
    (same : ∀ state label, invariant state → (first state label ↔ allowed state label))
    (labels : List Label) (state : State) (start : invariant state) :
    Along step first labels state ↔ Along step allowed labels state := by
  induction labels generalizing state with
  | nil => exact Iff.rfl
  | cons label rest ih =>
      simp only [Along, same state label start]
      apply and_congr_right
      intro here
      cases taken : step state label with
      | none => exact Iff.rfl
      | some next => exact ih next (kept state label next start here taken)

/-- Where every step is taken, the two conditions need only agree on steps that can be. -/
theorem run_along_iff (step : State → Label → Option State) (invariant : State → Prop)
    (first allowed : State → Label → Prop)
    (kept : ∀ state label next, invariant state → allowed state label →
      step state label = some next → invariant next)
    (same : ∀ state label next, invariant state → step state label = some next →
      (first state label ↔ allowed state label))
    (labels : List Label) (state final : State) (start : invariant state)
    (done : run step labels state = some final) :
    Along step first labels state ↔ Along step allowed labels state := by
  induction labels generalizing state with
  | nil => exact Iff.rfl
  | cons label rest ih =>
      simp only [run] at done
      cases taken : step state label with
      | none => simp [taken] at done
      | some next =>
          rw [taken] at done
          simp only [Along, taken, same state label next start taken]
          exact and_congr_right fun here => ih next (kept state label next start here taken) done

/-- What a step does where it is allowed, it does along an allowed schedule. -/
theorem along_mono_of_kept (step : State → Label → Option State) (invariant : State → Prop)
    (allowed second : State → Label → Prop)
    (kept : ∀ state label next, invariant state → allowed state label →
      step state label = some next → invariant next)
    (follows : ∀ state label, invariant state → allowed state label → second state label)
    (labels : List Label) (state : State) (start : invariant state)
    (along : Along step allowed labels state) : Along step second labels state := by
  induction labels generalizing state with
  | nil => trivial
  | cons label rest ih =>
      obtain ⟨here, later⟩ := along
      refine ⟨follows state label start here, ?_⟩
      cases taken : step state label with
      | none => trivial
      | some next =>
          rw [taken] at later
          exact ih next (kept state label next start here taken) later

def total (step : State → Label → Option State) (cost : State → Label → Nat) :
    List Label → State → Nat
  | [], _ => 0
  | label :: rest, state =>
      cost state label +
        match step state label with
        | none => 0
        | some next => total step cost rest next

/-- Each allowed step lowers a potential, as far as it can, but for what the step costs; a run
that is long enough for the cost uses the potential up. -/
theorem run_pays (step : State → Label → Option State) (allowed : State → Label → Prop)
    (potential : State → Nat) (price : Nat) (cost : State → Label → Nat)
    (lowers : ∀ state label next, allowed state label → step state label = some next →
      potential next ≤ potential state + price * cost state label - 1)
    (free : ∀ state label, potential state = 0 → cost state label = 0)
    (labels : List Label) (state final : State) (along : Along step allowed labels state)
    (done : run step labels state = some final) :
    potential final ≤ potential state + price * total step cost labels state - labels.length := by
  induction labels generalizing state with
  | nil =>
      cases done
      exact Nat.le_add_right _ _
  | cons label rest ih =>
      by_cases used : potential state = 0
      · have low := run_preserves step allowed (fun state => potential state = 0)
          (fun before label next zero here taken => by
            have once := lowers before label next here taken
            rw [zero, free before label zero] at once
            exact Nat.le_zero.mp once)
          (label :: rest) state final used along done
        rw [low]
        exact Nat.zero_le _
      · obtain ⟨here, later⟩ := along
        simp only [run] at done
        cases taken : step state label with
        | none => simp [taken] at done
        | some next =>
            rw [taken] at done later
            have once := lowers state label next here taken
            have others := ih next later done
            have sum : total step cost (label :: rest) state =
                cost state label + total step cost rest next := by rw [total, taken]
            rw [List.length_cons, sum, Nat.mul_add]
            omega

/-- A potential that each allowed step lowers, as far as it can, is used up by a long run. -/
theorem run_lowers (step : State → Label → Option State) (allowed : State → Label → Prop)
    (potential : State → Nat)
    (lowers : ∀ state label next, allowed state label → step state label = some next →
      potential next ≤ potential state - 1)
    (labels : List Label) (state final : State) (along : Along step allowed labels state)
    (done : run step labels state = some final) :
    potential final ≤ potential state - labels.length := by
  have paid := run_pays step allowed potential 0 (fun _ _ => 0)
    (fun before label next here taken => by
      rw [Nat.zero_mul, Nat.add_zero]
      exact lowers before label next here taken)
    (fun _ _ _ => rfl) labels state final along done
  rwa [Nat.zero_mul, Nat.add_zero] at paid

end Foundation.Schedule
