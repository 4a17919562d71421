/-!
# Polling with a limit

A loop samples a device until a sample passes, pausing after each one that does not, and
gives up after a fixed number of samples.  Either all of them fail, or the loop ends with
the first one that passes; what the device went through is the same run of samples and
pauses in both cases.
-/

set_option autoImplicit false

namespace Foundation.Polling

variable {State Sample : Type}

/-- Whether a sample passed within the limit, and the state the device is left in. -/
def poll (sample : State → Sample × State) (pause : State → State) (passes : Sample → Bool) :
    Nat → State → Bool × State
  | 0, state => (false, state)
  | limit + 1, state =>
      if passes (sample state).1 then (true, (sample state).2)
      else poll sample pause passes limit (pause (sample state).2)

def after (sample : State → Sample × State) (pause : State → State) : Nat → State → State
  | 0, state => state
  | count + 1, state => after sample pause count (pause (sample state).2)

def values (sample : State → Sample × State) (pause : State → State) :
    Nat → State → List Sample
  | 0, _ => []
  | count + 1, state => (sample state).1 :: values sample pause count (pause (sample state).2)

variable (sample : State → Sample × State) (pause : State → State)

@[simp] theorem values_length (count : Nat) (state : State) :
    (values sample pause count state).length = count := by
  induction count generalizing state with
  | zero => rfl
  | succ count ih => rw [values, List.length_cons, ih]

/-- All samples fail, or the loop ends with the first one that does not. -/
theorem poll_cases (passes : Sample → Bool) (limit : Nat) (state : State) :
    (poll sample pause passes limit state = (false, after sample pause limit state) ∧
      ∀ value ∈ values sample pause limit state, passes value = false) ∨
    ∃ count < limit,
      poll sample pause passes limit state =
          (true, (sample (after sample pause count state)).2) ∧
        passes (sample (after sample pause count state)).1 = true ∧
        ∀ value ∈ values sample pause count state, passes value = false := by
  induction limit generalizing state with
  | zero => exact Or.inl ⟨rfl, nofun⟩
  | succ limit ih =>
      cases here : passes (sample state).1 with
      | true => exact Or.inr ⟨0, Nat.succ_pos limit, by rw [poll, if_pos here]; rfl, here, nofun⟩
      | false =>
          have more : poll sample pause passes (limit + 1) state =
              poll sample pause passes limit (pause (sample state).2) := by
            rw [poll, here]
            rfl
          rcases ih (pause (sample state).2) with
            ⟨expired, failed⟩ | ⟨count, less, passed, ok, failed⟩
          · exact Or.inl ⟨more.trans expired, List.forall_mem_cons.mpr ⟨here, failed⟩⟩
          · exact Or.inr ⟨count + 1, Nat.succ_lt_succ less, more.trans passed, ok,
              List.forall_mem_cons.mpr ⟨here, failed⟩⟩

end Foundation.Polling
