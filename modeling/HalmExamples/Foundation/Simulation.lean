import Mathlib.Data.List.Basic

/-!
# Forward simulation of request servers

A server answers one request after another.  The concrete one may fail; the
abstract one always answers.  When one step of the concrete server is matched
by the abstract step with the same response, so is every sequence of requests.
-/

set_option autoImplicit false

namespace Foundation.Simulation

variable {Request Response Concrete Abstract : Type}

/-- The responses of a server that may fail, and the state it is left in. -/
def serve (step : Concrete → Request → Option (Response × Concrete)) :
    List Request → Concrete → Option (List Response × Concrete)
  | [], state => some ([], state)
  | request :: rest, state =>
      match step state request with
      | none => none
      | some (response, next) =>
          match serve step rest next with
          | none => none
          | some (responses, final) => some (response :: responses, final)

def answers (step : Abstract → Request → Response × Abstract) :
    List Request → Abstract → List Response × Abstract
  | [], state => ([], state)
  | request :: rest, state =>
      let first := step state request
      let later := answers step rest first.2
      (first.1 :: later.1, later.2)

/-- One concrete step answers as the abstract step does and keeps the relation. -/
def StepRefines (step : Concrete → Request → Option (Response × Concrete))
    (spec : Abstract → Request → Response × Abstract) (related : Concrete → Abstract → Prop)
    (allowed : Request → Prop) : Prop :=
  ∀ concrete abstract request, related concrete abstract → allowed request →
    ∃ next, step concrete request = some ((spec abstract request).1, next) ∧
      related next (spec abstract request).2

theorem serve_refines (step : Concrete → Request → Option (Response × Concrete))
    (spec : Abstract → Request → Response × Abstract) (related : Concrete → Abstract → Prop)
    (allowed : Request → Prop) (refines : StepRefines step spec related allowed)
    (requests : List Request) (allAllowed : ∀ request ∈ requests, allowed request)
    (concrete : Concrete) (abstract : Abstract) (start : related concrete abstract) :
    ∃ final, serve step requests concrete = some ((answers spec requests abstract).1, final) ∧
      related final (answers spec requests abstract).2 := by
  induction requests generalizing concrete abstract with
  | nil => exact ⟨concrete, rfl, start⟩
  | cons request rest ih =>
      have firstAllowed : allowed request := allAllowed request List.mem_cons_self
      have restAllowed : ∀ later ∈ rest, allowed later := fun later member =>
        allAllowed later (List.mem_cons_of_mem request member)
      obtain ⟨next, taken, matched⟩ := refines concrete abstract request start firstAllowed
      obtain ⟨final, served, ended⟩ :=
        ih restAllowed next (spec abstract request).2 matched
      refine ⟨final, ?_, ended⟩
      simp only [serve, answers, taken, served]

end Foundation.Simulation
