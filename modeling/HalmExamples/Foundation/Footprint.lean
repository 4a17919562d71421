import Mathlib.Data.Set.Basic

/-!
# What a change of the state touches

A state is read field by field, each with its own type of values.  A change is confined to
an area if it leaves all fields outside of it, so two parties whose areas do not meet do
not see each other's changes.
-/

set_option autoImplicit false

namespace Foundation.Footprint

variable {Field State : Type} {Value : Field → Type}

/-- Every field outside of the area is as before. -/
def Confined (read : (field : Field) → State → Value field) (area : Set Field)
    (before after : State) : Prop :=
  ∀ field, field ∉ area → read field after = read field before

def Touches (read : (field : Field) → State → Value field) (area : Set Field)
    (change : State → State) : Prop :=
  ∀ state, Confined read area state (change state)

variable {read : (field : Field) → State → Value field} {area : Set Field}

theorem confined_refl (state : State) : Confined read area state state := fun _ _ => rfl

theorem Confined.trans {first second third : State} (earlier : Confined read area first second)
    (later : Confined read area second third) : Confined read area first third :=
  fun field outside => (later field outside).trans (earlier field outside)

theorem Confined.mono {larger : Set Field} {before after : State}
    (confined : Confined read area before after) (within : area ⊆ larger) :
    Confined read larger before after :=
  fun field outside => confined field fun inside => outside (within inside)

theorem Touches.mono {larger : Set Field} {change : State → State}
    (touches : Touches read area change) (within : area ⊆ larger) : Touches read larger change :=
  fun state => (touches state).mono within

theorem confined_foldl (changes : List (State → State))
    (each : ∀ change ∈ changes, Touches read area change) (state : State) :
    Confined read area state (changes.foldl (fun state change => change state) state) := by
  induction changes generalizing state with
  | nil => exact confined_refl state
  | cons change rest ih =>
      have first := each change List.mem_cons_self state
      exact first.trans (ih (fun other member => each other (List.mem_cons_of_mem change member)) _)

/-- Fields that the area does not meet are as before. -/
theorem Confined.untouched {owned : Set Field} {before after : State}
    (confined : Confined read area before after) (apart : ∀ field ∈ owned, field ∉ area)
    (field : Field) (own : field ∈ owned) : read field after = read field before :=
  confined field (apart field own)

end Foundation.Footprint
