import Mathlib.Data.Nat.Init
import Mathlib.Logic.Function.Iterate

/-!
# Counters that return to zero

A counter with `modulus` values that is read now and then.  As long as less than a whole
round lies between two readings, both tell how many ticks there were; a reader who
subtracts them in another arithmetic is right where no return lies between them.
-/

set_option autoImplicit false

namespace Foundation.CyclicCounter

/-- The reading `ticks` after the reading `count`. -/
def advance (modulus count ticks : Nat) : Nat := (count + ticks) % modulus

/-- The ticks from one reading to a later one, of less than a round. -/
def distance (modulus earlier later : Nat) : Nat :=
  if earlier ≤ later then later - earlier else later + modulus - earlier

section Advance
variable {modulus : Nat}

theorem advance_lt (count ticks : Nat) (positive : 0 < modulus) :
    advance modulus count ticks < modulus :=
  Nat.mod_lt _ positive

theorem advance_zero (count : Nat) (inside : count < modulus) : advance modulus count 0 = count :=
  Nat.mod_eq_of_lt inside

theorem advance_add (count first second : Nat) :
    advance modulus count (first + second) =
      advance modulus (advance modulus count first) second := by
  rw [advance, advance, advance, Nat.mod_add_mod, Nat.add_assoc]

/-- Less than a round: either the counter has not returned, or once. -/
theorem advance_eq (count ticks : Nat) (inside : count < modulus) (short : ticks ≤ modulus) :
    advance modulus count ticks =
      if count + ticks < modulus then count + ticks else count + ticks - modulus := by
  unfold advance
  split
  · rename_i before
    exact Nat.mod_eq_of_lt before
  · rename_i returned
    rw [Nat.mod_eq_sub_mod (by omega), Nat.mod_eq_of_lt (by omega)]

theorem distance_advance (count ticks : Nat) (inside : count < modulus) (short : ticks < modulus) :
    distance modulus count (advance modulus count ticks) = ticks := by
  rw [advance_eq count ticks inside (by omega), distance]
  split <;> split <;> omega

theorem advance_round (count : Nat) (inside : count < modulus) :
    advance modulus count modulus = count := by
  rw [advance_eq count modulus inside (Nat.le_refl _)]
  split <;> omega

/-- Within a round each reading comes once. -/
theorem advance_eq_iff (count ahead ticks : Nat) (inside : count + ahead < modulus)
    (short : ticks < modulus) : advance modulus count ticks = count + ahead ↔ ticks = ahead := by
  rw [advance_eq count ticks (by omega) (by omega)]
  split <;> omega

end Advance

/-! ## Tick by tick -/

def tick (last count : Nat) : Nat := if count = last then 0 else count + 1

theorem tick_eq_advance (last count : Nat) (inside : count ≤ last) :
    tick last count = advance (last + 1) count 1 := by
  rw [advance_eq count 1 (by omega) (by omega), tick]
  split <;> split <;> omega

theorem iterate_tick (last count ticks : Nat) (inside : count ≤ last) :
    (tick last)^[ticks] count = advance (last + 1) count ticks := by
  induction ticks with
  | zero => exact (advance_zero count (by omega)).symm
  | succ ticks ih =>
      have below : advance (last + 1) count ticks < last + 1 := advance_lt count ticks (by omega)
      rw [Function.iterate_succ_apply', ih, tick_eq_advance _ _ (by omega), ← advance_add]

end Foundation.CyclicCounter
