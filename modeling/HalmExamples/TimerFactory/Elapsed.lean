import HalmExamples.TimerFactory.Program
import Mathlib.Algebra.Group.Int.Defs
import Mathlib.Algebra.Group.Nat.Defs
import Mathlib.Data.List.Forall2

/-!
# The elapsed time between two callbacks

With 64 bits the difference of two readings keeps its sign, and the callback is right for
every counter.  With 32 bits the sign is that of the upper bit of the difference.
-/

set_option autoImplicit false

namespace HalmExamples.TimerFactory

open Foundation CyclicCounter

/-! ## Signed words -/

theorem toInt_toInt32 (word : UInt32) :
    word.toInt32.toInt =
      if word.toNat < 2 ^ 31 then (word.toNat : Int) else word.toNat - 2 ^ 32 := by
  rw [Int32.toInt, UInt32.toInt32, Int32.toBitVec]
  rw [BitVec.toInt_eq_toNat_cond]
  change (if 2 * word.toNat < 2 ^ 32 then (word.toNat : Int)
    else (word.toNat : Int) - (2 ^ 32 : Nat)) = _
  split <;> split <;> omega

theorem toInt_toInt64 (word : UInt64) :
    word.toInt64.toInt =
      if word.toNat < 2 ^ 63 then (word.toNat : Int) else word.toNat - 2 ^ 64 := by
  rw [Int64.toInt, UInt64.toInt64, Int64.toBitVec]
  rw [BitVec.toInt_eq_toNat_cond]
  change (if 2 * word.toNat < 2 ^ 64 then (word.toNat : Int)
    else (word.toNat : Int) - (2 ^ 64 : Nat)) = _
  split <;> split <;> omega

theorem later_toNat (overflow reading : UInt32) (ticks : Nat) (inside : reading < overflow) :
    (later overflow reading ticks).toNat = advance overflow.toNat reading.toNat ticks := by
  have positive := UInt32.lt_iff_toNat_lt.mp inside
  have bound : advance overflow.toNat reading.toNat ticks < overflow.toNat :=
    advance_lt reading.toNat ticks (by omega)
  have limit := overflow.toNat_lt
  rw [later, UInt32.toNat_ofNat', Nat.mod_eq_of_lt (by omega)]

theorem later_lt (overflow reading : UInt32) (ticks : Nat) (inside : reading < overflow) :
    later overflow reading ticks < overflow := by
  have positive := UInt32.lt_iff_toNat_lt.mp inside
  rw [UInt32.lt_iff_toNat_lt, later_toNat overflow reading ticks inside]
  exact advance_lt _ _ (by omega)

theorem toNat_of_toInt32 (word : UInt32) (value : Nat) (same : word.toInt32.toInt = value) :
    word.toNat = value ∧ value < 2 ^ 31 := by
  have limit := word.toNat_lt
  rw [toInt_toInt32] at same
  split at same <;> omega

theorem toInt64_eq_iff (left right : UInt64) : left.toInt64 = right.toInt64 ↔ left = right := by
  constructor
  · intro same
    have back := congrArg Int64.toUInt64 same
    rwa [UInt64.toUInt64_toInt64, UInt64.toUInt64_toInt64] at back
  · exact congrArg UInt64.toInt64

theorem toInt32_lt_zero_iff (word : UInt32) : word.toInt32 < 0 ↔ 2 ^ 31 ≤ word.toNat := by
  have limit := word.toNat_lt
  rw [Int32.lt_iff_toInt_lt, toInt_toInt32, Int32.toInt_zero]
  split <;> omega

theorem toInt64_lt_zero_iff (word : UInt64) : word.toInt64 < 0 ↔ 2 ^ 63 ≤ word.toNat := by
  have limit := word.toNat_lt
  rw [Int64.lt_iff_toInt_lt, toInt_toInt64, Int64.toInt_zero]
  split <;> omega

/-! ## One difference -/

section Difference

variable (overflow previous timestamp : UInt32) (previousInside : previous < overflow)
  (inside : timestamp < overflow)

/-- The difference of the templates as a word. -/
def word32 : UInt32 :=
  let difference := timestamp - previous
  if difference.toInt32 < 0 then difference + overflow else difference

def word64 : UInt64 :=
  let difference := timestamp.toUInt64 - previous.toUInt64
  if difference.toInt64 < 0 then difference + overflow.toUInt64 else difference

include previousInside inside

/-- With 64 bits the difference is negative where the counter has returned, and only there. -/
theorem word64_toNat :
    (word64 overflow previous timestamp).toNat =
      distance overflow.toNat previous.toNat timestamp.toNat := by
  have first := UInt32.lt_iff_toNat_lt.mp previousInside
  have second := UInt32.lt_iff_toNat_lt.mp inside
  have limit := overflow.toNat_lt
  have difference : (timestamp.toUInt64 - previous.toUInt64).toNat =
      (2 ^ 64 - previous.toNat + timestamp.toNat) % 2 ^ 64 := by
    rw [UInt64.toNat_sub, UInt32.toNat_toUInt64, UInt32.toNat_toUInt64]
  rw [word64, distance]
  simp only [toInt64_lt_zero_iff, difference]
  split
  · rw [UInt64.toNat_add, difference, UInt32.toNat_toUInt64, if_neg (by omega)]
    omega
  · rw [difference, if_pos (by omega)]
    omega

/-- With 32 bits the upper bit stands for the sign of a difference that may be larger. -/
theorem word32_eq_iff :
    (word32 overflow previous timestamp).toNat =
        distance overflow.toNat previous.toNat timestamp.toNat ↔
      (previous ≤ timestamp → timestamp.toNat < previous.toNat + 2 ^ 31) ∧
        (timestamp < previous → previous.toNat ≤ timestamp.toNat + 2 ^ 31) := by
  have first := UInt32.lt_iff_toNat_lt.mp previousInside
  have second := UInt32.lt_iff_toNat_lt.mp inside
  have limit := overflow.toNat_lt
  have difference := UInt32.toNat_sub timestamp previous
  rw [word32, distance, UInt32.le_iff_toNat_le, UInt32.lt_iff_toNat_lt]
  simp only [toInt32_lt_zero_iff, difference]
  split
  · rw [UInt32.toNat_add, difference]
    split <;> omega
  · rw [difference]
    split <;> omega

end Difference

/-! ## One callback -/

/-- The reading does not fall by more, and not as many ticks pass, as a signed word can tell. -/
def Measurable (overflow reading ticks : Nat) : Prop :=
  ticks < 2 ^ 31 ∧ (overflow ≤ reading + ticks → overflow ≤ ticks + 2 ^ 31)

instance (overflow reading ticks : Nat) : Decidable (Measurable overflow reading ticks) := by
  unfold Measurable
  infer_instance

/-- The callback has found the true difference, and compares it with the period. -/
structure Template.Right (period : UInt32) (ticks : Nat) (invocation : Template.Invocation) :
    Prop where
  delta : invocation.delta.toInt = ticks
  asserted : invocation.asserted = true ↔ ticks = period.toNat

structure Generic.Right (period : UInt64) (ticks : Nat) (line : Generic.Line) : Prop where
  delta : line.delta.toInt = ticks
  failure : line.failure = true ↔ ticks ≠ period.toNat

/-- Until the task ends the program, it remembers the last reading. -/
def Generic.Context.Synced (context : Generic.Context) (reading : UInt32) : Prop :=
  context.limit = 0 ∨ context.iteration < context.limit → context.previous = reading.toUInt64

theorem Generic.synced_periodicTask (context : Generic.Context) (overflow timestamp : UInt32) :
    (Generic.periodicTask overflow timestamp context).2.Synced timestamp ∧
      (Generic.periodicTask overflow timestamp context).2.period = context.period := by
  unfold Generic.periodicTask
  split
  · exact ⟨fun _ => rfl, rfl⟩
  · rename_i ended
    exact ⟨fun goes => absurd goes ended, rfl⟩

section Step

variable (overflow reading : UInt32) (ticks : Nat) (inside : reading < overflow)
  (short : ticks < overflow.toNat)

theorem template_delta (timestamp : UInt32) (context : Template.Context) :
    (Template.onTimerOverflow overflow timestamp context).1.delta =
      (word32 overflow context.previous timestamp).toInt32 := by
  simp only [Template.onTimerOverflow, word32]
  split <;> simp

include inside short

theorem distance_later :
    distance overflow.toNat reading.toNat (later overflow reading ticks).toNat = ticks := by
  rw [later_toNat overflow reading ticks inside]
  exact distance_advance _ _ (UInt32.lt_iff_toNat_lt.mp inside) short

/-- The signed word is the number of ticks where the word is and fits. -/
theorem template_delta_iff :
    (word32 overflow reading (later overflow reading ticks)).toInt32.toInt = ticks ↔
      Measurable overflow.toNat reading.toNat ticks := by
  have first := UInt32.lt_iff_toNat_lt.mp inside
  have value := later_toNat overflow reading ticks inside
  rw [advance_eq _ _ first (by omega)] at value
  have word := word32_eq_iff overflow reading _ inside (later_lt overflow reading ticks inside)
  rw [distance_later overflow reading ticks inside short, UInt32.le_iff_toNat_le,
    UInt32.lt_iff_toNat_lt, value] at word
  constructor
  · intro same
    have fits := toNat_of_toInt32 _ _ same
    obtain ⟨before, returned⟩ := word.mp fits.1
    refine ⟨fits.2, fun wraps => ?_⟩
    rw [if_neg (by omega)] at returned
    omega
  · rintro ⟨fits, returned⟩
    have same := word.mpr (by constructor <;> intro order <;> split at order <;> split <;> omega)
    rw [toInt_toInt32, if_pos (by omega), same]

theorem template_right_iff (context : Template.Context) (synced : context.previous = reading) :
    Template.Right context.period ticks
        (Template.onTimerOverflow overflow (later overflow reading ticks) context).1 ↔
      Measurable overflow.toNat reading.toNat ticks := by
  have delta := template_delta overflow (later overflow reading ticks) context
  rw [synced] at delta
  rw [← template_delta_iff overflow reading ticks inside short]
  constructor
  · intro right
    rw [← right.delta, delta]
  · intro same
    refine ⟨by rw [delta, same], ?_⟩
    change decide (Int32.toUInt32 (Template.onTimerOverflow overflow (later overflow reading ticks)
      context).1.delta = context.period) = true ↔ _
    rw [delta, UInt32.toUInt32_toInt32, decide_eq_true_eq, ← UInt32.toNat_inj,
      (toNat_of_toInt32 _ _ same).1]

theorem generic_right (context : Generic.Context) (synced : context.Synced reading) :
    ∀ line ∈ (Generic.periodicTask overflow (later overflow reading ticks) context).1,
      Generic.Right context.period ticks line := by
  have word := word64_toNat overflow reading _ inside (later_lt overflow reading ticks inside)
  rw [distance_later overflow reading ticks inside short] at word
  have limit := overflow.toNat_lt
  intro line printed
  unfold Generic.periodicTask at printed
  split at printed
  · rename_i goes
    have delta : line.delta = (word64 overflow reading (later overflow reading ticks)).toInt64 := by
      rw [← Option.some.inj printed, synced goes, word64]
      dsimp only
      split <;> simp
    have failure : line.failure = decide (line.delta ≠ context.period.toInt64) := by
      rw [← Option.some.inj printed]
    refine ⟨?_, ?_⟩
    · rw [delta, toInt_toInt64, if_pos (by omega), word]
    · rw [failure, decide_eq_true_eq, delta, ne_eq, toInt64_eq_iff, ← UInt64.toNat_inj, word]
  · simp at printed

end Step

/-! ## Whole runs -/

/-- The condition at every callback of a run. -/
def AllMeasurable (overflow : UInt32) : List Nat → UInt32 → Prop
  | [], _ => True
  | ticks :: rest, reading =>
      Measurable overflow.toNat reading.toNat ticks ∧
        AllMeasurable overflow rest (later overflow reading ticks)

instance decidableAllMeasurable (overflow : UInt32) :
    (elapsed : List Nat) → (reading : UInt32) → Decidable (AllMeasurable overflow elapsed reading)
  | [], _ => isTrue trivial
  | ticks :: rest, reading =>
      have := decidableAllMeasurable overflow rest (later overflow reading ticks)
      inferInstanceAs (Decidable (Measurable overflow.toNat reading.toNat ticks ∧
        AllMeasurable overflow rest (later overflow reading ticks)))

section Run

variable (overflow : UInt32) (elapsed : List Nat) (reading : UInt32) (inside : reading < overflow)
  (short : ∀ ticks ∈ elapsed, ticks < overflow.toNat)
include inside short

theorem generic_run_right (context : Generic.Context) (synced : context.Synced reading) :
    List.Forall₂ (fun ticks line => ∀ printed ∈ line, Generic.Right context.period ticks printed)
      elapsed (run Generic.periodicTask overflow elapsed reading context) := by
  induction elapsed generalizing reading context with
  | nil => exact .nil
  | cons ticks rest ih =>
      have here := short ticks List.mem_cons_self
      obtain ⟨stays, period⟩ := Generic.synced_periodicTask context overflow
        (later overflow reading ticks)
      have next := ih (later overflow reading ticks) (later_lt overflow reading ticks inside)
        (fun other member => short other (List.mem_cons_of_mem ticks member)) _ stays
      rw [period] at next
      exact .cons (generic_right overflow reading ticks inside here context synced) next

theorem template_run_right_iff (context : Template.Context) (synced : context.previous = reading) :
    List.Forall₂ (Template.Right context.period) elapsed
        (run Template.onTimerOverflow overflow elapsed reading context) ↔
      AllMeasurable overflow elapsed reading := by
  induction elapsed generalizing reading context with
  | nil => exact iff_of_true .nil trivial
  | cons ticks rest ih =>
      have here := short ticks List.mem_cons_self
      have next := ih (later overflow reading ticks) (later_lt overflow reading ticks inside)
        (fun other member => short other (List.mem_cons_of_mem ticks member))
        { context with previous := later overflow reading ticks } rfl
      rw [run, List.forall₂_cons, AllMeasurable,
        template_right_iff overflow reading ticks inside here context synced]
      exact and_congr_right fun _ => next

end Run

/-- A counter of at most half the words is never in the way. -/
theorem allMeasurable_of_small (overflow : UInt32) (elapsed : List Nat) (reading : UInt32)
    (small : overflow.toNat ≤ 2 ^ 31) (short : ∀ ticks ∈ elapsed, ticks < overflow.toNat) :
    AllMeasurable overflow elapsed reading := by
  induction elapsed generalizing reading with
  | nil => trivial
  | cons ticks rest ih =>
      have here := short ticks List.mem_cons_self
      exact ⟨⟨by omega, fun _ => by omega⟩,
        ih _ fun other member => short other (List.mem_cons_of_mem ticks member)⟩

end HalmExamples.TimerFactory
