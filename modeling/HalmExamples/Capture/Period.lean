import HalmExamples.Capture.Program
import Mathlib.Algebra.Group.Nat.Defs

/-!
# Periods across the overflow of the timer

The period is the difference of two captures modulo 2^32, while the timer returns to 0 after
the value it was configured with.  A capture behind the return is taken for one that is later
by what the two moduli differ in.
-/

set_option autoImplicit false

namespace HalmExamples.Capture

open Foundation Foundation.Schedule CyclicCounter

section Period

variable (board : Board)

/-- The period of the signal as it should be, to one hundredth. -/
def Board.Expects (ticks : Nat) : Prop :=
  board.minPeriodValue.toNat ≤ ticks ∧ ticks ≤ board.maxPeriodValue.toNat

instance (ticks : Nat) : Decidable (board.Expects ticks) := by
  unfold Board.Expects
  infer_instance

/-- The LED shows whether the capture came when it was expected. -/
def Measurement.Right (measurement : Measurement) : Prop :=
  measurement.toggled = true ↔ board.Expects measurement.distance

/-- The timer has not returned to 0 since `previous`, or what is read then instead of the true
distance is judged alike. -/
def Board.Clear (previous ticks : Nat) : Prop :=
  board.overflow.toNat ≤ previous + ticks →
    (board.Expects ticks ↔ board.Expects (ticks + 2 ^ 32 - board.overflow.toNat))

instance (previous ticks : Nat) : Decidable (board.Clear previous ticks) := by
  unfold Board.Clear
  infer_instance

theorem accepts_iff (period : UInt32) :
    board.accepts period = true ↔ board.Expects period.toNat := by
  simp [Board.accepts, Board.Expects, UInt32.le_iff_toNat_le]

theorem period_toNat (previous captured : UInt32) (ticks : Nat)
    (inside : previous.toNat < board.overflow.toNat) (short : ticks < board.overflow.toNat)
    (is : captured.toNat = advance board.overflow.toNat previous.toNat ticks) :
    (captured - previous).toNat =
      if previous.toNat + ticks < board.overflow.toNat then ticks
      else ticks + 2 ^ 32 - board.overflow.toNat := by
  have limit := board.overflow.toNat_lt
  rw [UInt32.toNat_sub, is, advance_eq _ _ inside (by omega)]
  split <;> omega

theorem measurement_right_iff (previous captured : UInt32) (ticks : Nat)
    (inside : previous.toNat < board.overflow.toNat) (short : ticks < board.overflow.toNat)
    (is : captured.toNat = advance board.overflow.toNat previous.toNat ticks) :
    Measurement.Right board ⟨ticks, board.accepts (captured - previous)⟩ ↔
      board.Clear previous.toNat ticks := by
  rw [Measurement.Right, accepts_iff, period_toNat board previous captured ticks inside short is]
  by_cases before : previous.toNat + ticks < board.overflow.toNat
  · rw [if_pos before]
    exact iff_of_true Iff.rfl fun returned => absurd before (Nat.not_lt.mpr returned)
  · rw [if_neg before, Board.Clear, forall_prop_of_true (Nat.not_lt.mp before)]
    exact iff_comm

end Period

/-! ## Runs -/

section Runs

variable (board : Board)

def AllRight (machine : Machine) : Prop :=
  ∀ measurement ∈ machine.measured.tail, measurement.Right board

/-- No statement compares a period, other than that of the first capture, for which the return of
the timer makes a difference. -/
def ClearStep (machine : Machine) : Label → Prop
  | .main => machine.control = .measure → machine.measured ≠ [] →
      board.Clear machine.previousTime.toNat machine.distance
  | .capture _ | .overflow => True

instance (machine : Machine) (label : Label) : Decidable (ClearStep board machine label) := by
  cases label <;> unfold ClearStep <;> infer_instance

/-- `previousTime` is the latest capture, or the one before it while that is pending. -/
structure Tracked (machine : Machine) : Prop where
  unflagged : machine.control = .measure → machine.captureEvent = false
  handled : ¬ machine.Pending → machine.previousTime = machine.captured
  inside : 0 < board.overflow.toNat → machine.captured.toNat < board.overflow.toNat ∧
    machine.previousTime.toNat < board.overflow.toNat
  distance : machine.Pending → machine.measured ≠ [] →
    machine.distance < board.overflow.toNat ∧
      machine.captured.toNat =
        advance board.overflow.toNat machine.previousTime.toNat machine.distance

theorem tracked_initial : Tracked board initialMachine :=
  ⟨fun _ => rfl, fun _ => rfl, fun positive => ⟨positive, positive⟩,
    fun pending => absurd pending (by simp [Machine.Pending, initialMachine])⟩

theorem step_unchanged (label : Label) (machine next : Machine) (tracked : Tracked board machine)
    (clear : ClearStep board machine label) (pending : next.Pending ↔ machine.Pending)
    (unflagged : next.control = .measure → next.captureEvent = false)
    (same : next.previousTime = machine.previousTime ∧ next.captured = machine.captured ∧
      next.distance = machine.distance ∧ next.measured = machine.measured) :
    Tracked board next ∧ (AllRight board next ↔ AllRight board machine ∧
      ClearStep board machine label) := by
  obtain ⟨previous, captured, distance, measured⟩ := same
  refine ⟨⟨unflagged, ?_, ?_, ?_⟩, ?_⟩
  · rw [pending, previous, captured]
    exact tracked.handled
  · rw [previous, captured]
    exact tracked.inside
  · rw [pending, previous, captured, distance, measured]
    exact tracked.distance
  · rw [AllRight, measured, and_iff_left clear]
    rfl

theorem step_capture (ticks : Nat) (machine next : Machine) (tracked : Tracked board machine)
    (taken : step board machine (.capture ticks) = some next) :
    Tracked board next ∧ (AllRight board next ↔ AllRight board machine ∧
      ClearStep board machine (.capture ticks)) := by
  simp only [step] at taken
  split at taken
  · rename_i guard
    obtain ⟨idle, short⟩ := guard
    cases taken
    have same := tracked.handled idle
    have limit := board.overflow.toNat_lt
    have value (positive : 0 < board.overflow.toNat) :
        (UInt32.ofNat (advance board.overflow.toNat machine.captured.toNat ticks)).toNat =
          advance board.overflow.toNat machine.captured.toNat ticks := by
      have bound := advance_lt machine.captured.toNat ticks positive
      rw [UInt32.toNat_ofNat', Nat.mod_eq_of_lt (by omega)]
    refine ⟨⟨fun measures => absurd (Or.inr measures) idle,
      fun handled => absurd (Or.inl rfl) handled, ?_, ?_⟩, (and_iff_left trivial).symm⟩
    · intro positive
      refine ⟨?_, (tracked.inside positive).2⟩
      rw [value positive]
      exact advance_lt _ _ positive
    · intro _ again
      have inRound := short.resolve_left again
      exact ⟨inRound, by rw [value (by omega), ← same]⟩
  · simp at taken

theorem step_measure (machine : Machine) (tracked : Tracked board machine)
    (measures : machine.control = .measure) :
    Tracked board (mainStep board machine) ∧ (AllRight board (mainStep board machine) ↔
      AllRight board machine ∧ ClearStep board machine .main) := by
  have unflagged := tracked.unflagged measures
  have pending : machine.Pending := Or.inr measures
  have idle : ¬ (mainStep board machine).Pending := by
    simp [Machine.Pending, mainStep, measures, unflagged]
  refine ⟨⟨?_, ?_, ?_, fun more => absurd more idle⟩, ?_⟩
  · intro _
    simp [mainStep, measures, unflagged]
  · intro _
    simp [mainStep, measures]
  · intro positive
    have inside := (tracked.inside positive).1
    simpa [mainStep, measures] using inside
  · have measured : (mainStep board machine).measured = machine.measured ++
        [⟨machine.distance, board.accepts (machine.captured - machine.previousTime)⟩] := by
      simp [mainStep, measures]
    rw [AllRight, measured, AllRight, ClearStep]
    by_cases first : machine.measured = []
    · simp [first]
    · obtain ⟨short, is⟩ := tracked.distance pending first
      have inside := (tracked.inside (by omega)).2
      rw [List.tail_append_of_ne_nil first, List.forall_mem_append, List.forall_mem_singleton,
        measurement_right_iff board _ _ _ inside short is]
      simp [measures, first]

theorem step_right (machine : Machine) (label : Label) (next : Machine)
    (tracked : Tracked board machine) (taken : step board machine label = some next) :
    Tracked board next ∧ (AllRight board next ↔
      AllRight board machine ∧ ClearStep board machine label) := by
  cases label with
  | capture ticks => exact step_capture board ticks machine next tracked taken
  | overflow =>
      cases taken
      exact step_unchanged board .overflow machine _ tracked trivial Iff.rfl tracked.unflagged
        ⟨rfl, rfl, rfl, rfl⟩
  | main =>
      cases taken
      by_cases measures : machine.control = .measure
      · exact step_measure board machine tracked measures
      · have clear : ClearStep board machine .main := fun here => absurd here measures
        cases control : machine.control with
        | measure => exact absurd control measures
        | wait =>
            refine step_unchanged board .main machine _ tracked clear ?_ ?_ ?_ <;>
              unfold mainStep <;> rw [control] <;> dsimp only <;> split <;>
              simp [Machine.Pending, control]
        | checkCapture =>
            refine step_unchanged board .main machine _ tracked clear ?_ ?_ ?_ <;>
              unfold mainStep <;> rw [control] <;> dsimp only <;> split <;>
              simp_all [Machine.Pending]
        | checkOverflow =>
            refine step_unchanged board .main machine _ tracked clear ?_ ?_ ?_ <;>
              simp [mainStep, Machine.Pending, control]

end Runs

end HalmExamples.Capture
