import HalmExamples.TimerFactory.Elapsed
import HalmExamples.Foundation.Schedule
import Mathlib.Logic.Function.Basic

/-!
# The timers that are started again

`generic_default/timer_factory_restarts/main.c`: the timer of the first task stops by itself, and
the task starts it again with the next of five periods.  The other tasks run in between, and
the printed times are right nevertheless.
-/

set_option autoImplicit false

namespace HalmExamples.TimerFactory.Restarts

open Foundation CyclicCounter

/-! ## The program -/

def maxIterations : UInt32 := 10

abbrev maxTimers : Nat := 4

def testTaskPeriods : List UInt32 := [7, 17, 29, 41, 401]

structure Timer where
  overflow : UInt32
  autostop : Bool
  enabled : Bool
  deriving DecidableEq

structure Context extends Generic.Context where
  timer : Timer
  key : Char
  deriving DecidableEq

inductive Outcome where
  | line (printed : Generic.Line)
  | silent
  | raised
  deriving DecidableEq

def periodicTask (overflow timestamp : UInt32) (context : Context) : Outcome × Context :=
  if context.limit = 0 ∨ context.iteration < context.limit then
    if context.key = 'A' then
      let overflow := overflow.toUInt64
      let timestamp := timestamp.toUInt64
      let difference := (timestamp - context.previous).toInt64
      let delta := if difference < 0 then (difference.toUInt64 + overflow).toInt64 else difference
      let failure := decide (delta ≠ context.period.toInt64)
      let period :=
        testTaskPeriods.getD ((context.iteration + 1).toNat % testTaskPeriods.length) 0
      (.line
        { timestamp := timestamp
          iteration := context.iteration
          delta := delta
          failure := failure },
        { context with
          period := period.toUInt64
          timer := { context.timer with overflow := period, enabled := true }
          previous := timestamp
          failures := if failure then context.failures + 1 else context.failures
          iteration := context.iteration + 1 })
    else (.silent, { context with iteration := context.iteration + 1 })
  else (.raised, context)

structure Program where
  contexts : Fin maxTimers → Context
  /-- The value of the factory. -/
  reading : UInt32
  printed : List Generic.Line
  raised : Bool

def initialContext (i : Fin maxTimers) : Context :=
  let period := 7 + 10 * i.val * i.val
  { failures := 0
    iteration := 0
    limit := if i = 0 then maxIterations else 0
    period := UInt64.ofNat period
    previous := 0
    timer := { overflow := UInt32.ofNat period, autostop := decide (i = 0), enabled := true }
    key := Char.ofNat ('A'.toNat + i.val) }

def initialProgram : Program :=
  { contexts := initialContext, reading := 0, printed := [], raised := false }

/-- A timer overflows some ticks after the last one that did. -/
structure Firing where
  timer : Fin maxTimers
  ticks : Nat
  deriving DecidableEq

/-- A timer with `timerSetAutostop` is disabled when it overflows. -/
def Timer.fire (timer : Timer) : Timer :=
  { timer with enabled := timer.enabled && !timer.autostop }

def Outcome.lines : Outcome → List Generic.Line
  | .line printed => [printed]
  | .silent | .raised => []

/-- The signal is handled at some later time, and other timers may overflow until then. -/
def step (overflow : UInt32) (program : Program) (firing : Firing) : Option Program :=
  let context := program.contexts firing.timer
  if context.timer.enabled then
    let timestamp := later overflow program.reading firing.ticks
    let (outcome, next) :=
      periodicTask overflow timestamp { context with timer := context.timer.fire }
    some
      { contexts := Function.update program.contexts firing.timer next
        reading := timestamp
        printed := program.printed ++ outcome.lines
        raised := program.raised || decide (outcome = .raised) }
  else none

/-! ## What the first task should find -/

structure Measured where
  /-- The ticks between the callbacks of the first task. -/
  intervals : List Nat
  pending : Nat

def Measured.add (measured : Measured) (firing : Firing) : Measured :=
  if firing.timer = 0 then
    { intervals := measured.intervals ++ [measured.pending + firing.ticks], pending := 0 }
  else { measured with pending := measured.pending + firing.ticks }

def measure (firings : List Firing) : Measured :=
  firings.foldl Measured.add { intervals := [], pending := 0 }

/-- The period that the timer has been given before its callback of this number. -/
def asked (number : Nat) : Nat :=
  (testTaskPeriods.getD (number % testTaskPeriods.length) 0).toNat

def content (line : Generic.Line) : Nat × Int × Bool :=
  (line.iteration.toNat, line.delta.toInt, line.failure)

def expected (intervals : List Nat) : List (Nat × Int × Bool) :=
  (intervals.take maxIterations.toNat).mapIdx fun number (ticks : Nat) =>
    (number, (ticks : Int), decide (ticks ≠ asked number))

theorem measure_concat (past : List Firing) (firing : Firing) :
    measure (past ++ [firing]) = (measure past).add firing :=
  List.foldl_concat ..

theorem later_later (overflow reading : UInt32) (first second : Nat) (inside : reading < overflow) :
    later overflow (later overflow reading first) second =
      later overflow reading (first + second) := by
  have between := later_lt overflow reading first inside
  apply UInt32.toNat_inj.mp
  rw [later_toNat _ _ _ between, later_toNat _ _ _ inside, later_toNat _ _ _ inside, advance_add]

theorem expected_concat (intervals : List Nat) (ticks : Nat)
    (counted : intervals.length < maxIterations.toNat) :
    expected (intervals ++ [ticks]) =
      expected intervals ++
        [(intervals.length, (ticks : Int), decide (ticks ≠ asked intervals.length))] := by
  unfold expected
  rw [List.take_of_length_le (Nat.le_of_lt counted), List.take_of_length_le, List.mapIdx_concat]
  rw [List.length_append, List.length_singleton]
  exact counted

theorem expected_concat_of_le (intervals : List Nat) (ticks : Nat)
    (enough : maxIterations.toNat ≤ intervals.length) :
    expected (intervals ++ [ticks]) = expected intervals := by
  unfold expected
  rw [List.take_append_of_le_length enough]

theorem later_none (overflow reading : UInt32) (inside : reading < overflow) :
    later overflow reading 0 = reading := by
  apply UInt32.toNat_inj.mp
  rw [later_toNat _ _ _ inside, advance_zero _ (UInt32.lt_iff_toNat_lt.mp inside)]

/-- The first task after its callback of this number, which was at `previous`. -/
structure Armed (number : Nat) (previous : UInt32) (context : Context) : Prop where
  overflow : context.timer.overflow.toNat = asked number
  period : context.period.toNat = asked number
  iteration : context.iteration.toNat = number
  previous : context.previous = previous.toUInt64

structure Fixed (i : Fin maxTimers) (context : Context) : Prop where
  key : context.key = 'A' ↔ i = 0
  limit : context.limit = if i = 0 then maxIterations else 0
  autostop : context.timer.autostop = true ↔ i = 0

theorem asked_next (number : Nat) (iteration : UInt32) (same : iteration.toNat = number)
    (below : number < maxIterations.toNat) :
    (testTaskPeriods.getD ((iteration + 1).toNat % testTaskPeriods.length) 0).toNat =
      asked (number + 1) := by
  have small : maxIterations.toNat < 2 ^ 32 := by decide
  have next : (iteration + 1).toNat = number + 1 := by
    rw [UInt32.toNat_add, same]
    exact Nat.mod_eq_of_lt (Nat.lt_of_le_of_lt below small)
  rw [next]
  rfl

section Callback

variable {overflow previous : UInt32} {ticks number : Nat} {context : Context}

theorem periodicTask_line (armed : Armed number previous context) (first : context.key = 'A')
    (limit : context.limit = maxIterations) (goes : number < maxIterations.toNat)
    (inside : previous < overflow) (short : ticks < overflow.toNat) :
    ∃ line next,
      periodicTask overflow (later overflow previous ticks) context = (.line line, next) ∧
        content line = (number, (ticks : Int), decide (ticks ≠ asked number)) ∧
        Armed (number + 1) (later overflow previous ticks) next ∧
        next.timer.enabled = true ∧ next.timer.autostop = context.timer.autostop ∧
        next.key = context.key ∧ next.limit = context.limit ∧
        next.failures = if line.failure then context.failures + 1 else context.failures := by
  have counted : context.limit = 0 ∨ context.iteration < context.limit := by
    right
    rw [limit, UInt32.lt_iff_toNat_lt, armed.iteration]
    exact goes
  have right := generic_right overflow previous ticks inside short context.toContext
    (fun _ => armed.previous)
  rw [Generic.periodicTask, if_pos counted] at right
  have printed := right _ rfl
  rw [periodicTask, if_pos counted, if_pos first]
  refine ⟨_, _, rfl, ?_, ?_, rfl, rfl, rfl, rfl, rfl⟩
  · have verdict := printed.failure
    rw [armed.period] at verdict
    refine Prod.ext armed.iteration (Prod.ext printed.delta ?_)
    rw [Bool.eq_iff_iff, decide_eq_true_eq]
    exact verdict
  · have next := asked_next number context.iteration armed.iteration goes
    refine ⟨next, ?_, ?_, rfl⟩
    · rw [UInt32.toNat_toUInt64]
      exact next
    · have small : maxIterations.toNat < 2 ^ 32 := by decide
      rw [UInt32.toNat_add, armed.iteration]
      exact Nat.mod_eq_of_lt (Nat.lt_of_le_of_lt goes small)

end Callback

structure Tracked (overflow : UInt32) (measured : Measured) (program : Program) : Prop where
  fixed : ∀ i, Fixed i (program.contexts i)
  reading : program.reading < overflow
  lines : program.printed.map content = expected measured.intervals
  failures : (program.contexts 0).failures.toNat = program.printed.countP Generic.Line.failure
  stage :
    if measured.intervals.length ≤ maxIterations.toNat then
      program.raised = false ∧ (program.contexts 0).timer.enabled = true ∧
        ∃ previous < overflow,
          Armed measured.intervals.length previous (program.contexts 0) ∧
            program.reading = later overflow previous measured.pending
    else
      program.raised = true ∧ (program.contexts 0).timer.enabled = false ∧
        measured.intervals.length = maxIterations.toNat + 1

section Step

variable {overflow : UInt32} {measured : Measured} {program next : Program} {firing : Firing}

theorem step_eq_some (taken : step overflow program firing = some next) :
    (program.contexts firing.timer).timer.enabled = true ∧
      ∃ outcome context,
        periodicTask overflow (later overflow program.reading firing.ticks)
            { program.contexts firing.timer with
              timer := (program.contexts firing.timer).timer.fire } = (outcome, context) ∧
          next =
            { contexts := Function.update program.contexts firing.timer context
              reading := later overflow program.reading firing.ticks
              printed := program.printed ++ outcome.lines
              raised := program.raised || decide (outcome = .raised) } := by
  dsimp only [step] at taken
  split at taken
  · rename_i enabled
    exact ⟨enabled, _, _, rfl, (Option.some.inj taken).symm⟩
  · simp at taken

theorem Fixed.update {contexts : Fin maxTimers → Context} {context : Context} {i : Fin maxTimers}
    (fixed : ∀ j, Fixed j (contexts j)) (here : Fixed i context) (j : Fin maxTimers) :
    Fixed j (Function.update contexts i context j) := by
  by_cases same : j = i
  · subst same
    rw [Function.update_self]
    exact here
  · rw [Function.update_of_ne same]
    exact fixed j

/-- Another task runs: it only counts. -/
theorem Tracked.step_other (tracked : Tracked overflow measured program)
    (other : firing.timer ≠ 0) (taken : step overflow program firing = some next) :
    Tracked overflow (measured.add firing) next := by
  obtain ⟨enabled, outcome, context, called, rfl⟩ := step_eq_some taken
  have fixed := tracked.fixed firing.timer
  have limit : (program.contexts firing.timer).limit = 0 := by
    rw [fixed.limit, if_neg other]
  rw [periodicTask, if_pos (.inl limit), if_neg (fun isFirst => other (fixed.key.mp isFirst))]
    at called
  obtain ⟨rfl, rfl⟩ := Prod.mk.inj called
  have same : Function.update program.contexts firing.timer
      { program.contexts firing.timer with
        iteration := (program.contexts firing.timer).iteration + 1
        timer := (program.contexts firing.timer).timer.fire } 0 = program.contexts 0 :=
    Function.update_of_ne (Ne.symm other) ..
  have added : measured.add firing =
      { measured with pending := measured.pending + firing.ticks } := if_neg other
  rw [added]
  refine ⟨Fixed.update tracked.fixed ⟨fixed.key, fixed.limit, fixed.autostop⟩,
    later_lt _ _ _ tracked.reading, ?_, ?_, ?_⟩
  · simp only [Outcome.lines, List.append_nil]
    exact tracked.lines
  · simp only [Outcome.lines, List.append_nil, same]
    exact tracked.failures
  · have stage := tracked.stage
    simp only [same, Bool.or_false, reduceCtorEq, decide_false]
    split at stage
    · rename_i counted
      obtain ⟨quiet, armed, previous, inside, here, reading⟩ := stage
      rw [if_pos counted]
      refine ⟨quiet, armed, previous, inside, here, ?_⟩
      rw [reading, later_later _ _ _ _ inside]
    · rename_i counted
      rw [if_neg counted]
      exact stage

theorem expected_length_le (intervals : List Nat) :
    (expected intervals).length ≤ maxIterations.toNat := by
  rw [expected, List.length_mapIdx]
  exact List.length_take_le ..

/-- The first task runs: it prints a line, and is armed for the next, or it ends the program. -/
theorem Tracked.step_first (tracked : Tracked overflow measured program)
    (isFirst : firing.timer = 0) (short : measured.pending + firing.ticks < overflow.toNat)
    (taken : step overflow program firing = some next) :
    Tracked overflow (measured.add firing) next := by
  obtain ⟨enabled, outcome, context, called, rfl⟩ := step_eq_some taken
  have added : measured.add firing =
      { intervals := measured.intervals ++ [measured.pending + firing.ticks], pending := 0 } :=
    if_pos isFirst
  have longer : (measured.intervals ++ [measured.pending + firing.ticks]).length =
      measured.intervals.length + 1 := by
    rw [List.length_append, List.length_singleton]
  rw [isFirst] at enabled called
  rw [added, isFirst]
  have fixed := tracked.fixed 0
  have limit : (program.contexts 0).limit = maxIterations := fixed.limit
  have stage := tracked.stage
  split at stage
  case isFalse =>
    rw [enabled] at stage
    exact absurd stage.2.1 (by decide)
  case isTrue counted =>
  obtain ⟨quiet, -, previous, inside, armed, reading⟩ := stage
  have fired : Armed measured.intervals.length previous
      { program.contexts 0 with timer := (program.contexts 0).timer.fire } :=
    ⟨armed.overflow, armed.period, armed.iteration, armed.previous⟩
  rw [reading, later_later _ _ _ _ inside] at called ⊢
  by_cases goes : measured.intervals.length < maxIterations.toNat
  · obtain ⟨line, after, returned, written, rearmed, started, autostop, key, same, failures⟩ :=
      periodicTask_line fired (fixed.key.mpr rfl) limit goes inside short
    obtain ⟨rfl, rfl⟩ := Prod.mk.inj (called.symm.trans returned)
    refine ⟨Fixed.update tracked.fixed ⟨?_, ?_, ?_⟩, later_lt _ _ _ inside, ?_, ?_, ?_⟩
    · rw [key]
      exact fixed.key
    · rw [same]
      exact fixed.limit
    · rw [autostop]
      exact fixed.autostop
    · rw [Outcome.lines, List.map_append, tracked.lines, expected_concat _ _ goes,
        List.map_singleton, written]
    · have few := List.countP_le_length (p := Generic.Line.failure) (l := program.printed)
      have length := expected_length_le measured.intervals
      rw [← tracked.lines, List.length_map] at length
      dsimp only
      rw [Function.update_self, failures, Outcome.lines, List.countP_append, List.countP_singleton,
        ← tracked.failures]
      cases line.failure
      · rfl
      · rw [if_pos rfl, if_pos rfl, UInt32.toNat_add]
        have ten : maxIterations.toNat = 10 := rfl
        have one : UInt32.toNat 1 = 1 := rfl
        rw [tracked.failures]
        exact Nat.mod_eq_of_lt (by omega)
    · simp only [longer, if_pos (Nat.succ_le_of_lt goes), Function.update_self, quiet]
      exact ⟨rfl, started, _, later_lt _ _ _ inside, rearmed,
        (later_none _ _ (later_lt _ _ _ inside)).symm⟩
  · have last : measured.intervals.length = maxIterations.toNat :=
      Nat.le_antisymm counted (Nat.le_of_not_lt goes)
    have ended : ¬ ((program.contexts 0).limit = 0 ∨
        (program.contexts 0).iteration < (program.contexts 0).limit) := by
      rw [limit, UInt32.lt_iff_toNat_lt, armed.iteration, last]
      decide
    rw [periodicTask, if_neg ended] at called
    obtain ⟨rfl, rfl⟩ := Prod.mk.inj called
    refine ⟨Fixed.update tracked.fixed ⟨fixed.key, fixed.limit, fixed.autostop⟩,
      later_lt _ _ _ inside, ?_, ?_, ?_⟩
    · rw [Outcome.lines, List.append_nil, expected_concat_of_le _ _ (Nat.le_of_eq last.symm)]
      exact tracked.lines
    · dsimp only
      rw [Outcome.lines, List.append_nil, Function.update_self]
      exact tracked.failures
    · simp only [longer, last, if_neg (Nat.not_succ_le_self _), Function.update_self, quiet]
      refine ⟨rfl, ?_, trivial⟩
      rw [Timer.fire, enabled, fixed.autostop.mpr rfl]
      rfl

theorem Tracked.step (tracked : Tracked overflow measured program)
    (short : ∀ ticks ∈ (measured.add firing).intervals, ticks < overflow.toNat)
    (taken : step overflow program firing = some next) :
    Tracked overflow (measured.add firing) next := by
  by_cases isFirst : firing.timer = 0
  · refine tracked.step_first isFirst (short _ ?_) taken
    rw [Measured.add, if_pos isFirst]
    exact List.mem_append_right _ (List.mem_singleton_self _)
  · exact tracked.step_other isFirst taken

end Step

/-! ## Whole runs -/

theorem tracked_initial (overflow : UInt32) (positive : 0 < overflow) :
    Tracked overflow (measure []) initialProgram where
  fixed := fun i => by
    match i with
    | 0 | 1 | 2 | 3 => exact ⟨by decide, by decide, by decide⟩
  reading := positive
  lines := rfl
  failures := rfl
  stage := by
    rw [if_pos (by decide)]
    exact ⟨rfl, rfl, 0, positive, ⟨rfl, rfl, rfl, rfl⟩,
      (later_none overflow 0 positive).symm⟩

theorem Measured.mem_add {measured : Measured} {firing : Firing} {ticks : Nat}
    (member : ticks ∈ measured.intervals) : ticks ∈ (measured.add firing).intervals := by
  unfold Measured.add
  split
  · exact List.mem_append_left _ member
  · exact member

theorem tracked_run (overflow : UInt32) (positive : 0 < overflow) (firings : List Firing)
    (final : Program) (done : Schedule.run (step overflow) firings initialProgram = some final)
    (short : ∀ ticks ∈ (measure firings).intervals, ticks < overflow.toNat) :
    Tracked overflow (measure firings) final := by
  have history := Schedule.run_history (step overflow) (fun firing => [firing])
    (fun _ _ => True)
    (fun past program => (∀ ticks ∈ (measure past).intervals, ticks < overflow.toNat) →
      Tracked overflow (measure past) program)
    (fun past program firing next tracked _ taken short => by
      rw [measure_concat] at short ⊢
      exact (tracked fun ticks member => short ticks (Measured.mem_add member)).step short taken)
    firings [] initialProgram final (fun _ => tracked_initial overflow positive)
    (Schedule.along_true (step overflow) firings initialProgram) done
  rw [List.nil_append, List.flatMap_singleton'] at history
  exact history short

/-- However the other tasks run in between: the lines of the first task tell the true times, they
complain of exactly those that are not the period asked for, the timer is started again with the
next period each time, and the eleventh callback ends the program. -/
theorem restarts_checked (overflow : UInt32) (positive : 0 < overflow) (firings : List Firing)
    (final : Program) (done : Schedule.run (step overflow) firings initialProgram = some final)
    (short : ∀ ticks ∈ (measure firings).intervals, ticks < overflow.toNat) :
    let intervals := (measure firings).intervals
    final.printed.map content = expected intervals ∧
      (final.contexts 0).failures.toNat = final.printed.countP Generic.Line.failure ∧
      (final.raised = true ↔ maxIterations.toNat < intervals.length) ∧
      (if final.raised then
        (final.contexts 0).timer.enabled = false ∧ intervals.length = maxIterations.toNat + 1
      else
        (final.contexts 0).timer.enabled = true ∧
          (final.contexts 0).timer.overflow.toNat = asked intervals.length) := by
  intro intervals
  have tracked := tracked_run overflow positive firings final done short
  refine ⟨tracked.lines, tracked.failures, ?_⟩
  have stage := tracked.stage
  split at stage
  · rename_i counted
    obtain ⟨quiet, enabled, previous, inside, armed, reading⟩ := stage
    rw [quiet]
    exact ⟨iff_of_false Bool.false_ne_true (Nat.not_lt.mpr counted), enabled, armed.overflow⟩
  · rename_i counted
    obtain ⟨ended, stopped, last⟩ := stage
    rw [ended]
    exact ⟨iff_of_true rfl (Nat.lt_of_not_le counted), stopped, last⟩

/-- Two periods in time and one that is a tick short, the other tasks in between. -/
def threeLines : List Firing :=
  [⟨0, 7⟩, ⟨1, 10⟩, ⟨0, 7⟩, ⟨2, 20⟩, ⟨3, 0⟩, ⟨0, 8⟩, ⟨1, 990⟩]

theorem restarts_checked_three_lines :
    ∃ final, Schedule.run (step 1000) threeLines initialProgram = some final ∧
      final.printed.map content = [(0, 7, false), (1, 17, false), (2, 28, true)] := by
  have returned :
      (Schedule.run (step 1000) threeLines initialProgram).isSome = true := by decide +kernel
  obtain ⟨final, done⟩ := Option.isSome_iff_exists.mp returned
  refine ⟨final, done, ?_⟩
  rw [(restarts_checked 1000 (by decide) threeLines final done (by decide)).1]
  rfl

end HalmExamples.TimerFactory.Restarts
