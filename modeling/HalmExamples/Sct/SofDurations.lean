import HalmExamples.Sct.SofInterleaving
import Mathlib.Data.List.Pairwise

/-!
# Measured durations against the true ticks

The handler runs atomically here, so its four accesses are one step.  The
counter has 16 bits while the history of the events is kept in unbounded
ticks; the measured duration is their difference modulo `2^16`, and zero until
two events were seen since the timer was last enabled.
-/

set_option autoImplicit false

namespace HalmExamples.Sct

open Foundation

structure Clocked where
  machine : Machine
  /-- `COUNT_PART` at tick zero. -/
  origin : Nat
  /-- Timer ticks so far; a halted counter has none. -/
  ticks : Nat
  /-- The ticks of the events since `tmrEnable`, newest first. -/
  times : Kind → List Nat

inductive Action where
  | enable
  | disable
  | advance (count : Nat)
  | capture (kind : Kind)
  | handle
  deriving DecidableEq

def stamp (origin tick : Nat) : UInt16 := UInt16.ofNat (origin + tick)

def Machine.handleAtomically (machine : Machine) : Machine :=
  { machine with
    timer := (interruptHandler machine.timer machine.regs).1
    regs := (interruptHandler machine.timer machine.regs).2 }

def Clocked.step (state : Clocked) : Action → Option Clocked
  | .enable => some { state with machine := state.machine.enable, times := fun _ => [] }
  | .disable => some { state with
      machine := { state.machine with regs := tmrDisable state.machine.regs } }
  | .advance count =>
      if state.machine.regs.halt = true then none
      else some { state with ticks := state.ticks + count }
  | .capture kind =>
      if state.machine.regs.halt = true ∨ state.machine.Unserved kind then none
      else some { state with
        machine := state.machine.latch kind (stamp state.origin state.ticks)
        times := Function.update state.times kind (state.ticks :: state.times kind) }
  | .handle =>
      if state.machine.regs.evflag &&& state.machine.timer.mask ≠ 0 then
        some { state with machine := state.machine.handleAtomically }
      else none

/-- After a successful `tmrInit` and one `sctSofSetSampleRate`: the flags of
the two events are clear and the counter is halted. -/
def Clocked.initialized (frequency rate : UInt32) (events : Events) (regs : Registers)
    (origin : Nat) : Clocked :=
  let timer := sctSofSetSampleRate (SctSof.initialized frequency events) rate
  { machine := ⟨timer, { regs.writeEvflag timer.mask with halt := true }, .idle, fun _ => []⟩
    origin := origin, ticks := 0, times := fun _ => [] }

/-- The true distance of the last two events modulo the counter's range, zero
with fewer than two. -/
def trueDuration : List Nat → Nat
  | latest :: before :: _ => (latest - before) % 2 ^ 16
  | _ => 0

/-! ## The atomic handler is the interleaved one left alone -/

theorem handler_steps (machine : Machine) (idle : machine.handler = .idle)
    (flagged : machine.regs.evflag &&& machine.timer.mask ≠ 0) :
    Schedule.run Machine.step [.handler, .handler, .handler, .handler] machine =
      some machine.handleAtomically := by
  cases machine with
  | mk timer regs handler seen =>
      cases idle
      simp only [Schedule.run, Machine.step, Machine.handlerStep, if_pos flagged]
      rfl

theorem inv_handleAtomically (machine : Machine) (inv : machine.Inv)
    (idle : machine.handler = .idle)
    (flagged : machine.regs.evflag &&& machine.timer.mask ≠ 0) :
    machine.handleAtomically.Inv := by
  have steps := handler_steps machine idle flagged
  refine Schedule.run_preserves Machine.step WindowFree Machine.Inv inv_step _ machine _ inv ?_
    steps
  simp only [Schedule.Along, WindowFree, true_and]
  repeat' split
  all_goals trivial

theorem handleAtomically_served (machine : Machine) (idle : machine.handler = .idle)
    (kind : Kind) : ¬ machine.handleAtomically.Unserved kind := by
  rintro (flagged | held)
  · have events : (interruptHandler machine.timer machine.regs).1.events =
        machine.timer.events := by
      rw [interruptHandler, serve_events, serve_events]
    rw [Machine.FlagSet, Machine.handleAtomically] at flagged
    simp only [events] at flagged
    exact writeEvflag_mask machine.timer machine.regs kind flagged
  · simp [Machine.Holds, Machine.handleAtomically, Handler.Holds, idle] at held

/-! ## The invariant over time -/

structure Clocked.Inv (state : Clocked) : Prop where
  machine : state.machine.Inv
  idle : state.machine.handler = .idle
  stamped : ∀ kind, state.machine.seen kind = (state.times kind).map (stamp state.origin)
  ordered : ∀ kind, (state.ticks :: state.times kind).Pairwise (· ≥ ·)

theorem clocked_inv_initialized (frequency rate : UInt32) (events : Events) (regs : Registers)
    (origin : Nat) : (Clocked.initialized frequency rate events regs origin).Inv := by
  refine ⟨?_, rfl, fun _ => rfl, fun _ => List.pairwise_singleton ..⟩
  apply inv_fresh _ rfl
  · intro kind
    exact writeEvflag_mask _ regs kind
  · intro kind
    cases kind <;> exact ⟨rfl, rfl, rfl⟩

theorem inv_disable (machine : Machine) (inv : machine.Inv) :
    Machine.Inv { machine with regs := tmrDisable machine.regs } :=
  ⟨inv.read_exactly, inv.held_clear, inv.latched, inv.followed⟩

theorem clocked_inv_advance (state : Clocked) (count : Nat) (inv : state.Inv) :
    Clocked.Inv { state with ticks := state.ticks + count } := by
  refine ⟨inv.machine, inv.idle, inv.stamped, ?_⟩
  intro kind
  obtain ⟨latest, older⟩ := List.pairwise_cons.mp (inv.ordered kind)
  refine List.pairwise_cons.mpr ⟨?_, older⟩
  intro tick member
  exact le_trans (latest tick member) (Nat.le_add_right _ _)

theorem clocked_inv_capture (state : Clocked) (kind : Kind) (inv : state.Inv)
    (served : ¬ state.machine.Unserved kind) :
    Clocked.Inv { state with
      machine := state.machine.latch kind (stamp state.origin state.ticks)
      times := Function.update state.times kind (state.ticks :: state.times kind) } := by
  have free : state.machine.handler.hasRead = false := by rw [inv.idle]; rfl
  refine ⟨inv_event state.machine kind _ inv.machine free served, inv.idle, ?_, ?_⟩
  · intro other
    by_cases same : other = kind
    · subst same
      simp [Machine.latch, inv.stamped other]
    · simp [Machine.latch, Function.update_of_ne same, inv.stamped other]
  · intro other
    by_cases same : other = kind
    · subst same
      simp only [Function.update_self]
      refine List.pairwise_cons.mpr ⟨?_, inv.ordered other⟩
      intro tick member
      rcases List.mem_cons.mp member with rfl | older
      · exact le_refl _
      · exact (List.pairwise_cons.mp (inv.ordered other)).1 tick older
    · simp only [Function.update_of_ne same]
      exact inv.ordered other

theorem clocked_inv_step (state : Clocked) (action : Action) (next : Clocked)
    (inv : state.Inv) (step : state.step action = some next) : next.Inv := by
  cases action with
  | enable =>
      cases step
      exact ⟨inv_enable state.machine, rfl, fun _ => rfl, fun _ => List.pairwise_singleton ..⟩
  | disable =>
      cases step
      exact ⟨inv_disable state.machine inv.machine, inv.idle, inv.stamped, inv.ordered⟩
  | advance count =>
      simp only [Clocked.step] at step
      split at step
      · contradiction
      · cases step
        exact clocked_inv_advance state count inv
  | capture kind =>
      simp only [Clocked.step] at step
      split at step
      · contradiction
      · rename_i free
        cases step
        exact clocked_inv_capture state kind inv fun unserved => free (Or.inr unserved)
  | handle =>
      simp only [Clocked.step] at step
      split at step
      · rename_i flagged
        cases step
        exact ⟨inv_handleAtomically state.machine inv.machine inv.idle flagged, inv.idle,
          inv.stamped, inv.ordered⟩
      · contradiction

/-! ## What the durations mean -/

theorem stamp_difference (origin latest before : Nat) (ordered : before ≤ latest) :
    (narrow16 (((stamp origin latest).toNat : Int) - ((stamp origin before).toNat : Int))).toNat =
      (latest - before) % 2 ^ 16 := by
  have difference := narrow16_toNat
    (((stamp origin latest).toNat : Int) - ((stamp origin before).toNat : Int))
  simp only [stamp, UInt16.toNat_ofNat'] at difference ⊢
  omega

theorem duration_of_follows (measurement : Measurement) (origin : Nat) (times : List Nat)
    (ordered : times.Pairwise (· ≥ ·))
    (follows : Follows measurement (times.map (stamp origin))) :
    measurement.duration.toNat = trueDuration times := by
  cases times with
  | nil => rw [follows.2]; rfl
  | cons latest rest =>
      cases rest with
      | nil => rw [follows.2.2]; rfl
      | cons before older =>
          have newer : before ≤ latest :=
            (List.pairwise_cons.mp ordered).1 before (List.mem_cons_self ..)
          rw [follows.2.2]
          exact stamp_difference origin latest before newer

theorem duration_short (state : Clocked) (inv : state.Inv) (kind : Kind)
    (short : (state.times kind).length < 2) :
    (state.machine.timer.measurement kind).duration.toNat = 0 := by
  have ordered := (List.pairwise_cons.mp (inv.ordered kind)).2
  by_cases unserved : state.machine.Unserved kind
  · -- the only event is still to be served
    obtain ⟨rest, seen, follows⟩ := inv.machine.latched kind unserved
    have lengths := congrArg List.length (inv.stamped kind)
    rw [seen, List.length_map, List.length_cons] at lengths
    have empty : rest = [] := List.eq_nil_of_length_eq_zero (by omega)
    rw [empty] at follows
    rw [follows.2]
    rfl
  · have follows := inv.machine.followed kind unserved
    rw [inv.stamped kind] at follows
    rw [duration_of_follows _ _ _ ordered follows]
    cases times : state.times kind with
    | nil => rfl
    | cons latest rest =>
        rw [times, List.length_cons] at short
        have empty : rest = [] := List.eq_nil_of_length_eq_zero (by omega)
        rw [empty]
        rfl

theorem ratio_zero (timer : SctSof) (kind : Kind)
    (zero : (timer.measurement kind).duration.toNat = 0) : sctSofGetRatio timer = some 0 := by
  have guard : timer.mws.duration.toNat = 0 ∨ timer.sof.duration.toNat = 0 ∨
      timer.rate.toNat = 0 := by
    cases kind with
    | i2s => exact Or.inl zero
    | usb => exact Or.inr (Or.inl zero)
  simp only [sctSofGetRatio, if_pos guard]
  rfl

/-- Over every sequence of enabling, disabling and capture events: the
durations after a handler run, and the ratio at any time. -/
theorem sof_durations_measured (frequency rate : UInt32) (events : Events) (regs : Registers)
    (origin : Nat) (actions : List Action) (final : Clocked)
    (reached : Schedule.run Clocked.step actions
      (Clocked.initialized frequency rate events regs origin) = some final) :
    (actions.getLast? = some .handle → ∀ kind,
      (final.machine.timer.measurement kind).duration.toNat = trueDuration (final.times kind)) ∧
    ∀ kind, (final.times kind).length < 2 →
      sctSofGetRatio final.machine.timer = some 0 := by
  have start := clocked_inv_initialized frequency rate events regs origin
  refine ⟨?_, ?_⟩
  · intro last kind
    obtain ⟨earlier, rfl⟩ : ∃ earlier, actions = earlier ++ [.handle] :=
      List.getLast?_eq_some_iff.mp last
    rw [Schedule.run_append] at reached
    obtain ⟨before, first, handled⟩ := Option.bind_eq_some_iff.mp reached
    have inv := Schedule.run_invariant Clocked.step Clocked.Inv clocked_inv_step earlier _ before
      start first
    have step : before.step .handle = some final := by
      simp only [Schedule.run] at handled
      cases taken : before.step .handle with
      | none => simp [taken] at handled
      | some next => simpa [taken] using handled
    have after := clocked_inv_step before .handle final inv step
    have served : ¬ final.machine.Unserved kind := by
      simp only [Clocked.step] at step
      split at step
      · cases step
        exact handleAtomically_served before.machine inv.idle kind
      · contradiction
    have follows := after.machine.followed kind served
    rw [after.stamped kind] at follows
    exact duration_of_follows _ _ _ (List.pairwise_cons.mp (after.ordered kind)).2 follows
  · intro kind short
    have inv := Schedule.run_invariant Clocked.step Clocked.Inv clocked_inv_step actions _ final
      start reached
    exact ratio_zero _ kind (duration_short final inv kind short)

/-- Two starts of frame 70000 ticks apart. -/
def slowFrames : List Action :=
  [.enable, .capture .usb, .handle, .advance 70000, .capture .usb, .handle]

theorem sof_slow_frames_measured :
    ∃ final, Schedule.run Clocked.step slowFrames
        (Clocked.initialized 0 48000 exampleTimer.events clearedRegisters 65000) = some final ∧
      (final.machine.timer.measurement .usb).duration.toNat = 70000 % 2 ^ 16 ∧
      sctSofGetRatio final.machine.timer = some 0 := by
  have measured := sof_durations_measured 0 48000 exampleTimer.events clearedRegisters 65000
    slowFrames _ rfl
  exact ⟨_, rfl, measured.1 rfl .usb, measured.2 .i2s (by decide)⟩

end HalmExamples.Sct
