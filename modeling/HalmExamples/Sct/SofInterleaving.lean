import HalmExamples.Foundation.Schedule
import HalmExamples.Sct.SofTimer
import Mathlib.Logic.Function.Basic

/-!
# Hardware events between the accesses of the handler

The handler reads the flags, clears both of them and then serves those it has
read.  A hardware event may come before each of these steps.  An event between
the read and the clearing write loses its flag without having been read, and
that is the only window: without such an event every one is accounted for.
-/

set_option autoImplicit false

namespace HalmExamples.Sct

open Foundation

/-- Where the running handler is, with the flags it has read. -/
inductive Handler where
  | idle
  | read (evflag : BitVec 32)
  | cleared (evflag : BitVec 32)
  | i2sServed (evflag : BitVec 32)
  deriving DecidableEq

structure Machine where
  timer : SctSof
  regs : Registers
  handler : Handler
  /-- The latched values of the events since `tmrEnable`, newest first. -/
  seen : Kind → List UInt16

inductive Label where
  | event (kind : Kind) (value : UInt16)
  | handler
  | enable
  deriving DecidableEq

/-- The running handler has read the flag and not served it yet. -/
def Handler.Holds (events : Events) (kind : Kind) : Handler → Prop
  | .idle => False
  | .read evflag => Flagged evflag (events.of kind)
  | .cleared evflag => Flagged evflag (events.of kind)
  | .i2sServed evflag => kind = .usb ∧ Flagged evflag (events.of kind)

instance (events : Events) (kind : Kind) :
    (handler : Handler) → Decidable (handler.Holds events kind)
  | .idle => isFalse id
  | .read evflag => inferInstanceAs (Decidable (Flagged evflag (events.of kind)))
  | .cleared evflag => inferInstanceAs (Decidable (Flagged evflag (events.of kind)))
  | .i2sServed evflag =>
      inferInstanceAs (Decidable (kind = .usb ∧ Flagged evflag (events.of kind)))

def Machine.Holds (machine : Machine) (kind : Kind) : Prop :=
  machine.handler.Holds machine.timer.events kind

def Machine.FlagSet (machine : Machine) (kind : Kind) : Prop :=
  Flagged machine.regs.evflag (machine.timer.events.of kind)

instance (machine : Machine) (kind : Kind) : Decidable (machine.FlagSet kind) :=
  inferInstanceAs (Decidable (Flagged machine.regs.evflag (machine.timer.events.of kind)))

def Machine.Unserved (machine : Machine) (kind : Kind) : Prop :=
  machine.FlagSet kind ∨ machine.Holds kind

instance (machine : Machine) (kind : Kind) : Decidable (machine.Unserved kind) :=
  inferInstanceAs (Decidable (machine.FlagSet kind ∨
    machine.handler.Holds machine.timer.events kind))

/-- The hardware latches the counter and sets the flag. -/
def Machine.latch (machine : Machine) (kind : Kind) (value : UInt16) : Machine :=
  { machine with
    regs := { machine.regs with
      evflag := machine.regs.evflag ||| bit (machine.timer.events.of kind)
      cap := Function.update machine.regs.cap (machine.timer.events.of kind) value }
    seen := Function.update machine.seen kind (value :: machine.seen kind) }

/-- `tmrEnable`, from which on the events count. -/
def Machine.enable (machine : Machine) : Machine :=
  { timer := (tmrEnable machine.timer machine.regs).1
    regs := (tmrEnable machine.timer machine.regs).2
    handler := .idle
    seen := fun _ => [] }

/-- The next register access of the handler together with what it computes
from it; an idle handler is entered while a flag of the timer is set. -/
def Machine.handlerStep (machine : Machine) : Option Machine :=
  match machine.handler with
  | .idle =>
      if machine.regs.evflag &&& machine.timer.mask ≠ 0 then
        some { machine with handler := .read machine.regs.evflag }
      else none
  | .read evflag =>
      some { machine with
        regs := machine.regs.writeEvflag machine.timer.mask, handler := .cleared evflag }
  | .cleared evflag =>
      some { machine with
        timer := serve .i2s evflag machine.regs machine.timer, handler := .i2sServed evflag }
  | .i2sServed evflag =>
      some { machine with
        timer := serve .usb evflag machine.regs machine.timer, handler := .idle }

def Machine.step (machine : Machine) : Label → Option Machine
  | .event kind value =>
      if machine.regs.halt = true ∨ machine.Unserved kind then none
      else some (machine.latch kind value)
  | .handler => machine.handlerStep
  | .enable =>
      match machine.handler with
      | .idle => some machine.enable
      | _ => none

def Handler.hasRead : Handler → Bool
  | .read _ => true
  | _ => false

/-- No event comes between the read of `EVFLAG` and the write to it. -/
def WindowFree (machine : Machine) : Label → Prop
  | .event _ _ => machine.handler.hasRead = false
  | _ => True

instance (machine : Machine) : (label : Label) → Decidable (WindowFree machine label)
  | .event _ _ => inferInstanceAs (Decidable (_ = false))
  | .handler => isTrue trivial
  | .enable => isTrue trivial

def Machine.Quiescent (machine : Machine) : Prop :=
  machine.handler = .idle ∧ ∀ kind, ¬ machine.FlagSet kind

/-- The fields agree with the latest events of both kinds. -/
def Machine.Accounted (machine : Machine) : Prop :=
  ∀ kind,
    (∀ latest rest, machine.seen kind = latest :: rest →
      (machine.timer.measurement kind).previous = latest) ∧
    (∀ latest before rest, machine.seen kind = latest :: before :: rest →
      (machine.timer.measurement kind).duration =
        narrow16 ((latest.toNat : Int) - (before.toNat : Int)))

/-! ## The invariant -/

structure Machine.Inv (machine : Machine) : Prop where
  read_exactly : ∀ evflag, machine.handler = .read evflag → ∀ kind,
    machine.FlagSet kind ↔ Flagged evflag (machine.timer.events.of kind)
  held_clear : (∀ evflag, machine.handler ≠ .read evflag) → ∀ kind,
    machine.Holds kind → ¬ machine.FlagSet kind
  latched : ∀ kind, machine.Unserved kind →
    ∃ rest, machine.seen kind = machine.regs.cap (machine.timer.events.of kind) :: rest ∧
      Follows (machine.timer.measurement kind) rest
  followed : ∀ kind, ¬ machine.Unserved kind →
    Follows (machine.timer.measurement kind) (machine.seen kind)

theorem flagSet_latch (machine : Machine) (kind other : Kind) (value : UInt16) :
    (machine.latch kind value).FlagSet other ↔ machine.FlagSet other ∨ other = kind := by
  have flags := flagged_or_bit machine.regs.evflag (machine.timer.events.of kind)
    (machine.timer.events.of other)
  rw [Machine.FlagSet, Machine.latch]
  refine flags.trans (or_congr Iff.rfl ⟨fun same => ?_, fun same => by rw [same]⟩)
  exact Events.of_injective _ _ _ same

theorem inv_fresh (machine : Machine) (idle : machine.handler = .idle)
    (clear : ∀ kind, ¬ machine.FlagSet kind)
    (fresh : ∀ kind, machine.seen kind = [] ∧
      (machine.timer.measurement kind).valid = false ∧
      (machine.timer.measurement kind).duration = 0) : machine.Inv := by
  have served : ∀ kind, ¬ machine.Unserved kind := by
    intro kind unserved
    rcases unserved with flagged | held
    · exact clear kind flagged
    · simp [Machine.Holds, Handler.Holds, idle] at held
  refine ⟨?_, ?_, ?_, ?_⟩
  · intro evflag reading
    rw [idle] at reading
    contradiction
  · intro _ kind held
    exact absurd (Or.inr held) (served kind)
  · intro kind unserved
    exact absurd unserved (served kind)
  · intro kind _
    rw [(fresh kind).1]
    exact (fresh kind).2

theorem inv_enable (machine : Machine) : machine.enable.Inv := by
  apply inv_fresh _ rfl
  · intro kind
    exact writeEvflag_mask machine.timer machine.regs kind
  · intro kind
    cases kind <;> exact ⟨rfl, rfl, rfl⟩

theorem inv_event (machine : Machine) (kind : Kind) (value : UInt16) (inv : machine.Inv)
    (free : machine.handler.hasRead = false)
    (served : ¬ machine.Unserved kind) : (machine.latch kind value).Inv := by
  have window : ∀ evflag, machine.handler ≠ .read evflag := by
    intro evflag reading
    rw [reading] at free
    contradiction
  refine ⟨?_, ?_, ?_, ?_⟩
  · intro evflag reading
    exact absurd reading (window evflag)
  · intro _ other held
    rw [flagSet_latch]
    rintro (flagged | same)
    · exact inv.held_clear window other held flagged
    · exact served (same ▸ Or.inr held)
  · intro other unserved
    by_cases same : other = kind
    · subst same
      refine ⟨machine.seen other, ?_, inv.followed other served⟩
      simp [Machine.latch]
    · have before : machine.Unserved other := by
        rcases unserved with flagged | held
        · exact Or.inl (((flagSet_latch machine kind other value).mp flagged).resolve_right same)
        · exact Or.inr held
      obtain ⟨rest, seen, follows⟩ := inv.latched other before
      have event : machine.timer.events.of other ≠ machine.timer.events.of kind := fun equal =>
        same (Events.of_injective _ _ _ equal)
      refine ⟨rest, ?_, follows⟩
      simpa [Machine.latch, Function.update_of_ne same, Function.update_of_ne event] using seen
  · intro other unserved
    have differs : other ≠ kind := fun same =>
      unserved (Or.inl ((flagSet_latch machine kind other value).mpr (Or.inr same)))
    have before : ¬ machine.Unserved other := by
      rintro (flagged | held)
      · exact unserved (Or.inl ((flagSet_latch machine kind other value).mpr (Or.inl flagged)))
      · exact unserved (Or.inr held)
    have follows := inv.followed other before
    simpa [Machine.latch, Function.update_of_ne differs] using follows

theorem inv_read (machine : Machine) (inv : machine.Inv) (idle : machine.handler = .idle) :
    Machine.Inv { machine with handler := .read machine.regs.evflag } := by
  have unserved : ∀ kind, Machine.Unserved { machine with
      handler := .read machine.regs.evflag } kind ↔ machine.Unserved kind := by
    intro kind
    have none_held : ¬ machine.Holds kind := by simp [Machine.Holds, Handler.Holds, idle]
    constructor
    · rintro (flagged | held)
      · exact Or.inl flagged
      · exact Or.inl held
    · rintro (flagged | held)
      · exact Or.inl flagged
      · exact absurd held none_held
  refine ⟨?_, ?_, ?_, ?_⟩
  · intro evflag reading kind
    cases reading
    exact Iff.rfl
  · intro other
    exact absurd rfl (other machine.regs.evflag)
  · intro kind pending
    exact inv.latched kind ((unserved kind).mp pending)
  · intro kind closed
    exact inv.followed kind fun before => closed ((unserved kind).mpr before)

theorem inv_clear (machine : Machine) (evflag : BitVec 32) (inv : machine.Inv)
    (reading : machine.handler = .read evflag) :
    Machine.Inv { machine with
      regs := machine.regs.writeEvflag machine.timer.mask, handler := .cleared evflag } := by
  have cleared : ∀ kind, ¬ Machine.FlagSet { machine with
      regs := machine.regs.writeEvflag machine.timer.mask, handler := .cleared evflag } kind :=
    fun kind => writeEvflag_mask machine.timer machine.regs kind
  have unserved : ∀ kind, Machine.Unserved { machine with
      regs := machine.regs.writeEvflag machine.timer.mask, handler := .cleared evflag } kind ↔
        machine.Unserved kind := by
    intro kind
    have exactly := inv.read_exactly evflag reading kind
    have held : machine.Holds kind ↔ Flagged evflag (machine.timer.events.of kind) := by
      simp [Machine.Holds, Handler.Holds, reading]
    constructor
    · rintro (flagged | holds)
      · exact absurd flagged (cleared kind)
      · exact Or.inr (held.mpr holds)
    · rintro (flagged | holds)
      · exact Or.inr (exactly.mp flagged)
      · exact Or.inr (held.mp holds)
  refine ⟨?_, ?_, ?_, ?_⟩
  · intro other impossible
    cases impossible
  · intro _ kind _
    exact cleared kind
  · intro kind pending
    exact inv.latched kind ((unserved kind).mp pending)
  · intro kind closed
    exact inv.followed kind fun before => closed ((unserved kind).mpr before)

/-- Serving one kind moves it from unserved to served and leaves the other
alone; this is the step of both branches. -/
theorem inv_serve (machine : Machine) (target : Kind) (evflag : BitVec 32) (next : Handler)
    (inv : machine.Inv) (past : ∀ evflag, machine.handler ≠ .read evflag)
    (holding : machine.Holds target ↔ Flagged evflag (machine.timer.events.of target))
    (notReading : ∀ evflag, next ≠ .read evflag)
    (rest : ∀ kind, Machine.Holds { machine with
        timer := serve target evflag machine.regs machine.timer, handler := next } kind ↔
      kind ≠ target ∧ machine.Holds kind) :
    Machine.Inv { machine with
      timer := serve target evflag machine.regs machine.timer, handler := next } := by
  have flagSet : ∀ kind, Machine.FlagSet { machine with
      timer := serve target evflag machine.regs machine.timer, handler := next } kind ↔
        machine.FlagSet kind := by
    intro kind
    simp only [Machine.FlagSet, serve_events]
  have others : ∀ kind, kind ≠ target →
      (serve target evflag machine.regs machine.timer).measurement kind =
        machine.timer.measurement kind := by
    intro kind differs
    rw [serve]
    split
    · rw [record_measurement, if_neg differs]
    · rfl
  have unservedOther : ∀ kind, kind ≠ target → (Machine.Unserved { machine with
      timer := serve target evflag machine.regs machine.timer, handler := next } kind ↔
        machine.Unserved kind) := by
    intro kind differs
    exact or_congr (flagSet kind) ((rest kind).trans (and_iff_right differs))
  have unservedTarget : Machine.Unserved { machine with
      timer := serve target evflag machine.regs machine.timer, handler := next } target ↔
        machine.FlagSet target := by
    refine (or_congr (flagSet target) (rest target)).trans (or_iff_left ?_)
    exact fun held => held.1 rfl
  refine ⟨?_, ?_, ?_, ?_⟩
  · intro other reading
    exact absurd reading (notReading other)
  · intro _ kind held flagged
    exact inv.held_clear past kind ((rest kind).mp held).2 ((flagSet kind).mp flagged)
  · intro kind pending
    by_cases same : kind = target
    · subst same
      have flagged := unservedTarget.mp pending
      have unread : ¬ Flagged evflag (machine.timer.events.of kind) := fun read =>
        inv.held_clear past kind (holding.mpr read) flagged
      have skipped : serve kind evflag machine.regs machine.timer = machine.timer := by
        rw [serve, if_neg (fun nonzero => unread ((and_bit_ne_zero _ _).mp nonzero))]
      simp only [skipped]
      exact inv.latched kind (Or.inl flagged)
    · obtain ⟨older, seen, follows⟩ := inv.latched kind ((unservedOther kind same).mp pending)
      refine ⟨older, ?_, ?_⟩
      · simpa only [serve_events] using seen
      · rw [others kind same]
        exact follows
  · intro kind closed
    by_cases same : kind = target
    · subst same
      have unflagged : ¬ machine.FlagSet kind := fun flagged => closed (unservedTarget.mpr flagged)
      by_cases read : Flagged evflag (machine.timer.events.of kind)
      · obtain ⟨older, seen, follows⟩ := inv.latched kind (Or.inr (holding.mpr read))
        have taken : serve kind evflag machine.regs machine.timer =
            machine.timer.record (machine.regs.cap (machine.timer.events.of kind)) kind := by
          rw [serve, if_pos ((and_bit_ne_zero _ _).mpr read)]
        simp only [taken]
        rw [record_measurement, if_pos rfl, seen]
        exact follows_capture _ _ _ follows
      · have skipped : serve kind evflag machine.regs machine.timer = machine.timer := by
          rw [serve, if_neg (fun nonzero => read ((and_bit_ne_zero _ _).mp nonzero))]
        simp only [skipped]
        apply inv.followed
        rintro (flagged | held)
        · exact unflagged flagged
        · exact read (holding.mp held)
    · rw [others kind same]
      exact inv.followed kind fun before => closed ((unservedOther kind same).mpr before)

theorem inv_handlerStep (machine next : Machine) (inv : machine.Inv)
    (step : machine.handlerStep = some next) : next.Inv := by
  unfold Machine.handlerStep at step
  split at step
  · rename_i idle
    split at step
    · cases step
      exact inv_read machine inv idle
    · contradiction
  · rename_i evflag reading
    cases step
    exact inv_clear machine evflag inv reading
  · rename_i evflag cleared
    cases step
    apply inv_serve machine .i2s evflag (.i2sServed evflag) inv
    · simp [cleared]
    · simp [Machine.Holds, Handler.Holds, cleared]
    · simp
    · intro kind
      cases kind <;> simp [Machine.Holds, Handler.Holds, cleared]
  · rename_i evflag served
    cases step
    apply inv_serve machine .usb evflag .idle inv
    · simp [served]
    · simp [Machine.Holds, Handler.Holds, served]
    · simp
    · intro kind
      cases kind <;> simp [Machine.Holds, Handler.Holds, served]

theorem inv_step (machine : Machine) (label : Label) (next : Machine) (inv : machine.Inv)
    (window : WindowFree machine label) (step : machine.step label = some next) : next.Inv := by
  cases label with
  | event kind value =>
      simp only [Machine.step] at step
      split at step
      · contradiction
      · rename_i free
        cases step
        exact inv_event machine kind value inv window fun unserved => free (Or.inr unserved)
  | handler => exact inv_handlerStep machine next inv step
  | enable =>
      simp only [Machine.step] at step
      split at step
      · cases step
        exact inv_enable machine
      · contradiction

theorem accounted_of_inv (machine : Machine) (inv : machine.Inv)
    (quiescent : machine.Quiescent) : machine.Accounted := by
  obtain ⟨idle, unflagged⟩ := quiescent
  intro kind
  have served : ¬ machine.Unserved kind := by
    rintro (flagged | held)
    · exact unflagged kind flagged
    · simp [Machine.Holds, Handler.Holds, idle] at held
  have follows := inv.followed kind served
  refine ⟨?_, ?_⟩
  · intro latest rest seen
    rw [seen] at follows
    cases rest with
    | nil => exact follows.2.1
    | cons before older => exact follows.2.1
  · intro latest before rest seen
    rw [seen] at follows
    exact follows.2.2

/-- The machine right after `tmrEnable`, whatever the object and the registers
held before. -/
def Machine.started (timer : SctSof) (regs : Registers) : Machine :=
  Machine.enable ⟨timer, regs, .idle, fun _ => []⟩

/-- In every run without an event between the read of the flags and their
clearing, no event is lost. -/
theorem sof_events_accounted (timer : SctSof) (regs : Registers) (labels : List Label)
    (final : Machine)
    (windowFree : Schedule.Along Machine.step WindowFree labels (Machine.started timer regs))
    (reached : Schedule.run Machine.step labels (Machine.started timer regs) = some final)
    (quiescent : final.Quiescent) : final.Accounted := by
  have inv := Schedule.run_preserves Machine.step WindowFree Machine.Inv inv_step labels
    (Machine.started timer regs) final (inv_enable _) windowFree reached
  exact accounted_of_inv final inv quiescent

def exampleTimer : SctSof := SctSof.initialized 0 ⟨2, 5, by decide⟩

def clearedRegisters : Registers := ⟨0, fun _ => 0, false⟩

def servedUsbEvents : List Label :=
  [.event .usb 10, .handler, .handler, .handler, .handler,
    .event .usb 30, .handler, .handler, .handler, .handler]

theorem sof_two_events_accounted :
    ∃ final, Schedule.run Machine.step servedUsbEvents
        (Machine.started exampleTimer clearedRegisters) = some final ∧ final.Accounted := by
  refine ⟨_, rfl, sof_events_accounted exampleTimer clearedRegisters servedUsbEvents _ ?_ rfl ?_⟩
  · decide
  · exact ⟨rfl, fun kind => by cases kind <;> decide⟩

/-- The I2S event comes after the handler has read the USB flag and before it
clears both. -/
theorem sof_event_lost :
    ∃ final, Schedule.run Machine.step
        [.event .usb 10, .handler, .event .i2s 20, .handler, .handler, .handler]
        (Machine.started exampleTimer clearedRegisters) = some final ∧
      final.Quiescent ∧ ¬ final.Accounted := by
  refine ⟨_, rfl, ⟨rfl, fun kind => by cases kind <;> decide⟩, ?_⟩
  intro accounted
  have latest := (accounted .i2s).1 20 [] rfl
  revert latest
  decide

end HalmExamples.Sct
