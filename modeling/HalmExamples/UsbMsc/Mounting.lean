import HalmExamples.Foundation.Schedule
import HalmExamples.Foundation.Simulation
import HalmExamples.UsbMsc.Program

/-!
# Cards that come and go

Whatever the order of the events: the device never holds a card that has been given up, every
card is given up once at most and none is forgotten, and when the loop waits with nothing to
do, a card that is there works.
-/

set_option autoImplicit false

namespace HalmExamples.UsbMsc

open Foundation

/-! ## The interface behind the wrapper -/

section Wrapper
variable {State : Type}

inductive Operation where
  | getParam (parameter : Halm.Parameter)
  | setParam (parameter : Halm.Parameter) (value : Nat)
  | read (length : Nat)
  | write (buffer : Nat → UInt8) (length : Nat)

inductive Answer where
  | value (value : Option Nat)
  | accepted (accepted : Bool)
  | data (data : List UInt8)
  | count (count : Nat)

def perform (interface : Halm.Interface State) (state : State) : Operation → Answer × State
  | .getParam parameter => (.value (interface.getParam state parameter), state)
  | .setParam parameter value =>
      let result := interface.setParam state parameter value
      (.accepted result.1, result.2)
  | .read length =>
      let result := interface.read state length
      (.data result.1, result.2)
  | .write buffer length =>
      let result := interface.write state buffer length
      (.count result.1, result.2)

/-- Whether the LED is lit that `lights` switches on and a release switches off. -/
def litAfter (ifRelease : Int) (lights : Operation → Bool) (before : Bool) : List Operation → Bool
  | [] => before
  | operation :: rest =>
      litAfter ifRelease lights
        (match operation with
        | .setParam parameter _ => if parameter = .other ifRelease then false else before
        | _ => before || lights operation) rest

def Operation.isRead : Operation → Bool
  | .read _ => true
  | _ => false

def Operation.isWrite : Operation → Bool
  | .write _ _ => true
  | _ => false

/-- Nobody can tell the wrapper from the driver behind it, and the LEDs show which transfers
there were since the last release. -/
theorem wrapper_transparent (pipe : Halm.Interface State) (ifRelease : Int)
    (operations : List Operation) (wrapper : InterfaceWrapper State) :
    let wrapped := Simulation.answers (perform (wrapperClass pipe ifRelease)) operations wrapper
    let plain := Simulation.answers (perform pipe) operations wrapper.pipe
    wrapped.1 = plain.1 ∧ wrapped.2.pipe = plain.2 ∧
      wrapped.2.rx = litAfter ifRelease Operation.isRead wrapper.rx operations ∧
      wrapped.2.tx = litAfter ifRelease Operation.isWrite wrapper.tx operations := by
  induction operations generalizing wrapper with
  | nil => exact ⟨rfl, rfl, rfl, rfl⟩
  | cons operation rest ih =>
      have later := ih (perform (wrapperClass pipe ifRelease) wrapper operation).2
      simp only [Simulation.answers]
      cases operation with
      | getParam parameter =>
          simpa [litAfter, perform, Operation.isRead, Operation.isWrite, wrapperClass,
            interfaceGetParam] using later
      | setParam parameter value =>
          by_cases release : parameter = .other ifRelease
          · simpa [litAfter, perform, wrapperClass, interfaceSetParam, release] using later
          · simpa [litAfter, perform, wrapperClass, interfaceSetParam, release] using later
      | read length =>
          simpa [litAfter, perform, Operation.isRead, Operation.isWrite, wrapperClass,
            interfaceRead] using later
      | write buffer length =>
          simpa [litAfter, perform, Operation.isRead, Operation.isWrite, wrapperClass,
            interfaceWrite] using later

end Wrapper

/-! ## The card and the unit -/

/-- Every card that was created is in use or freed, not both, and no card is freed twice. -/
structure Accounted (machine : Machine) : Prop where
  made : ∀ card, machine.card = some card → card < machine.created
  past : ∀ card ∈ machine.freed, card < machine.created
  once : machine.freed.Nodup
  all : ∀ card < machine.created, card ∈ machine.freed ∨ machine.card = some card

def Live (machine : Machine) : Prop :=
  ∀ card, machine.card = some card → card ∉ machine.freed

/-- The card is the unit, and a failure of it has not been missed. -/
structure Mounted (machine : Machine) : Prop where
  live : Live machine
  unit : machine.unit = machine.card
  working : machine.unit = none → machine.failed = false

structure Unmounted (machine : Machine) : Prop where
  unit : machine.unit = none
  working : machine.failed = false

def Stage (hasLed : Bool) (machine : Machine) : Prop :=
  match machine.control with
  | .wait =>
      Mounted machine ∧ (machine.event = false → machine.failed = false) ∧
        (hasLed = true → machine.led = machine.card.isNone)
  | .clearEvent | .testCard =>
      Mounted machine ∧ (hasLed = true → machine.led = machine.card.isNone)
  | .probeLed => Unmounted machine ∧ machine.card = none
  | .probe => Unmounted machine ∧ machine.card = none ∧ (hasLed = true → machine.led = false)
  | .attach =>
      Unmounted machine ∧ Live machine ∧ machine.card ≠ none ∧
        (hasLed = true → machine.led = false)
  | .probeResult =>
      Mounted machine ∧ (machine.event = false → machine.failed = false) ∧
        (hasLed = true → machine.led = false)
  | .testFailed =>
      Mounted machine ∧ machine.card ≠ none ∧ (hasLed = true → machine.led = false)
  | .detach => Mounted machine ∧ machine.card ≠ none
  | .deinit => Unmounted machine ∧ Live machine ∧ machine.card ≠ none
  | .forget => Unmounted machine ∧ ∀ card, machine.card = some card → card ∈ machine.freed
  | .failLed => Unmounted machine ∧ machine.card = none

structure Sound (hasLed : Bool) (machine : Machine) : Prop where
  accounted : Accounted machine
  stage : Stage hasLed machine

section Steps
variable {hasLed : Bool} {machine next : Machine}

@[simp] theorem writeLed_card (lit : Bool) : (machine.writeLed hasLed lit).card = machine.card := by
  cases hasLed <;> rfl

@[simp] theorem writeLed_created (lit : Bool) :
    (machine.writeLed hasLed lit).created = machine.created := by
  cases hasLed <;> rfl

@[simp] theorem writeLed_freed (lit : Bool) :
    (machine.writeLed hasLed lit).freed = machine.freed := by
  cases hasLed <;> rfl

@[simp] theorem writeLed_unit (lit : Bool) : (machine.writeLed hasLed lit).unit = machine.unit := by
  cases hasLed <;> rfl

@[simp] theorem writeLed_failed (lit : Bool) :
    (machine.writeLed hasLed lit).failed = machine.failed := by
  cases hasLed <;> rfl

@[simp] theorem writeLed_event (lit : Bool) :
    (machine.writeLed hasLed lit).event = machine.event := by
  cases hasLed <;> rfl

theorem writeLed_led (lit : Bool) (valid : hasLed = true) :
    (machine.writeLed hasLed lit).led = lit := by
  rw [Machine.writeLed, if_pos valid]

theorem Accounted.same (accounted : Accounted machine) (card : next.card = machine.card)
    (created : next.created = machine.created) (freed : next.freed = machine.freed) :
    Accounted next where
  made := by rw [card, created]; exact accounted.made
  past := by rw [created, freed]; exact accounted.past
  once := by rw [freed]; exact accounted.once
  all := by rw [card, created, freed]; exact accounted.all

theorem Accounted.create (accounted : Accounted machine) (none : machine.card = none)
    (card : next.card = some machine.created) (created : next.created = machine.created + 1)
    (freed : next.freed = machine.freed) : Accounted next ∧ Live next := by
  refine ⟨⟨?_, ?_, ?_, ?_⟩, ?_⟩
  · intro number is
    rw [card, Option.some_inj] at is
    omega
  · intro number member
    rw [freed] at member
    have before := accounted.past number member
    omega
  · rw [freed]
    exact accounted.once
  · intro number below
    rw [freed, card]
    by_cases new : number = machine.created
    · exact Or.inr (congrArg some new.symm)
    · refine Or.inl ((accounted.all number (by omega)).resolve_right ?_)
      rw [none]
      intro is
      cases is
  · intro number is member
    rw [card, Option.some_inj] at is
    rw [freed] at member
    have before := accounted.past number member
    omega

theorem Accounted.free (accounted : Accounted machine) (live : Live machine)
    (card : next.card = machine.card) (created : next.created = machine.created)
    (freed : next.freed = machine.freed ++ machine.card.toList) :
    Accounted next ∧ ∀ number, next.card = some number → number ∈ next.freed := by
  cases is : machine.card with
  | none =>
      rw [is, Option.toList_none, List.append_nil] at freed
      refine ⟨accounted.same card created freed, fun number here => ?_⟩
      rw [card, is] at here
      cases here
  | some number =>
      rw [is, Option.toList_some] at freed
      refine ⟨⟨?_, ?_, ?_, ?_⟩, ?_⟩
      · rw [card, created]
        exact accounted.made
      · intro other member
        rw [freed, List.mem_append, List.mem_singleton] at member
        rw [created]
        rcases member with before | same
        · exact accounted.past other before
        · exact same ▸ accounted.made number is
      · rw [freed, List.nodup_append]
        refine ⟨accounted.once, by simp, fun one member other same => ?_⟩
        rw [List.mem_singleton.mp same]
        rintro rfl
        exact live one is member
      · intro other below
        rw [created] at below
        rw [freed, card]
        exact (accounted.all other below).imp (List.mem_append_left _) id
      · intro other here
        rw [card, is, Option.some_inj] at here
        rw [freed, ← here]
        exact List.mem_append_right _ (List.mem_singleton_self number)

theorem Accounted.forget (accounted : Accounted machine)
    (gone : ∀ card, machine.card = some card → card ∈ machine.freed) (card : next.card = none)
    (created : next.created = machine.created) (freed : next.freed = machine.freed) :
    Accounted next where
  made := by
    rw [card]
    intro number is
    cases is
  past := by rw [created, freed]; exact accounted.past
  once := by rw [freed]; exact accounted.once
  all := by
    intro number below
    rw [created] at below
    rw [freed]
    exact Or.inl ((accounted.all number below).elim id (gone number))

theorem Live.same (live : Live machine) (card : next.card = machine.card)
    (freed : next.freed = machine.freed) : Live next := by
  intro number is
  rw [card] at is
  rw [freed]
  exact live number is

theorem Mounted.same (mounted : Mounted machine) (card : next.card = machine.card)
    (freed : next.freed = machine.freed) (unit : next.unit = machine.unit)
    (failed : next.failed = machine.failed) : Mounted next where
  live := mounted.live.same card freed
  unit := by rw [unit, card]; exact mounted.unit
  working := by rw [unit, failed]; exact mounted.working

theorem Unmounted.mounted (unmounted : Unmounted machine) (none : machine.card = none)
    (card : next.card = machine.card) (unit : next.unit = machine.unit)
    (failed : next.failed = machine.failed) : Mounted next where
  live := by
    intro number is
    rw [card, none] at is
    cases is
  unit := by rw [unit, card, unmounted.unit, none]
  working := fun _ => failed.trans unmounted.working

theorem isNone_of_ne_none {card : Option Nat} (some : card ≠ none) : card.isNone = false := by
  cases card with
  | none => exact absurd rfl some
  | some number => rfl

theorem sound_statement (sound : Sound hasLed machine) (found : Bool) :
    Sound hasLed (statement hasLed found machine) := by
  obtain ⟨accounted, stage⟩ := sound
  unfold Stage at stage
  cases here : machine.control with
  | wait =>
      rw [here] at stage
      simp only [statement, here]
      split
      · exact ⟨accounted.same rfl rfl rfl, stage.1.same rfl rfl rfl rfl, stage.2.2⟩
      · exact ⟨accounted, by rw [Stage, here]; exact stage⟩
  | clearEvent =>
      rw [here] at stage
      simp only [statement, here]
      exact ⟨accounted.same rfl rfl rfl, stage.1.same rfl rfl rfl rfl, stage.2⟩
  | testCard =>
      rw [here] at stage
      simp only [statement, here]
      refine ⟨accounted.same rfl rfl rfl, ?_⟩
      by_cases none : machine.card = none
      · simp only [if_pos none]
        have unit := stage.1.unit.trans none
        exact ⟨⟨unit, stage.1.working unit⟩, none⟩
      · simp only [if_neg none]
        exact ⟨stage.1.same rfl rfl rfl rfl, none,
          fun valid => (stage.2 valid).trans (isNone_of_ne_none none)⟩
  | probeLed =>
      rw [here] at stage
      simp only [statement, here]
      refine ⟨accounted.same (by simp) (by simp) (by simp), ⟨?_, ?_⟩, ?_, fun valid => ?_⟩
      · simpa using stage.1.unit
      · simpa using stage.1.working
      · simpa using stage.2
      · exact writeLed_led false valid
  | probe =>
      rw [here] at stage
      obtain ⟨unmounted, none, dark⟩ := stage
      simp only [statement, here]
      cases found with
      | true =>
          let created : Machine := { machine with
            card := some machine.created
            created := machine.created + 1
            control := .attach }
          obtain ⟨after, live⟩ : Accounted created ∧ Live created :=
            accounted.create none rfl rfl rfl
          exact ⟨after, ⟨unmounted.unit, unmounted.working⟩, live, Option.some_ne_none _, dark⟩
      | false =>
          exact ⟨accounted.same rfl rfl rfl, unmounted.mounted none rfl rfl rfl,
            fun _ => unmounted.working, dark⟩
  | attach =>
      rw [here] at stage
      simp only [statement, here]
      exact ⟨accounted.same rfl rfl rfl, ⟨stage.2.1.same rfl rfl, rfl, fun _ => rfl⟩,
        fun _ => rfl, stage.2.2.2⟩
  | probeResult =>
      rw [here] at stage
      obtain ⟨mounted, noticed, dark⟩ := stage
      simp only [statement, here]
      by_cases none : machine.card = none
      · simp only [if_pos none]
        refine ⟨accounted.same (by simp) (by simp) (by simp), mounted.same (by simp) (by simp)
          (by simp) (by simp), ?_, fun valid => ?_⟩
        · simpa using noticed
        · refine (writeLed_led true valid).trans ?_
          simp [none]
      · simp only [if_neg none]
        exact ⟨accounted.same rfl rfl rfl, mounted.same rfl rfl rfl rfl, noticed,
          fun valid => (dark valid).trans (isNone_of_ne_none none).symm⟩
  | testFailed =>
      rw [here] at stage
      obtain ⟨mounted, some, dark⟩ := stage
      simp only [statement, here]
      refine ⟨accounted.same rfl rfl rfl, ?_⟩
      by_cases failed : machine.failed = true
      · simp only [if_pos failed]
        exact ⟨mounted.same rfl rfl rfl rfl, some⟩
      · simp only [if_neg failed]
        exact ⟨mounted.same rfl rfl rfl rfl, fun _ => Bool.eq_false_iff.mpr failed,
          fun valid => (dark valid).trans (isNone_of_ne_none some).symm⟩
  | detach =>
      rw [here] at stage
      simp only [statement, here]
      exact ⟨accounted.same rfl rfl rfl, ⟨rfl, rfl⟩, stage.1.live.same rfl rfl, stage.2⟩
  | deinit =>
      rw [here] at stage
      simp only [statement, here]
      let freed : Machine := { machine with
        freed := machine.freed ++ machine.card.toList
        control := .forget }
      obtain ⟨after, gone⟩ : Accounted freed ∧
          ∀ number, freed.card = some number → number ∈ freed.freed :=
        accounted.free stage.2.1 rfl rfl rfl
      exact ⟨after, ⟨stage.1.unit, stage.1.working⟩, gone⟩
  | forget =>
      rw [here] at stage
      simp only [statement, here]
      exact ⟨accounted.forget stage.2 rfl rfl rfl, ⟨stage.1.unit, stage.1.working⟩, rfl⟩
  | failLed =>
      rw [here] at stage
      obtain ⟨unmounted, none⟩ := stage
      simp only [statement, here]
      refine ⟨accounted.same (by simp) (by simp) (by simp), unmounted.mounted none (by simp)
        (by simp) (by simp), ?_, fun valid => ?_⟩
      · intro _
        simpa using unmounted.working
      · refine (writeLed_led true valid).trans ?_
        simp [none]

/-- An event between two statements; only a card that is the unit can fail. -/
theorem sound_interrupt (sound : Sound hasLed machine) (failed : Bool)
    (known : machine.unit = none → failed = machine.failed) :
    Sound hasLed { machine with failed := failed, event := true } := by
  obtain ⟨accounted, stage⟩ := sound
  refine ⟨accounted.same rfl rfl rfl, ?_⟩
  have mounted (control : Control) (before : Mounted machine) :
      Mounted { machine with failed := failed, event := true, control := control } :=
    ⟨before.live.same rfl rfl, before.unit, fun none =>
      (known none).trans (before.working none)⟩
  have unmounted (control : Control) (before : Unmounted machine) :
      Unmounted { machine with failed := failed, event := true, control := control } :=
    ⟨before.unit, (known before.unit).trans before.working⟩
  unfold Stage at stage ⊢
  cases here : machine.control with
  | wait | probeResult =>
      simp only [here] at stage ⊢
      exact ⟨mounted _ stage.1, fun never => absurd never (by simp), stage.2.2⟩
  | clearEvent | testCard | testFailed | detach =>
      simp only [here] at stage ⊢
      exact ⟨mounted _ stage.1, stage.2⟩
  | probeLed | probe | attach | deinit | forget | failLed =>
      simp only [here] at stage ⊢
      exact ⟨unmounted _ stage.1, stage.2⟩

theorem sound_step (sound : Sound hasLed machine) (label : Label)
    (taken : step hasLed machine label = some next) : Sound hasLed next := by
  cases label with
  | main found =>
      cases taken
      exact sound_statement sound found
  | event =>
      cases taken
      exact sound_interrupt sound machine.failed fun _ => rfl
  | failure =>
      simp only [step] at taken
      split at taken
      · cases taken
      · rename_i unit
        cases taken
        exact sound_interrupt sound true fun none => absurd none unit

theorem sound_initial (hasLed : Bool) : Sound hasLed (initialMachine hasLed) where
  accounted :=
    { made := fun card is => by cases is
      past := fun card member => by cases member
      once := List.nodup_nil
      all := fun card below => absurd below (Nat.not_lt_zero card) }
  stage :=
    ⟨{ live := fun card is => by cases is
       unit := rfl
       working := fun _ => rfl }, fun _ => rfl, fun valid => valid⟩

theorem sound_run (labels : List Label) (final : Machine)
    (done : Schedule.run (step hasLed) labels (initialMachine hasLed) = some final) :
    Sound hasLed final :=
  Schedule.run_invariant (step hasLed) (Sound hasLed)
    (fun _ label _ sound taken => sound_step sound label taken) labels (initialMachine hasLed) final
    (sound_initial hasLed) done

theorem unit_live (sound : Sound hasLed machine) (number : Nat)
    (unit : machine.unit = some number) :
    machine.card = some number ∧ number ∉ machine.freed := by
  have mounted (before : Mounted machine) :
      machine.card = some number ∧ number ∉ machine.freed := by
    have card := before.unit.symm.trans unit
    exact ⟨card, before.live number card⟩
  have unmounted (before : Unmounted machine) :
      machine.card = some number ∧ number ∉ machine.freed := by
    rw [before.unit] at unit
    cases unit
  obtain ⟨_, stage⟩ := sound
  unfold Stage at stage
  split at stage <;> first | exact mounted stage.1 | exact unmounted stage.1

end Steps

/-! ## Results -/

/-- The card of the unit is never one that was freed, cards are freed once and none is lost;
and whenever the loop waits without an event there is a card that works as the unit, or no
card and no unit, and the LED says which. -/
theorem cards_sound (hasLed : Bool) (labels : List Label) (final : Machine)
    (done : Schedule.run (step hasLed) labels (initialMachine hasLed) = some final) :
    (∀ card, final.unit = some card → final.card = some card ∧ card ∉ final.freed) ∧
      (final.freed.Nodup ∧
        ∀ card < final.created, card ∈ final.freed ∨ final.card = some card) ∧
      (final.control = .wait → final.event = false →
        final.unit = final.card ∧ final.failed = false ∧
          (hasLed = true → final.led = final.card.isNone)) := by
  have sound := sound_run labels final done
  refine ⟨unit_live sound, ⟨sound.accounted.once, sound.accounted.all⟩, fun waiting quiet => ?_⟩
  have stage := sound.stage
  rw [Stage, waiting] at stage
  exact ⟨stage.1.unit, stage.2.1 quiet, stage.2.2⟩

/-- A card that is pulled out and put back. -/
def replugged : List Label :=
  List.replicate 7 (.main true) ++ [.failure] ++ List.replicate 8 (.main false) ++ [.event] ++
    List.replicate 7 (.main true)

theorem cards_sound_replugged :
    ∃ final, Schedule.run (step true) replugged (initialMachine true) = some final ∧
      (final.control = .wait → final.event = false →
        final.unit = final.card ∧ final.failed = false ∧
          (true = true → final.led = final.card.isNone)) := by
  have returned :
      (Schedule.run (step true) replugged (initialMachine true)).isSome = true := rfl
  obtain ⟨final, done⟩ := Option.isSome_iff_exists.mp returned
  exact ⟨final, done, (cards_sound true replugged final done).2.2⟩

/-! ## Waiting again -/

/-- How many statements it takes at most until the loop waits without an event. -/
def Control.remaining : Control → Nat
  | .wait => 0
  | .clearEvent => 7
  | .testCard => 6
  | .probeLed => 4
  | .probe => 3
  | .attach => 2
  | .probeResult => 1
  | .testFailed => 5
  | .detach => 4
  | .deinit => 3
  | .forget => 2
  | .failLed => 1

def remaining (machine : Machine) : Nat :=
  machine.control.remaining +
    (if machine.event = true ∧ machine.control ≠ .clearEvent then 8 else 0)

theorem remaining_le (machine : Machine) : remaining machine ≤ 14 := by
  have bound : machine.control.remaining ≤ 7 := by cases machine.control <;> decide
  unfold remaining
  split
  · rename_i pending
    have other : machine.control.remaining ≤ 6 := by
      cases here : machine.control with
      | clearEvent => exact absurd here pending.2
      | _ => decide
    omega
  · omega

theorem remaining_statement (hasLed found : Bool) (machine : Machine) :
    remaining (statement hasLed found machine) ≤ remaining machine - 1 := by
  cases here : machine.control with
  | wait =>
      cases pending : machine.event <;>
        simp [statement, here, pending, remaining, Control.remaining]
  | testCard =>
      cases pending : machine.event <;> by_cases none : machine.card = none <;>
        simp [statement, here, pending, none, remaining, Control.remaining]
  | testFailed =>
      cases pending : machine.event <;> cases failed : machine.failed <;>
        simp [statement, here, pending, failed, remaining, Control.remaining]
  | probe =>
      cases pending : machine.event <;> cases found <;>
        simp [statement, here, pending, remaining, Control.remaining]
  | probeResult =>
      cases pending : machine.event <;> by_cases none : machine.card = none <;>
        simp [statement, here, pending, none, remaining, Control.remaining]
  | clearEvent => simp [statement, here, remaining, Control.remaining]
  | probeLed | attach | detach | deinit | forget | failLed =>
      cases pending : machine.event <;>
        simp [statement, here, pending, remaining, Control.remaining]

theorem lowers {hasLed : Bool} (machine : Machine) (label : Label) (next : Machine)
    (alone : ∃ probed, label = .main probed) (taken : step hasLed machine label = some next) :
    remaining next ≤ remaining machine - 1 := by
  obtain ⟨probed, rfl⟩ := alone
  cases taken
  exact remaining_statement hasLed probed machine

/-- Wherever the events have left the loop, fourteen statements later it waits, with the card
that failed freed and another one in its place if there was one. -/
theorem cards_settle (hasLed : Bool) (labels : List Label) (reached : Machine)
    (done : Schedule.run (step hasLed) labels (initialMachine hasLed) = some reached)
    (found : List Bool) (enough : 14 ≤ found.length) (settled : Machine)
    (alone : Schedule.run (step hasLed) (found.map Label.main) reached = some settled) :
    settled.control = .wait ∧ settled.event = false ∧ settled.unit = settled.card ∧
      settled.failed = false ∧
      ∀ card < settled.created, card ∈ settled.freed ∨ settled.unit = some card := by
  have sound : Sound hasLed settled :=
    Schedule.run_invariant (step hasLed) (Sound hasLed)
      (fun _ label _ sound taken => sound_step sound label taken) (found.map Label.main) reached
      settled (sound_run labels reached done) alone
  have zero : remaining settled = 0 := by
    have later := Schedule.run_lowers (step hasLed) (fun _ label => ∃ probed, label = .main probed)
      remaining lowers (found.map Label.main) reached settled
      (Schedule.along_map (step hasLed) Label.main found reached) alone
    have bound := remaining_le reached
    rw [List.length_map] at later
    omega
  have waiting : settled.control = .wait := by
    unfold remaining at zero
    cases here : settled.control with
    | wait => rfl
    | _ => simp [here, Control.remaining] at zero
  have quiet : settled.event = false := by
    unfold remaining at zero
    rw [← Bool.not_eq_true]
    intro pending
    simp [waiting, pending] at zero
  have stage := sound.stage
  rw [Stage, waiting] at stage
  have unit : settled.unit = settled.card := stage.1.unit
  refine ⟨waiting, quiet, unit, stage.2.1 quiet, fun card below => ?_⟩
  rw [unit]
  exact sound.accounted.all card below

theorem cards_settle_replugged :
    ∃ reached settled, Schedule.run (step true) (List.replicate 7 (.main true) ++ [.failure])
        (initialMachine true) = some reached ∧
      Schedule.run (step true) ((List.replicate 14 false).map Label.main) reached = some settled ∧
      settled.control = .wait := by
  have returned : ((Schedule.run (step true) (List.replicate 7 (.main true) ++ [.failure])
      (initialMachine true)).bind
        (Schedule.run (step true) ((List.replicate 14 false).map Label.main))).isSome = true := rfl
  obtain ⟨settled, both⟩ := Option.isSome_iff_exists.mp returned
  obtain ⟨reached, done, alone⟩ := Option.bind_eq_some_iff.mp both
  exact ⟨reached, settled, done, alone,
    (cards_settle true _ reached done (List.replicate 14 false) (by simp) settled alone).1⟩

end HalmExamples.UsbMsc
