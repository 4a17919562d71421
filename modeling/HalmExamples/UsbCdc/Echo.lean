import HalmExamples.Foundation.Channel
import HalmExamples.UsbCdc.Program

/-!
# Both echo examples are lossless

Each port with the part of the buffer that belongs to it is a channel.  Every statement
of either loop and every arrival is a step of that channel, or leaves it; the two
examples differ only in where they look whether there is more to read.
-/

set_option autoImplicit false

namespace HalmExamples.UsbCdc

open Foundation

/-! ## The two calls -/

section Calls

variable {size : Nat}

theorem Transfer.rest_of_empty (transfer : Transfer size) (empty : transfer.length = 0) :
    transfer.rest = [] := by
  rw [Transfer.rest, empty, window, List.take_zero]

theorem ifRead_eq_some (count : Nat) (port next : Port) (buffer : Region UInt8 size)
    (transfer : Transfer size) (read : ifRead count port buffer = some (next, transfer)) :
    next = { port with input := port.input.drop count } ∧
      transfer.rest = port.input.take count ∧ transfer.length = count ∧
      (count = 0 → port.input = []) := by
  unfold ifRead at read
  split at read
  · rename_i fits
    cases read
    refine ⟨rfl, ?_, rfl, fits.2.2⟩
    have taken := window_splice buffer.cells (port.input.take count) 0 (Nat.zero_le _)
    rw [List.length_take, Nat.min_eq_left fits.2.1] at taken
    exact taken
  · simp at read

theorem ifWrite_eq_some (count : Nat) (port next : Port) (transfer after : Transfer size)
    (wrote : ifWrite count port transfer = some (next, after)) :
    ∃ passed, next = { port with output := port.output ++ passed } ∧
      transfer.rest = passed ++ after.rest := by
  unfold ifWrite at wrote
  split at wrote
  · rename_i part
    cases wrote
    exact ⟨_, rfl, window_split transfer.buffer.cells transfer.position transfer.length count part⟩
  · simp at wrote

end Calls

/-- What has arrived at a port has been written to it in order, but for what is in the
buffer and what has not been read. -/
structure Echoed (port : Port) (unwritten : List UInt8) : Prop where
  in_order : port.output <+: port.received
  lossless : port.received = port.output ++ unwritten ++ port.input

/-! ## One port -/

namespace Single

variable {size : Nat}

def unwritten (machine : Machine size) : List UInt8 :=
  match machine.control with
  | .checkLength | .writeData => machine.transfer.rest
  | _ => []

def draining : Control → Bool
  | .wait | .clearEvent => false
  | .checkAvailable | .readData | .checkLength | .writeData => true

def channel (machine : Machine size) : Channel UInt8 :=
  { received := machine.port.received
    input := machine.port.input
    transit := unwritten machine
    written := machine.port.output
    flag := machine.event
    draining := draining machine.control }

theorem mainStep_refines (count : Nat) (machine next : Machine size)
    (taken : mainStep count machine = some next) :
    Channel.Step (channel machine) (channel next) := by
  obtain ⟨port, transfer, event, control⟩ := machine
  cases control with
  | wait =>
      simp only [mainStep] at taken
      split at taken <;> cases taken <;> exact .still _
  | clearEvent =>
      cases taken
      exact .begin (channel ⟨port, transfer, event, .clearEvent⟩) rfl
  | checkAvailable =>
      simp only [mainStep] at taken
      split at taken
      · rename_i empty
        cases taken
        exact .rest (channel ⟨port, transfer, event, .checkAvailable⟩)
          (List.length_eq_zero_iff.mp empty) rfl
      · cases taken
        exact .still _
  | readData =>
      simp only [mainStep] at taken
      cases read : ifRead count port transfer.buffer with
      | none => simp [read] at taken
      | some result =>
          obtain ⟨nextPort, nextTransfer⟩ := result
          obtain ⟨isPort, isRest, isLength, onlyEmpty⟩ := ifRead_eq_some _ _ _ _ _ read
          simp only [read] at taken
          cases taken
          cases isPort
          by_cases none : count = 0
          · have empty := onlyEmpty none
            have same : channel ⟨{ port with input := port.input.drop count }, nextTransfer, event,
                if nextTransfer.length = 0 then .wait else .checkLength⟩ =
                { channel ⟨port, transfer, event, .readData⟩ with draining := false } := by
              simp [channel, unwritten, draining, isLength, none]
            rw [same]
            exact .rest _ empty rfl
          · have same : channel ⟨{ port with input := port.input.drop count }, nextTransfer, event,
                if nextTransfer.length = 0 then .wait else .checkLength⟩ =
                { channel ⟨port, transfer, event, .readData⟩ with
                  input := port.input.drop count, transit := port.input.take count } := by
              simp [channel, unwritten, draining, isLength, none, isRest]
            rw [same]
            exact .take (channel ⟨port, transfer, event, .readData⟩) count rfl rfl
  | checkLength =>
      simp only [mainStep] at taken
      split at taken
      · rename_i empty
        cases taken
        have same : channel ⟨port, transfer, event, .readData⟩ =
            channel ⟨port, transfer, event, .checkLength⟩ := by
          simp only [channel, unwritten, draining, transfer.rest_of_empty empty]
        rw [same]
        exact .still _
      · cases taken
        exact .still _
  | writeData =>
      simp only [mainStep] at taken
      cases wrote : ifWrite count port transfer with
      | none => simp [wrote] at taken
      | some result =>
          obtain ⟨nextPort, nextTransfer⟩ := result
          obtain ⟨passed, isPort, split⟩ := ifWrite_eq_some _ _ _ _ _ wrote
          simp only [wrote] at taken
          cases taken
          cases isPort
          exact .put (channel ⟨port, transfer, event, .writeData⟩) passed nextTransfer.rest split

theorem step_refines (machine next : Machine size) (label : Label)
    (taken : step machine label = some next) :
    Channel.Step (channel machine) (channel next) := by
  cases label with
  | main count => exact mainStep_refines count machine next taken
  | arrival bytes =>
      cases taken
      exact .arrive (channel machine) bytes

structure Safe (machine : Machine size) : Prop where
  echoed : Echoed machine.port (unwritten machine)
  complete : machine.control = .wait → machine.event = false →
    machine.port.output = machine.port.received

theorem run_safe (buffer : Region UInt8 size) (labels : List Label) (final : Machine size)
    (done : Schedule.run step labels (initialMachine buffer) = some final) : Safe final := by
  have sound := Schedule.run_invariant step (fun machine => (channel machine).Sound)
    (fun machine label next before taken => (step_refines machine next label taken).sound before)
    labels (initialMachine buffer) final ⟨rfl, nofun, nofun⟩ done
  refine ⟨⟨sound.in_order, sound.lossless⟩, ?_⟩
  intro waits unflagged
  exact sound.all_written unflagged (by rw [channel, waits]; rfl)

end Single

/-! ## Two ports -/

namespace Composite

variable {size : Nat}

def current : Control → Option (Fin streamCount)
  | .readData i | .checkLength i | .writeData i | .checkAvailable i => some i
  | _ => none

/-- The port that the bytes in the buffer belong to. -/
def holder : Control → Option (Fin streamCount)
  | .checkLength i | .writeData i => some i
  | _ => none

def unwritten (machine : Machine size) (i : Fin streamCount) : List UInt8 :=
  if holder machine.control = some i then machine.transfer.rest else []

def channel (machine : Machine size) (i : Fin streamCount) : Channel UInt8 :=
  { received := (machine.streams i).stream.received
    input := (machine.streams i).stream.input
    transit := unwritten machine i
    written := (machine.streams i).stream.output
    flag := (machine.streams i).event
    draining := decide (current machine.control = some i) }

theorem current_of_holder (control : Control) (i : Fin streamCount)
    (holds : holder control = some i) : current control = some i := by
  cases control with
  | checkLength | writeData => exact holds
  | _ => cases holds

theorem unwritten_of_not_holder (machine : Machine size) (i : Fin streamCount)
    (holds : holder machine.control ≠ some i) : unwritten machine i = [] :=
  if_neg holds

theorem step_elsewhere (machine next : Machine size) (i : Fin streamCount)
    (same : next.streams i = machine.streams i) (before : current machine.control ≠ some i)
    (after : current next.control ≠ some i) :
    Channel.Step (channel machine i) (channel next i) := by
  have none : ∀ control, current control ≠ some i → holder control ≠ some i :=
    fun control other holds => other (current_of_holder control i holds)
  have unseen : channel next i = channel machine i := by
    simp only [channel, same, unwritten_of_not_holder machine i (none _ before),
      unwritten_of_not_holder next i (none _ after), before, after]
  rw [unseen]
  exact .still _

theorem mainStep_refines (count : Nat) (machine next : Machine size) (i : Fin streamCount)
    (taken : mainStep count machine = some next) :
    Channel.Step (channel machine i) (channel next i) := by
  have other : ∀ j, i ≠ j → some j ≠ some i :=
    fun j different same => different (Option.some.inj same).symm
  obtain ⟨streams, transfer, event, control⟩ := machine
  cases control with
  | clearLocal =>
      cases taken
      exact step_elsewhere _ _ i rfl nofun nofun
  | poll | checkPoll =>
      simp only [mainStep] at taken
      split at taken <;> cases taken <;> exact step_elsewhere _ _ i rfl nofun nofun
  | checkStream j =>
      simp only [mainStep] at taken
      split at taken
      · split at taken <;> cases taken <;> exact step_elsewhere _ _ i rfl nofun nofun
      · cases taken
        exact step_elsewhere _ _ i rfl nofun nofun
  | clearEvent j =>
      cases taken
      by_cases here : i = j
      · subst here
        have begun : channel ⟨Function.update streams i { streams i with event := false }, transfer,
            event, .readData i⟩ i =
            { channel ⟨streams, transfer, event, .clearEvent i⟩ i with
              flag := false, draining := true } := by
          simp [channel, unwritten, holder, current]
        exact begun ▸ .begin _ rfl
      · exact step_elsewhere _ _ i (Function.update_of_ne here _ _) nofun (other j here)
  | readData j =>
      simp only [mainStep] at taken
      cases read : ifRead count (streams j).stream transfer.buffer with
      | none => simp [read] at taken
      | some result =>
          obtain ⟨port, after⟩ := result
          obtain ⟨isPort, isRest, -, -⟩ := ifRead_eq_some _ _ _ _ _ read
          simp only [read] at taken
          cases taken
          by_cases here : i = j
          · subst here
            have took : channel ⟨Function.update streams i { streams i with stream := port }, after,
                event, .checkLength i⟩ i =
                { channel ⟨streams, transfer, event, .readData i⟩ i with
                  input := (streams i).stream.input.drop count
                  transit := (streams i).stream.input.take count } := by
              simp [channel, unwritten, holder, current, isPort, isRest]
            exact took ▸ .take (channel ⟨streams, transfer, event, .readData i⟩ i) count
              (decide_eq_true rfl) rfl
          · exact step_elsewhere _ _ i (Function.update_of_ne here _ _) (other j here)
              (other j here)
  | checkLength j =>
      simp only [mainStep] at taken
      split at taken
      · rename_i empty
        cases taken
        by_cases here : i = j
        · subst here
          have same : channel ⟨streams, transfer, event, .checkAvailable i⟩ i =
              channel ⟨streams, transfer, event, .checkLength i⟩ i := by
            simp [channel, unwritten, holder, current, transfer.rest_of_empty empty]
          exact same ▸ .still _
        · exact step_elsewhere _ _ i rfl (other j here) (other j here)
      · cases taken
        exact .still _
  | writeData j =>
      simp only [mainStep] at taken
      cases wrote : ifWrite count (streams j).stream transfer with
      | none => simp [wrote] at taken
      | some result =>
          obtain ⟨port, after⟩ := result
          obtain ⟨passed, isPort, split⟩ := ifWrite_eq_some _ _ _ _ _ wrote
          simp only [wrote] at taken
          cases taken
          by_cases here : i = j
          · subst here
            have put : channel ⟨Function.update streams i { streams i with stream := port }, after,
                event, .checkLength i⟩ i =
                { channel ⟨streams, transfer, event, .writeData i⟩ i with
                  transit := after.rest, written := (streams i).stream.output ++ passed } := by
              simp [channel, unwritten, holder, current, isPort]
            have holds : (channel ⟨streams, transfer, event, .writeData i⟩ i).transit =
                passed ++ after.rest := (if_pos rfl).trans split
            exact put ▸ .put _ passed after.rest holds
          · exact step_elsewhere _ _ i (Function.update_of_ne here _ _) (other j here)
              (other j here)
  | checkAvailable j =>
      simp only [mainStep] at taken
      split at taken
      · cases taken
        exact .still _
      · rename_i empty
        cases taken
        by_cases here : i = j
        · subst here
          have rested : channel ⟨streams, transfer, event, .checkStream (i + 1)⟩ i =
              { channel ⟨streams, transfer, event, .checkAvailable i⟩ i with
                draining := false } := by
            simp [channel, unwritten, holder, current]
          exact rested ▸ .rest _ (List.eq_nil_of_length_eq_zero (Nat.eq_zero_of_not_pos empty)) rfl
        · exact step_elsewhere _ _ i rfl (other j here) nofun

theorem step_refines (machine next : Machine size) (label : Label) (i : Fin streamCount)
    (taken : step machine label = some next) :
    Channel.Step (channel machine i) (channel next i) := by
  cases label with
  | main count => exact mainStep_refines count machine next i taken
  | arrival j bytes =>
      cases taken
      by_cases here : i = j
      · subst here
        have arrived : channel (machine.setStream i
            { stream := (machine.streams i).stream.arrive bytes, event := true }) i =
            { channel machine i with
              received := (machine.streams i).stream.received ++ bytes
              input := (machine.streams i).stream.input ++ bytes
              flag := true } := by
          simp only [channel, unwritten, Machine.setStream, Port.arrive, Function.update_self]
          rfl
        exact arrived ▸ .arrive (channel machine i) bytes
      · have same : channel (machine.setStream j
            { stream := (machine.streams j).stream.arrive bytes, event := true }) i =
            channel machine i := by
          simp only [channel, unwritten, Machine.setStream, Function.update_of_ne here]
          rfl
        exact same ▸ .still _

def Waiting (machine : Machine size) : Prop :=
  (∃ i, machine.control = .poll i) ∨ machine.control = .checkPoll

structure Safe (machine : Machine size) : Prop where
  echoed : ∀ i, Echoed (machine.streams i).stream (unwritten machine i)
  complete : Waiting machine → (∀ i, (machine.streams i).event = false) →
    ∀ i, (machine.streams i).stream.output = (machine.streams i).stream.received

theorem run_safe (buffer : Region UInt8 size) (labels : List Label) (final : Machine size)
    (done : Schedule.run step labels (initialMachine buffer) = some final) : Safe final := by
  have sound := Schedule.run_invariant step (fun machine => ∀ i, (channel machine i).Sound)
    (fun machine label next before taken i =>
      (step_refines machine next label i taken).sound (before i))
    labels (initialMachine buffer) final (fun _ => ⟨rfl, nofun, nofun⟩) done
  refine ⟨fun i => ⟨(sound i).in_order, (sound i).lossless⟩, ?_⟩
  intro waits unflagged i
  have outside : current final.control = none := by
    rcases waits with ⟨index, polls⟩ | checks
    · rw [polls]
      rfl
    · rw [checks]
      rfl
  exact (sound i).all_written (unflagged i) (by rw [channel, outside]; rfl)

end Composite

/-- For every buffer size, with what the buffer holds at first. -/
theorem echo_lossless (size : Nat) (buffer : Region UInt8 size) :
    (∀ labels final,
      Schedule.run Single.step labels (Single.initialMachine buffer) = some final →
        Single.Safe final) ∧
    (∀ labels final,
      Schedule.run Composite.step labels (Composite.initialMachine buffer) = some final →
        Composite.Safe final) :=
  ⟨Single.run_safe buffer, Composite.run_safe buffer⟩

/-- Three bytes for a buffer of two; a byte arrives between two short writes. -/
def shortWrites : List Single.Label :=
  [.arrival [1, 2, 3], .main 0, .main 0, .main 0, .main 2, .main 0, .main 1, .main 0,
   .arrival [4], .main 0, .main 0, .main 1, .main 0, .main 2, .main 0, .main 1]

/-- Bytes for both ports; those of the second are read while the first is idle again. -/
def bothPorts : List Composite.Label :=
  [.arrival 1 [7, 8], .arrival 0 [1], .main 0, .main 0, .main 0, .main 0, .main 0, .main 0, .main 0,
   .main 1, .main 0, .main 1, .main 0, .main 0, .main 0, .main 0, .main 2, .main 0, .main 1]

theorem echo_lossless_short_writes :
    (∃ final, Schedule.run Single.step shortWrites
        (Single.initialMachine (Region.filled 2 0)) = some final ∧
      final.port.output = [1, 2, 3] ∧ Single.unwritten final = [4] ∧ Single.Safe final) ∧
    (∃ final, Schedule.run Composite.step bothPorts
        (Composite.initialMachine (Region.filled 2 0)) = some final ∧
      (final.streams 0).stream.output = [1] ∧ (final.streams 1).stream.output = [7] ∧
        Composite.unwritten final 1 = [8] ∧ Composite.Safe final) := by
  constructor
  · have reached : (Schedule.run Single.step shortWrites
        (Single.initialMachine (Region.filled 2 0))).map
        (fun final => (final.port.output, Single.unwritten final)) = some ([1, 2, 3], [4]) := by
      decide +kernel
    obtain ⟨final, done, view⟩ := Option.map_eq_some_iff.mp reached
    obtain ⟨output, rest⟩ := Prod.mk.inj view
    exact ⟨final, done, output, rest,
      (echo_lossless 2 (Region.filled 2 0)).1 shortWrites final done⟩
  · have reached : (Schedule.run Composite.step bothPorts
        (Composite.initialMachine (Region.filled 2 0))).map
        (fun final => ((final.streams 0).stream.output, (final.streams 1).stream.output,
          Composite.unwritten final 1)) = some ([1], [7], [8]) := by
      decide +kernel
    obtain ⟨final, done, view⟩ := Option.map_eq_some_iff.mp reached
    obtain ⟨first, others⟩ := Prod.mk.inj view
    obtain ⟨second, rest⟩ := Prod.mk.inj others
    exact ⟨final, done, first, second, rest,
      (echo_lossless 2 (Region.filled 2 0)).2 bothPorts final done⟩

end HalmExamples.UsbCdc
