import HalmExamples.UsbCdc.Echo

/-!
# Both echo examples catch up

Nothing arrives any more: a bound on the statements until the loop sleeps again with
everything echoed.  A write that takes no byte costs two statements, and nothing else delays.
-/

set_option autoImplicit false

namespace HalmExamples.UsbCdc

open Foundation

/-! ## The two calls -/

section Calls

variable {size : Nat}

theorem ifRead_counts (count : Nat) (port next : Port) (buffer : Region UInt8 size)
    (transfer : Transfer size) (read : ifRead count port buffer = some (next, transfer)) :
    transfer.length = count ∧ next.input.length + count = port.input.length ∧
      next.received = port.received ∧ (count = 0 → port.input.length = 0) := by
  unfold ifRead at read
  split at read
  · rename_i fits
    cases read
    refine ⟨rfl, ?_, rfl, fun none => by rw [fits.2.2 none, List.length_nil]⟩
    rw [List.length_drop]
    exact Nat.sub_add_cancel fits.2.1
  · simp at read

theorem ifWrite_counts (count : Nat) (port next : Port) (transfer after : Transfer size)
    (wrote : ifWrite count port transfer = some (next, after)) :
    after.length + count = transfer.length ∧ next.input = port.input ∧
      next.received = port.received := by
  unfold ifWrite at wrote
  split at wrote
  · rename_i part
    cases wrote
    exact ⟨Nat.sub_add_cancel part, rfl, rfl⟩
  · simp at wrote

end Calls

/-! ## One port -/

namespace Single

variable {size : Nat}

def refused (machine : Machine size) : Label → Nat
  | .main count => if machine.control = .writeData ∧ count = 0 then 1 else 0
  | .arrival _ => 0

/-- How many statements it takes at most until `main` waits without an event. -/
def remaining (machine : Machine size) : Nat :=
  let unread := 4 * machine.port.input.length
  let pending := if machine.event then 4 else 0
  match machine.control with
  | .wait => if machine.event then unread + 4 else 0
  | .clearEvent => unread + 3
  | .checkAvailable => unread + pending + 2
  | .readData => unread + pending + 1
  | .checkLength => unread + pending + 2 * machine.transfer.length + 2
  | .writeData => unread + pending + 2 * machine.transfer.length + 1

theorem remaining_le (machine : Machine size) :
    remaining machine ≤ 4 * machine.port.input.length + 2 * machine.transfer.length + 6 := by
  obtain ⟨port, transfer, event, control⟩ := machine
  cases event <;> cases control <;> simp only [remaining] <;> grind

/-- Without an arrival in between every statement comes closer, but for a refused write and the
test that follows on it. -/
theorem remaining_mainStep (count : Nat) (machine next : Machine size)
    (taken : mainStep count machine = some next) :
    remaining next ≤ remaining machine + 2 * refused machine (.main count) - 1 := by
  obtain ⟨port, transfer, event, control⟩ := machine
  cases control with
  | wait =>
      simp only [mainStep] at taken
      split at taken <;> rename_i pending <;> cases taken <;> simp [remaining, pending]
  | clearEvent =>
      cases taken
      simp only [remaining, Bool.false_eq_true, if_false]
      omega
  | checkAvailable =>
      simp only [mainStep] at taken
      split at taken <;> cases taken <;> cases event <;> grind [remaining]
  | readData =>
      simp only [mainStep] at taken
      cases read : ifRead count port transfer.buffer with
      | none => simp [read] at taken
      | some result =>
          obtain ⟨nextPort, nextTransfer⟩ := result
          obtain ⟨length, fewer, -, -⟩ := ifRead_counts _ _ _ _ _ read
          simp only [read] at taken
          cases taken
          by_cases none : nextTransfer.length = 0
          · cases event <;> grind [remaining]
          · simp only [remaining, none, if_false]
            omega
  | checkLength =>
      simp only [mainStep] at taken
      split at taken <;> cases taken <;> simp only [remaining] <;> omega
  | writeData =>
      simp only [mainStep] at taken
      cases wrote : ifWrite count port transfer with
      | none => simp [wrote] at taken
      | some result =>
          obtain ⟨nextPort, nextTransfer⟩ := result
          obtain ⟨shorter, same, -⟩ := ifWrite_counts _ _ _ _ _ wrote
          simp only [wrote] at taken
          cases taken
          by_cases none : count = 0
          · simp only [remaining, refused, none, same, and_self, if_true]
            omega
          · simp only [remaining, same]
            omega

theorem received_mainStep (count : Nat) (machine next : Machine size)
    (taken : mainStep count machine = some next) : next.port.received = machine.port.received := by
  obtain ⟨port, transfer, event, control⟩ := machine
  cases control with
  | wait | checkAvailable | checkLength =>
      simp only [mainStep] at taken
      split at taken <;> cases taken <;> rfl
  | clearEvent =>
      cases taken
      rfl
  | readData =>
      simp only [mainStep] at taken
      cases read : ifRead count port transfer.buffer with
      | none => simp [read] at taken
      | some result =>
          simp only [read] at taken
          cases taken
          exact (ifRead_counts _ _ _ _ _ read).2.2.1
  | writeData =>
      simp only [mainStep] at taken
      cases wrote : ifWrite count port transfer with
      | none => simp [wrote] at taken
      | some result =>
          simp only [wrote] at taken
          cases taken
          exact (ifWrite_counts _ _ _ _ _ wrote).2.2

theorem refused_of_remaining (machine : Machine size) (label : Label)
    (used : remaining machine = 0) : refused machine label = 0 := by
  cases label with
  | arrival bytes => rfl
  | main count =>
      refine if_neg fun both => ?_
      rw [remaining, both.1] at used
      dsimp only at used
      omega

theorem waiting_of_remaining (machine : Machine size) (used : remaining machine = 0) :
    machine.control = .wait ∧ machine.event = false := by
  obtain ⟨port, transfer, event, control⟩ := machine
  cases control with
  | wait => cases event <;> simp_all [remaining]
  | _ => simp [remaining] at used

theorem run_catches_up (buffer : Region UInt8 size) (labels : List Label)
    (reached : Machine size)
    (done : Schedule.run step labels (initialMachine buffer) = some reached) (counts : List Nat)
    (settled : Machine size)
    (alone : Schedule.run step (counts.map Label.main) reached = some settled)
    (enough : 4 * reached.port.input.length + 2 * reached.transfer.length + 6 +
      2 * Schedule.total step refused (counts.map Label.main) reached ≤ counts.length) :
    settled.control = .wait ∧ settled.event = false ∧
      settled.port.output = reached.port.received := by
  have mains := Schedule.along_map step Label.main counts reached
  have paid := Schedule.run_pays step (fun _ label => ∃ count, label = .main count) remaining 2
    refused (fun machine label next isMain taken => by
      obtain ⟨count, rfl⟩ := isMain
      exact remaining_mainStep count machine next taken)
    refused_of_remaining (counts.map Label.main) reached settled mains alone
  have bound := remaining_le reached
  rw [List.length_map] at paid
  obtain ⟨waits, unflagged⟩ := waiting_of_remaining settled (by omega)
  have same : settled.port.received = reached.port.received :=
    Schedule.run_preserves step (fun _ label => ∃ count, label = .main count)
      (fun machine => machine.port.received = reached.port.received)
      (fun machine label next kept isMain taken => by
        obtain ⟨count, rfl⟩ := isMain
        exact (received_mainStep count machine next taken).trans kept)
      (counts.map Label.main) reached settled rfl mains alone
  have safe := run_safe buffer (labels ++ counts.map Label.main) settled (by
    rw [Schedule.run_append, done]
    exact alone)
  exact ⟨waits, unflagged, (safe.complete waits unflagged).trans same⟩

end Single

/-! ## Two ports -/

namespace Composite

variable {size : Nat}

def refused (machine : Machine size) : Label → Nat
  | .main count =>
      match machine.control with
      | .writeData _ => if count = 0 then 1 else 0
      | _ => 0
  | .arrival _ _ => 0

def port0 : Fin streamCount := ⟨0, Nat.zero_lt_two⟩

def port1 : Fin streamCount := ⟨1, Nat.one_lt_two⟩

def unread (streams : Fin streamCount → StreamDescriptor) : Nat :=
  (streams port0).stream.input.length + (streams port1).stream.input.length

def flags (streams : Fin streamCount → StreamDescriptor) : Nat :=
  (streams port0).event.toNat + (streams port1).event.toNat

/-- A loop over the flags that has got to `i` meets one that is up. -/
def ahead (streams : Fin streamCount → StreamDescriptor) : Nat → Bool
  | 0 => (streams port0).event || (streams port1).event
  | 1 => (streams port1).event
  | _ => false

/-- From a statement of the two loops over the flags to the next flag that is up, if there is
one, else to the first sweep that starts with the local flag down. -/
def distance (machine : Machine size) : Nat :=
  match machine.control with
  | .clearLocal => if ahead machine.streams 0 then 8 else 1
  | .poll i =>
      if ahead machine.streams 0 then
        (if machine.event || ahead machine.streams i then 5 else 9) + (streamCount - i)
      else if machine.event then 6 + (streamCount - i) else 0
  | .checkPoll =>
      if ahead machine.streams 0 then if machine.event then 4 else 8
      else if machine.event then 5 else 0
  | .checkStream i =>
      if ahead machine.streams 0 then
        (if ahead machine.streams i then 1 else 9) + (streamCount - i)
      else 2 + (streamCount - i)
  | .clearEvent i => if (machine.streams i).event then 1 else 14
  | .readData i => if (machine.streams i).stream.input.length = 0 then 13 else 10
  | .checkLength _ => 2 * machine.transfer.length + 12
  | .writeData _ => 2 * machine.transfer.length + 11
  | .checkAvailable _ => 11

def work (machine : Machine size) : Nat :=
  5 * unread machine.streams + 14 * flags machine.streams + distance machine

/-- How many statements it takes at most until `main` polls flags that are all down. -/
def remaining (machine : Machine size) : Nat :=
  if distance machine = 0 then 0 else work machine

/-! ## What one statement changes -/

theorem unread_update (streams : Fin streamCount → StreamDescriptor)
    (descriptor : StreamDescriptor) :
    ∀ i, unread (Function.update streams i descriptor) + (streams i).stream.input.length =
      unread streams + descriptor.stream.input.length := by
  rw [Fin.forall_fin_two]
  constructor <;> simp [unread, port0, port1] <;> omega

theorem flags_update (streams : Fin streamCount → StreamDescriptor)
    (descriptor : StreamDescriptor) :
    ∀ i, flags (Function.update streams i descriptor) + (streams i).event.toNat =
      flags streams + descriptor.event.toNat := by
  rw [Fin.forall_fin_two]
  constructor <;> simp [flags, port0, port1] <;> omega

theorem ahead_past (streams : Fin streamCount → StreamDescriptor) (i : Nat)
    (past : ¬ i < streamCount) : ahead streams i = false := by
  match i with
  | 0 | 1 => exact absurd past (by decide)
  | _ + 2 => rfl

section Sweeps

variable (streams : Fin streamCount → StreamDescriptor) (transfer : Transfer size) (event : Bool)

theorem distance_poll (i : Nat) (inside : i < streamCount) :
    distance ⟨streams, transfer, event || (streams ⟨i, inside⟩).event, .poll (i + 1)⟩ ≤
      distance ⟨streams, transfer, event, .poll i⟩ - 1 := by
  cases first : (streams 0).event <;> cases second : (streams 1).event <;> cases event <;>
    match i with
    | 0 => simp [distance, ahead, port0, port1, first, second]
    | 1 => simp [distance, ahead, port0, port1, first, second]

theorem distance_poll_past (i : Nat) (past : ¬ i < streamCount) :
    distance ⟨streams, transfer, event, .checkPoll⟩ ≤
      distance ⟨streams, transfer, event, .poll i⟩ - 1 := by
  simp only [distance, ahead_past _ i past, Nat.sub_eq_zero_of_le (Nat.le_of_not_lt past)]
  cases ahead streams 0 <;> cases event <;> simp

theorem distance_checkStream (i : Nat) (inside : i < streamCount)
    (down : (streams ⟨i, inside⟩).event = false) :
    distance ⟨streams, transfer, event, .checkStream (i + 1)⟩ ≤
      distance ⟨streams, transfer, event, .checkStream i⟩ - 1 := by
  cases first : (streams 0).event <;> cases second : (streams 1).event <;>
    match i with
    | 0 => simp_all [distance, ahead, port0, port1]
    | 1 => simp_all [distance, ahead, port0, port1]

theorem distance_checkStream_up (i : Nat) (inside : i < streamCount)
    (up : (streams ⟨i, inside⟩).event = true) :
    distance ⟨streams, transfer, event, .clearEvent ⟨i, inside⟩⟩ ≤
      distance ⟨streams, transfer, event, .checkStream i⟩ - 1 := by
  match i with
  | 0 | 1 => simp_all [distance, ahead, port0, port1, streamCount]

theorem distance_checkStream_past (i : Nat) (past : ¬ i < streamCount) :
    distance ⟨streams, transfer, event, .clearLocal⟩ ≤
      distance ⟨streams, transfer, event, .checkStream i⟩ - 1 := by
  simp only [distance, ahead_past _ i past, Nat.sub_eq_zero_of_le (Nat.le_of_not_lt past)]
  cases ahead streams 0 <;> simp

end Sweeps

theorem remaining_of_distance (machine next : Machine size) (cost : Nat)
    (same : next.streams = machine.streams) (closer : distance next ≤ distance machine - 1) :
    remaining next ≤ remaining machine + cost - 1 := by
  unfold remaining work
  rw [same]
  split
  · exact Nat.zero_le _
  · rw [if_neg (by omega)]
    omega

theorem remaining_of_work (machine next : Machine size) (cost : Nat)
    (busy : distance machine ≠ 0) (less : work next ≤ work machine + cost - 1) :
    remaining next ≤ remaining machine + cost - 1 := by
  unfold remaining
  rw [if_neg busy]
  split
  · exact Nat.zero_le _
  · exact less

/-- Without an arrival in between every statement comes closer, but for a refused write and the
test that follows on it. -/
theorem remaining_mainStep (count : Nat) (machine next : Machine size)
    (taken : mainStep count machine = some next) :
    remaining next ≤ remaining machine + 2 * refused machine (.main count) - 1 := by
  obtain ⟨streams, transfer, event, control⟩ := machine
  cases control with
  | clearLocal =>
      cases taken
      refine remaining_of_distance _ _ _ rfl ?_
      cases up : ahead streams 0 <;> simp [distance, up, streamCount]
  | poll i =>
      simp only [mainStep] at taken
      split at taken
      · rename_i inside
        cases taken
        exact remaining_of_distance _ _ _ rfl (distance_poll streams transfer event i inside)
      · rename_i past
        cases taken
        exact remaining_of_distance _ _ _ rfl (distance_poll_past streams transfer event i past)
  | checkPoll =>
      simp only [mainStep] at taken
      split at taken <;> rename_i raised <;> cases taken <;>
        refine remaining_of_distance _ _ _ rfl ?_ <;>
          cases up : ahead streams 0 <;> simp [distance, up, raised, streamCount]
  | checkStream i =>
      simp only [mainStep] at taken
      split at taken
      · rename_i inside
        split at taken
        · rename_i up
          cases taken
          exact remaining_of_distance _ _ _ rfl
            (distance_checkStream_up streams transfer event i inside up)
        · rename_i down
          cases taken
          exact remaining_of_distance _ _ _ rfl
            (distance_checkStream streams transfer event i inside (Bool.not_eq_true _ ▸ down))
      · rename_i past
        cases taken
        exact remaining_of_distance _ _ _ rfl
          (distance_checkStream_past streams transfer event i past)
  | clearEvent i =>
      cases taken
      refine remaining_of_work _ _ _ (by simp only [distance]; split <;> decide) ?_
      have bytes := unread_update streams { streams i with event := false } i
      have lowered := flags_update streams { streams i with event := false } i
      simp only [work, distance, Machine.setStream] at *
      cases up : (streams i).event <;> simp only [up] at * <;> grind
  | readData i =>
      simp only [mainStep] at taken
      cases read : ifRead count (streams i).stream transfer.buffer with
      | none => simp [read] at taken
      | some result =>
          obtain ⟨port, after⟩ := result
          obtain ⟨length, fewer, -, noneOnly⟩ := ifRead_counts _ _ _ _ _ read
          simp only [read] at taken
          cases taken
          refine remaining_of_work _ _ _ (by simp only [distance]; split <;> decide) ?_
          have bytes := unread_update streams { streams i with stream := port } i
          have same := flags_update streams { streams i with stream := port } i
          simp only [work, distance, Machine.setStream] at *
          split <;> omega
  | checkLength i =>
      simp only [mainStep] at taken
      split at taken <;> cases taken <;>
        refine remaining_of_distance _ _ _ rfl ?_ <;> simp only [distance] <;> omega
  | writeData i =>
      simp only [mainStep] at taken
      cases wrote : ifWrite count (streams i).stream transfer with
      | none => simp [wrote] at taken
      | some result =>
          obtain ⟨port, after⟩ := result
          obtain ⟨shorter, kept, -⟩ := ifWrite_counts _ _ _ _ _ wrote
          simp only [wrote] at taken
          cases taken
          refine remaining_of_work _ _ _ (by simp only [distance]; omega) ?_
          have bytes := unread_update streams { streams i with stream := port } i
          have same := flags_update streams { streams i with stream := port } i
          simp only [work, distance, refused, Machine.setStream, kept] at *
          split <;> omega
  | checkAvailable i =>
      simp only [mainStep] at taken
      split at taken
      · rename_i more
        cases taken
        refine remaining_of_distance _ _ _ rfl ?_
        simp only [distance, if_neg (Nat.pos_iff_ne_zero.mp more)]
        decide
      · cases taken
        refine remaining_of_distance _ _ _ rfl ?_
        simp only [distance, streamCount]
        split <;> (try split) <;> omega

theorem remaining_le (machine : Machine size) :
    remaining machine ≤ 5 * unread machine.streams + 2 * machine.transfer.length + 42 := by
  have up : flags machine.streams ≤ 2 := by
    have first := Bool.toNat_le (machine.streams port0).event
    have second := Bool.toNat_le (machine.streams port1).event
    rw [flags]
    omega
  have near : distance machine ≤ 2 * machine.transfer.length + 14 := by
    unfold distance streamCount
    split <;> (try split) <;> (try split) <;> omega
  unfold remaining work
  split <;> omega

theorem received_update (streams : Fin streamCount → StreamDescriptor) (i j : Fin streamCount)
    (descriptor : StreamDescriptor)
    (same : descriptor.stream.received = (streams j).stream.received) :
    (Function.update streams j descriptor i).stream.received = (streams i).stream.received := by
  by_cases here : i = j
  · subst here
    rw [Function.update_self, same]
  · rw [Function.update_of_ne here]

theorem received_mainStep (count : Nat) (machine next : Machine size)
    (taken : mainStep count machine = some next) (i : Fin streamCount) :
    (next.streams i).stream.received = (machine.streams i).stream.received := by
  obtain ⟨streams, transfer, event, control⟩ := machine
  cases control with
  | clearLocal =>
      cases taken
      rfl
  | poll j | checkPoll | checkLength j | checkAvailable j =>
      simp only [mainStep] at taken
      split at taken <;> cases taken <;> rfl
  | checkStream j =>
      simp only [mainStep] at taken
      split at taken
      · split at taken <;> cases taken <;> rfl
      · cases taken
        rfl
  | clearEvent j =>
      cases taken
      exact received_update streams i j _ rfl
  | readData j =>
      simp only [mainStep] at taken
      cases read : ifRead count (streams j).stream transfer.buffer with
      | none => simp [read] at taken
      | some result =>
          simp only [read] at taken
          cases taken
          exact received_update streams i j _ (ifRead_counts _ _ _ _ _ read).2.2.1
  | writeData j =>
      simp only [mainStep] at taken
      cases wrote : ifWrite count (streams j).stream transfer with
      | none => simp [wrote] at taken
      | some result =>
          simp only [wrote] at taken
          cases taken
          exact received_update streams i j _ (ifWrite_counts _ _ _ _ _ wrote).2.2

theorem polling_of_remaining (machine : Machine size) (used : remaining machine = 0) :
    Waiting machine ∧ machine.event = false ∧ ∀ i, (machine.streams i).event = false := by
  have none : distance machine = 0 := by
    unfold remaining work at used
    split at used <;> omega
  obtain ⟨streams, transfer, event, control⟩ := machine
  have down : ahead streams 0 = false → ∀ i, (streams i).event = false := by
    rw [Fin.forall_fin_two]
    exact Bool.or_eq_false_iff.mp
  cases control with
  | poll i =>
      cases up : ahead streams 0
      · cases event
        · exact ⟨.inl ⟨i, rfl⟩, rfl, down up⟩
        · simp [distance, up] at none
      · simp only [distance, up, if_true] at none
        split at none <;> omega
  | checkPoll =>
      cases up : ahead streams 0
      · cases event
        · exact ⟨.inr rfl, rfl, down up⟩
        · simp [distance, up] at none
      · simp only [distance, up, if_true] at none
        split at none <;> omega
  | clearLocal | checkStream i | clearEvent i | readData i | checkLength i | writeData i
  | checkAvailable i =>
      simp only [distance] at none
      grind

theorem refused_of_remaining (machine : Machine size) (label : Label)
    (used : remaining machine = 0) : refused machine label = 0 := by
  cases label with
  | arrival i bytes => rfl
  | main count =>
      rcases (polling_of_remaining machine used).1 with ⟨i, polls⟩ | checks
      · simp only [refused, polls]
      · simp only [refused, checks]

theorem run_catches_up (buffer : Region UInt8 size) (labels : List Label)
    (reached : Machine size)
    (done : Schedule.run step labels (initialMachine buffer) = some reached) (counts : List Nat)
    (settled : Machine size)
    (alone : Schedule.run step (counts.map Label.main) reached = some settled)
    (enough : 5 * unread reached.streams + 2 * reached.transfer.length + 42 +
      2 * Schedule.total step refused (counts.map Label.main) reached ≤ counts.length) :
    Waiting settled ∧ settled.event = false ∧
      ∀ i, (settled.streams i).event = false ∧
        (settled.streams i).stream.output = (reached.streams i).stream.received := by
  have mains := Schedule.along_map step Label.main counts reached
  have paid := Schedule.run_pays step (fun _ label => ∃ count, label = .main count) remaining 2
    refused (fun machine label next isMain taken => by
      obtain ⟨count, rfl⟩ := isMain
      exact remaining_mainStep count machine next taken)
    refused_of_remaining (counts.map Label.main) reached settled mains alone
  have bound := remaining_le reached
  rw [List.length_map] at paid
  obtain ⟨waits, clear, unflagged⟩ := polling_of_remaining settled (by omega)
  have same : ∀ i, (settled.streams i).stream.received = (reached.streams i).stream.received :=
    Schedule.run_preserves step (fun _ label => ∃ count, label = .main count)
      (fun machine => ∀ i, (machine.streams i).stream.received =
        (reached.streams i).stream.received)
      (fun machine label next kept isMain taken i => by
        obtain ⟨count, rfl⟩ := isMain
        exact (received_mainStep count machine next taken i).trans (kept i))
      (counts.map Label.main) reached settled (fun _ => rfl) mains alone
  have safe := run_safe buffer (labels ++ counts.map Label.main) settled (by
    rw [Schedule.run_append, done]
    exact alone)
  exact ⟨waits, clear, fun i =>
    ⟨unflagged i, (safe.complete waits unflagged i).trans (same i)⟩⟩

end Composite

/-! ## Results -/

/-- From whatever state arrivals have left the loop in, it sleeps again with all of them echoed,
however often the interface refuses to take a byte. -/
theorem echo_catches_up (size : Nat) (buffer : Region UInt8 size) :
    (∀ labels reached,
      Schedule.run Single.step labels (Single.initialMachine buffer) = some reached →
      ∀ (counts : List Nat) settled,
        Schedule.run Single.step (counts.map .main) reached = some settled →
        4 * reached.port.input.length + 2 * reached.transfer.length + 6 +
          2 * Schedule.total Single.step Single.refused (counts.map .main) reached ≤
            counts.length →
        settled.control = .wait ∧ settled.event = false ∧
          settled.port.output = reached.port.received) ∧
    (∀ labels reached,
      Schedule.run Composite.step labels (Composite.initialMachine buffer) = some reached →
      ∀ (counts : List Nat) settled,
        Schedule.run Composite.step (counts.map .main) reached = some settled →
        5 * Composite.unread reached.streams + 2 * reached.transfer.length + 42 +
          2 * Schedule.total Composite.step Composite.refused (counts.map .main) reached ≤
            counts.length →
        Composite.Waiting settled ∧ settled.event = false ∧
          ∀ i, (settled.streams i).event = false ∧
            (settled.streams i).stream.output = (reached.streams i).stream.received) :=
  ⟨Single.run_catches_up buffer, Composite.run_catches_up buffer⟩

/-- Three bytes for a buffer of two; the first write is refused. -/
def refusedOnce : List Nat :=
  [0, 0, 0, 2, 0, 0, 0, 2, 0, 1, 0, 1, 0, 0] ++ List.replicate 8 0

def secondPort : List Nat :=
  [0, 0, 0, 0, 0, 0, 0, 0, 0, 1, 0, 0, 0, 1] ++ List.replicate 40 0

theorem echo_catches_up_refused :
    (∃ reached settled, Schedule.run Single.step [.arrival [1, 2, 3]]
        (Single.initialMachine (Region.filled 2 0)) = some reached ∧
      Schedule.run Single.step (refusedOnce.map .main) reached = some settled ∧
      settled.port.output = reached.port.received) ∧
    (∃ reached settled, Schedule.run Composite.step [.main 0, .main 0, .main 0, .arrival 1 [7]]
        (Composite.initialMachine (Region.filled 2 0)) = some reached ∧
      Schedule.run Composite.step (secondPort.map .main) reached = some settled ∧
      (settled.streams 1).stream.output = (reached.streams 1).stream.received) := by
  constructor
  · have returned : ((Schedule.run Single.step [.arrival [1, 2, 3]]
        (Single.initialMachine (Region.filled 2 0))).bind
          (Schedule.run Single.step (refusedOnce.map .main))).isSome = true := by decide +kernel
    obtain ⟨settled, both⟩ := Option.isSome_iff_exists.mp returned
    obtain ⟨reached, done, alone⟩ := Option.bind_eq_some_iff.mp both
    refine ⟨reached, settled, done, alone, ?_⟩
    refine ((echo_catches_up 2 (Region.filled 2 0)).1 _ reached done refusedOnce settled alone
      ?_).2.2
    cases done
    decide +kernel
  · have returned : ((Schedule.run Composite.step [.main 0, .main 0, .main 0, .arrival 1 [7]]
        (Composite.initialMachine (Region.filled 2 0))).bind
          (Schedule.run Composite.step (secondPort.map .main))).isSome = true := by decide +kernel
    obtain ⟨settled, both⟩ := Option.isSome_iff_exists.mp returned
    obtain ⟨reached, done, alone⟩ := Option.bind_eq_some_iff.mp both
    refine ⟨reached, settled, done, alone, ?_⟩
    refine (((echo_catches_up 2 (Region.filled 2 0)).2 _ reached done secondPort settled alone
      ?_).2.2 1).2
    cases done
    decide +kernel

end HalmExamples.UsbCdc
