import HalmExamples.Foundation.LastIndex
import HalmExamples.Foundation.Schedule
import HalmExamples.I2cLink.Program

/-!
# What the slave shows

Whenever the slave waits and no event is pending, its LEDs show the value that arrived last,
and if the master took its last transfer for good, that is the one of the last round.
-/

set_option autoImplicit false

namespace HalmExamples.I2cLink

open Foundation

def Transfer.arrives (transfer : Transfer) : Bool := decide (2 ≤ transfer.taken)

def lastArrival (transfers : List Transfer) : Option Nat := lastIndex Transfer.arrives transfers

def Label.transfers : Label → List Transfer
  | .slave => []
  | .round transfer => [transfer]

def roundValue (index : Nat) : UInt8 := UInt8.ofNat index

def Showing (valid : Nat → Bool) (slave : Slave) (state : UInt8) (count : Nat) : Prop :=
  ∀ index < count, valid index = true → slave.leds index = shown state index

/-- Where the slave is with the value that arrived last, unless another event is pending. -/
def Stage (valid : Nat → Bool) (value : UInt8) (slave : Slave) : Prop :=
  match slave.control with
  | .wait => slave.event = false → Showing valid slave value ledCount
  | .clearEvent | .setPosition | .read => True
  | .writeLed state index =>
      slave.event = false → state = value ∧ Showing valid slave value (min index ledCount)

structure Synced (valid : Nat → Bool) (zerocopy : Bool) (past : List Transfer) (link : Link) :
    Prop where
  iteration : link.master.iteration = roundValue past.length
  /-- Nothing happens before the first value arrives. -/
  untouched : lastArrival past = none →
    link.slave.control = .wait ∧ link.slave.event = false ∧ link.slave.leds = fun _ => false
  register : ∀ index, lastArrival past = some index → link.slave.register = roundValue index
  stage : ∀ index, lastArrival past = some index → Stage valid (roundValue index) link.slave
  reported : ∀ early transfer, past = early ++ [transfer] →
    link.master.led = !deviceWrite zerocopy transfer (roundValue early.length)

section Steps
variable {valid : Nat → Bool} {zerocopy : Bool} {past : List Transfer} {link : Link}
  {slave : Slave} {value : UInt8}

theorem statement_register : (slaveStatement valid slave).register = slave.register := by
  unfold slaveStatement
  split
  · split <;> rfl
  · rfl
  · rfl
  · rfl
  · split <;> rfl

theorem Showing.writeLed {index : Nat} (showing : Showing valid slave value index) :
    Showing valid
      { slave with
        leds := fun led =>
          if led = index ∧ valid led = true then shown value led else slave.leds led
        control := .writeLed value (index + 1) }
      value (index + 1) := by
  intro led below isValid
  by_cases here : led = index
  · exact if_pos ⟨here, isValid⟩
  · exact (if_neg fun both => here both.1).trans (showing led (by omega) isValid)

theorem Stage.statement (stage : Stage valid value slave) (register : slave.register = value) :
    Stage valid value (slaveStatement valid slave) := by
  unfold Stage at stage
  cases here : slave.control with
  | wait =>
      rw [here] at stage
      simp only [slaveStatement, here]
      split
      · trivial
      · rw [Stage, here]
        exact stage
  | clearEvent =>
      simp only [slaveStatement, here]
      trivial
  | setPosition =>
      simp only [slaveStatement, here]
      trivial
  | read =>
      simp only [slaveStatement, here]
      intro _
      refine ⟨register, fun index below => ?_⟩
      omega
  | writeLed state index =>
      rw [here] at stage
      simp only [slaveStatement, here]
      by_cases more : index < ledCount
      · rw [if_pos more]
        intro quiet
        obtain ⟨rfl, showing⟩ := stage quiet
        rw [Nat.min_eq_left (Nat.le_of_lt more)] at showing
        refine ⟨rfl, ?_⟩
        rw [Nat.min_eq_left more]
        exact showing.writeLed
      · rw [if_neg more]
        intro quiet
        have showing := (stage quiet).2
        rw [Nat.min_eq_right (Nat.not_lt.mp more)] at showing
        exact showing

theorem Synced.statement (synced : Synced valid zerocopy past link) :
    Synced valid zerocopy past { link with slave := slaveStatement valid link.slave } where
  iteration := synced.iteration
  untouched := by
    intro none
    obtain ⟨waiting, quiet, dark⟩ := synced.untouched none
    have same : slaveStatement valid link.slave = link.slave := by
      simp only [slaveStatement, waiting, quiet]
      rfl
    rw [same]
    exact ⟨waiting, quiet, dark⟩
  register := fun index last => statement_register.trans (synced.register index last)
  stage := fun index last => (synced.stage index last).statement (synced.register index last)
  reported := synced.reported

theorem take_packet (slave : Slave) (count : Nat) (buffer : UInt8) :
    slave.take ((packet buffer).take count) =
      if 2 ≤ count then slave.receive buffer else slave := by
  match count with
  | 0 => rfl
  | 1 => rfl
  | count + 2 =>
      rw [if_pos (by omega), packet, List.take_succ_cons, List.take_succ_cons, List.take_nil]
      rfl

theorem stage_receive (slave : Slave) (value : UInt8) :
    Stage valid value (slave.receive value) := by
  unfold Stage Slave.receive
  cases slave.control with
  | wait | writeLed _ _ => exact fun never => absurd never (by simp)
  | clearEvent | setPosition | read => trivial

theorem Synced.round (synced : Synced valid zerocopy past link) (transfer : Transfer) :
    Synced valid zerocopy (past ++ [transfer])
      { master := masterRound zerocopy transfer link.master
        slave := link.slave.take ((packet link.master.iteration).take transfer.taken) } := by
  rw [take_packet]
  have next := lastIndex_concat Transfer.arrives past transfer
  have iteration : link.master.iteration + 1 = roundValue (past ++ [transfer]).length := by
    rw [synced.iteration, List.length_append, List.length_singleton, roundValue, roundValue,
      UInt8.ofNat_add]
    rfl
  have reported (early : List Transfer) (newest : Transfer)
      (split : past ++ [transfer] = early ++ [newest]) :
      (masterRound zerocopy transfer link.master).led =
        !deviceWrite zerocopy newest (roundValue early.length) := by
    obtain ⟨rfl, same⟩ := List.append_inj' split rfl
    cases same
    rw [masterRound, synced.iteration]
  by_cases arrives : 2 ≤ transfer.taken
  · have last : lastArrival (past ++ [transfer]) = some past.length := by
      rw [lastArrival, next, if_pos (show transfer.arrives = true from decide_eq_true arrives)]
    rw [if_pos arrives]
    refine ⟨iteration, fun none => ?_, fun index is => ?_, fun index is => ?_, reported⟩
    · rw [last] at none
      cases none
    · rw [last, Option.some_inj] at is
      exact is ▸ synced.iteration
    · rw [last, Option.some_inj] at is
      rw [← is, ← synced.iteration]
      exact stage_receive link.slave link.master.iteration
  · have last : lastArrival (past ++ [transfer]) = lastArrival past := by
      rw [lastArrival, next, if_neg (by simpa [Transfer.arrives] using arrives)]
      rfl
    rw [if_neg arrives]
    refine ⟨iteration, ?_, ?_, ?_, reported⟩
    · rw [last]
      exact synced.untouched
    · rw [last]
      exact synced.register
    · rw [last]
      exact synced.stage

theorem synced_initial (register : UInt8) : Synced valid zerocopy [] (initialLink register) where
  iteration := rfl
  untouched := fun _ => ⟨rfl, rfl, rfl⟩
  register := fun _ last => by cases last
  stage := fun _ last => by cases last
  reported := fun early transfer split => by simp at split

theorem synced_step (past : List Transfer) (link : Link) (label : Label) (next : Link)
    (synced : Synced valid zerocopy past link)
    (taken : step valid zerocopy link label = some next) :
    Synced valid zerocopy (past ++ label.transfers) next := by
  cases label with
  | slave =>
      cases taken
      rw [Label.transfers, List.append_nil]
      exact synced.statement
  | round transfer =>
      cases taken
      exact synced.round transfer

end Steps

/-- If the master's LED is out, the last packet has reached the slave, so far as the driver
tells the truth about it. -/
theorem Synced.arrived {valid : Nat → Bool} {zerocopy : Bool} {past : List Transfer} {link : Link}
    (synced : Synced valid zerocopy past link) (transfer : Transfer)
    (newest : past.getLast? = some transfer) (honest : transfer.Honest zerocopy)
    (out : link.master.led = false) : lastArrival past = some (past.length - 1) := by
  obtain ⟨early, split⟩ := List.getLast?_eq_some_iff.mp newest
  have reported := synced.reported early transfer split
  rw [out, eq_comm, Bool.not_eq_eq_eq_not, Bool.not_false] at reported
  have taken := honest.taken reported
  rw [lastArrival, split, lastIndex_concat,
    if_pos (show transfer.arrives = true from decide_eq_true taken), List.length_append,
    List.length_singleton, Nat.add_sub_cancel]

/-- In every run of both boards: when the slave waits, what it shows is the value of the last
round that arrived, and its LEDs are dark if there is none; and if the master's LED is out after a
round of which the driver tells the truth, that round is the last to have arrived. -/
theorem slave_shows_last (valid : Nat → Bool) (zerocopy : Bool) (register : UInt8)
    (labels : List Label) (final : Link)
    (done : Schedule.run (step valid zerocopy) labels (initialLink register) = some final) :
    let transfers := labels.flatMap Label.transfers
    (final.slave.control = .wait → final.slave.event = false →
      match lastArrival transfers with
      | none => ∀ index, final.slave.leds index = false
      | some last => ∀ index < ledCount, valid index = true →
          final.slave.leds index = shown (roundValue last) index) ∧
    ∀ transfer, transfers.getLast? = some transfer → transfer.Honest zerocopy →
      final.master.led = false → lastArrival transfers = some (transfers.length - 1) := by
  intro transfers
  have synced : Synced valid zerocopy ([] ++ transfers) final :=
    Schedule.run_history (step valid zerocopy) Label.transfers (fun _ _ => True)
      (Synced valid zerocopy)
      (fun past link label next synced _ taken => synced_step past link label next synced taken)
      labels [] (initialLink register) final (synced_initial register)
      (Schedule.along_true _ labels _) done
  rw [List.nil_append] at synced
  refine ⟨fun waiting quiet => ?_, synced.arrived⟩
  cases found : lastArrival transfers with
  | none => exact fun index => congrFun (synced.untouched found).2.2 index
  | some last =>
      have stage := synced.stage last found
      rw [Stage, waiting] at stage
      exact stage quiet

/-- A round whose value arrives, one that breaks off and one that arrives again, each followed by
the statements of the slave. -/
def threeRounds : List Label :=
  [.round ⟨2, 2, true⟩] ++ List.replicate 8 .slave ++ [.round ⟨1, 2, false⟩, .slave] ++
    [.round ⟨2, 2, true⟩] ++ List.replicate 8 .slave

theorem slave_shows_last_three_rounds :
    ∃ final, Schedule.run (step (fun _ => true) true) threeRounds (initialLink 7) = some final ∧
      final.slave.leds 0 = false ∧ final.slave.leds 1 = true ∧ final.slave.leds 2 = false ∧
      lastArrival (threeRounds.flatMap Label.transfers) = some 2 := by
  have ends : (Schedule.run (step (fun _ => true) true) threeRounds (initialLink 7)).map
      (fun final => (decide (final.slave.control = .wait), final.slave.event, final.master.led)) =
        some (true, false, false) := rfl
  obtain ⟨final, done, same⟩ := Option.map_eq_some_iff.mp ends
  simp only [Prod.mk.injEq, decide_eq_true_eq] at same
  obtain ⟨waiting, quiet, out⟩ := same
  obtain ⟨shows, reported⟩ := slave_shows_last (fun _ => true) true 7 threeRounds final done
  have leds (index : Nat) (below : index < ledCount) := shows waiting quiet index below rfl
  exact ⟨final, done, leds 0 (by decide), leds 1 (by decide), leds 2 (by decide),
    reported ⟨2, 2, true⟩ rfl (fun _ _ => Nat.le_refl 2) out⟩

end HalmExamples.I2cLink
