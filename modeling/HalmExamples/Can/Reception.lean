import HalmExamples.Can.Program

/-!
# Messages left in the CAN interface

Each wakeup reads one message.  A message that arrives while `canEvent` is still set
is not noticed: from then on the interface holds more messages than the loop will read
without a further arrival.
-/

set_option autoImplicit false

namespace HalmExamples.Can

open Foundation

def owed (machine : Machine) : Nat :=
  machine.canEvent.toNat + if machine.control = .readMessage then 1 else 0

/-- No message arrives while the flag of an earlier one is set. -/
def Noticed (machine : Machine) (label : Label) : Prop :=
  match label with
  | .arrival _ => machine.canEvent = false
  | _ => True

instance (machine : Machine) (label : Label) : Decidable (Noticed machine label) := by
  cases label <;> unfold Noticed <;> infer_instance

def Waiting (machine : Machine) : Prop :=
  machine.control = .wait ∧ machine.canEvent = false ∧ machine.timerEvent = false

/-- Each read that is owed has its message, and `clearCan` follows the test of the
flag. -/
structure ReadInv (machine : Machine) : Prop where
  covered : owed machine ≤ machine.fifo.length
  flagged : machine.control = .clearCan → machine.canEvent = true

theorem owed_of_reading (machine : Machine) (reads : machine.control = .readMessage) :
    owed machine = machine.canEvent.toNat + 1 := by
  rw [owed, if_pos reads]

theorem owed_of_elsewhere (machine : Machine) (elsewhere : machine.control ≠ .readMessage) :
    owed machine = machine.canEvent.toNat := by
  rw [owed, if_neg elsewhere, Nat.add_zero]

theorem mainStep_leaves (answer : Answer) (machine : Machine)
    (notClear : machine.control ≠ .clearCan) (notRead : machine.control ≠ .readMessage) :
    (mainStep answer machine).fifo = machine.fifo ∧
      (mainStep answer machine).canEvent = machine.canEvent ∧
      (mainStep answer machine).control ≠ .readMessage ∧
      ((mainStep answer machine).control = .clearCan → machine.canEvent = true) := by
  unfold mainStep
  cases here : machine.control with
  | clearCan => exact absurd here notClear
  | readMessage => exact absurd here notRead
  | nextGroup groups => cases groups <;> exact ⟨rfl, rfl, nofun, nofun⟩
  | clearTimer => exact ⟨rfl, rfl, nofun, nofun⟩
  | wait =>
      dsimp only
      split
      · exact ⟨rfl, rfl, notRead, fun clears => absurd clears notClear⟩
      · exact ⟨rfl, rfl, nofun, nofun⟩
  | checkCan =>
      dsimp only
      split
      · rename_i flagged
        exact ⟨rfl, rfl, nofun, fun _ => flagged⟩
      · exact ⟨rfl, rfl, nofun, nofun⟩
  | checkTimer | checkCount | writeMessage | checkTimeout =>
      dsimp only
      split <;> exact ⟨rfl, rfl, nofun, nofun⟩

theorem ReadInv.mainStep {machine : Machine} (inv : ReadInv machine) (answer : Answer) :
    ReadInv (mainStep answer machine) ∧
      (mainStep answer machine).fifo.length + owed machine =
        machine.fifo.length + owed (mainStep answer machine) := by
  have covered := inv.covered
  by_cases clears : machine.control = .clearCan
  · rw [owed_of_elsewhere machine (by rw [clears]; nofun), inv.flagged clears] at covered ⊢
    simp only [Can.mainStep, clears]
    exact ⟨⟨covered, nofun⟩, rfl⟩
  · by_cases reads : machine.control = .readMessage
    · rw [owed_of_reading machine reads] at covered ⊢
      have after : owed (Can.mainStep answer machine) = machine.canEvent.toNat := by
        simp only [Can.mainStep, reads, owed, reduceCtorEq, if_false, Nat.add_zero]
      have shorter : (Can.mainStep answer machine).fifo.length = machine.fifo.length - 1 := by
        simp only [Can.mainStep, reads, List.length_tail]
      rw [after, shorter]
      refine ⟨⟨by omega, ?_⟩, by omega⟩
      simp only [Can.mainStep, reads]
      exact nofun
    · obtain ⟨fifo, canEvent, control, flagged⟩ := mainStep_leaves answer machine clears reads
      have same : owed (Can.mainStep answer machine) = owed machine := by
        rw [owed_of_elsewhere machine reads, owed_of_elsewhere _ control, canEvent]
      refine ⟨⟨?_, ?_⟩, by rw [fifo, same]⟩
      · rw [fifo, same]
        exact covered
      · rw [canEvent]
        exact flagged

/-- An arrival that is not noticed leaves one message too many, and that surplus
stays. -/
theorem step_owed (machine : Machine) (label : Label) (next : Machine)
    (inv : ReadInv machine) (taken : step machine label = some next) :
    ReadInv next ∧
      (next.fifo.length = owed next ↔
        machine.fifo.length = owed machine ∧ Noticed machine label) := by
  cases label with
  | main answer =>
      cases taken
      obtain ⟨kept, balance⟩ := inv.mainStep answer
      refine ⟨kept, ?_⟩
      simp only [Noticed, and_true]
      omega
  | arrival message =>
      cases taken
      have covered := inv.covered
      have longer : (machine.fifo ++ [message]).length = machine.fifo.length + 1 := by
        rw [List.length_append, List.length_singleton]
      cases noticed : machine.canEvent with
      | false =>
          simp only [owed, noticed, Bool.toNat_false] at covered ⊢
          refine ⟨⟨?_, fun _ => rfl⟩, ?_⟩
          · simp only [owed, longer, Bool.toNat_true]
            omega
          · simp only [Noticed, noticed, longer, Bool.toNat_true, and_true]
            omega
      | true =>
          simp only [owed, noticed, Bool.toNat_true] at covered ⊢
          refine ⟨⟨?_, fun _ => rfl⟩, ?_⟩
          · simp only [owed, longer, Bool.toNat_true]
            omega
          · simp only [Noticed, noticed, longer, Bool.true_eq_false, and_false, iff_false]
            omega
  | overflow =>
      cases taken
      simp only [Noticed, and_true]
      exact ⟨⟨inv.covered, inv.flagged⟩, Iff.rfl⟩

theorem fifo_owed_iff (labels : List Label) (final : Machine)
    (done : Schedule.run step labels initialMachine = some final) :
    final.fifo.length = owed final ↔ Schedule.Along step Noticed labels initialMachine := by
  have balance := Schedule.run_holds_iff step Noticed ReadInv
    (fun machine => machine.fifo.length = owed machine) step_owed labels initialMachine final
    ⟨Nat.zero_le _, nofun⟩ done
  rw [balance]
  exact and_iff_right rfl

/-- When the loop waits, all messages have been read exactly if each of them was
noticed. -/
theorem waiting_fifo_empty_iff (labels : List Label) (final : Machine)
    (done : Schedule.run step labels initialMachine = some final) (waiting : Waiting final) :
    final.fifo = [] ↔ Schedule.Along step Noticed labels initialMachine := by
  rw [← fifo_owed_iff labels final done,
    owed_of_elsewhere final (by rw [waiting.1]; nofun), waiting.2.1]
  exact List.length_eq_zero_iff.symm

def someMessage : CANStandardMessage :=
  { timestamp := 0, id := 1, flags := ⟨false, false⟩, length := 0, data := [] }

def idle : Answer := { accepted := false, value := 0, frequency := 1 }

/-- Two messages arrive before the loop has woken up. -/
def twoArrivals : List Label :=
  [.arrival someMessage, .arrival someMessage] ++ List.replicate 5 (.main idle)

def leftBehind : Machine := { initialMachine with fifo := [someMessage] }

theorem second_message_left :
    Schedule.run step twoArrivals initialMachine = some leftBehind ∧ Waiting leftBehind ∧
      leftBehind.fifo ≠ [] :=
  ⟨rfl, ⟨rfl, rfl, rfl⟩, nofun⟩

def twoWakeups : List Label :=
  [.arrival someMessage] ++ List.replicate 4 (.main idle) ++ [.arrival someMessage] ++
    List.replicate 6 (.main idle)

theorem waiting_fifo_empty_iff_two_wakeups :
    initialMachine.fifo = [] ↔ Schedule.Along step Noticed twoWakeups initialMachine :=
  waiting_fifo_empty_iff twoWakeups initialMachine (by decide) ⟨rfl, rfl, rfl⟩

end HalmExamples.Can
