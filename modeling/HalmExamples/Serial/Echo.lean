import HalmExamples.Serial.Program

/-!
# The UART echo and short writes

`transferData` does not look at what `ifWrite` returns.  What a short write leaves of the
block is overwritten by the next read, so the echo is complete exactly where the transmit
queue has room for every whole block; the USB examples write the rest again instead.
-/

set_option autoImplicit false

namespace HalmExamples.Serial

open Foundation Foundation.Schedule

section Calls

variable {size : Nat}

theorem ifRead_eq_some (count : Nat) (machine next : Machine size)
    (read : ifRead count machine = some next) :
    next.block = machine.port.input.take count ∧ next.length = next.block.length ∧
      next.port = { machine.port with
        input := machine.port.input.drop count
        read := machine.port.read ++ machine.port.input.take count } := by
  unfold ifRead Region.write? at read
  split at read
  · rename_i waiting
    have whole : (machine.port.input.take count).length = count := by
      rw [List.length_take, Nat.min_eq_left waiting]
    split at read
    · cases read
      have block := window_splice machine.buffer.cells (machine.port.input.take count) 0
        (Nat.zero_le _)
      rw [whole] at block
      refine ⟨block, ?_, rfl⟩
      rw [Machine.block, block, whole]
    · simp at read
  · simp at read

theorem ifWrite_eq_some (written : Nat) (machine next : Machine size)
    (wrote : ifWrite written machine = some next) :
    written ≤ machine.length ∧
      next = { machine with port := { machine.port with
        output := machine.port.output ++ machine.block.take written } } := by
  unfold ifWrite at wrote
  split at wrote
  · rename_i part
    cases wrote
    exact ⟨part, rfl⟩
  · simp at wrote

end Calls

section Echo

variable {size : Nat}

def unwritten (machine : Machine size) : List UInt8 :=
  match machine.control with
  | .writeData => machine.block
  | _ => []

/-- All that has been read has been accepted, but for the block still to be written. -/
def Echoed (machine : Machine size) : Prop :=
  machine.port.read = machine.port.output ++ unwritten machine

/-- The transmit queue has room for the whole block. -/
def Accepted (machine : Machine size) : Label → Prop
  | .main count => machine.control = .writeData → count = machine.length
  | .arrival _ | .callback => True

instance (machine : Machine size) (label : Label) : Decidable (Accepted machine label) := by
  cases label <;> unfold Accepted <;> infer_instance

/-- The loop never writes more than it has read, so a missing byte stays missing. -/
structure Bounded (machine : Machine size) : Prop where
  no_more : machine.port.output.length + (unwritten machine).length ≤ machine.port.read.length
  block_length : machine.control = .writeData → machine.length = machine.block.length

theorem bounded_initial (buffer : Region UInt8 size) : Bounded (initialMachine buffer) :=
  ⟨Nat.le_refl 0, fun writes => by simp [initialMachine] at writes⟩

theorem echoed_unchanged (label : Label) (machine next : Machine size) (bounded : Bounded machine)
    (accepted : Accepted machine label)
    (ports : next.port.read = machine.port.read ∧ next.port.output = machine.port.output)
    (pending : unwritten next = unwritten machine)
    (block : next.control = .writeData →
      machine.control = .writeData ∧ next.length = machine.length ∧ next.block = machine.block) :
    Bounded next ∧ (Echoed next ↔ Echoed machine ∧ Accepted machine label) := by
  refine ⟨⟨?_, ?_⟩, ?_⟩
  · rw [ports.1, ports.2, pending]
    exact bounded.no_more
  · intro writes
    obtain ⟨was, length, same⟩ := block writes
    rw [length, same]
    exact bounded.block_length was
  · rw [Echoed, ports.1, ports.2, pending, and_iff_left accepted]
    rfl

theorem echoed_read (count : Nat) (machine next : Machine size) (bounded : Bounded machine)
    (reads : machine.control = .readData) (read : ifRead count machine = some next) :
    Bounded { next with control := .writeData } ∧
      (Echoed { next with control := .writeData } ↔ Echoed machine) := by
  obtain ⟨block, length, port⟩ := ifRead_eq_some count machine next read
  have none : unwritten machine = [] := by simp [unwritten, reads]
  have noMore := bounded.no_more
  rw [none, List.length_nil, Nat.add_zero] at noMore
  refine ⟨⟨?_, fun _ => length⟩, ?_⟩
  · change next.port.output.length + next.block.length ≤ next.port.read.length
    rw [block, port, List.length_append]
    exact Nat.add_le_add_right noMore _
  · change next.port.read = next.port.output ++ next.block ↔ _
    rw [block, port, Echoed, none, List.append_nil]
    exact List.append_left_inj _

theorem echoed_write (written : Nat) (machine next : Machine size) (bounded : Bounded machine)
    (writes : machine.control = .writeData) (wrote : ifWrite written machine = some next) :
    Bounded { next with control := .checkAvailable } ∧
      (Echoed { next with control := .checkAvailable } ↔
        Echoed machine ∧ written = machine.length) := by
  obtain ⟨part, rfl⟩ := ifWrite_eq_some written machine next wrote
  have length := bounded.block_length writes
  have pending : unwritten machine = machine.block := by simp [unwritten, writes]
  have noMore := bounded.no_more
  rw [pending, ← length] at noMore
  have taken : (machine.block.take written).length = written := by
    rw [List.length_take, ← length, Nat.min_eq_left part]
  refine ⟨⟨?_, fun control => by simp at control⟩, ?_⟩
  · simp only [unwritten, List.length_append, taken, List.length_nil]
    omega
  · rw [show Echoed machine ↔ machine.port.read = machine.port.output ++ machine.block by
      rw [Echoed, pending]]
    simp only [Echoed, unwritten, List.append_nil]
    constructor
    · intro echoed
      -- Lengths leave no room for a missing byte, so the whole block has been taken.
      have whole : written = machine.length := by
        have counted := congrArg List.length echoed
        rw [List.length_append, taken] at counted
        omega
      rw [List.take_of_length_le (by omega)] at echoed
      exact ⟨echoed, whole⟩
    · rintro ⟨echoed, whole⟩
      rw [List.take_of_length_le (by omega)]
      exact echoed

theorem echoed_step (machine : Machine size) (label : Label) (next : Machine size)
    (bounded : Bounded machine) (taken : step machine label = some next) :
    Bounded next ∧ (Echoed next ↔ Echoed machine ∧ Accepted machine label) := by
  cases label with
  | arrival bytes =>
      cases taken
      exact echoed_unchanged _ machine _ bounded trivial ⟨rfl, rfl⟩ rfl
        fun writes => ⟨writes, rfl, rfl⟩
  | callback =>
      cases taken
      exact echoed_unchanged _ machine _ bounded trivial ⟨rfl, rfl⟩ rfl
        fun writes => ⟨writes, rfl, rfl⟩
  | main count =>
      obtain ⟨port, buffer, length, event, control⟩ := machine
      cases control with
      | wait =>
          simp only [step, mainStep] at taken
          split at taken <;> cases taken <;>
            exact echoed_unchanged _ _ _ bounded (by simp [Accepted]) ⟨rfl, rfl⟩ rfl (by simp)
      | clearEvent =>
          cases taken
          exact echoed_unchanged _ _ _ bounded (by simp [Accepted]) ⟨rfl, rfl⟩ rfl (by simp)
      | readData =>
          obtain ⟨between, read, rfl⟩ := Option.map_eq_some_iff.mp taken
          simpa [Accepted] using echoed_read count _ between bounded rfl read
      | writeData =>
          obtain ⟨between, wrote, rfl⟩ := Option.map_eq_some_iff.mp taken
          simpa [Accepted] using echoed_write count _ between bounded rfl wrote
      | checkAvailable =>
          simp only [step, mainStep] at taken
          split at taken <;> cases taken <;>
            exact echoed_unchanged _ _ _ bounded (by simp [Accepted]) ⟨rfl, rfl⟩ rfl (by simp)

end Echo

/-- Whenever no block is waiting to be written, the output is what has been read exactly
if every block so far was accepted as a whole. -/
theorem output_eq_read_iff {size : Nat} (buffer : Region UInt8 size) (labels : List Label)
    (final : Machine size) (done : run step labels (initialMachine buffer) = some final)
    (between : final.control ≠ .writeData) :
    final.port.output = final.port.read ↔ Along step Accepted labels (initialMachine buffer) := by
  have none : unwritten final = [] := by
    unfold unwritten
    split
    · rename_i writes
      exact absurd writes between
    · rfl
  have echoed := run_holds_iff step Accepted Bounded Echoed echoed_step labels
    (initialMachine buffer) final (bounded_initial buffer) done
  have initially : Echoed (initialMachine buffer) := rfl
  rw [Echoed, none, List.append_nil, and_iff_right initially] at echoed
  rw [← echoed]
  exact eq_comm

/-- Two rounds of the loop, the second after more bytes have come. -/
def twoBlocks (first second : Nat) : List Label :=
  [.arrival [1, 2, 3], .callback, .main 0, .main 0, .main 3, .main first, .arrival [4],
    .main 0, .main 1, .main second, .main 0]

theorem output_eq_read_of_two_blocks :
    ∃ final, run step (twoBlocks 3 1) (initialMachine (Region.filled 4 0)) = some final ∧
      final.port.read = [1, 2, 3, 4] ∧ final.port.output = final.port.read := by
  refine ⟨_, rfl, rfl, ?_⟩
  exact (output_eq_read_iff (Region.filled 4 0) (twoBlocks 3 1) _ rfl (by decide)).mpr (by decide)

/-- A transmit queue with room for two bytes: the third is lost. -/
theorem short_write_loses :
    ∃ final, run step (twoBlocks 2 1) (initialMachine (Region.filled 4 0)) = some final ∧
      final.control = .wait ∧ final.port.read = [1, 2, 3, 4] ∧ final.port.output = [1, 2, 4] :=
  ⟨_, rfl, rfl, rfl, rfl⟩

end HalmExamples.Serial
