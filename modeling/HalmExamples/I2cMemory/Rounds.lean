import HalmExamples.Foundation.LastIndex
import HalmExamples.I2cMemory.Program
import Mathlib.Data.List.Induction

/-!
# What the check of the I2C memory example tells

The pattern of a page depends on the number of the round modulo 16 only.  The check of a round
is therefore about each cell on its own: when the memory took it last.
-/

set_option autoImplicit false

namespace HalmExamples.I2cMemory

open Foundation

def stored (cell : Nat) (faults : Faults) : Prop := addressSize + cell < faults.write

instance (cell : Nat) (faults : Faults) : Decidable (stored cell faults) :=
  inferInstanceAs (Decidable (addressSize + cell < faults.write))

def lastStored (cell : Nat) (rounds : List Faults) : Option Nat :=
  lastIndex (fun faults => decide (stored cell faults)) rounds

def patternByte (index cell : Nat) : UInt8 := UInt8.ofNat (bufferSize * index + cell)

/-- How many transfers of the round break off: the writing of the page, and its reading, of which
setting the position is a part. -/
def broken (faults : Faults) : Nat :=
  (if faults.write < addressSize + bufferSize then 1 else 0) +
    (if faults.address < addressSize ∨ faults.read < bufferSize then 1 else 0)

def allBroken : List Faults → Nat
  | [] => 0
  | faults :: rest => broken faults + allBroken rest

def recoveries (bus : Bus) : Nat := bus.requests.count .busRecovery

theorem lastStored_concat (cell : Nat) (rounds : List Faults) (faults : Faults) :
    lastStored cell (rounds ++ [faults]) =
      if stored cell faults then some rounds.length else lastStored cell rounds := by
  rw [lastStored, lastIndex_concat, lastStored]
  simp only [decide_eq_true_eq]

theorem allBroken_concat (rounds : List Faults) (faults : Faults) :
    allBroken (rounds ++ [faults]) = allBroken rounds + broken faults := by
  induction rounds with
  | nil => exact Nat.add_comm _ _
  | cons first rest ih => rw [List.cons_append, allBroken, ih, allBroken, Nat.add_assoc]

theorem patternByte_eq_iff (first second cell : Nat) (before : first ≤ second) :
    patternByte first cell = patternByte second cell ↔ bufferSize ∣ second - first := by
  have split : bufferSize * second + cell =
      bufferSize * first + cell + bufferSize * (second - first) := by
    rw [Nat.add_right_comm, ← Nat.mul_add, Nat.add_sub_cancel' before]
  rw [patternByte, patternByte, split, ← UInt8.toNat_inj, UInt8.toNat_ofNat', UInt8.toNat_ofNat']
  simp only [bufferSize]
  omega

theorem fillBuffer_length (length : Nat) (iteration : UInt8) :
    (fillBuffer length iteration).length = length := by
  simp [fillBuffer]

theorem fillBuffer_getElem? (length cell index : Nat) (inside : cell < length) :
    (fillBuffer length (UInt8.ofNat (bufferSize * index)))[cell]? =
      some (patternByte index cell) := by
  rw [fillBuffer, List.getElem?_map, List.getElem?_range inside, Option.map_some, patternByte,
    UInt8.ofNat_add]

theorem checkBuffer_iff (buffer : List UInt8) (length index : Nat) :
    checkBuffer buffer length (UInt8.ofNat (bufferSize * index)) = true ↔
      ∀ cell < length, buffer[cell]? = some (patternByte index cell) := by
  simp only [checkBuffer, List.all_eq_true, List.mem_range, decide_eq_true_eq, patternByte,
    UInt8.ofNat_add]

/-! ## One transfer -/

@[simp] theorem request_memory (bus : Bus) (request : Request) :
    (bus.request request).memory = bus.memory := rfl

@[simp] theorem request_position (bus : Bus) (request : Request) :
    (bus.request request).position = bus.position := rfl

@[simp] theorem deviceConfigIo_memory (zerocopy : Bool) (bus : Bus) :
    (deviceConfigIo zerocopy bus).memory = bus.memory := rfl

theorem recoveries_request (bus : Bus) (request : Request) :
    recoveries (bus.request request) =
      recoveries bus + (if request = .busRecovery then 1 else 0) := by
  rw [recoveries, Bus.request, List.count_append, recoveries, List.count_singleton]
  simp only [beq_iff_eq]

theorem deliver_requests (bus : Bus) (packet : List UInt8) :
    (bus.deliver packet).requests = bus.requests := by
  unfold Bus.deliver
  split <;> rfl

theorem recoveries_ifWrite (count : Nat) (packet : List UInt8) (bus : Bus) :
    recoveries (ifWrite count packet bus) = recoveries bus := by
  rw [ifWrite, recoveries, deliver_requests, ← recoveries, recoveries_request]
  rfl

theorem recoveries_ifRead (count length : Nat) (bus : Bus) :
    recoveries (ifRead count length bus).1 = recoveries bus :=
  recoveries_request bus (.read length)

theorem recoveries_config (zerocopy : Bool) (bus : Bus) :
    recoveries (deviceConfigIo zerocopy bus) = recoveries bus := by
  rw [deviceConfigIo, recoveries_request, recoveries_request, recoveries_request]
  cases zerocopy <;> rfl

theorem addressBytes_zero : addressBytes 0 = [0, 0] := by decide

theorem deliver_first (bus : Bus) (data : List UInt8) :
    bus.deliver (0 :: 0 :: data) =
      { bus with
        position := data.length
        memory := fun cell => data.getD cell (bus.memory cell) } := by
  simp [Bus.deliver]

theorem ifWrite_memory (count : Nat) (page : List UInt8) (bus : Bus) (cell : Nat) :
    (ifWrite count (addressBytes 0 ++ page) bus).memory cell =
      if addressSize + cell < count then page.getD cell (bus.memory cell) else bus.memory cell := by
  rw [ifWrite, addressBytes_zero]
  match count with
  | 0 => rfl
  | 1 =>
      rw [if_neg (by simp [addressSize])]
      rfl
  | count + 2 =>
      simp only [List.cons_append, List.nil_append, List.take_succ_cons, deliver_first,
        List.getD_eq_getElem?_getD, List.getElem?_take, request_memory]
      by_cases inside : cell < count
      · rw [if_pos inside, if_pos (by simp only [addressSize]; omega)]
      · rw [if_neg inside, if_neg (by simp only [addressSize]; omega), Option.getD_none]

/-- Setting the position stores nothing and lets the next read begin at the first cell. -/
theorem ifWrite_address (count : Nat) (bus : Bus) :
    (ifWrite count (addressBytes 0) bus).memory = bus.memory ∧
      (addressSize ≤ count → (ifWrite count (addressBytes 0) bus).position = 0) := by
  rw [ifWrite, addressBytes_zero]
  match count with
  | 0 => exact ⟨rfl, by simp [addressSize]⟩
  | 1 => exact ⟨rfl, by simp [addressSize]⟩
  | count + 2 => simp [deliver_first]

theorem ifRead_getElem? (count length cell : Nat) (bus : Bus) :
    (ifRead count length bus).2[cell]? =
      if cell < min count length then some (bus.memory (bus.position + cell)) else none := by
  rw [ifRead, List.getElem?_map]
  by_cases inside : cell < min count length
  · rw [List.getElem?_range inside, if_pos inside, Option.map_some]
  · rw [if_neg inside, List.getElem?_eq_none (by rw [List.length_range]; omega), Option.map_none]

/-! ## Writing and reading the page -/

theorem deviceWrite_memory (faults : Faults) (page : List UInt8) (zerocopy : Bool) (bus : Bus)
    (cell : Nat) :
    (deviceWrite faults 0 page zerocopy bus).memory cell =
      if stored cell faults then page.getD cell (bus.memory cell) else bus.memory cell := by
  have taken := ifWrite_memory faults.write page (deviceConfigIo zerocopy bus) cell
  rw [deviceConfigIo_memory] at taken
  simp only [deviceWrite, stored]
  split
  · split
    · exact taken
    · exact taken
  · exact taken

theorem recoveries_deviceWrite (faults : Faults) (page : List UInt8) (zerocopy : Bool) (bus : Bus) :
    recoveries (deviceWrite faults 0 page zerocopy bus) = recoveries bus +
      (if zerocopy = true ∧ faults.write < addressSize + page.length then 1 else 0) := by
  have size : (addressBytes 0 ++ page).length = addressSize + page.length := by
    rw [List.length_append, addressBytes_zero]
    rfl
  have kept :=
    recoveries_ifWrite faults.write (addressBytes 0 ++ page) (deviceConfigIo zerocopy bus)
  rw [recoveries_config] at kept
  simp only [deviceWrite, size]
  cases zerocopy with
  | false => simpa using kept
  | true =>
      rw [if_pos rfl]
      by_cases whole : addressSize + page.length ≤ faults.write
      · rw [if_pos whole, if_neg (by omega), kept, Nat.add_zero]
      · rw [if_neg whole, if_pos ⟨rfl, by omega⟩, recoveries_request, kept, if_pos rfl]

theorem splice_start_getElem? (buffer data : List UInt8) (cell : Nat)
    (fits : data.length ≤ buffer.length) :
    (splice buffer 0 data)[cell]? = if cell < data.length then data[cell]? else buffer[cell]? := by
  rw [splice_getElem? buffer data 0 cell (by omega)]
  simp

def addressed (faults : Faults) (zerocopy repeated : Bool) (bus : Bus) : Bus :=
  let configured := deviceConfigIo zerocopy bus
  ifWrite faults.address (addressBytes 0)
    (if repeated then configured.request .repeatedStart else configured)

theorem deviceRead_eq (faults : Faults) (buffer : List UInt8) (zerocopy repeated : Bool)
    (bus : Bus) :
    deviceRead faults 0 buffer zerocopy repeated bus =
      if addressSize ≤ faults.address then
        let ended := ifRead faults.read buffer.length (addressed faults zerocopy repeated bus)
        (if zerocopy = true ∧ faults.read < buffer.length then ended.1.request .busRecovery
          else ended.1, splice buffer 0 ended.2)
      else
        (if zerocopy = true then
          (addressed faults zerocopy repeated bus).request .busRecovery
        else addressed faults zerocopy repeated bus, buffer) := by
  cases zerocopy with
  | false =>
      simp only [deviceRead, addressed, Bool.false_eq_true, if_false, false_and]
  | true =>
      simp only [deviceRead, addressed, if_true, true_and]
      by_cases positioned : addressSize ≤ faults.address
      · rw [if_pos positioned, if_pos positioned]
        by_cases whole : buffer.length ≤ faults.read
        · rw [if_pos whole, if_neg (Nat.not_lt.mpr whole)]
        · rw [if_neg whole, if_pos (Nat.not_le.mp whole)]
      · rw [if_neg positioned, if_neg positioned]

theorem addressed_memory (faults : Faults) (zerocopy repeated : Bool) (bus : Bus) :
    (addressed faults zerocopy repeated bus).memory = bus.memory := by
  rw [addressed, (ifWrite_address _ _).1]
  cases repeated <;> rfl

theorem recoveries_addressed (faults : Faults) (zerocopy repeated : Bool) (bus : Bus) :
    recoveries (addressed faults zerocopy repeated bus) = recoveries bus := by
  rw [addressed, recoveries_ifWrite]
  cases repeated with
  | false => exact recoveries_config zerocopy bus
  | true =>
      rw [if_pos rfl, recoveries_request, recoveries_config]
      rfl

theorem deviceRead_getElem? (faults : Faults) (buffer : List UInt8) (zerocopy repeated : Bool)
    (bus : Bus) (cell : Nat) :
    (deviceRead faults 0 buffer zerocopy repeated bus).2[cell]? =
      if addressSize ≤ faults.address ∧ cell < min faults.read buffer.length then
        some (bus.memory cell)
      else buffer[cell]? := by
  rw [deviceRead_eq]
  by_cases positioned : addressSize ≤ faults.address
  · have position := (ifWrite_address faults.address
      (if repeated then (deviceConfigIo zerocopy bus).request .repeatedStart
        else deviceConfigIo zerocopy bus)).2 positioned
    have size :
        (ifRead faults.read buffer.length (addressed faults zerocopy repeated bus)).2.length =
        min faults.read buffer.length := by
      simp [ifRead]
    rw [if_pos positioned]
    simp only [positioned, true_and]
    rw [splice_start_getElem? _ _ _ (by rw [size]; omega), size, ifRead_getElem?, addressed_memory,
      addressed, position, Nat.zero_add]
    split
    · rfl
    · rfl
  · have nothing : ¬(addressSize ≤ faults.address ∧ cell < min faults.read buffer.length) :=
      fun both => positioned both.1
    rw [if_neg positioned, if_neg nothing]

theorem deviceRead_memory (faults : Faults) (buffer : List UInt8) (zerocopy repeated : Bool)
    (bus : Bus) :
    (deviceRead faults 0 buffer zerocopy repeated bus).1.memory = bus.memory := by
  have kept := addressed_memory faults zerocopy repeated bus
  rw [deviceRead_eq]
  split
  · show (if _ then _ else _ : Bus).memory = bus.memory
    split
    · exact kept
    · exact kept
  · show (if _ then _ else _ : Bus).memory = bus.memory
    split
    · exact kept
    · exact kept

theorem recoveries_deviceRead (faults : Faults) (buffer : List UInt8) (zerocopy repeated : Bool)
    (bus : Bus) :
    recoveries (deviceRead faults 0 buffer zerocopy repeated bus).1 = recoveries bus +
      (if zerocopy = true ∧ (faults.address < addressSize ∨ faults.read < buffer.length) then 1
        else 0) := by
  have kept := recoveries_addressed faults zerocopy repeated bus
  have ended := recoveries_ifRead faults.read buffer.length (addressed faults zerocopy repeated bus)
  rw [kept] at ended
  rw [deviceRead_eq]
  by_cases positioned : addressSize ≤ faults.address
  · rw [if_pos positioned]
    by_cases cut : zerocopy = true ∧ faults.read < buffer.length
    · simp only [if_pos cut]
      rw [if_pos ⟨cut.1, Or.inr cut.2⟩, recoveries_request, ended, if_pos rfl]
    · simp only [if_neg cut]
      have quiet : ¬(zerocopy = true ∧
          (faults.address < addressSize ∨ faults.read < buffer.length)) := by
        rintro ⟨mode, early | late⟩
        · exact Nat.not_lt.mpr positioned early
        · exact cut ⟨mode, late⟩
      rw [if_neg quiet, ended, Nat.add_zero]
  · rw [if_neg positioned]
    by_cases mode : zerocopy = true
    · simp only [if_pos mode]
      rw [if_pos ⟨mode, Or.inl (by omega)⟩, recoveries_request, kept, if_pos rfl]
    · simp only [if_neg mode]
      rw [if_neg (fun both => mode both.1), kept, Nat.add_zero]

/-! ## Rounds -/

/-- The state after `rounds`: each cell of the page holds the pattern of the last round that
stored it. -/
structure After (zerocopy : Bool) (memory : Nat → UInt8) (rounds : List Faults)
    (machine : Machine) : Prop where
  iteration : machine.iteration = UInt8.ofNat (bufferSize * rounds.length)
  cells : ∀ cell < bufferSize, machine.bus.memory cell =
    match lastStored cell rounds with
    | some index => patternByte index cell
    | none => memory cell
  recovered : recoveries machine.bus = if zerocopy = true then allBroken rounds else 0

theorem after_initial (zerocopy : Bool) (memory : Nat → UInt8) :
    After zerocopy memory [] (initialMachine memory) where
  iteration := rfl
  cells := fun _ _ => rfl
  recovered := by cases zerocopy <;> rfl

theorem After.round {zerocopy : Bool} {memory : Nat → UInt8} {rounds : List Faults}
    {machine : Machine} (after : After zerocopy memory rounds machine) (repeated : Bool)
    (faults : Faults) :
    After zerocopy memory (rounds ++ [faults]) (round zerocopy repeated machine faults) where
  iteration := by
    show machine.iteration + UInt8.ofNat bufferSize = _
    rw [after.iteration, ← UInt8.ofNat_add, List.length_append, List.length_singleton,
      Nat.mul_add, Nat.mul_one]
  cells := by
    intro cell inside
    show (deviceRead _ _ _ _ _ _).1.memory cell = _
    rw [deviceRead_memory, deviceWrite_memory, lastStored_concat, after.iteration,
      List.getD_eq_getElem?_getD, fillBuffer_getElem? _ _ _ inside, Option.getD_some]
    by_cases here : stored cell faults
    · rw [if_pos here, if_pos here]
    · rw [if_neg here, if_neg here]
      exact after.cells cell inside
  recovered := by
    show recoveries (deviceRead _ _ _ _ _ _).1 = _
    rw [recoveries_deviceRead, recoveries_deviceWrite, after.recovered,
      allBroken_concat, fillBuffer_length, List.length_replicate, broken]
    cases zerocopy with
    | false => rfl
    | true => simp only [true_and, if_true, Nat.add_assoc]

theorem after_runRounds (zerocopy repeated : Bool) (memory : Nat → UInt8) (rounds : List Faults) :
    After zerocopy memory rounds (runRounds zerocopy repeated memory rounds) := by
  induction rounds using List.reverseRecOn with
  | nil => exact after_initial zerocopy memory
  | append_singleton rounds faults ih =>
      rw [runRounds, List.foldl_append]
      exact ih.round repeated faults

theorem patternByte_last_ne_zero (index : Nat) :
    patternByte index (bufferSize - 1) ≠ 0 := by
  intro zero
  have value := congrArg UInt8.toNat zero
  rw [patternByte, UInt8.toNat_ofNat'] at value
  simp only [bufferSize, UInt8.toNat_zero] at value
  omega

/-- A byte that did not arrive stays 0, and the last byte of a pattern never is. -/
theorem page_right_iff (faults : Faults) (zerocopy repeated : Bool) (bus : Bus) (index : Nat) :
    (∀ cell < bufferSize,
      (deviceRead faults 0 (List.replicate bufferSize 0) zerocopy repeated bus).2[cell]? =
        some (patternByte index cell)) ↔
      addressSize ≤ faults.address ∧ bufferSize ≤ faults.read ∧
        ∀ cell < bufferSize, bus.memory cell = patternByte index cell := by
  simp only [deviceRead_getElem?, List.length_replicate]
  constructor
  · intro right
    have arrived : addressSize ≤ faults.address ∧
        bufferSize - 1 < min faults.read bufferSize := by
      by_cases last : addressSize ≤ faults.address ∧ bufferSize - 1 < min faults.read bufferSize
      · exact last
      · have value := right (bufferSize - 1) (by decide)
        rw [if_neg last, List.getElem?_replicate, if_pos (by decide), Option.some_inj] at value
        exact absurd value.symm (patternByte_last_ne_zero index)
    refine ⟨arrived.1, by omega, fun cell inside => ?_⟩
    have value := right cell inside
    rw [if_pos ⟨arrived.1, by omega⟩] at value
    exact Option.some_inj.mp value
  · rintro ⟨positioned, whole, same⟩ cell inside
    rw [if_pos ⟨positioned, by omega⟩, same cell inside]

theorem round_led_iff (zerocopy repeated : Bool) (machine : Machine) (faults : Faults) (index : Nat)
    (iteration : machine.iteration = UInt8.ofNat (bufferSize * index)) :
    (round zerocopy repeated machine faults).led = false ↔
      addressSize ≤ faults.address ∧ bufferSize ≤ faults.read ∧
        ∀ cell < bufferSize,
          (round zerocopy repeated machine faults).bus.memory cell = patternByte index cell := by
  simp only [round, deviceRead_memory, Bool.not_eq_false', iteration]
  rw [checkBuffer_iff]
  exact page_right_iff faults zerocopy repeated _ index

/-- The LED goes out in a round exactly when the page came back whole and no cell of it stems from
another round, except one a multiple of 16 rounds ago; and in the zerocopy mode the bus has been
recovered once for each transfer that broke off. -/
theorem led_off_iff (zerocopy repeated : Bool) (memory : Nat → UInt8) (rounds : List Faults)
    (faults : Faults) :
    ((runRounds zerocopy repeated memory (rounds ++ [faults])).led = false ↔
      addressSize ≤ faults.address ∧ bufferSize ≤ faults.read ∧
        ∀ cell < bufferSize,
          match lastStored cell (rounds ++ [faults]) with
          | some index => bufferSize ∣ rounds.length - index
          | none => memory cell = patternByte rounds.length cell) ∧
    recoveries (runRounds zerocopy repeated memory (rounds ++ [faults])).bus =
      if zerocopy = true then allBroken (rounds ++ [faults]) else 0 := by
  have after := after_runRounds zerocopy repeated memory (rounds ++ [faults])
  refine ⟨?_, after.recovered⟩
  have before := (after_runRounds zerocopy repeated memory rounds).iteration
  have step : runRounds zerocopy repeated memory (rounds ++ [faults]) =
      round zerocopy repeated (runRounds zerocopy repeated memory rounds) faults := by
    rw [runRounds, List.foldl_append]
    rfl
  rw [step, round_led_iff zerocopy repeated _ faults rounds.length before, ← step]
  refine and_congr_right fun _ => and_congr_right fun _ => forall_congr' fun cell =>
    imp_congr_right fun inside => ?_
  rw [after.cells cell inside]
  cases found : lastStored cell (rounds ++ [faults]) with
  | none => exact Iff.rfl
  | some index =>
      have past := lastIndex_lt _ (rounds ++ [faults]) index found
      rw [List.length_append, List.length_singleton] at past
      exact patternByte_eq_iff index rounds.length cell (by omega)

end HalmExamples.I2cMemory
