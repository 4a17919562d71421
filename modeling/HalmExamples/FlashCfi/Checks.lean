import HalmExamples.Foundation.Schedule
import HalmExamples.FlashCfi.Driver

/-!
# The checks of the driver

`interfaceSetParam` lets any position below the size pass and a transfer is clamped by
a 32-bit sum.  A position stays below the size for good, but an odd one fails the
assertion of the next write, and a transfer whose sum wraps is not clamped.
-/

set_option autoImplicit false

namespace HalmExamples.FlashCfi

open Foundation Halm

/-! ## What a request does to the bus -/

/-- The bytes `memcpy` reads in `interfaceRead`, relative to `interface->address`. -/
def FlashCFI.readAddresses (interface : FlashCFI) (length : Nat) : List Nat :=
  (List.range (interface.clamp length)).map fun index => interface.offset + index

def Device.reads (device : Device) : Request → List Nat
  | .read length => device.interface.readAddresses length
  | _ => []

/-- The writes a request makes, if no assertion fails. -/
def Device.cycles (device : Device) : Request → Option (List BusCycle)
  | .getParam _ => some []
  | .setParam parameter data =>
      (interfaceSetParam device.interface parameter data).map Outcome.cycles
  | .read length => (interfaceRead device.interface device.chip.byteAt length).map Outcome.cycles
  | .write buffer length => (interfaceWrite device.interface buffer length).map Outcome.cycles

def transferred : Response → Nat
  | .param _ _ => 0
  | .bytes read => read.length
  | .count written => written

def Device.serve (device : Device) (request : Request) : Option Device :=
  (device.handle request).map Prod.snd

/-! ## The conditions -/

/-- The arguments callers can pass: 32 bits, and even lengths. -/
def Request.Words : Request → Prop
  | .getParam _ => True
  | .setParam _ data => data < 2 ^ 32
  | .read length => length % 2 = 0 ∧ length < 2 ^ 32
  | .write _ length => length % 2 = 0 ∧ length < 2 ^ 32

def CyclesInside (size : Nat) (cycles : List BusCycle) : Prop :=
  ∀ cycle ∈ cycles, 2 * cycle.word + 1 < size

structure StepSafe (device : Device) (request : Request) : Prop where
  asserted : (device.handle request).isSome = true
  bounded : ∀ answer ∈ device.handle request,
    transferred answer.1 ≤ device.interface.size - device.interface.offset
  reads_inside : ∀ address ∈ device.reads request, address < device.interface.size
  writes_inside : ∀ cycles ∈ device.cycles request, CyclesInside device.interface.size cycles

/-- The sum does not wrap, and a write that is not empty starts at an even position. -/
def Fits (device : Device) : Request → Prop
  | .read length => device.interface.offset + length < 2 ^ 32
  | .write _ length =>
      device.interface.offset + length < 2 ^ 32 ∧
        (device.interface.offset % 2 = 0 ∨ length = 0)
  | _ => True

instance (device : Device) (request : Request) : Decidable (Fits device request) := by
  cases request <;> unfold Fits <;> infer_instance

/-- `size` is a positive multiple of the block size, as a `uint32_t`. -/
structure Mounted (size : Nat) (interface : FlashCFI) : Prop where
  positive : 0 < size
  blocks : size % 65536 = 0
  bound : size < 2 ^ 32
  capacity : interface.size = size
  inside : interface.offset < size

section Interface

variable {size : Nat} {interface : FlashCFI}

/-! ## The clamp -/

theorem Mounted.clamp_of_fits (mounted : Mounted size interface) (length : Nat)
    (fits : interface.offset + length < 2 ^ 32) :
    interface.clamp length = min length (size - interface.offset) := by
  obtain ⟨_, _, bound, capacity, inside⟩ := mounted
  unfold FlashCFI.clamp
  rw [capacity, wrap32_of_lt _ fits]
  by_cases beyond : interface.offset + length > size
  · rw [if_pos beyond, sub32_of_le _ _ (Nat.le_of_lt inside) bound]
    omega
  · rw [if_neg beyond]
    omega

/-- A sum that wraps falls below the offset, so nothing is clamped. -/
theorem Mounted.clamp_of_wraps (mounted : Mounted size interface) (length : Nat)
    (word : length < 2 ^ 32) (wraps : 2 ^ 32 ≤ interface.offset + length) :
    interface.clamp length = length := by
  obtain ⟨_, _, bound, capacity, inside⟩ := mounted
  unfold FlashCFI.clamp
  rw [capacity, if_neg]
  unfold wrap32
  omega

theorem Mounted.clamp_le_iff (mounted : Mounted size interface) (length : Nat)
    (word : length < 2 ^ 32) :
    interface.clamp length ≤ size - interface.offset ↔ interface.offset + length < 2 ^ 32 := by
  have bound := mounted.bound
  have inside := mounted.inside
  by_cases fits : interface.offset + length < 2 ^ 32
  · rw [mounted.clamp_of_fits length fits]
    omega
  · rw [mounted.clamp_of_wraps length word (Nat.le_of_not_lt fits)]
    omega

theorem Mounted.advance (mounted : Mounted size interface) (length : Nat) :
    Mounted size (interface.advance (interface.clamp length)) := by
  obtain ⟨positive, blocks, bound, capacity, inside⟩ := mounted
  refine ⟨positive, blocks, bound, capacity, ?_⟩
  have moved : wrap32 (interface.offset + interface.clamp length) ≤ size := by
    unfold FlashCFI.clamp
    rw [capacity]
    by_cases beyond : wrap32 (interface.offset + length) > size
    · have atEnd : wrap32 (interface.offset + (size - interface.offset)) = size := by
        rw [Nat.add_sub_cancel' (Nat.le_of_lt inside), wrap32_of_lt _ bound]
      rw [if_pos beyond, sub32_of_le _ _ (Nat.le_of_lt inside) bound]
      exact Nat.le_of_eq atEnd
    · rw [if_neg beyond]
      exact Nat.le_of_not_lt beyond
  simp only [FlashCFI.advance, capacity]
  split
  · exact positive
  · rename_i notEnd
    exact Nat.lt_of_le_of_ne moved notEnd

/-! ## Bus writes -/

theorem cyclesInside_nil : CyclesInside size [] := by
  intro cycle member
  cases member

theorem CyclesInside.append {first second : List BusCycle} (firstInside : CyclesInside size first)
    (secondInside : CyclesInside size second) : CyclesInside size (first ++ second) := by
  intro cycle member
  rcases List.mem_append.mp member with early | late
  · exact firstInside cycle early
  · exact secondInside cycle late

theorem Mounted.large (mounted : Mounted size interface) : 65536 ≤ size := by
  have positive := mounted.positive
  have blocks := mounted.blocks
  omega

/-- A command for an even position below the size: the words that every command goes to
are inside even the smallest flash. -/
theorem Mounted.command_inside (mounted : Mounted size interface) (position : Nat)
    (even : position % 2 = 0) (inside : position < size) (cycles : List BusCycle)
    (words : ∀ cycle ∈ cycles, cycle.word ≤ 0x5555 ∨ cycle.word = position >>> 1) :
    CyclesInside size cycles := by
  have large := mounted.large
  have blocks := mounted.blocks
  intro cycle member
  rcases words cycle member with command | there
  · omega
  · rw [there, Nat.shiftRight_eq_div_pow, Nat.pow_one]
    omega

theorem writeWord_inside (mounted : Mounted size interface) (position : Nat)
    (even : position % 2 = 0) (inside : position < size) (value : UInt16) :
    ∃ cycles, writeWord position value = some cycles ∧ CyclesInside size cycles := by
  refine ⟨_, if_pos even, mounted.command_inside position even inside _ ?_⟩
  simp

theorem writeWords_inside (mounted : Mounted size interface) (offset : Nat)
    (buffer : Nat → UInt8) (index remaining : Nat) (even : (offset + index) % 2 = 0)
    (fits : offset + index + 2 * remaining ≤ size) :
    ∃ cycles, writeWords offset buffer index remaining = some cycles ∧
      CyclesInside size cycles := by
  induction remaining generalizing index with
  | zero => exact ⟨[], rfl, cyclesInside_nil⟩
  | succ remaining ih =>
      have bound := mounted.bound
      have position : wrap32 (offset + index) = offset + index := wrap32_of_lt _ (by omega)
      obtain ⟨later, issued, laterInside⟩ := ih (index + 2) (by omega) (by omega)
      obtain ⟨first, written, firstInside⟩ :=
        writeWord_inside mounted (offset + index) even (by omega) (inputWord buffer index)
      refine ⟨first ++ later, ?_, firstInside.append laterInside⟩
      simp only [writeWords, position, written, issued, Option.map_some]

theorem writeWords_odd (offset : Nat) (buffer : Nat → UInt8) (remaining : Nat)
    (odd : offset % 2 ≠ 0) (some : remaining ≠ 0) :
    writeWords offset buffer 0 remaining = none := by
  cases remaining with
  | zero => exact absurd rfl some
  | succ remaining =>
      have position : wrap32 (offset + 0) % 2 ≠ 0 := by
        unfold wrap32
        omega
      simp only [writeWords, writeWord, if_neg position]

/-- The check of `interfaceSetParam` is the assertion of the command. -/
theorem eraseParam_inside (mounted : Mounted size interface) (unit : Nat)
    (command : Nat → Option (List BusCycle))
    (issues : ∀ position, position % unit = 0 → position < size →
      ∃ cycles, command position = some cycles ∧ CyclesInside size cycles) (position : Nat) :
    ∃ outcome, eraseParam interface unit command position = some outcome ∧
      outcome.interface = interface ∧ CyclesInside size outcome.cycles := by
  unfold eraseParam
  rw [mounted.capacity]
  by_cases outside : position ≥ size
  · rw [if_pos outside]
    exact ⟨_, rfl, rfl, cyclesInside_nil⟩
  · rw [if_neg outside]
    by_cases aligned : position % unit = 0
    · obtain ⟨cycles, issued, inside⟩ := issues position aligned (Nat.lt_of_not_le outside)
      rw [if_neg (not_not.mpr aligned), issued]
      exact ⟨_, rfl, rfl, inside⟩
    · rw [if_pos aligned]
      exact ⟨_, rfl, rfl, cyclesInside_nil⟩

theorem eraseBlock_inside (mounted : Mounted size interface) (position : Nat)
    (aligned : position % blockSize = 0) (inside : position < size) :
    ∃ cycles, eraseBlock position = some cycles ∧ CyclesInside size cycles := by
  have even : position % 2 = 0 := by
    unfold blockSize at aligned
    omega
  refine ⟨_, if_pos aligned, mounted.command_inside position even inside _ ?_⟩
  simp

theorem eraseSector_inside (mounted : Mounted size interface) (position : Nat)
    (aligned : position % sectorSize = 0) (inside : position < size) :
    ∃ cycles, eraseSector position = some cycles ∧ CyclesInside size cycles := by
  have even : position % 2 = 0 := by
    unfold sectorSize at aligned
    omega
  refine ⟨_, if_pos aligned, mounted.command_inside position even inside _ ?_⟩
  simp

/-- Every parameter, every value: no assertion fails and the position stays below the
size. -/
theorem interfaceSetParam_inside (mounted : Mounted size interface) (parameter : Parameter)
    (data : Nat) :
    ∃ outcome, interfaceSetParam interface parameter data = some outcome ∧
      Mounted size outcome.interface ∧ CyclesInside size outcome.cycles := by
  cases parameter with
  | flashEraseBlock =>
      obtain ⟨outcome, done, same, inside⟩ := eraseParam_inside mounted blockSize eraseBlock
        (eraseBlock_inside mounted) data
      exact ⟨outcome, done, by rw [same]; exact mounted, inside⟩
  | flashEraseSector =>
      obtain ⟨outcome, done, same, inside⟩ := eraseParam_inside mounted sectorSize eraseSector
        (eraseSector_inside mounted) data
      exact ⟨outcome, done, by rw [same]; exact mounted, inside⟩
  | position =>
      simp only [interfaceSetParam, mounted.capacity]
      by_cases inside : data < size
      · rw [if_pos inside]
        exact ⟨_, rfl, ⟨mounted.positive, mounted.blocks, mounted.bound, rfl, inside⟩,
          cyclesInside_nil⟩
      · rw [if_neg inside]
        exact ⟨_, rfl, mounted, cyclesInside_nil⟩
  | _ => exact ⟨_, rfl, mounted, cyclesInside_nil⟩

/-- `readAddresses` are the bytes that the call returns. -/
theorem interfaceRead_eq (memory : Nat → UInt8) (length : Nat) (even : length % 2 = 0) :
    interfaceRead interface memory length =
      some ⟨(interface.readAddresses length).map memory,
        interface.advance (interface.clamp length), []⟩ := by
  simp only [interfaceRead, even, if_true, FlashCFI.readAddresses, List.map_map]
  rfl

theorem interfaceWrite_eq (buffer : Nat → UInt8) (length : Nat) (even : length % 2 = 0) :
    interfaceWrite interface buffer length =
      (writeWords interface.offset buffer 0 ((interface.clamp length + 1) / 2)).map fun cycles =>
        ⟨interface.clamp length, interface.advance (interface.clamp length), cycles⟩ := by
  simp only [interfaceWrite, even, if_true]

end Interface

/-! ## One request -/

section Requests

variable {size : Nat} {device : Device}

theorem serve_mounted (mounted : Mounted size device.interface) (request : Request)
    (words : request.Words) (next : Device) (served : device.serve request = some next) :
    Mounted size next.interface := by
  cases request with
  | getParam parameter =>
      cases served
      exact mounted
  | setParam parameter data =>
      obtain ⟨outcome, done, stays, _⟩ := interfaceSetParam_inside mounted parameter data
      simp only [Device.serve, Device.handle, done, Option.map_some, Device.settle] at served
      cases served
      exact stays
  | read length =>
      simp only [Device.serve, Device.handle, interfaceRead_eq _ _ words.1, Option.map_some,
        Device.settle] at served
      cases served
      exact mounted.advance length
  | write buffer length =>
      simp only [Device.serve, Device.handle, interfaceWrite_eq _ _ words.1, Option.map_map,
        Device.settle] at served
      obtain ⟨cycles, _, isNext⟩ := Option.map_eq_some_iff.mp served
      cases isNext
      exact mounted.advance length

theorem stepSafe_read_iff (mounted : Mounted size device.interface) (length : Nat)
    (words : (Request.read length).Words) :
    StepSafe device (.read length) ↔ Fits device (.read length) := by
  have handled : device.handle (.read length) = some (.bytes
      ((device.interface.readAddresses length).map device.chip.byteAt),
      ⟨device.interface.advance (device.interface.clamp length), device.chip⟩) := by
    simp only [Device.handle, interfaceRead_eq _ _ words.1]
    rfl
  have count : ((device.interface.readAddresses length).map device.chip.byteAt).length =
      device.interface.clamp length := by
    rw [List.length_map, FlashCFI.readAddresses, List.length_map, List.length_range]
  show _ ↔ device.interface.offset + length < 2 ^ 32
  rw [← mounted.clamp_le_iff length words.2]
  have inside := mounted.inside
  constructor
  · intro safe
    have bounded := safe.bounded _ handled
    rw [transferred, count, mounted.capacity] at bounded
    exact bounded
  · intro fits
    refine ⟨by rw [handled]; rfl, ?_, ?_, ?_⟩
    · intro answer isAnswer
      cases handled.symm.trans isAnswer
      rw [transferred, count, mounted.capacity]
      exact fits
    · intro address member
      obtain ⟨index, inRange, rfl⟩ := List.mem_map.mp member
      have := List.mem_range.mp inRange
      rw [mounted.capacity]
      omega
    · intro cycles isCycles
      rw [Device.cycles, interfaceRead_eq _ _ words.1] at isCycles
      cases isCycles
      exact cyclesInside_nil

theorem stepSafe_write_iff (mounted : Mounted size device.interface) (buffer : Nat → UInt8)
    (length : Nat) (words : (Request.write buffer length).Words) :
    StepSafe device (.write buffer length) ↔ Fits device (.write buffer length) := by
  have inside := mounted.inside
  have blocks := mounted.blocks
  have countLe := mounted.clamp_le_iff length words.2
  have written : interfaceWrite device.interface buffer length = _ :=
    interfaceWrite_eq buffer length words.1
  constructor
  · intro safe
    obtain ⟨answer, handled⟩ := Option.isSome_iff_exists.mp safe.asserted
    have bounded := safe.bounded answer handled
    simp only [Device.handle, written, Option.map_map] at handled
    obtain ⟨cycles, issued, isAnswer⟩ := Option.map_eq_some_iff.mp handled
    cases isAnswer
    have fits := countLe.mp (by rw [← mounted.capacity]; exact bounded)
    refine ⟨fits, ?_⟩
    by_contra neither
    obtain ⟨odd, notEmpty⟩ := not_or.mp neither
    have some : (device.interface.clamp length + 1) / 2 ≠ 0 := by
      rw [mounted.clamp_of_fits length fits]
      omega
    rw [writeWords_odd _ _ _ odd some] at issued
    cases issued
  · rintro ⟨fits, even⟩
    have count := mounted.clamp_of_fits length fits
    have countEven : device.interface.offset % 2 = 0 → device.interface.clamp length % 2 = 0 := by
      intro offsetEven
      have lengthEven := words.1
      rw [count]
      omega
    have issues : ∃ cycles, writeWords device.interface.offset buffer 0
        ((device.interface.clamp length + 1) / 2) = some cycles ∧ CyclesInside size cycles := by
      rcases even with offsetEven | empty
      · have := countEven offsetEven
        exact writeWords_inside mounted _ _ 0 _ offsetEven (by omega)
      · have none : device.interface.clamp length = 0 := by
          rw [count]
          omega
        rw [none]
        exact ⟨[], rfl, cyclesInside_nil⟩
    obtain ⟨cycles, issued, cyclesInside⟩ := issues
    rw [issued, Option.map_some] at written
    have handled : device.handle (.write buffer length) = some (.count
        (device.interface.clamp length), ⟨device.interface.advance (device.interface.clamp length),
        device.chip.accept cycles⟩) := by
      simp only [Device.handle, written, Option.map_some]
      rfl
    refine ⟨by rw [handled]; rfl, ?_, nofun, ?_⟩
    · intro answer isAnswer
      cases handled.symm.trans isAnswer
      rw [mounted.capacity]
      exact countLe.mpr fits
    · intro others isCycles
      rw [Device.cycles, written] at isCycles
      cases isCycles
      rw [mounted.capacity]
      exact cyclesInside

theorem stepSafe_iff (mounted : Mounted size device.interface) (request : Request)
    (words : request.Words) : StepSafe device request ↔ Fits device request := by
  cases request with
  | getParam parameter =>
      refine iff_of_true ⟨rfl, ?_, nofun, ?_⟩ trivial
      · intro answer isAnswer
        cases isAnswer
        exact Nat.zero_le _
      · intro cycles isCycles
        cases isCycles
        exact cyclesInside_nil
  | setParam parameter data =>
      obtain ⟨outcome, done, _, inside⟩ := interfaceSetParam_inside mounted parameter data
      refine iff_of_true ⟨?_, ?_, nofun, ?_⟩ trivial
      · simp only [Device.handle, done]
        rfl
      · intro answer isAnswer
        simp only [Device.handle, done, Option.map_some] at isAnswer
        cases isAnswer
        exact Nat.zero_le _
      · intro cycles isCycles
        simp only [Device.cycles, done, Option.map_some] at isCycles
        cases isCycles
        rw [mounted.capacity]
        exact inside
  | read length => exact stepSafe_read_iff mounted length words
  | write buffer length => exact stepSafe_write_iff mounted buffer length words

end Requests

/-! ## Every sequence of requests -/

/-- All requests of a sequence are served safely exactly when each of them fits at the
position where it finds the flash. -/
theorem requests_safe_iff (size : Nat) (positive : 0 < size) (blocks : size % 65536 = 0)
    (bound : size < 2 ^ 32) (chip : Chip) (requests : List Request)
    (words : ∀ request ∈ requests, request.Words) :
    Schedule.Along Device.serve StepSafe requests ⟨interfaceInit size, chip⟩ ↔
      Schedule.Along Device.serve Fits requests ⟨interfaceInit size, chip⟩ :=
  Schedule.along_congr Device.serve (fun device => Mounted size device.interface) Request.Words
    StepSafe Fits
    (fun _ request next mounted isWords served =>
      serve_mounted mounted request isWords next served)
    (fun _ request mounted isWords => stepSafe_iff mounted request isWords)
    requests words _ ⟨positive, blocks, bound, rfl, positive⟩

def oddPosition : List Request := [.setParam .position 1, .write (fun _ => 0) 2]
def wrappingLength : List Request := [.setParam .position 2, .read (2 ^ 32 - 2)]

def blankChip : Chip := { command := .ready, words := fun _ => 0xFFFF }

def smallestFlash : Device := ⟨interfaceInit 65536, blankChip⟩

theorem requests_unsafe :
    ¬ Schedule.Along Device.serve StepSafe oddPosition smallestFlash ∧
      ¬ Schedule.Along Device.serve StepSafe wrappingLength smallestFlash := by
  constructor
  · rintro ⟨_, refused, _⟩
    exact Bool.false_ne_true refused.asserted
  · rintro ⟨_, read, _⟩
    have mounted : Mounted 65536 { offset := 2, size := 65536 } :=
      ⟨by decide, rfl, by decide, rfl, by decide⟩
    have fits := (stepSafe_read_iff mounted (2 ^ 32 - 2) ⟨by decide, by decide⟩).mp read
    exact absurd fits (by decide)

def clampedSession : List Request :=
  [.setParam .position 65534, .write (fun _ => 0) 8, .read 6, .setParam .flashEraseBlock 0]

theorem requests_safe_iff_clamped :
    Schedule.Along Device.serve StepSafe clampedSession smallestFlash ∧
      (Schedule.Along Device.serve StepSafe clampedSession smallestFlash ↔
        Schedule.Along Device.serve Fits clampedSession smallestFlash) := by
  have words : ∀ request ∈ clampedSession, request.Words := by
    simp [clampedSession, Request.Words]
  have exactly := requests_safe_iff 65536 (by decide) rfl (by decide) blankChip clampedSession words
  exact ⟨exactly.mpr (by decide +kernel), exactly⟩

end HalmExamples.FlashCfi
