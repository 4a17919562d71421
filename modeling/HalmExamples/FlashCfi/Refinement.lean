import HalmExamples.Foundation.Simulation
import HalmExamples.FlashCfi.Driver

/-!
# A flash with a cursor

The driver and the chip together behave as plain memory that can be read at a
cursor, programmed there (bits can only be cleared) and erased in aligned units.
`Represents` ties the two; every request is one step of a forward simulation.
-/

set_option autoImplicit false

namespace HalmExamples.FlashCfi

open Foundation Halm

/-! ## The plain flash -/

structure PlainFlash (size : Nat) where
  bytes : Nat → UInt8
  cursor : Nat
  inside : cursor < size

namespace PlainFlash

variable {size : Nat}

def count (flash : PlainFlash size) (length : Nat) : Nat := min length (size - flash.cursor)

def moved (flash : PlainFlash size) (amount : Nat) : PlainFlash size :=
  { bytes := flash.bytes
    cursor := (flash.cursor + amount) % size
    inside := Nat.mod_lt _ (Nat.zero_lt_of_lt flash.inside) }

def seek (flash : PlainFlash size) (position : Nat) : Result × PlainFlash size :=
  if inside : position < size then
    (.ok, { bytes := flash.bytes, cursor := position, inside := inside })
  else (.address, flash)

def erase (flash : PlainFlash size) (unit position : Nat) : Result × PlainFlash size :=
  if position < size ∧ unit ∣ position then
    (.ok, { flash with
      bytes := fun address =>
        if position ≤ address ∧ address < position + unit then 0xFF else flash.bytes address })
  else (.address, flash)

def read (flash : PlainFlash size) (length : Nat) : List UInt8 × PlainFlash size :=
  ((List.range (flash.count length)).map fun index => flash.bytes (flash.cursor + index),
    flash.moved (flash.count length))

def write (flash : PlainFlash size) (input : Nat → UInt8) (length : Nat) :
    Nat × PlainFlash size :=
  (flash.count length,
    { flash.moved (flash.count length) with
      bytes := fun address =>
        if flash.cursor ≤ address ∧ address < flash.cursor + flash.count length then
          flash.bytes address &&& input (address - flash.cursor)
        else flash.bytes address })

def getParam (flash : PlainFlash size) : Parameter → Result × Option Nat
  | .flashBlockSize => (.ok, some 65536)
  | .flashSectorSize => (.ok, some 4096)
  | .position => (.ok, some flash.cursor)
  | .size => (.ok, some size)
  | _ => (.invalid, none)

def setParam (flash : PlainFlash size) (parameter : Parameter) (data : Nat) :
    Result × PlainFlash size :=
  match parameter with
  | .flashEraseBlock => flash.erase 65536 data
  | .flashEraseSector => flash.erase 4096 data
  | .position => flash.seek data
  | _ => (.invalid, flash)

def handle (flash : PlainFlash size) : Request → Response × PlainFlash size
  | .getParam parameter =>
      (.param (flash.getParam parameter).1 (flash.getParam parameter).2, flash)
  | .setParam parameter data =>
      (.param (flash.setParam parameter data).1 none, (flash.setParam parameter data).2)
  | .read length => (.bytes (flash.read length).1, (flash.read length).2)
  | .write input length => (.count (flash.write input length).1, (flash.write input length).2)

end PlainFlash

/-! ## The requests and the relation -/

def SizeAllowed (size : Nat) : Prop := 0 < size ∧ size % 65536 = 0 ∧ size < 2 ^ 31

/-- 32-bit arguments, accepted positions even, lengths even and below 2^31. -/
def Request.Allowed (size : Nat) : Request → Prop
  | .getParam _ => True
  | .setParam parameter data =>
      data < 2 ^ 32 ∧ (parameter = .position → data < size → data % 2 = 0)
  | .read length => length % 2 = 0 ∧ length < 2 ^ 31
  | .write _ length => length % 2 = 0 ∧ length < 2 ^ 31

/-- Between requests the chip reads back the plain memory, below its size. -/
structure Represents {size : Nat} (device : Device) (flash : PlainFlash size) : Prop where
  capacity : device.interface.size = size
  cursor : device.interface.offset = flash.cursor
  aligned : flash.cursor % 2 = 0
  idle : device.chip.command = .ready
  content : ∀ address < size, device.chip.byteAt address = flash.bytes address

/-! ## Words and bytes -/

theorem inputWord_low (buffer : Nat → UInt8) (index : Nat) :
    (inputWord buffer index).toUInt8 = buffer index := by
  rw [← UInt8.toBitVec_inj]
  ext bit inByte
  simp [inputWord]

theorem inputWord_high (buffer : Nat → UInt8) (index : Nat) :
    (inputWord buffer index >>> 8).toUInt8 = buffer (index + 1) := by
  rw [← UInt8.toBitVec_inj]
  ext bit inByte
  simp [inputWord]
  grind

/-- Programming one word ANDs two bytes of the input into two bytes of the chip. -/
theorem byteAt_programmed_inputWord (chip : Chip) (position index : Nat)
    (even : position % 2 = 0) (buffer : Nat → UInt8) (address : Nat) :
    (chip.programmed (position >>> 1) (inputWord buffer index)).byteAt address =
      if position ≤ address ∧ address < position + 2 then
        chip.byteAt address &&& buffer (index + (address - position))
      else chip.byteAt address := by
  rw [Chip.byteAt_programmed, Nat.shiftRight_eq_div_pow, Nat.pow_one, inputWord_low, inputWord_high]
  by_cases here : position ≤ address ∧ address < position + 2
  · have sameWord : address / 2 = position / 2 := by omega
    rw [if_pos sameWord, if_pos here]
    rcases (by omega : address = position ∨ address = position + 1) with first | second
    · subst first
      simp [even]
    · subst second
      have odd : (position + 1) % 2 ≠ 0 := by omega
      simp [odd]
  · have otherWord : address / 2 ≠ position / 2 := by omega
    rw [if_neg otherWord, if_neg here]

/-- Erasing a unit of words sets the aligned range of its bytes. -/
theorem byteAt_erased_aligned (chip : Chip) (units position : Nat) (positive : 0 < units)
    (aligned : position % (2 * units) = 0) (address : Nat) :
    (chip.erased units (position >>> 1)).byteAt address =
      if position ≤ address ∧ address < position + 2 * units then 0xFF
      else chip.byteAt address := by
  rw [Chip.byteAt_erased, Nat.shiftRight_eq_div_pow, Nat.pow_one, Nat.div_div_eq_div_mul,
    Nat.div_div_eq_div_mul]
  have start : position = 2 * units * (position / (2 * units)) := by
    have := Nat.div_add_mod position (2 * units)
    omega
  have sameUnit : address / (2 * units) = position / (2 * units) ↔
      position ≤ address ∧ address < position + 2 * units := by
    rw [Nat.div_eq_iff (by omega)]
    rw [Nat.mul_comm] at start
    constructor
    · intro range
      omega
    · intro range
      omega
  by_cases inside : position ≤ address ∧ address < position + 2 * units
  · rw [if_pos (sameUnit.mpr inside), if_pos inside]
  · rw [if_neg (fun same => inside (sameUnit.mp same)), if_neg inside]

/-! ## The write loop -/

/-- The loop programs one word after another; the chip is idle between them. -/
theorem accept_writeWords (buffer : Nat → UInt8) (offset index remaining : Nat)
    (chip : Chip) (idle : chip.command = .ready) (offsetEven : offset % 2 = 0)
    (indexEven : index % 2 = 0) (bound : offset + index + 2 * remaining < 2 ^ 32) :
    ∃ cycles, writeWords offset buffer index remaining = some cycles ∧
      (chip.accept cycles).command = .ready ∧
      ∀ address, (chip.accept cycles).byteAt address =
        if offset + index ≤ address ∧ address < offset + index + 2 * remaining then
          chip.byteAt address &&& buffer (address - offset)
        else chip.byteAt address := by
  induction remaining generalizing index chip with
  | zero =>
      refine ⟨[], rfl, idle, ?_⟩
      intro address
      rw [if_neg (by omega)]
      rfl
  | succ remaining ih =>
      have position : wrap32 (offset + index) = offset + index := wrap32_of_lt _ (by omega)
      have even : (offset + index) % 2 = 0 := by omega
      have programming := Chip.accept_program chip idle ((offset + index) >>> 1)
        (inputWord buffer index)
      obtain ⟨later, issued, laterIdle, laterBytes⟩ :=
        ih (index + 2) (chip.programmed ((offset + index) >>> 1) (inputWord buffer index))
          rfl (by omega) (by omega)
      refine ⟨[⟨0x5555, 0x00AA⟩, ⟨0x2AAA, 0x0055⟩, ⟨0x5555, 0x00A0⟩,
        ⟨(offset + index) >>> 1, inputWord buffer index⟩] ++ later, ?_, ?_, ?_⟩
      · simp only [writeWords, writeWord, position, even, if_true, issued, Option.map_some]
      · rw [Chip.accept_append, programming]
        exact laterIdle
      · intro address
        rw [Chip.accept_append, programming, laterBytes,
          byteAt_programmed_inputWord chip (offset + index) index even]
        by_cases first : offset + index ≤ address ∧ address < offset + index + 2
        · have sameByte : index + (address - (offset + index)) = address - offset := by omega
          rw [if_neg (by omega), if_pos first, if_pos (by omega), sameByte]
        · rw [if_neg first]
          by_cases rest : offset + (index + 2) ≤ address ∧
              address < offset + (index + 2) + 2 * remaining
          · rw [if_pos rest, if_pos (by omega)]
          · rw [if_neg rest, if_neg (by omega)]

/-! ## One request -/

section Steps

variable {size : Nat} {device : Device} {flash : PlainFlash size}

theorem Represents.clamp (related : Represents device flash) (sized : SizeAllowed size)
    (length : Nat) (bound : length < 2 ^ 31) :
    device.interface.clamp length = flash.count length := by
  have inside := flash.inside
  obtain ⟨_, _, below⟩ := sized
  unfold FlashCFI.clamp PlainFlash.count
  rw [related.capacity, related.cursor, wrap32_of_lt _ (by omega)]
  by_cases beyond : flash.cursor + length > size
  · rw [if_pos beyond, sub32_of_le _ _ (by omega) (by omega)]
    omega
  · rw [if_neg beyond]
    omega

theorem PlainFlash.count_fits (flash : PlainFlash size) (length : Nat) :
    flash.cursor + flash.count length ≤ size := by
  have inside := flash.inside
  unfold PlainFlash.count
  omega

/-- Cursors and lengths stay even because the size is. -/
theorem Represents.count_even (related : Represents device flash) (sized : SizeAllowed size)
    (length : Nat) (even : length % 2 = 0) : flash.count length % 2 = 0 := by
  have inside := flash.inside
  have aligned := related.aligned
  obtain ⟨_, blocks, _⟩ := sized
  unfold PlainFlash.count
  omega

theorem Represents.advance (related : Represents device flash) (sized : SizeAllowed size)
    (length : Nat) :
    device.interface.advance (flash.count length) =
      { offset := (flash.moved (flash.count length)).cursor, size := size } := by
  have inside := flash.inside
  have fits := flash.count_fits length
  obtain ⟨_, _, below⟩ := sized
  unfold FlashCFI.advance PlainFlash.moved
  rw [related.capacity, related.cursor, wrap32_of_lt _ (by omega)]
  by_cases atEnd : flash.cursor + flash.count length = size
  · simp [atEnd]
  · have before : flash.cursor + flash.count length < size := by omega
    simp [atEnd, Nat.mod_eq_of_lt before]

theorem Represents.moved_aligned (related : Represents device flash) (sized : SizeAllowed size)
    (length : Nat) (even : length % 2 = 0) :
    (flash.moved (flash.count length)).cursor % 2 = 0 := by
  have aligned := related.aligned
  have countEven := related.count_even sized length even
  obtain ⟨_, blocks, _⟩ := sized
  have sizeEven : 2 ∣ size := by omega
  show (flash.cursor + flash.count length) % size % 2 = 0
  rw [Nat.mod_mod_of_dvd _ sizeEven]
  omega

theorem handle_getParam_refines (related : Represents device flash) (parameter : Parameter) :
    device.handle (.getParam parameter) =
      some ((flash.handle (.getParam parameter)).1, device) := by
  have capacity := related.capacity
  have cursor := related.cursor
  cases parameter <;>
    simp [Device.handle, interfaceGetParam, PlainFlash.handle, PlainFlash.getParam, blockSize,
      sectorSize, capacity, cursor]

/-- Both erases: the unit is `2 * units` bytes and the command erases `units` words. -/
theorem eraseParam_refines (related : Represents device flash)
    (units : Nat) (positive : 0 < units) (command : Nat → Option (List BusCycle))
    (erases : ∀ position, position % (2 * units) = 0 →
      ∃ cycles, command position = some cycles ∧
        device.chip.accept cycles = device.chip.erased units (position >>> 1))
    (position : Nat) :
    ∃ next : Device,
      (eraseParam device.interface (2 * units) command position).map (fun outcome =>
        device.settle outcome fun result => Response.param result none) =
        some (.param (flash.erase (2 * units) position).1 none, next) ∧
      Represents next (flash.erase (2 * units) position).2 := by
  have capacity := related.capacity
  unfold eraseParam PlainFlash.erase
  by_cases outside : position ≥ size
  · rw [capacity, if_pos outside, if_neg (fun both => absurd both.1 (by omega))]
    exact ⟨device, rfl, related⟩
  · by_cases aligned : position % (2 * units) = 0
    · obtain ⟨cycles, issued, accepted⟩ := erases position aligned
      have here : position < size ∧ 2 * units ∣ position :=
        ⟨by omega, Nat.dvd_of_mod_eq_zero aligned⟩
      rw [capacity, if_neg outside, if_neg (by omega), if_pos here, issued]
      refine ⟨⟨device.interface, device.chip.accept cycles⟩, rfl, ?_⟩
      rw [accepted]
      refine ⟨capacity, related.cursor, related.aligned, rfl, ?_⟩
      intro address inside
      show (device.chip.erased units (position >>> 1)).byteAt address = _
      rw [byteAt_erased_aligned device.chip units position positive aligned,
        related.content address inside]
    · have misfit : ¬ (position < size ∧ 2 * units ∣ position) := fun both =>
        aligned (Nat.mod_eq_zero_of_dvd both.2)
      rw [capacity, if_neg outside, if_pos aligned, if_neg misfit]
      exact ⟨device, rfl, related⟩

theorem handle_setParam_refines (related : Represents device flash)
    (parameter : Parameter) (data : Nat)
    (allowed : Request.Allowed size (.setParam parameter data)) :
    ∃ next, device.handle (.setParam parameter data) =
        some ((flash.handle (.setParam parameter data)).1, next) ∧
      Represents next (flash.handle (.setParam parameter data)).2 := by
  cases parameter with
  | flashEraseBlock =>
      apply eraseParam_refines related blockWords (by decide) eraseBlock
      intro position aligned
      exact ⟨_, if_pos aligned, Chip.accept_eraseBlock device.chip related.idle _⟩
  | flashEraseSector =>
      apply eraseParam_refines related sectorWords (by decide) eraseSector
      intro position aligned
      exact ⟨_, if_pos aligned, Chip.accept_eraseSector device.chip related.idle _⟩
  | position =>
      simp only [Device.handle, interfaceSetParam, PlainFlash.handle, PlainFlash.setParam,
        PlainFlash.seek, related.capacity]
      by_cases inside : data < size
      · rw [if_pos inside, dif_pos inside]
        exact ⟨_, rfl, rfl, rfl, allowed.2 rfl inside, related.idle, related.content⟩
      · rw [if_neg inside, dif_neg inside]
        exact ⟨_, rfl, related⟩
  | flashPageSize => exact ⟨device, rfl, related⟩
  | flashErasePage => exact ⟨device, rfl, related⟩
  | flashBlockSize => exact ⟨device, rfl, related⟩
  | flashSectorSize => exact ⟨device, rfl, related⟩
  | size => exact ⟨device, rfl, related⟩
  | other code => exact ⟨device, rfl, related⟩

theorem handle_read_refines (related : Represents device flash) (sized : SizeAllowed size)
    (length : Nat) (allowed : Request.Allowed size (.read length)) :
    ∃ next, device.handle (.read length) = some ((flash.handle (.read length)).1, next) ∧
      Represents next (flash.handle (.read length)).2 := by
  obtain ⟨even, bound⟩ := allowed
  have fits := flash.count_fits length
  have sameBytes : (List.range (flash.count length)).map
      (fun index => device.chip.byteAt (device.interface.offset + index)) =
      (flash.read length).1 := by
    apply List.map_congr_left
    intro index member
    have below := List.mem_range.mp member
    rw [related.cursor]
    exact related.content _ (by omega)
  simp only [Device.handle, interfaceRead, even, if_true, related.clamp sized length bound,
    related.advance sized length, Option.map_some, Device.settle, Chip.accept_nil, sameBytes]
  exact ⟨_, rfl, rfl, rfl, related.moved_aligned sized length even, related.idle,
    related.content⟩

theorem handle_write_refines (related : Represents device flash) (sized : SizeAllowed size)
    (input : Nat → UInt8) (length : Nat)
    (allowed : Request.Allowed size (.write input length)) :
    ∃ next, device.handle (.write input length) =
        some ((flash.handle (.write input length)).1, next) ∧
      Represents next (flash.handle (.write input length)).2 := by
  obtain ⟨even, bound⟩ := allowed
  have fits := flash.count_fits length
  have countEven := related.count_even sized length even
  have below : size < 2 ^ 31 := sized.2.2
  obtain ⟨cycles, issued, idle, programmed⟩ :=
    accept_writeWords input flash.cursor 0 ((flash.count length + 1) / 2) device.chip
      related.idle related.aligned rfl (by omega)
  simp only [Device.handle, interfaceWrite, even, if_true, related.clamp sized length bound,
    related.advance sized length, related.cursor, issued, Option.map_some, Device.settle]
  refine ⟨_, rfl, rfl, rfl, related.moved_aligned sized length even, idle, ?_⟩
  intro address inside
  have words : flash.cursor + 0 + 2 * ((flash.count length + 1) / 2) =
      flash.cursor + flash.count length := by omega
  rw [programmed address, words, Nat.add_zero, related.content address inside]
  rfl

theorem handle_refines (sized : SizeAllowed size) :
    Simulation.StepRefines Device.handle PlainFlash.handle
      (fun device (flash : PlainFlash size) => Represents device flash)
      (Request.Allowed size) := by
  intro device flash request related allowed
  cases request with
  | getParam parameter => exact ⟨device, handle_getParam_refines related parameter, related⟩
  | setParam parameter data => exact handle_setParam_refines related parameter data allowed
  | read length => exact handle_read_refines related sized length allowed
  | write input length => exact handle_write_refines related sized input length allowed

end Steps

/-! ## Every sequence of requests -/

def mountedDevice (size : Nat) (words : Nat → UInt16) : Device :=
  { interface := interfaceInit size, chip := { command := .ready, words := words } }

def mountedFlash (size : Nat) (positive : 0 < size) (words : Nat → UInt16) : PlainFlash size :=
  { bytes := (mountedDevice size words).chip.byteAt, cursor := 0, inside := positive }

/-- The driver answers every sequence of requests as the plain flash does, and
leaves the chip idle with the cursor and the bytes of the plain flash. -/
theorem flash_driver_refines (size : Nat) (sized : SizeAllowed size) (words : Nat → UInt16)
    (requests : List Request) (allAllowed : ∀ request ∈ requests, request.Allowed size) :
    let spec := Simulation.answers PlainFlash.handle requests (mountedFlash size sized.1 words)
    ∃ final, Simulation.serve Device.handle requests (mountedDevice size words) =
        some (spec.1, final) ∧
      Represents final spec.2 :=
  Simulation.serve_refines Device.handle PlainFlash.handle
    (fun device (flash : PlainFlash size) => Represents device flash) (Request.Allowed size)
    (handle_refines sized) requests allAllowed _ _
    ⟨rfl, rfl, rfl, rfl, fun _ _ => rfl⟩

/-- A write cut at the end of the flash, a misplaced erase, and a read back. -/
def endOfFlashSession : List Request :=
  [.setParam .position 65532, .write (fun index => UInt8.ofNat index) 8,
    .setParam .flashEraseBlock 4096, .getParam .position, .setParam .position 65530, .read 6]

theorem flash_driver_refines_endOfFlash :
    ∃ final, Simulation.serve Device.handle endOfFlashSession
        (mountedDevice 65536 fun _ => 0x0102) =
      some ([.param .ok none, .count 4, .param .address none, .param .ok (some 0),
        .param .ok none, .bytes [2, 1, 0, 1, 2, 1]], final) := by
  have sized : SizeAllowed 65536 := ⟨by decide, by decide, by decide⟩
  have allAllowed : ∀ request ∈ endOfFlashSession, request.Allowed 65536 := by
    simp [endOfFlashSession, Request.Allowed]
  obtain ⟨final, served, _⟩ :=
    flash_driver_refines 65536 sized (fun _ => 0x0102) endOfFlashSession allAllowed
  have responses : (Simulation.answers PlainFlash.handle endOfFlashSession
      (mountedFlash 65536 (by decide) fun _ => 0x0102)).1 =
      [.param .ok none, .count 4, .param .address none, .param .ok (some 0),
        .param .ok none, .bytes [2, 1, 0, 1, 2, 1]] := by decide
  rw [responses] at served
  exact ⟨final, served⟩

end HalmExamples.FlashCfi
