import HalmExamples.FlashCfi.Refinement
import HalmExamples.FlashTest.MemoryTest

/-!
# The external flash test

`emc_flash/main.c` on the FlashCFI driver and its chip.  `program` and `verify` are those
of the template `flash.jinja2`, word for word.  They expect the position behind the
transfer, but the driver returns to position 0 at the end of the flash.
-/

set_option autoImplicit false

namespace HalmExamples.EmcFlash

open Foundation Foundation.ByteOrder Halm FlashCfi FlashTest

/-- The driver on its chip; nothing succeeds after a failed assertion, which leaves `none`. -/
def driver : Interface (Option Device) where
  getParam state parameter :=
    match state.bind fun device => device.handle (.getParam parameter) with
    | some (.param .ok value, _) => value
    | _ => none
  setParam state parameter data :=
    match state.bind fun device => device.handle (.setParam parameter data) with
    | some (.param result _, next) => (result = .ok, some next)
    | _ => (false, none)
  read state length :=
    match state.bind fun device => device.handle (.read length) with
    | some (.bytes bytes, next) => (bytes, some next)
    | _ => ([], none)
  write state input length :=
    match state.bind fun device => device.handle (.write input length) with
    | some (.count written, next) => (written, some next)
    | _ => (0, none)

/-- `address` is `MEMORY_OFFSET` and `bufferLength` is `BUFFER_SIZE`. -/
def memoryTestSequence {State : Type} (address bufferLength : Nat) (interface : Interface State)
    (paramSize paramErase : Parameter) (state : State) : TestRun State :=
  match interface.getParam state .size with
  | none | some 0 => ⟨some false, state, []⟩
  | some _ =>
      match interface.getParam state paramSize with
      | none => ⟨some true, state, []⟩
      | some chunk => testUnit interface state paramErase bufferLength address chunk

def testRange {State : Type} (interface : Interface State) (paramErase : Parameter)
    (unit address length : Nat) (state : State) : TestRun State :=
  (eraseUnit interface state paramErase address unit).andThen fun state =>
    (program interface state address length).andThen fun state =>
      verify interface state address length

theorem testUnit_eq {State : Type} (interface : Interface State) (paramErase : Parameter)
    (bufferLength address chunk : Nat) (state : State) :
    testUnit interface state paramErase bufferLength address chunk =
      testRange interface paramErase chunk address (min bufferLength chunk) state := rfl

/-! ## The pattern -/

theorem patternWord_eq (index : Nat) :
    [patternByte (4 * index), patternByte (4 * index + 1), patternByte (4 * index + 2),
      patternByte (4 * index + 3)] = littleEndian 4 index := by
  have quotient (digit : Nat) (small : digit < 4) :
      patternByte (4 * index + digit) = UInt8.ofNat (index / 256 ^ digit) := by
    have word : (4 * index + digit) / 4 = index := by omega
    have byte : (4 * index + digit) % 4 = digit := by omega
    rw [patternByte, word, byte]
  have narrowed (value : Nat) : UInt8.ofNat (value % 256) = UInt8.ofNat value :=
    UInt8.toNat_inj.mp (by rw [UInt8.toNat_ofNat', UInt8.toNat_ofNat', Nat.mod_mod])
  simp only [littleEndian, narrowed, Nat.div_div_eq_div_mul]
  rw [quotient 1 (by decide), quotient 2 (by decide), quotient 3 (by decide)]
  have first := quotient 0 (by decide)
  rw [Nat.add_zero, pow_zero, Nat.div_one] at first
  rw [first]
  rfl

theorem patternRead_pattern (length : Nat) (words : length % 4 = 0) (bound : length < 2 ^ 31) :
    patternRead ((List.range length).map patternByte) length = true := by
  rw [patternRead, List.all_eq_true]
  intro index member
  have below := List.mem_range.mp member
  have word : window ((List.range length).map patternByte) (4 * index) 4 =
      littleEndian 4 index := by
    rw [← patternWord_eq]
    apply List.ext_getElem?
    intro digit
    rw [window_getElem?]
    split
    · rename_i small
      rw [List.getElem?_map, List.getElem?_range (by omega)]
      match digit, small with
      | 0, _ => rfl
      | 1, _ => rfl
      | 2, _ => rfl
      | 3, _ => rfl
    · rename_i past
      rw [List.getElem?_eq_none (by simp; omega)]
  rw [word, ofLittleEndian_littleEndian, Nat.mod_eq_of_lt (by omega)]
  exact decide_eq_true rfl

/-! ## The calls on a flash that the device represents -/

section Calls

variable {size : Nat} {device : Device} {flash : PlainFlash size}
  (related : Represents device flash) (sized : SizeAllowed size)
include related sized

theorem driver_setParam (parameter : Parameter) (data : Nat)
    (allowed : Request.Allowed size (.setParam parameter data)) :
    ∃ next, driver.setParam (some device) parameter data =
        (decide ((flash.setParam parameter data).1 = .ok), some next) ∧
      Represents next (flash.setParam parameter data).2 := by
  obtain ⟨next, handled, represents⟩ :=
    handle_refines sized device flash (.setParam parameter data) related allowed
  exact ⟨next, by simp [driver, handled, PlainFlash.handle], represents⟩

theorem driver_read (length : Nat) (allowed : Request.Allowed size (.read length)) :
    ∃ next, driver.read (some device) length = ((flash.read length).1, some next) ∧
      Represents next (flash.read length).2 := by
  obtain ⟨next, handled, represents⟩ :=
    handle_refines sized device flash (.read length) related allowed
  exact ⟨next, by simp [driver, handled, PlainFlash.handle], represents⟩

theorem driver_write (input : Nat → UInt8) (length : Nat)
    (allowed : Request.Allowed size (.write input length)) :
    ∃ next, driver.write (some device) input length = ((flash.write input length).1, some next) ∧
      Represents next (flash.write input length).2 := by
  obtain ⟨next, handled, represents⟩ :=
    handle_refines sized device flash (.write input length) related allowed
  exact ⟨next, by simp [driver, handled, PlainFlash.handle], represents⟩

omit sized in
theorem driver_getParam (parameter : Parameter) :
    driver.getParam (some device) parameter =
      if (flash.getParam parameter).1 = .ok then (flash.getParam parameter).2 else none := by
  have handled := handle_getParam_refines related parameter
  simp only [driver, Option.bind_some, handled, PlainFlash.handle]
  cases (flash.getParam parameter).1 <;> rfl

end Calls

/-! ## One range -/

def Programmed {size : Nat} (flash : PlainFlash size) (address length : Nat) : Prop :=
  ∀ index < length, flash.bytes (address + index) = patternByte index

def Erased {size : Nat} (flash : PlainFlash size) (address length : Nat) : Prop :=
  ∀ index < length, flash.bytes (address + index) = 0xFF

section Range

variable {size : Nat} (sized : SizeAllowed size) (address length : Nat)

/-- The position behind a transfer is where the calls expect it unless it is the end. -/
theorem position_eq_iff (fits : address + length ≤ size) (sized : SizeAllowed size) :
    (address + length) % size = wrap32 (address + length) ↔ address + length < size := by
  obtain ⟨positive, _, below⟩ := sized
  rw [wrap32_of_lt _ (by omega)]
  constructor
  · intro same
    have inside := Nat.mod_lt (address + length) positive
    omega
  · exact Nat.mod_eq_of_lt

theorem bufferSize_eq (words : length % 4 = 0) : bufferSize length = length := by
  rw [bufferSize]
  omega

variable {device : Device} {flash : PlainFlash size} (related : Represents device flash)
  (even : address % 2 = 0) (words : length % 4 = 0) (nonempty : 0 < length)
  (fits : address + length ≤ size)
include sized related even words nonempty fits

/-- `IF_POSITION` accepts the address, and the transfer behind it is not cut. -/
theorem driver_position :
    ∃ next, ∃ positioned : PlainFlash size,
      driver.setParam (some device) .position address = (true, some next) ∧
      Represents next positioned ∧ positioned.bytes = flash.bytes ∧
      positioned.cursor = address ∧ positioned.count length = length := by
  have below := sized.2.2
  have inside : address < size := by omega
  have sought : flash.seek address = (.ok, { flash with cursor := address, inside := inside }) := by
    rw [PlainFlash.seek, dif_pos inside]
  obtain ⟨next, sets, represents⟩ := driver_setParam related sized .position address
    ⟨by omega, fun _ _ => even⟩
  simp only [PlainFlash.setParam, sought, decide_true] at sets represents
  exact ⟨next, _, sets, represents, rfl, rfl, Nat.min_eq_left (by dsimp only; omega)⟩

theorem program_eq (erased : Erased flash address length) :
    ∃ next, ∃ written : PlainFlash size, program driver (some device) address length =
        ⟨some (decide (address + length < size)), some next, [⟨address, length⟩]⟩ ∧
      Represents next written ∧ Programmed written address length := by
  have below := sized.2.2
  have whole := bufferSize_eq length words
  obtain ⟨first, positioned, sets, represents, bytes, cursor, count⟩ :=
    driver_position sized address length related even words nonempty fits
  obtain ⟨second, writes, written⟩ := driver_write represents sized patternByte length
    ⟨by omega, by omega⟩
  have position := driver_getParam written .position
  refine ⟨second, (positioned.write patternByte length).2, ?_, written, ?_⟩
  · simp only [PlainFlash.write, PlainFlash.moved, PlainFlash.getParam, count, cursor, if_true]
      at position writes
    simp only [program, whole, sets, writes, position, Bool.not_true, Bool.false_eq_true, ne_eq,
      not_true_eq_false, if_false, position_eq_iff address length fits sized]
  · intro index inside
    have clear : 0xFF &&& patternByte index = patternByte index := UInt8.neg_one_and
    simp only [PlainFlash.write, count, cursor, bytes]
    rw [if_pos (by omega), erased index inside, Nat.add_sub_cancel_left, clear]

theorem verify_eq (programmed : Programmed flash address length) :
    ∃ next, verify driver (some device) address length =
        ⟨some (decide (address + length < size)), some next, []⟩ := by
  have below := sized.2.2
  have whole := bufferSize_eq length words
  obtain ⟨first, positioned, sets, represents, bytes, cursor, count⟩ :=
    driver_position sized address length related even words nonempty fits
  obtain ⟨second, reads, after⟩ := driver_read represents sized length ⟨by omega, by omega⟩
  have position := driver_getParam after .position
  refine ⟨second, ?_⟩
  have read : (positioned.read length).1 = (List.range length).map patternByte := by
    simp only [PlainFlash.read, count, cursor, bytes]
    exact List.map_congr_left fun index member => programmed index (List.mem_range.mp member)
  rw [read] at reads
  simp only [PlainFlash.read, PlainFlash.moved, PlainFlash.getParam, count, cursor, if_true]
    at position
  by_cases before : address + length < size
  · have here := (position_eq_iff address length fits sized).mpr before
    simp [verify, whole, sets, reads, position, here, before,
      patternRead_pattern length words (by omega)]
  · have here := mt (position_eq_iff address length fits sized).mp before
    simp [verify, whole, sets, reads, position, here, before]

end Range

/-! ## A whole test -/

inductive EraseUnit where
  | sector
  | block
  deriving DecidableEq

def EraseUnit.param : EraseUnit → Parameter
  | .sector => .flashEraseSector
  | .block => .flashEraseBlock

def EraseUnit.paramSize : EraseUnit → Parameter
  | .sector => .flashSectorSize
  | .block => .flashBlockSize

def EraseUnit.length : EraseUnit → Nat
  | .sector => sectorSize
  | .block => blockSize

theorem setParam_erase_eq {size : Nat} (flash : PlainFlash size) (unit : EraseUnit)
    (address : Nat) : flash.setParam unit.param address = flash.erase unit.length address := by
  cases unit <;> rfl

theorem EraseUnit.sector_dvd (unit : EraseUnit) : 4096 ∣ unit.length := by
  cases unit <;> decide

theorem erase_eq {size : Nat} (flash : PlainFlash size) (unit : EraseUnit) (address length : Nat)
    (aligned : unit.length ∣ address) (inside : address < size) (inUnit : length ≤ unit.length) :
    ∃ blank, flash.erase unit.length address = (.ok, blank) ∧ Erased blank address length := by
  refine ⟨_, by rw [PlainFlash.erase, if_pos ⟨inside, aligned⟩], ?_⟩
  intro index below
  exact if_pos ⟨by omega, by omega⟩

section Test

variable {size : Nat} (sized : SizeAllowed size) {device : Device} {flash : PlainFlash size}
  (related : Represents device flash) (unit : EraseUnit) (address length : Nat)
include sized related

theorem driver_erase (bound : address < 2 ^ 32) :
    ∃ next, driver.setParam (some device) unit.param address =
        (decide ((flash.erase unit.length address).1 = .ok), some next) ∧
      Represents next (flash.erase unit.length address).2 := by
  have allowed : Request.Allowed size (.setParam unit.param address) :=
    ⟨bound, fun position => by cases unit <;> cases position⟩
  have erases := driver_setParam related sized unit.param address allowed
  rwa [setParam_erase_eq] at erases

theorem testRange_refused (bound : address < 2 ^ 32) (misfit : ¬ unit.length ∣ address) :
    (testRange driver unit.param unit.length address length (some device)).passed =
      some false := by
  obtain ⟨next, erases, _⟩ := driver_erase sized related unit address bound
  have refused : (flash.erase unit.length address).1 = .address := by
    rw [PlainFlash.erase, if_neg (fun both => misfit both.2)]
  rw [refused, decide_eq_false (by decide)] at erases
  simp [testRange, eraseUnit, TestRun.andThen, erases]

theorem testRange_passed (aligned : unit.length ∣ address) (words : length % 4 = 0)
    (nonempty : 0 < length) (inUnit : length ≤ unit.length) (fits : address + length ≤ size) :
    (testRange driver unit.param unit.length address length (some device)).passed =
      some (decide (address + length < size)) := by
  have below := sized.2.2
  have even : address % 2 = 0 :=
    Nat.mod_eq_zero_of_dvd
      (Nat.dvd_trans (by decide) (Nat.dvd_trans unit.sector_dvd aligned))
  obtain ⟨first, erases, represents⟩ := driver_erase sized related unit address (by omega)
  obtain ⟨blank, erase, erased⟩ := erase_eq flash unit address length aligned (by omega) inUnit
  rw [erase] at erases represents
  obtain ⟨second, written, programs, represents, programmed⟩ :=
    program_eq sized address length represents even words nonempty fits erased
  obtain ⟨third, verifies⟩ :=
    verify_eq sized address length represents even words nonempty fits programmed
  by_cases before : address + length < size
  · simp [testRange, eraseUnit, TestRun.andThen, erases, programs, verifies, before]
  · simp [testRange, eraseUnit, TestRun.andThen, erases, programs, before]

/-- On any address and any length that fits, the test passes exactly where the erase is allowed
and the range ends before the flash does. -/
theorem testRange_eq (words : length % 4 = 0) (nonempty : 0 < length)
    (inUnit : length ≤ unit.length) (fits : address + length ≤ size) :
    (testRange driver unit.param unit.length address length (some device)).passed =
      some (decide (unit.length ∣ address ∧ address + length < size)) := by
  by_cases aligned : unit.length ∣ address
  · rw [testRange_passed sized related unit address length aligned words nonempty inUnit fits]
    simp [aligned]
  · have below := sized.2.2
    rw [testRange_refused sized related unit address length (by omega) aligned]
    simp [aligned]

/-- The sequence of the example, which cuts its length to the unit. -/
theorem memoryTestSequence_eq (words : length % 4 = 0) (nonempty : 0 < length)
    (fits : address + min length unit.length ≤ size) :
    (memoryTestSequence address length driver unit.paramSize unit.param (some device)).passed =
      some (decide (unit.length ∣ address ∧ address + min length unit.length < size)) := by
  have capacity := driver_getParam related .size
  have chunk : driver.getParam (some device) unit.paramSize = some unit.length := by
    rw [driver_getParam related unit.paramSize]
    cases unit <;> rfl
  have multiple : min length unit.length % 4 = 0 := by
    have sectors := unit.sector_dvd
    omega
  have some : 0 < min length unit.length := by
    have : 0 < unit.length := by cases unit <;> decide
    omega
  have positive := sized.1
  rw [memoryTestSequence, capacity]
  simp only [PlainFlash.getParam, if_true]
  split
  · contradiction
  · rename_i empty
    cases empty
    omega
  · rw [chunk]
    exact testRange_eq sized related unit address (min length unit.length) multiple some
      (Nat.min_le_right _ _) fits

end Test

theorem testRange_passed_iff {size : Nat} (sized : SizeAllowed size) (device : Device)
    (flash : PlainFlash size) (related : Represents device flash) (unit : EraseUnit)
    (address length : Nat) (words : length % 4 = 0) (nonempty : 0 < length)
    (inUnit : length ≤ unit.length) (fits : address + length ≤ size) :
    (testRange driver unit.param unit.length address length (some device)).passed = some true ↔
      unit.length ∣ address ∧ address + length < size := by
  rw [testRange_eq sized related unit address length words nonempty inUnit fits]
  simp

theorem testRange_first_sector :
    (testRange driver .flashEraseSector 4096 0 2048
      (some (mountedDevice 65536 fun _ => 0))).passed = some true :=
  (@testRange_passed_iff 65536 ⟨by decide, by decide, by decide⟩
    (mountedDevice 65536 fun _ => 0) (mountedFlash 65536 (by decide) fun _ => 0)
    ⟨rfl, rfl, rfl, rfl, fun _ _ => rfl⟩ .sector 0 2048 (by decide) (by decide) (by decide)
    (by decide)).mpr (by decide)

/-- The whole last sector: the position after it is 0, and `program` returns false. -/
theorem testRange_last_sector :
    (testRange driver .flashEraseSector 4096 61440 4096
      (some (mountedDevice 65536 fun _ => 0xFFFF))).passed = some false :=
  have related : Represents (mountedDevice 65536 fun _ => 0xFFFF)
      (mountedFlash 65536 (by decide) fun _ => 0xFFFF) := ⟨rfl, rfl, rfl, rfl, fun _ _ => rfl⟩
  testRange_passed ⟨by decide, by decide, by decide⟩ related .sector 61440 4096 (by decide)
    (by decide) (by decide) (by decide) (by decide)

end HalmExamples.EmcFlash
