import HalmExamples.Eeprom.Program

/-!
# What the EEPROM test detects

Three of four bytes of the first pattern are zero, and the second pattern is the same everywhere:
the LED stays off exactly over memories whose faults neither pattern shows.
-/

set_option autoImplicit false

namespace HalmExamples.Eeprom

open Foundation Foundation.ByteOrder Halm

/-! ## The entries and their bytes -/

theorem entry_lt (clear : Bool) (index : Nat) : entry clear index < 256 ^ 4 := by
  unfold entry
  split
  · decide
  · exact Nat.mod_lt _ (by decide)

theorem littleEndian_getElem? (width value index : Nat) (inside : index < width) :
    (littleEndian width value)[index]? = some (UInt8.ofNat (value / 256 ^ index)) := by
  induction width generalizing value index with
  | zero => exact absurd inside (Nat.not_lt_zero _)
  | succ width ih =>
      rw [littleEndian]
      cases index with
      | zero =>
          rw [List.getElem?_cons_zero, pow_zero, Nat.div_one]
          congr 1
          apply UInt8.toNat_inj.mp
          rw [UInt8.toNat_ofNat', UInt8.toNat_ofNat', Nat.mod_mod]
      | succ index =>
          rw [List.getElem?_cons_succ, ih _ _ (Nat.lt_of_succ_lt_succ inside),
            Nat.div_div_eq_div_mul, pow_succ']

def bufferBytes (length : Nat) (clear : Bool) : List UInt8 :=
  (List.range (bufferSize length)).map (bufferByte clear)

@[simp] theorem bufferBytes_length (length : Nat) (clear : Bool) :
    (bufferBytes length clear).length = bufferSize length := by
  simp [bufferBytes]

theorem bufferBytes_getElem? (length : Nat) (clear : Bool) (index : Nat)
    (inside : index < bufferSize length) :
    (bufferBytes length clear)[index]? = some (bufferByte clear index) := by
  simp [bufferBytes, inside]

theorem bufferBytes_window (length : Nat) (clear : Bool) (index : Nat)
    (inside : index < length / 4) :
    window (bufferBytes length clear) (4 * index) 4 = littleEndian 4 (entry clear index) := by
  apply List.ext_getElem?
  intro offset
  rw [window_getElem?]
  split
  · rename_i low
    have whole : 4 * index + offset < bufferSize length := by
      unfold bufferSize
      omega
    rw [bufferBytes_getElem? _ _ _ whole, littleEndian_getElem? _ _ _ low, bufferByte,
      show (4 * index + offset) / 4 = index by omega,
      show (4 * index + offset) % 4 = offset by omega]
  · rename_i high
    rw [List.getElem?_eq_none]
    rw [littleEndian_length]
    exact Nat.le_of_not_lt high

theorem sameEntries_iff (bytes : List UInt8) (length : Nat) (clear : Bool)
    (whole : bytes.length = bufferSize length) :
    sameEntries bytes length clear = true ↔ bytes = bufferBytes length clear := by
  simp only [sameEntries, List.all_eq_true, List.mem_range, decide_eq_true_eq]
  constructor
  · intro all
    have windows : ∀ index < length / 4,
        window bytes (4 * index) 4 = window (bufferBytes length clear) (4 * index) 4 := by
      intro index inside
      have four : (window bytes (4 * index) 4).length = 4 := by
        apply window_length_of_fits
        rw [whole, bufferSize]
        omega
      rw [bufferBytes_window _ _ _ inside, ← all index inside]
      conv_lhs => rw [← littleEndian_ofLittleEndian (window bytes (4 * index) 4), four]
    apply List.ext_getElem?
    intro index
    by_cases inside : index < bufferSize length
    · have place : index / 4 < length / 4 := by
        rw [bufferSize] at inside
        omega
      exact (window_eq_iff _ _ _ _).mp (windows _ place) index (by omega) (by omega)
    · rw [List.getElem?_eq_none (by omega), List.getElem?_eq_none (by
        rw [bufferBytes_length]
        omega)]
  · intro same index inside
    rw [same, bufferBytes_window _ _ _ inside, ofLittleEndian_littleEndian,
      Nat.mod_eq_of_lt (entry_lt clear index)]

/-! ## One pass -/

section Pass
variable {State Cell : Type} [DecidableEq Cell] (driver : Driver State Cell) (state : State)
  (address length : Nat) (clear : Bool)

theorem program_short (bound : address + bufferSize length < 2 ^ 32)
    (short : driver.capacity < address + bufferSize length) :
    (program driver.interface state address length clear).1 = false := by
  rw [program, driver.size_eq]
  dsimp only
  rw [wrap32_of_lt _ bound, if_pos short]

variable (bound : address + bufferSize length < 2 ^ 32) (nonempty : 0 < bufferSize length)
  (fits : address + bufferSize length ≤ driver.capacity)
include bound nonempty fits

theorem program_fits :
    (program driver.interface state address length clear).1 = true ∧
      driver.content (program driver.interface state address length clear).2 =
        driver.wiring.storeFrom (driver.content state) address (bufferBytes length clear) := by
  obtain ⟨found, placed, kept⟩ := driver.seek state address (by omega)
  obtain ⟨whole, behind, stored⟩ := driver.write
    (driver.interface.setParam state .position address).2 (bufferByte clear) (bufferSize length)
    (by rw [placed]; exact fits)
  rw [placed] at behind stored
  rw [kept] at stored
  have large : ¬ driver.capacity < address + bufferSize length := Nat.not_lt.mpr fits
  simp only [program, driver.size_eq, driver.position_eq, wrap32_of_lt _ bound, if_neg large, found,
    whole, behind, Bool.not_true, Bool.false_eq_true, if_false, ne_eq, not_true_eq_false,
    decide_true, true_and]
  exact stored

theorem verify_fits :
    ((verify driver.interface state address length clear).1 = true ↔
      driver.wiring.loadFrom (driver.content state) address (bufferSize length) =
        bufferBytes length clear) ∧
      driver.content (verify driver.interface state address length clear).2 =
        driver.content state := by
  obtain ⟨found, placed, kept⟩ := driver.seek state address (by omega)
  obtain ⟨bytes, behind, same⟩ := driver.read (driver.interface.setParam state .position address).2
    (bufferSize length) (by rw [placed]; exact fits)
  rw [placed] at behind bytes
  rw [kept] at bytes same
  simp only [verify, driver.position_eq, wrap32_of_lt _ bound, found, bytes, behind,
    Wiring.loadFrom_length, Bool.not_true, Bool.false_eq_true, if_false, ne_eq, not_true_eq_false]
  exact ⟨sameEntries_iff _ length clear (Wiring.loadFrom_length ..), same⟩

theorem verify_filled_iff (content : Cell → UInt8) (filled : driver.content state =
      driver.wiring.storeFrom content address (bufferBytes length clear)) :
    (verify driver.interface state address length clear).1 = true ↔
      (∀ one < bufferSize length, ∀ two < bufferSize length,
        driver.wiring.cell (address + one) = driver.wiring.cell (address + two) →
          bufferByte clear one = bufferByte clear two) ∧
      ∀ index < bufferSize length,
        driver.wiring.reads (driver.wiring.cell (address + index)) (bufferByte clear index) =
          bufferByte clear index := by
  rw [(verify_fits driver state address length clear bound nonempty fits).1, filled, bufferBytes,
    Wiring.loadFrom_storeFrom_map_iff]

end Pass

/-! ## The whole test -/

/-- A byte of the numbers that the region is filled with first. -/
def numberByte (index : Nat) : UInt8 := if index % 4 = 0 then UInt8.ofNat (index / 4) else 0

theorem bufferByte_false (index : Nat) (inside : index < testBufferLength) :
    bufferByte false index = numberByte index := by
  have small : index / 4 < 256 := by
    rw [testBufferLength] at inside
    omega
  have value : entry false (index / 4) = index / 4 := wrap32_of_lt _ (by omega)
  rw [bufferByte, numberByte, value]
  split
  · rename_i first
    rw [first, pow_zero, Nat.div_one]
  · rename_i later
    have large : 256 ≤ 256 ^ (index % 4) := by
      calc 256 = 256 ^ 1 := (pow_one 256).symm
        _ ≤ 256 ^ (index % 4) := Nat.pow_le_pow_right (by decide) (Nat.pos_of_ne_zero later)
    rw [Nat.div_eq_of_lt (Nat.lt_of_lt_of_le small large)]
    rfl

theorem bufferByte_true (index : Nat) : bufferByte true index = 0xFF := by
  have all : ∀ offset < 4, UInt8.ofNat (0xFFFFFFFF / 256 ^ offset) = 0xFF := by decide
  rw [bufferByte, entry, if_pos rfl]
  exact all _ (Nat.mod_lt _ (by decide))

/-- For every wiring, every way the cells read and whatever is in them before. -/
theorem led_off_iff_unseen {State Cell : Type} [DecidableEq Cell] (driver : Driver State Cell)
    (state : State) :
    led driver.interface state = false ↔
      testMemoryAddress + testBufferLength ≤ driver.capacity ∧
      (∀ one < testBufferLength, ∀ two < testBufferLength,
        driver.wiring.cell (testMemoryAddress + one) =
            driver.wiring.cell (testMemoryAddress + two) → numberByte one = numberByte two) ∧
      ∀ index < testBufferLength,
        driver.wiring.reads (driver.wiring.cell (testMemoryAddress + index)) (numberByte index) =
            numberByte index ∧
          driver.wiring.reads (driver.wiring.cell (testMemoryAddress + index)) 0xFF = 0xFF := by
  have size : bufferSize testBufferLength = testBufferLength := rfl
  have bound : testMemoryAddress + bufferSize testBufferLength < 2 ^ 32 := by decide
  by_cases fits : testMemoryAddress + bufferSize testBufferLength ≤ driver.capacity
  · obtain ⟨written, filled⟩ := program_fits driver state testMemoryAddress testBufferLength false
      bound (by decide) fits
    have numbers := verify_filled_iff driver _ testMemoryAddress testBufferLength false bound
      (by decide) fits _ filled
    obtain ⟨reset, emptied⟩ := program_fits driver (verify driver.interface
      (program driver.interface state testMemoryAddress testBufferLength false).2
      testMemoryAddress testBufferLength false).2
      testMemoryAddress testBufferLength true bound (by decide) fits
    have blanks := verify_filled_iff driver _ testMemoryAddress testBufferLength true bound
      (by decide) fits _ emptied
    have off : ∀ right empty : Bool,
        (!true || !right || !true || !empty) = false ↔ right = true ∧ empty = true := by decide
    simp only [led, written, reset, off, numbers, blanks, size]
    rw [size] at fits
    constructor
    · rintro ⟨⟨apart, right⟩, _, blank⟩
      refine ⟨fits, fun one oneInside two twoInside wired => ?_, fun index inside => ⟨?_, ?_⟩⟩
      · rw [← bufferByte_false one oneInside, ← bufferByte_false two twoInside]
        exact apart one oneInside two twoInside wired
      · rw [← bufferByte_false index inside]
        exact right index inside
      · have read := blank index inside
        rwa [bufferByte_true] at read
    · rintro ⟨_, apart, right⟩
      refine ⟨⟨fun one oneInside two twoInside wired => ?_, fun index inside => ?_⟩,
        fun one _ two _ _ => ?_, fun index inside => ?_⟩
      · rw [bufferByte_false one oneInside, bufferByte_false two twoInside]
        exact apart one oneInside two twoInside wired
      · rw [bufferByte_false index inside]
        exact (right index inside).1
      · rw [bufferByte_true, bufferByte_true]
      · rw [bufferByte_true]
        exact (right index inside).2
  · have short := program_short driver state testMemoryAddress testBufferLength false bound
      (Nat.lt_of_not_le fits)
    rw [size] at fits
    refine iff_of_false ?_ fun both => fits both.1
    simp [led, short]

/-- There is a driver for every wiring. -/
example (wiring : Wiring Nat UInt8) :
    ∃ driver : Driver (Nat × (Nat → UInt8)) Nat, driver.wiring = wiring ∧ driver.capacity = 512 :=
  ⟨plainDriver wiring 512, rfl, rfl⟩

end HalmExamples.Eeprom
