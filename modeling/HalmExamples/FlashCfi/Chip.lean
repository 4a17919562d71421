import Mathlib.Data.List.Basic

/-!
# The flash chip on the external bus

The JEDEC command machine of a 16-bit flash: two unlock cycles, then either a
program cycle that clears bits of one word, or a second unlock and an erase
cycle that sets a sector or a block to all ones.  A cycle that fits no command
sends the machine back to reading.
-/

set_option autoImplicit false

namespace HalmExamples.FlashCfi

structure BusCycle where
  word : Nat
  data : UInt16
  deriving DecidableEq

inductive Command where
  | ready
  | unlocked1
  | unlocked2
  | program
  | eraseSetup
  | eraseUnlocked1
  | eraseUnlocked2
  deriving DecidableEq

structure Chip where
  command : Command
  words : Nat → UInt16

/-- Words of a 4096-byte sector and of a 65536-byte block. -/
def sectorWords : Nat := 2048
def blockWords : Nat := 32768

namespace Chip

/-- Programming can only clear bits. -/
def programmed (chip : Chip) (word : Nat) (data : UInt16) : Chip :=
  { command := .ready
    words := fun index => if index = word then chip.words index &&& data else chip.words index }

def erased (chip : Chip) (unit word : Nat) : Chip :=
  { command := .ready
    words := fun index => if index / unit = word / unit then 0xFFFF else chip.words index }

def follow (chip : Chip) (cycle expected : BusCycle) (next : Command) : Chip :=
  { chip with command := if cycle = expected then next else .ready }

def write (chip : Chip) (cycle : BusCycle) : Chip :=
  match chip.command with
  | .ready => chip.follow cycle ⟨0x5555, 0x00AA⟩ .unlocked1
  | .unlocked1 => chip.follow cycle ⟨0x2AAA, 0x0055⟩ .unlocked2
  | .unlocked2 =>
      if cycle = ⟨0x5555, 0x00A0⟩ then { chip with command := .program }
      else chip.follow cycle ⟨0x5555, 0x0080⟩ .eraseSetup
  | .program => chip.programmed cycle.word cycle.data
  | .eraseSetup => chip.follow cycle ⟨0x5555, 0x00AA⟩ .eraseUnlocked1
  | .eraseUnlocked1 => chip.follow cycle ⟨0x2AAA, 0x0055⟩ .eraseUnlocked2
  | .eraseUnlocked2 =>
      if cycle.data = 0x0030 then chip.erased sectorWords cycle.word
      else if cycle.data = 0x0050 then chip.erased blockWords cycle.word
      else { chip with command := .ready }

def accept (chip : Chip) (cycles : List BusCycle) : Chip :=
  cycles.foldl write chip

@[simp] theorem accept_nil (chip : Chip) : chip.accept [] = chip := rfl

theorem accept_append (chip : Chip) (first second : List BusCycle) :
    chip.accept (first ++ second) = (chip.accept first).accept second :=
  List.foldl_append

/-! ## The three commands, whole -/

theorem accept_program (chip : Chip) (idle : chip.command = .ready) (word : Nat)
    (data : UInt16) :
    chip.accept [⟨0x5555, 0x00AA⟩, ⟨0x2AAA, 0x0055⟩, ⟨0x5555, 0x00A0⟩, ⟨word, data⟩] =
      chip.programmed word data := by
  obtain ⟨command, words⟩ := chip
  cases idle
  simp [accept, write, follow, programmed]

theorem accept_eraseSector (chip : Chip) (idle : chip.command = .ready) (word : Nat) :
    chip.accept [⟨0x5555, 0x00AA⟩, ⟨0x2AAA, 0x0055⟩, ⟨0x5555, 0x0080⟩,
      ⟨0x5555, 0x00AA⟩, ⟨0x2AAA, 0x0055⟩, ⟨word, 0x0030⟩] = chip.erased sectorWords word := by
  obtain ⟨command, words⟩ := chip
  cases idle
  simp [accept, write, follow, erased]

theorem accept_eraseBlock (chip : Chip) (idle : chip.command = .ready) (word : Nat) :
    chip.accept [⟨0x5555, 0x00AA⟩, ⟨0x2AAA, 0x0055⟩, ⟨0x5555, 0x0080⟩,
      ⟨0x5555, 0x00AA⟩, ⟨0x2AAA, 0x0055⟩, ⟨word, 0x0050⟩] = chip.erased blockWords word := by
  obtain ⟨command, words⟩ := chip
  cases idle
  simp [accept, write, follow, erased]

/-! ## The chip as the processor reads it, byte by byte -/

/-- The bus is little-endian: the even byte is the low half of its word. -/
def byteAt (chip : Chip) (address : Nat) : UInt8 :=
  if address % 2 = 0 then (chip.words (address / 2)).toUInt8
  else (chip.words (address / 2) >>> 8).toUInt8

theorem byteAt_programmed (chip : Chip) (word : Nat) (data : UInt16) (address : Nat) :
    (chip.programmed word data).byteAt address =
      if address / 2 = word then
        chip.byteAt address &&& (if address % 2 = 0 then data.toUInt8 else (data >>> 8).toUInt8)
      else chip.byteAt address := by
  unfold byteAt programmed
  by_cases here : address / 2 = word
  · by_cases low : address % 2 = 0
    · simp [here, low, UInt16.toUInt8_and]
    · simp [here, low, UInt16.toUInt8_and, UInt16.shiftRight_and]
  · simp [here]

theorem byteAt_erased (chip : Chip) (unit word : Nat) (address : Nat) :
    (chip.erased unit word).byteAt address =
      if address / 2 / unit = word / unit then 0xFF else chip.byteAt address := by
  unfold byteAt erased
  by_cases inside : address / 2 / unit = word / unit
  · simp only [inside, if_true]
    split <;> rfl
  · simp only [inside, if_false]

end Chip

end HalmExamples.FlashCfi
