import Mathlib.Data.BitVec
import Mathlib.Data.List.FinRange
import Mathlib.Logic.Function.Basic

/-!
# The external memory test

The template `external_memory.jinja2` on a memory with faults.  An address is wired to
some physical cell, possibly to one that other addresses are wired to as well, and each
bit of a cell works or is stuck.
-/

set_option autoImplicit false

namespace HalmExamples.ExternalMemory

abbrev TestWord := BitVec 32

/-! ## Memory -/

inductive BitState where
  | normal
  | stuck (value : Bool)
  deriving DecidableEq

def BitState.read : BitState → (stored : Bool) → Bool
  | .normal, stored => stored
  | .stuck value, _ => value

structure Memory (Cell : Type) where
  cell : Nat → Cell
  bits : Cell → Fin 32 → BitState

/-- What has been stored last in each cell. -/
abbrev Content (Cell : Type) := Cell → TestWord

section Operations

variable {Cell : Type} (memory : Memory Cell)

def Memory.store [DecidableEq Cell] (content : Content Cell) (position : Nat) (value : TestWord) :
    Content Cell :=
  Function.update content (memory.cell position) value

def Memory.load (content : Content Cell) (position : Nat) : TestWord :=
  let cell := memory.cell position
  (BitVec.ofBoolListLE ((List.finRange 32).map fun bit =>
    (memory.bits cell bit).read ((content cell).getLsbD bit))).cast (by simp)

/-! ## Patterns -/

def patternOnes (_ : Nat) : TestWord := 0xFFFFFFFF
def patternOnesEven (_ : Nat) : TestWord := 0x55555555
def patternOnesOdd (_ : Nat) : TestWord := 0xAAAAAAAA
def patternSequential (position : Nat) : TestWord := BitVec.ofNat 32 position
def patternZeros (_ : Nat) : TestWord := 0x00000000

/-! ## The test -/

/-- `sizeof(TestWord)` -/
def wordSize : Nat := 4

/-- The first loop of `test`, for the positions that remain. -/
def writeLoop [DecidableEq Cell] (pattern : Nat → TestWord) :
    (remaining : Nat) → (position : Nat) → Content Cell → Content Cell
  | 0, _, content => content
  | remaining + 1, position, content =>
      writeLoop pattern remaining (position + 1) (memory.store content position (pattern position))

def readLoop (pattern : Nat → TestWord) (content : Content Cell) :
    (remaining : Nat) → (position : Nat) → (passed : Bool) → Bool
  | 0, _, passed => passed
  | remaining + 1, position, passed =>
      let value := memory.load content position
      readLoop pattern content remaining (position + 1)
        (if value ≠ pattern position then false else passed)

def test [DecidableEq Cell] (size : Nat) (pattern : Nat → TestWord) (content : Content Cell) :
    Bool × Content Cell :=
  let elements := size / wordSize
  let written := writeLoop memory pattern elements 0 content
  (readLoop memory pattern written elements 0 true, written)

def patterns : List (Nat → TestWord) :=
  [patternOnes, patternZeros, patternOnesOdd, patternOnesEven, patternSequential]

def results [DecidableEq Cell] (size : Nat) : List (Nat → TestWord) → Content Cell → List Bool
  | [], _ => []
  | pattern :: rest, content =>
      let (passed, left) := test memory size pattern content
      passed :: results size rest left

end Operations

end HalmExamples.ExternalMemory
