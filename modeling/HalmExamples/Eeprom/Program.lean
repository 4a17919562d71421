import HalmExamples.Foundation.ByteOrder
import HalmExamples.Foundation.Region
import HalmExamples.Foundation.Wiring
import HalmExamples.Foundation.Word
import HalmExamples.Halm.Interface

/-!
# The EEPROM test

`templates/eeprom.jinja2`: a region is filled with numbers and read back, then reset and read
back again.  The driver belongs to HALM; `Driver` says what the test relies on, over a memory with
faults.
-/

set_option autoImplicit false

namespace HalmExamples.Eeprom

open Foundation Foundation.ByteOrder Halm

/-! ## The pattern -/

/-- `clear ? 0xFFFFFFFFUL : (uint32_t)i` -/
def entry (clear : Bool) (index : Nat) : Nat := if clear then 0xFFFFFFFF else wrap32 index

/-- `sizeof(buffer)` of `uint32_t buffer[length / 4]` -/
def bufferSize (length : Nat) : Nat := 4 * (length / 4)

def bufferByte (clear : Bool) (index : Nat) : UInt8 :=
  UInt8.ofNat (entry clear (index / 4) / 256 ^ (index % 4))

/-! ## The functions -/

section Functions
variable {State : Type} (interface : Interface State)

def program (state : State) (address length : Nat) (clear : Bool) : Bool × State :=
  match interface.getParam state .size with
  | none => (false, state)
  | some capacity =>
      if capacity < wrap32 (address + bufferSize length) then (false, state)
      else
        let (positioned, state) := interface.setParam state .position address
        if !positioned then (false, state)
        else
          let (written, state) := interface.write state (bufferByte clear) (bufferSize length)
          if written ≠ bufferSize length then (false, state)
          else
            match interface.getParam state .position with
            | none => (false, state)
            | some next => (next = wrap32 (address + bufferSize length), state)

/-- The loop at the end of `verify`. -/
def sameEntries (bytes : List UInt8) (length : Nat) (clear : Bool) : Bool :=
  (List.range (length / 4)).all fun index =>
    ofLittleEndian (window bytes (4 * index) 4) = entry clear index

def verify (state : State) (address length : Nat) (clear : Bool) : Bool × State :=
  let (positioned, state) := interface.setParam state .position address
  if !positioned then (false, state)
  else
    let (bytes, state) := interface.read state (bufferSize length)
    if bytes.length ≠ bufferSize length then (false, state)
    else
      match interface.getParam state .position with
      | none => (false, state)
      | some next =>
          if next ≠ wrap32 (address + bufferSize length) then (false, state)
          else (sameEntries bytes length clear, state)

def testBufferLength : Nat := 320
def testMemoryAddress : Nat := 64

def led (state : State) : Bool :=
  let (filled, state) := program interface state testMemoryAddress testBufferLength false
  let (right, state) := verify interface state testMemoryAddress testBufferLength false
  let (reset, state) := program interface state testMemoryAddress testBufferLength true
  let (empty, _) := verify interface state testMemoryAddress testBufferLength true
  !filled || !right || !reset || !empty

end Functions

/-! ## The driver -/

/-- A driver over a memory of this wiring: the parameters are there, and a transfer that ends
inside the memory is made as a whole and moves the position behind it. -/
structure Driver (State Cell : Type) [DecidableEq Cell] where
  interface : Interface State
  wiring : Wiring Cell UInt8
  capacity : Nat
  position : State → Nat
  content : State → Cell → UInt8
  size_eq : ∀ state, interface.getParam state .size = some capacity
  position_eq : ∀ state, interface.getParam state .position = some (position state)
  seek : ∀ state address, address < capacity →
    let result := interface.setParam state .position address
    result.1 = true ∧ position result.2 = address ∧ content result.2 = content state
  write : ∀ state source length, position state + length ≤ capacity →
    let result := interface.write state source length
    result.1 = length ∧ position result.2 = position state + length ∧
      content result.2 =
        wiring.storeFrom (content state) (position state) ((List.range length).map source)
  read : ∀ state length, position state + length ≤ capacity →
    let result := interface.read state length
    result.1 = wiring.loadFrom (content state) (position state) length ∧
      position result.2 = position state + length ∧ content result.2 = content state

section Plain
variable {Cell : Type} [DecidableEq Cell] (wiring : Wiring Cell UInt8) (capacity : Nat)

def plainInterface : Interface (Nat × (Cell → UInt8)) where
  getParam state parameter :=
    match parameter with
    | .size => some capacity
    | .position => some state.1
    | _ => none
  setParam state parameter value :=
    if parameter = .position ∧ value < capacity then (true, (value, state.2)) else (false, state)
  read state length :=
    let count := min length (capacity - state.1)
    (wiring.loadFrom state.2 state.1 count, (state.1 + count, state.2))
  write state source length :=
    let count := min length (capacity - state.1)
    (count, (state.1 + count, wiring.storeFrom state.2 state.1 ((List.range count).map source)))

theorem plain_seek (state : Nat × (Cell → UInt8)) (address : Nat) (inside : address < capacity) :
    (plainInterface wiring capacity).setParam state .position address =
      (true, (address, state.2)) :=
  if_pos ⟨rfl, inside⟩

theorem plain_write (state : Nat × (Cell → UInt8)) (source : Nat → UInt8) (length : Nat)
    (fits : state.1 + length ≤ capacity) :
    (plainInterface wiring capacity).write state source length =
      (length, (state.1 + length,
        wiring.storeFrom state.2 state.1 ((List.range length).map source))) := by
  have whole : min length (capacity - state.1) = length := Nat.min_eq_left (by omega)
  simp only [plainInterface, whole]

theorem plain_read (state : Nat × (Cell → UInt8)) (length : Nat)
    (fits : state.1 + length ≤ capacity) :
    (plainInterface wiring capacity).read state length =
      (wiring.loadFrom state.2 state.1 length, (state.1 + length, state.2)) := by
  have whole : min length (capacity - state.1) = length := Nat.min_eq_left (by omega)
  simp only [plainInterface, whole]

def plainDriver : Driver (Nat × (Cell → UInt8)) Cell where
  interface := plainInterface wiring capacity
  wiring := wiring
  capacity := capacity
  position := Prod.fst
  content := Prod.snd
  size_eq _ := rfl
  position_eq _ := rfl
  seek state address inside := by
    rw [plain_seek wiring capacity state address inside]
    exact ⟨rfl, rfl, rfl⟩
  write state source length fits := by
    rw [plain_write wiring capacity state source length fits]
    exact ⟨rfl, rfl, rfl⟩
  read state length fits := by
    rw [plain_read wiring capacity state length fits]
    exact ⟨rfl, rfl, rfl⟩

end Plain

end HalmExamples.Eeprom
