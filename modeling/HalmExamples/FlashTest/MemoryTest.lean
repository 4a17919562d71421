import HalmExamples.Foundation.ByteOrder
import HalmExamples.Foundation.Region
import HalmExamples.Foundation.Tiling
import HalmExamples.Foundation.Word
import HalmExamples.Halm.Interface

/-!
# The flash memory test

The template `flash.jinja2` built without a flash suffix.  The flash is any
driver; a run records the ranges it has asked it to erase or program, and one
that fails an assertion has no result.  `flashGetGeometry` and `flashFindRegion` belong to
HALM and are parameters.
-/

set_option autoImplicit false

namespace HalmExamples.FlashTest

open Foundation Foundation.ByteOrder Halm

abbrev FlashGeometry := Tiling.Run

structure GeometryLibrary where
  flashGetGeometry : (capacity : Nat) → List FlashGeometry
  flashFindRegion : List FlashGeometry → (address : Nat) → Option FlashGeometry

structure Symbols where
  stext : Nat
  sidata : Nat
  sdata : Nat
  edata : Nat

structure Range where
  start : Nat
  length : Nat
  deriving DecidableEq

def Range.Contains (range : Range) (offset : Nat) : Prop :=
  range.start ≤ offset ∧ offset < range.start + range.length

structure TestRun (State : Type) where
  passed : Option Bool
  state : State
  touched : List Range

/-! ## Address and size -/

/-- `struct FlashGeometry geometry[2]` -/
def geometryEntries : Nat := 2

def findRegion (library : GeometryLibrary) (address : Nat) : Option FlashGeometry :=
  let geometry := library.flashGetGeometry geometryEntries
  if geometry.length > 0 then library.flashFindRegion geometry address else none

def findNearestRegion (library : GeometryLibrary) (symbols : Symbols) : Option Nat :=
  let textSize := sub32 symbols.sidata symbols.stext
  let dataSize := sub32 symbols.edata symbols.sdata
  let address := wrap32 (textSize + dataSize)
  (findRegion library address).map fun region =>
    wrap32 ((address &&& not32 (sub32 region.size 1)) + region.size)

def findRegionSize (library : GeometryLibrary) (address : Nat) : Option Nat :=
  (findRegion library address).map fun region => region.size

/-! ## Program and verify -/

section Driver

variable {State : Type}

/-- The bytes of `uint32_t buffer[length / 4]` with `buffer[i] = i`. -/
def patternByte (index : Nat) : UInt8 := UInt8.ofNat (index / 4 / 256 ^ (index % 4))

def bufferSize (length : Nat) : Nat := 4 * (length / 4)

def program (interface : Interface State) (state : State) (address length : Nat) :
    TestRun State :=
  let (positioned, state) := interface.setParam state .position address
  if !positioned then ⟨some false, state, []⟩
  else
    let (written, state) := interface.write state patternByte (bufferSize length)
    let touched := [⟨address, bufferSize length⟩]
    if written ≠ bufferSize length then ⟨some false, state, touched⟩
    else
      match interface.getParam state .position with
      | none => ⟨some false, state, touched⟩
      | some next => ⟨some (next = wrap32 (address + bufferSize length)), state, touched⟩

/-- `buffer[i] == i` for every word of the bytes read. -/
def patternRead (bytes : List UInt8) (length : Nat) : Bool :=
  (List.range (length / 4)).all fun index =>
    ofLittleEndian (window bytes (4 * index) 4) = index

def verify (interface : Interface State) (state : State) (address length : Nat) :
    TestRun State :=
  let (positioned, state) := interface.setParam state .position address
  if !positioned then ⟨some false, state, []⟩
  else
    let (bytes, state) := interface.read state (bufferSize length)
    if bytes.length ≠ bufferSize length then ⟨some false, state, []⟩
    else
      match interface.getParam state .position with
      | none => ⟨some false, state, []⟩
      | some next =>
          if next ≠ wrap32 (address + bufferSize length) then ⟨some false, state, []⟩
          else ⟨some (patternRead bytes length), state, []⟩

def TestRun.andThen (first : TestRun State) (step : State → TestRun State) : TestRun State :=
  match first.passed with
  | some true =>
      let second := step first.state
      { second with touched := first.touched ++ second.touched }
  | _ => first

/-- `ifSetParam(interface, paramErase, &address)`, which erases one unit. -/
def eraseUnit (interface : Interface State) (state : State) (paramErase : Parameter)
    (address unit : Nat) : TestRun State :=
  let (erased, state) := interface.setParam state paramErase address
  ⟨some erased, state, [⟨address, unit⟩]⟩

def testUnit (interface : Interface State) (state : State) (paramErase : Parameter)
    (bufferLength address chunk : Nat) : TestRun State :=
  let size := min bufferLength chunk
  (eraseUnit interface state paramErase address chunk).andThen fun state =>
    (program interface state address size).andThen fun state =>
      verify interface state address size

def memoryTestSequence (library : GeometryLibrary) (symbols : Symbols) (bufferLength : Nat)
    (interface : Interface State) (paramSize paramErase : Parameter) (state : State) :
    TestRun State :=
  match findNearestRegion library symbols with
  | none => ⟨none, state, []⟩
  | some address =>
      match interface.getParam state .size with
      | none | some 0 => ⟨some false, state, []⟩
      | some _ =>
          match interface.getParam state paramSize with
          | none => ⟨some true, state, []⟩
          | some 0 =>
              -- the size is ambiguous, the flash geometry decides
              match findRegionSize library address with
              | none => ⟨none, state, []⟩
              | some chunk => testUnit interface state paramErase bufferLength address chunk
          | some chunk => testUnit interface state paramErase bufferLength address chunk

/-! ## Whatever the driver answers, one address is touched -/

theorem program_touched (interface : Interface State) (state : State) (address length : Nat) :
    ∀ range ∈ (program interface state address length).touched, range.start = address := by
  intro range member
  unfold program at member
  dsimp only at member
  split at member
  · simp at member
  · split at member
    · simp_all
    · split at member
      · simp_all
      · simp_all

theorem verify_touched (interface : Interface State) (state : State) (address length : Nat) :
    (verify interface state address length).touched = [] := by
  unfold verify
  dsimp only
  split
  · rfl
  · split
    · rfl
    · split
      · rfl
      · split
        · rfl
        · rfl

theorem TestRun.andThen_touched (first : TestRun State) (step : State → TestRun State)
    (holds : Range → Prop) (firstHolds : ∀ range ∈ first.touched, holds range)
    (stepHolds : ∀ state, ∀ range ∈ (step state).touched, holds range) :
    ∀ range ∈ (first.andThen step).touched, holds range := by
  intro range member
  unfold TestRun.andThen at member
  split at member
  · rcases List.mem_append.mp member with before | after
    · exact firstHolds range before
    · exact stepHolds first.state range after
  · exact firstHolds range member

theorem testUnit_touched (interface : Interface State) (state : State)
    (paramErase : Parameter) (bufferLength address chunk : Nat) :
    ∀ range ∈ (testUnit interface state paramErase bufferLength address chunk).touched,
      range.start = address := by
  apply TestRun.andThen_touched
  · intro range member
    simp only [eraseUnit, List.mem_singleton] at member
    rw [member]
  · intro afterErase
    apply TestRun.andThen_touched
    · exact program_touched interface afterErase address _
    · intro afterProgram range member
      rw [verify_touched] at member
      exact absurd member List.not_mem_nil

theorem memoryTestSequence_touched (library : GeometryLibrary) (symbols : Symbols)
    (bufferLength : Nat) (interface : Interface State) (paramSize paramErase : Parameter)
    (state : State) (address : Nat) (found : findNearestRegion library symbols = some address) :
    ∀ range ∈ (memoryTestSequence library symbols bufferLength interface paramSize paramErase
      state).touched, range.start = address := by
  intro range member
  unfold memoryTestSequence at member
  rw [found] at member
  dsimp only at member
  split at member
  · simp at member
  · simp at member
  · split at member
    · simp at member
    · split at member
      · simp at member
      · exact testUnit_touched interface state paramErase bufferLength address _ range member
    · exact testUnit_touched interface state paramErase bufferLength address _ range member

end Driver

end HalmExamples.FlashTest
