import HalmExamples.Foundation.Coverage

/-!
# The SD card test

The main loops of the templates `mmcsd.jinja2` and `mmcsd_spi.jinja2`, which are the same.
A label is the timer callback or what the card layer answers to the next call.
-/

set_option autoImplicit false

namespace HalmExamples.MmcSd

open Foundation

def blockSize : Nat := 512

def arenaSize : Nat := blockSize * 4

structure Card where
  /-- The answer to `IF_SIZE_64`. -/
  capacity : UInt64
  aligned : blockSize ∣ capacity.toNat
  deriving DecidableEq

inductive Direction where
  | write | read
  deriving DecidableEq

/-- One of the calls of `dataWrite` and `dataRead`. -/
structure Access where
  direction : Direction
  multiBlock : Bool
  deriving DecidableEq

def Access.length (access : Access) : Nat :=
  if access.multiBlock then arenaSize else blockSize

inductive Control where
  | waiting
  | mounting
  | issuing (access : Access)
  | pending (access : Access)
  deriving DecidableEq

structure State where
  control : Control
  event : Bool
  card : Option Card
  capacity : UInt64
  position : UInt64
  unmount : Bool
  ok : Bool
  deriving DecidableEq

/-- The effect of `ifSetParam(card, IF_POSITION_64, &position)`, of which the result is not
looked at. -/
inductive Positioning where
  | done
  /-- The call fails and the card stays where it is. -/
  | kept (place : UInt64)
  deriving DecidableEq

def Positioning.start (positioning : Positioning) (position : UInt64) : UInt64 :=
  match positioning with
  | .done => position
  | .kept place => place

inductive Label where
  | overflow
  | wake
  | initFailed
  /-- A card is initialised, with the results of `IF_ZEROCOPY` and `IF_SIZE_64`. -/
  | init (card : Card) (zeroCopy sizeRead : Bool)
  /-- `ifRead` or `ifWrite`, which takes all bytes or not. -/
  | issue (positioning : Positioning) (queued : Bool)
  /-- `onDataEvent`, with the answer to `IF_STATUS`. -/
  | complete (status : Bool)
  deriving DecidableEq

/-! ## The parts of an iteration -/

def State.advance (state : State) : State :=
  let position := state.position + UInt64.ofNat arenaSize
  { state with position := if position ≥ state.capacity then 0 else position }

/-- From the test of `unmount` to the end of the iteration. -/
def State.finish (state : State) : State :=
  let settled := if state.unmount then { state with card := none } else state
  let advanced := if settled.card.isSome then settled.advance else settled
  { advanced with control := .waiting }

def State.readTest (state : State) : State :=
  if state.card.isSome then { state with ok := true, control := .issuing ⟨.read, false⟩ }
  else state.finish

/-- Write test, `testWriteMode` is a constant of the template. -/
def State.writeTest (testWriteMode : Bool) (state : State) : State :=
  if testWriteMode && state.card.isSome then
    { state with ok := true, control := .issuing ⟨.write, false⟩ }
  else state.readTest

/-- After `card = init(MMCSD, &cardConfig)` with a result that is not null. -/
def State.mounted (card : Card) (zeroCopy sizeRead : Bool) (state : State) : State :=
  let capacity := if sizeRead then card.capacity else 0
  let ok := zeroCopy && sizeRead && capacity ≠ 0
  { state with capacity := capacity, position := 0, card := if ok then some card else none }

/-- After `dataWrite` or `dataRead` has returned. -/
def State.transferred (access : Access) (completed : Bool) (state : State) : State :=
  let state := { state with ok := state.ok && completed }
  if access.multiBlock then
    let state := { state with unmount := state.unmount || !state.ok }
    match access.direction with
    | .write => state.readTest
    | .read => state.finish
  else { state with control := .issuing ⟨access.direction, true⟩ }

/-! ## The loop -/

def step (testWriteMode : Bool) (state : State) : Label → Option State
  | .overflow => some { state with event := true }
  | .wake =>
      if state.control = .waiting ∧ state.event then
        let state := { state with event := false, unmount := false }
        some (if state.card.isSome then state.writeTest testWriteMode
          else { state with control := .mounting })
      else none
  | .initFailed =>
      if state.control = .mounting then some ({ state with card := none }.writeTest testWriteMode)
      else none
  | .init card zeroCopy sizeRead =>
      if state.control = .mounting then
        some ((state.mounted card zeroCopy sizeRead).writeTest testWriteMode)
      else none
  | .issue _ queued =>
      match state.control with
      | .issuing access =>
          some (if queued then { state with control := .pending access }
            else state.transferred access false)
      | _ => none
  | .complete status =>
      match state.control with
      | .pending access => some (state.transferred access status)
      | _ => none

/-- Before the first iteration, `event` is set to begin with. -/
def start : State where
  control := .waiting
  event := true
  card := none
  capacity := 0
  position := 0
  unmount := false
  ok := true

def transferOf (state : State) : Label → Option Span
  | .issue positioning _ =>
      match state.control with
      | .issuing access =>
          some { start := (positioning.start state.position).toNat, length := access.length }
      | _ => none
  | _ => none

def Inside (state : State) (label : Label) : Prop :=
  ∀ span ∈ transferOf state label,
    ∃ card ∈ state.card, span.start + span.length ≤ card.capacity.toNat

instance (state : State) (label : Label) : Decidable (Inside state label) :=
  inferInstanceAs (Decidable (∀ span ∈ _, ∃ card ∈ _, _ ≤ _))

end HalmExamples.MmcSd
