import Mathlib.Logic.Function.Basic

/-!
# The memory copy example

`templates/dma_memcopy.jinja2`: once in a timer period the channel is asked to copy the front of
a buffer, and the destination is checked when a copy has ended.  The channel moves one entry after
the other while `main` runs on; neither the timer nor `main` stops it.
-/

set_option autoImplicit false

namespace HalmExamples.DmaMemcopy

/-! ## The buffers -/

/-- `BUFFER_LEVEL`; `bufferLength` is 1024, or `DMA_TRANSFERS` of the board. -/
def bufferLevel (bufferLength : Nat) : Nat := bufferLength - 32

def fill (buffer : Nat → UInt32) (length index : Nat) : UInt32 :=
  if index < length then UInt32.ofNat index else buffer index

def srcBuffer (bufferLength : Nat) : Nat → UInt32 := fill (fun _ => 0) bufferLength

/-- The value that `verify` compares an entry with, in its first and in its second loop. -/
def expected (length index : Nat) : UInt32 := if index < length then UInt32.ofNat index else 0

/-! ## The program -/

/-- A copy in the channel: the first `offset` of its entries have been moved. -/
structure Copy where
  offset : Nat
  total : Nat
  deriving DecidableEq

inductive Control where
  | waiting
  | clearTimer
  | lightLed
  | clearing (index : Nat)
  | starting
  | pending
  | testEvent
  | clearEvent
  | verifying (index : Nat)
  | putOut
  | advance
  deriving DecidableEq

structure Machine where
  length : Nat
  dmaEvent : Bool
  timEvent : Bool
  led : Bool
  dstBuffer : Nat → UInt32
  channel : Option Copy
  control : Control
  rounds : Nat

def initialMachine (bufferLength : Nat) : Machine :=
  { length := bufferLevel bufferLength, dmaEvent := false, timEvent := false, led := false
    dstBuffer := fun _ => 0, channel := none, control := .waiting, rounds := 0 }

def onMemoryCopied (ok : Bool) (machine : Machine) : Machine :=
  if ok then { machine with dmaEvent := true } else machine

/-- The next statement; `accepted` says whether the channel takes the copy it is asked for.  A copy
that it takes replaces one that has not ended. -/
def statement (bufferLength : Nat) (accepted : Bool) (machine : Machine) : Machine :=
  match machine.control with
  | .waiting => if machine.timEvent then { machine with control := .clearTimer } else machine
  | .clearTimer => { machine with timEvent := false, control := .lightLed }
  | .lightLed => { machine with led := true, control := .clearing 0 }
  | .clearing index =>
      if index < bufferLength then
        { machine with dstBuffer := Function.update machine.dstBuffer index 0
                       control := .clearing (index + 1) }
      else { machine with control := .starting }
  | .starting =>
      { machine with
        channel := if accepted then some ⟨0, machine.length⟩ else machine.channel
        control := .pending }
  | .pending =>
      if machine.dmaEvent || machine.timEvent then { machine with control := .testEvent }
      else machine
  | .testEvent =>
      { machine with control := if machine.dmaEvent then .clearEvent else .advance }
  | .clearEvent => { machine with dmaEvent := false, control := .verifying 0 }
  | .verifying index =>
      if index < bufferLength then
        { machine with
          control := if machine.dstBuffer index = expected machine.length index then
            .verifying (index + 1) else .advance }
      else { machine with control := .putOut }
  | .putOut => { machine with led := false, control := .advance }
  | .advance =>
      { machine with
        length := if machine.length + 1 = bufferLength then bufferLevel bufferLength
          else machine.length + 1
        control := .waiting, rounds := machine.rounds + 1 }

def Machine.move (bufferLength : Nat) (machine : Machine) (copy : Copy) : Machine :=
  { machine with
    dstBuffer := Function.update machine.dstBuffer copy.offset (srcBuffer bufferLength copy.offset)
    channel := some { copy with offset := copy.offset + 1 } }

inductive Label where
  | main (accepted : Bool)
  | move
  /-- The channel ends its copy and calls `onMemoryCopied`. -/
  | ended (ok : Bool)
  /-- `onTimerOverflow` -/
  | overflow
  deriving DecidableEq

def step (bufferLength : Nat) (machine : Machine) : Label → Option Machine
  | .main accepted => some (statement bufferLength accepted machine)
  | .move =>
      match machine.channel with
      | none => none
      | some copy =>
          if copy.offset < copy.total then some (machine.move bufferLength copy) else none
  | .ended ok =>
      match machine.channel with
      | none => none
      | some copy =>
          if ok = true ∧ copy.offset < copy.total then none
          else some (onMemoryCopied ok { machine with channel := none })
  | .overflow => some { machine with timEvent := true }

end HalmExamples.DmaMemcopy
