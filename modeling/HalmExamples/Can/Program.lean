import HalmExamples.Foundation.Schedule

/-!
# The CAN example

`templates/can.jinja2`: the loop of `main` and the transmission test, statement by
statement.  The interface keeps received messages in a queue and calls `onEvent` for
each of them; the other timer calls it once for each period.
-/

set_option autoImplicit false

namespace HalmExamples.Can

/-- `flags`: any of `CAN_EXT_ID` and `CAN_RTR` -/
structure Flags where
  extId : Bool
  rtr : Bool
  deriving DecidableEq

structure CANStandardMessage where
  timestamp : Nat
  id : Nat
  flags : Flags
  length : Nat
  data : List UInt8
  deriving DecidableEq

def groupSize : Nat := 1000

structure MessageGroup where
  flags : Flags
  length : Nat
  count : Nat
  deriving DecidableEq

def runTransmissionTest : List MessageGroup :=
  [⟨⟨false, false⟩, 0, groupSize⟩, ⟨⟨false, false⟩, 8, groupSize⟩,
   ⟨⟨true, false⟩, 0, groupSize⟩, ⟨⟨true, false⟩, 8, groupSize⟩,
   ⟨⟨false, true⟩, 0, groupSize⟩, ⟨⟨true, true⟩, 0, groupSize⟩]

def MessageGroup.message (group : MessageGroup) (i : Nat) : CANStandardMessage :=
  { timestamp := 0
    id := i
    flags := group.flags
    length := group.length
    data := [1, 2, 3, 4, 5, 6, 7, 8] }

inductive Control where
  | wait
  | checkTimer
  | clearTimer
  /-- The next statement of `runTransmissionTest` with the calls that are left. -/
  | nextGroup (groups : List MessageGroup)
  | checkCount (group : MessageGroup) (i : Nat) (groups : List MessageGroup)
  | writeMessage (group : MessageGroup) (i : Nat) (groups : List MessageGroup)
  | checkTimeout (group : MessageGroup) (i : Nat) (groups : List MessageGroup)
  | checkCan
  | clearCan
  | readMessage
  deriving DecidableEq

structure Machine where
  /-- Received messages in the interface, oldest first. -/
  fifo : List CANStandardMessage
  transmitted : List CANStandardMessage
  canEvent : Bool
  timerEvent : Bool
  control : Control
  deriving DecidableEq

def initialMachine : Machine :=
  { fifo := []
    transmitted := []
    canEvent := false
    timerEvent := false
    control := .wait }

/-- What the devices answer: whether `ifWrite` takes a message, the value of the timer
and its frequency, which is the timeout. -/
structure Answer where
  accepted : Bool
  value : Nat
  frequency : Nat
  deriving DecidableEq

def mainStep (answer : Answer) (machine : Machine) : Machine :=
  match machine.control with
  | .wait =>
      if !machine.canEvent && !machine.timerEvent then machine
      else { machine with control := .checkTimer }
  | .checkTimer =>
      if machine.timerEvent then { machine with control := .clearTimer }
      else { machine with control := .checkCan }
  | .clearTimer => { machine with timerEvent := false, control := .nextGroup runTransmissionTest }
  | .nextGroup [] => { machine with control := .checkCan }
  | .nextGroup (group :: groups) => { machine with control := .checkCount group 0 groups }
  | .checkCount group i groups =>
      if i < group.count then { machine with control := .writeMessage group i groups }
      else { machine with control := .nextGroup groups }
  | .writeMessage group i groups =>
      if answer.accepted then
        { machine with
          transmitted := machine.transmitted ++ [group.message i]
          control := .checkCount group (i + 1) groups }
      else { machine with control := .checkTimeout group i groups }
  | .checkTimeout group i groups =>
      if answer.frequency ≤ answer.value then { machine with control := .nextGroup groups }
      else { machine with control := .writeMessage group i groups }
  | .checkCan =>
      if machine.canEvent then { machine with control := .clearCan }
      else { machine with control := .wait }
  | .clearCan => { machine with canEvent := false, control := .readMessage }
  | .readMessage => { machine with fifo := machine.fifo.tail, control := .wait }

inductive Label where
  | main (answer : Answer)
  | arrival (message : CANStandardMessage)
  | overflow
  deriving DecidableEq

def step (machine : Machine) : Label → Option Machine
  | .main answer => some (mainStep answer machine)
  | .arrival message =>
      some { machine with fifo := machine.fifo ++ [message], canEvent := true }
  | .overflow => some { machine with timerEvent := true }

end HalmExamples.Can
