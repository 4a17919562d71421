import HalmExamples.Foundation.Region
import HalmExamples.Foundation.Schedule

/-!
# The UART echo examples

The main loop and `transferData` of `templates/serial.jinja2` and `serial_dma.jinja2`,
which is the same in both.  The interface hands out received bytes in order and takes as
many of the bytes to send as its transmit queue has room for.
-/

set_option autoImplicit false

namespace HalmExamples.Serial

open Foundation

structure Port where
  /-- Received bytes that are still in the queue, oldest first. -/
  input : List UInt8
  /-- All bytes that `ifRead` has taken out of it. -/
  read : List UInt8
  /-- All bytes that `ifWrite` has accepted. -/
  output : List UInt8
  deriving DecidableEq

def Port.empty : Port := { input := [], read := [], output := [] }

inductive Control where
  | wait
  | clearEvent
  | readData
  | writeData
  | checkAvailable
  deriving DecidableEq

/-- `buffer` and `length` are the locals of `transferData`; `size` is `BOARD_UART_BUFFER`. -/
structure Machine (size : Nat) where
  port : Port
  buffer : Region UInt8 size
  length : Nat
  event : Bool
  control : Control
  deriving DecidableEq

def initialMachine {size : Nat} (buffer : Region UInt8 size) : Machine size :=
  { port := .empty, buffer := buffer, length := 0, event := false, control := .wait }

def Machine.block {size : Nat} (machine : Machine size) : List UInt8 :=
  window machine.buffer.cells 0 machine.length

/-- `length = ifRead(interface, buffer, sizeof(buffer))` returns `count`. -/
def ifRead {size : Nat} (count : Nat) (machine : Machine size) : Option (Machine size) :=
  if count ≤ machine.port.input.length then
    (machine.buffer.write? 0 (machine.port.input.take count)).map fun buffer =>
      { machine with
        port := { machine.port with
          input := machine.port.input.drop count
          read := machine.port.read ++ machine.port.input.take count }
        buffer := buffer
        length := count }
  else none

/-- `ifWrite(interface, buffer, length)` returns `written`, which nobody looks at. -/
def ifWrite {size : Nat} (written : Nat) (machine : Machine size) : Option (Machine size) :=
  if written ≤ machine.length then
    some { machine with port := { machine.port with
      output := machine.port.output ++ machine.block.take written } }
  else none

/-- The next statement; `count` is what `ifRead` or `ifWrite` returns there. -/
def mainStep {size : Nat} (count : Nat) (machine : Machine size) : Option (Machine size) :=
  match machine.control with
  | .wait =>
      if machine.event then some { machine with control := .clearEvent } else some machine
  | .clearEvent => some { machine with event := false, control := .readData }
  | .readData => (ifRead count machine).map fun next => { next with control := .writeData }
  | .writeData =>
      (ifWrite count machine).map fun next => { next with control := .checkAvailable }
  | .checkAvailable =>
      if 0 < machine.port.input.length then some { machine with control := .readData }
      else some { machine with control := .wait }

inductive Label where
  | main (count : Nat)
  | arrival (bytes : List UInt8)
  /-- `onSerialEvent`, or `onTimerOverflow` where the DMA example polls. -/
  | callback
  deriving DecidableEq

def step {size : Nat} (machine : Machine size) : Label → Option (Machine size)
  | .main count => mainStep count machine
  | .arrival bytes =>
      some { machine with port := { machine.port with input := machine.port.input ++ bytes } }
  | .callback => some { machine with event := true }

end HalmExamples.Serial
