import HalmExamples.Foundation.Region
import HalmExamples.Foundation.Schedule
import Mathlib.Logic.Function.Basic

/-!
# The USB CDC echo examples

`templates/usb_cdc.jinja2` with one port and `usb_cdc_composite/main.c` with two; the
composite example is the same for both boards that have it.  A port hands out received
bytes in order and takes as many of the bytes to send as it likes.
-/

set_option autoImplicit false

namespace HalmExamples.UsbCdc

open Foundation

structure Port where
  /-- Received bytes that have not been read, oldest first. -/
  input : List UInt8
  output : List UInt8
  received : List UInt8
  deriving DecidableEq

def Port.empty : Port := { input := [], output := [], received := [] }

def Port.arrive (port : Port) (bytes : List UInt8) : Port :=
  { port with input := port.input ++ bytes, received := port.received ++ bytes }

/-- The locals of `transferData`: `buffer`, `position` as an index into it and `length`. -/
structure Transfer (size : Nat) where
  buffer : Region UInt8 size
  position : Nat
  length : Nat
  inside : position + length ≤ size

def Transfer.rest {size : Nat} (transfer : Transfer size) : List UInt8 :=
  window transfer.buffer.cells transfer.position transfer.length

def Transfer.start {size : Nat} (buffer : Region UInt8 size) : Transfer size :=
  { buffer := buffer, position := 0, length := 0, inside := Nat.zero_le size }

/-- `length -= written; position += written;` -/
def Transfer.advance {size : Nat} (transfer : Transfer size) (written : Nat)
    (part : written ≤ transfer.length) : Transfer size :=
  { transfer with
    position := transfer.position + written
    length := transfer.length - written
    inside := by
      have := transfer.inside
      omega }

/-- `ifRead(interface, buffer, sizeof(buffer))` with what it returns: none of the bytes
only if there are none. -/
def ifRead {size : Nat} (count : Nat) (port : Port) (buffer : Region UInt8 size) :
    Option (Port × Transfer size) :=
  if fits : count ≤ size ∧ count ≤ port.input.length ∧ (count = 0 → port.input = []) then
    some ({ port with input := port.input.drop count },
      { buffer :=
          { cells := splice buffer.cells 0 (port.input.take count)
            length_eq := by
              rw [splice_length, buffer.length_eq]
              rw [buffer.length_eq, List.length_take]
              omega }
        position := 0
        length := count
        inside := by omega })
  else none

def ifWrite {size : Nat} (written : Nat) (port : Port) (transfer : Transfer size) :
    Option (Port × Transfer size) :=
  if part : written ≤ transfer.length then
    some ({ port with
        output := port.output ++ window transfer.buffer.cells transfer.position written },
      transfer.advance written part)
  else none

/-! ## One port -/

namespace Single

inductive Control where
  | wait
  | clearEvent
  | checkAvailable
  | readData
  | checkLength
  | writeData
  deriving DecidableEq

structure Machine (size : Nat) where
  port : Port
  transfer : Transfer size
  event : Bool
  control : Control

def initialMachine {size : Nat} (buffer : Region UInt8 size) : Machine size :=
  { port := .empty, transfer := .start buffer, event := false, control := .wait }

/-- The next statement; `count` is what `ifRead` or `ifWrite` returns there. -/
def mainStep {size : Nat} (count : Nat) (machine : Machine size) : Option (Machine size) :=
  match machine.control with
  | .wait =>
      if machine.event then some { machine with control := .clearEvent } else some machine
  | .clearEvent => some { machine with event := false, control := .checkAvailable }
  | .checkAvailable =>
      if machine.port.input.length = 0 then some { machine with control := .wait }
      else some { machine with control := .readData }
  | .readData =>
      match ifRead count machine.port machine.transfer.buffer with
      | none => none
      | some (port, transfer) =>
          some { machine with
            port := port
            transfer := transfer
            control := if transfer.length = 0 then .wait else .checkLength }
  | .checkLength =>
      if machine.transfer.length = 0 then some { machine with control := .readData }
      else some { machine with control := .writeData }
  | .writeData =>
      match ifWrite count machine.port machine.transfer with
      | none => none
      | some (port, transfer) =>
          some { machine with port := port, transfer := transfer, control := .checkLength }

inductive Label where
  | main (count : Nat)
  | arrival (bytes : List UInt8)
  deriving DecidableEq

def step {size : Nat} (machine : Machine size) : Label → Option (Machine size)
  | .main count => mainStep count machine
  | .arrival bytes => some { machine with port := machine.port.arrive bytes, event := true }

end Single

/-! ## Two ports -/

namespace Composite

abbrev streamCount : Nat := 2

structure StreamDescriptor where
  stream : Port
  event : Bool
  deriving DecidableEq

/-- The loops over `i` test it first, so they end with `i = STREAM_COUNT`. -/
inductive Control where
  | clearLocal
  | poll (i : Nat)
  | checkPoll
  | checkStream (i : Nat)
  | clearEvent (i : Fin streamCount)
  | readData (i : Fin streamCount)
  | checkLength (i : Fin streamCount)
  | writeData (i : Fin streamCount)
  | checkAvailable (i : Fin streamCount)
  deriving DecidableEq

structure Machine (size : Nat) where
  streams : Fin streamCount → StreamDescriptor
  transfer : Transfer size
  /-- The local of `main`. -/
  event : Bool
  control : Control

def initialMachine {size : Nat} (buffer : Region UInt8 size) : Machine size :=
  { streams := fun _ => { stream := .empty, event := false }
    transfer := .start buffer
    event := false
    control := .clearLocal }

def Machine.setStream {size : Nat} (machine : Machine size) (i : Fin streamCount)
    (descriptor : StreamDescriptor) : Machine size :=
  { machine with streams := Function.update machine.streams i descriptor }

def mainStep {size : Nat} (count : Nat) (machine : Machine size) : Option (Machine size) :=
  match machine.control with
  | .clearLocal => some { machine with event := false, control := .poll 0 }
  | .poll i =>
      if inside : i < streamCount then
        some { machine with
          event := machine.event || (machine.streams ⟨i, inside⟩).event
          control := .poll (i + 1) }
      else some { machine with control := .checkPoll }
  | .checkPoll =>
      if machine.event then some { machine with control := .checkStream 0 }
      else some { machine with control := .poll 0 }
  | .checkStream i =>
      if inside : i < streamCount then
        if (machine.streams ⟨i, inside⟩).event then
          some { machine with control := .clearEvent ⟨i, inside⟩ }
        else some { machine with control := .checkStream (i + 1) }
      else some { machine with control := .clearLocal }
  | .clearEvent i =>
      some { machine.setStream i { machine.streams i with event := false } with
             control := .readData i }
  | .readData i =>
      match ifRead count (machine.streams i).stream machine.transfer.buffer with
      | none => none
      | some (port, transfer) =>
          some { machine.setStream i { machine.streams i with stream := port } with
                 transfer := transfer, control := .checkLength i }
  | .checkLength i =>
      if machine.transfer.length = 0 then some { machine with control := .checkAvailable i }
      else some { machine with control := .writeData i }
  | .writeData i =>
      match ifWrite count (machine.streams i).stream machine.transfer with
      | none => none
      | some (port, transfer) =>
          some { machine.setStream i { machine.streams i with stream := port } with
                 transfer := transfer, control := .checkLength i }
  | .checkAvailable i =>
      if 0 < (machine.streams i).stream.input.length then
        some { machine with control := .readData i }
      else some { machine with control := .checkStream (i + 1) }

inductive Label where
  | main (count : Nat)
  | arrival (i : Fin streamCount) (bytes : List UInt8)
  deriving DecidableEq

def step {size : Nat} (machine : Machine size) : Label → Option (Machine size)
  | .main count => mainStep count machine
  | .arrival i bytes =>
      some (machine.setStream i
        { stream := (machine.streams i).stream.arrive bytes, event := true })

end Composite

end HalmExamples.UsbCdc
