import HalmExamples.Foundation.Region

/-!
# The I2C memory example

`templates/i2c.jinja2`: once a second a page of a serial memory is written, read back and
compared.  Any transfer may break off: of a packet the memory then takes the beginning, of a
page the beginning arrives.
-/

set_option autoImplicit false

namespace HalmExamples.I2cMemory

open Foundation

def addressSize : Nat := 2

def bufferSize : Nat := 16

/-- How many bytes each of the three transfers of a round gets through at most. -/
structure Faults where
  /-- Of the packet that writes the page. -/
  write : Nat
  address : Nat
  read : Nat
  deriving DecidableEq

/-! ## The bus -/

/-- What the program asks of the interface. -/
inductive Request where
  | address
  | rate
  | zerocopy
  | blocking
  | repeatedStart
  | busRecovery
  | write (packet : List UInt8)
  | read (length : Nat)
  deriving DecidableEq

structure Bus where
  memory : Nat → UInt8
  /-- Where the memory reads next. -/
  position : Nat
  /-- Oldest first. -/
  requests : List Request

def Bus.request (bus : Bus) (request : Request) : Bus :=
  { bus with requests := bus.requests ++ [request] }

/-- What the memory does with the bytes of a write transfer: two of position, and data to be
stored there. -/
def Bus.deliver (bus : Bus) : List UInt8 → Bus
  | high :: low :: data =>
      let position := high.toNat * 256 + low.toNat
      { bus with
        position := position + data.length
        memory := fun cell =>
          if position ≤ cell then data.getD (cell - position) (bus.memory cell)
          else bus.memory cell }
  | [_] => bus
  | [] => bus

def ifWrite (count : Nat) (packet : List UInt8) (bus : Bus) : Bus :=
  (bus.request (.write packet)).deliver (packet.take count)

def ifRead (count length : Nat) (bus : Bus) : Bus × List UInt8 :=
  let arrived := min count length
  ({ bus.request (.read length) with position := bus.position + arrived },
    (List.range arrived).map fun i => bus.memory (bus.position + i))

/-! ## The program -/

def fillBuffer (length : Nat) (iteration : UInt8) : List UInt8 :=
  (List.range length).map fun i => iteration + UInt8.ofNat i

def checkBuffer (buffer : List UInt8) (length : Nat) (iteration : UInt8) : Bool :=
  (List.range length).all fun i => buffer[i]? = some (iteration + UInt8.ofNat i)

/-- `packet[i] = position >> ((ADDRESS_SIZE - 1 - i) * 8)` -/
def addressBytes (position : Nat) : List UInt8 :=
  (List.range addressSize).map fun i => UInt8.ofNat (position >>> ((addressSize - 1 - i) * 8))

def deviceConfigIo (zerocopy : Bool) (bus : Bus) : Bus :=
  ((bus.request .address).request .rate).request (if zerocopy then .zerocopy else .blocking)

/-- The buffer keeps what the transfer does not overwrite. -/
def deviceRead (faults : Faults) (position : Nat) (buffer : List UInt8) (zerocopy repeated : Bool)
    (bus : Bus) : Bus × List UInt8 :=
  let configured := deviceConfigIo zerocopy bus
  let started := if repeated then configured.request .repeatedStart else configured
  let addressed := ifWrite faults.address (addressBytes position) started
  if zerocopy then
    if addressSize ≤ faults.address then
      let ended := ifRead faults.read buffer.length addressed
      let filled := splice buffer 0 ended.2
      if buffer.length ≤ faults.read then (ended.1, filled)
      else (ended.1.request .busRecovery, filled)
    else (addressed.request .busRecovery, buffer)
  else
    if addressSize ≤ faults.address then
      let ended := ifRead faults.read buffer.length addressed
      (ended.1, splice buffer 0 ended.2)
    else (addressed, buffer)

def deviceWrite (faults : Faults) (position : Nat) (buffer : List UInt8) (zerocopy : Bool)
    (bus : Bus) : Bus :=
  let packet := addressBytes position ++ buffer
  let written := ifWrite faults.write packet (deviceConfigIo zerocopy bus)
  if zerocopy then
    if packet.length ≤ faults.write then written else written.request .busRecovery
  else written

structure Machine where
  bus : Bus
  iteration : UInt8
  led : Bool

def initialMachine (memory : Nat → UInt8) : Machine :=
  { bus := { memory := memory, position := 0, requests := [] }, iteration := 0, led := false }

/-- What the loop does each time the timer has overflowed. -/
def round (zerocopy repeated : Bool) (machine : Machine) (faults : Faults) : Machine :=
  let page := fillBuffer bufferSize machine.iteration
  let written := deviceWrite faults 0 page zerocopy machine.bus
  let back := deviceRead faults 0 (List.replicate bufferSize 0) zerocopy repeated written
  { bus := back.1
    iteration := machine.iteration + UInt8.ofNat bufferSize
    led := !checkBuffer back.2 bufferSize machine.iteration }

def runRounds (zerocopy repeated : Bool) (memory : Nat → UInt8) (rounds : List Faults) : Machine :=
  rounds.foldl (round zerocopy repeated) (initialMachine memory)

end HalmExamples.I2cMemory
