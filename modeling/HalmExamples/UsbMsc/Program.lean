import HalmExamples.Halm.Interface

/-!
# The mass storage example

`templates/usb_msc.jinja2`: a memory card is looked for on each event, made the unit of the
USB device when it is found, and given up when the device reports that it failed.  Events come
from a timer and from the device, between any two statements of `main`.
-/

set_option autoImplicit false

namespace HalmExamples.UsbMsc

open Halm

/-! ## The interface with indication -/

structure InterfaceWrapper (State : Type) where
  pipe : State
  rx : Bool
  tx : Bool

section Wrapper
variable {State : Type} (pipe : Interface State) (ifRelease : Int)

def interfaceInit (state : State) : InterfaceWrapper State :=
  { pipe := state, rx := false, tx := false }

def interfaceGetParam (wrapper : InterfaceWrapper State) (parameter : Parameter) : Option Nat :=
  pipe.getParam wrapper.pipe parameter

def interfaceSetParam (wrapper : InterfaceWrapper State) (parameter : Parameter) (value : Nat) :
    Bool × InterfaceWrapper State :=
  let shown :=
    if parameter = .other ifRelease then { wrapper with rx := false, tx := false } else wrapper
  let result := pipe.setParam shown.pipe parameter value
  (result.1, { shown with pipe := result.2 })

def interfaceRead (wrapper : InterfaceWrapper State) (length : Nat) :
    List UInt8 × InterfaceWrapper State :=
  let result := pipe.read wrapper.pipe length
  (result.1, { wrapper with pipe := result.2, rx := true })

def interfaceWrite (wrapper : InterfaceWrapper State) (buffer : Nat → UInt8) (length : Nat) :
    Nat × InterfaceWrapper State :=
  let result := pipe.write wrapper.pipe buffer length
  (result.1, { wrapper with pipe := result.2, tx := true })

def wrapperClass : Interface (InterfaceWrapper State) where
  getParam := interfaceGetParam pipe
  setParam := interfaceSetParam pipe ifRelease
  read := interfaceRead pipe
  write := interfaceWrite pipe

end Wrapper

/-! ## The main loop -/

inductive Control where
  | wait
  | clearEvent
  | testCard
  /-- There is no card: the LED goes out while one is looked for. -/
  | probeLed
  | probe
  | attach
  | probeResult
  /-- There is a card. -/
  | testFailed
  | detach
  | deinit
  | forget
  | failLed
  deriving DecidableEq

structure Machine where
  event : Bool
  /-- The cards are numbered as they are created. -/
  card : Option Nat
  created : Nat
  freed : List Nat
  /-- Unit 0 of the device, and whether it has failed. -/
  unit : Option Nat
  failed : Bool
  led : Bool
  control : Control
  deriving DecidableEq

/-- `hasLed`: there is a `BOARD_LED_2`. -/
def initialMachine (hasLed : Bool) : Machine :=
  { event := true, card := none, created := 0, freed := [], unit := none, failed := false
    led := hasLed, control := .wait }

/-- `if (pinValid(cdLed)) pinWrite(cdLed, ...);` -/
def Machine.writeLed (hasLed lit : Bool) (machine : Machine) : Machine :=
  if hasLed then { machine with led := lit } else machine

/-- The next statement; `found` says whether `init(MMCSD, ...)` gives a card. -/
def statement (hasLed found : Bool) (machine : Machine) : Machine :=
  match machine.control with
  | .wait => if machine.event then { machine with control := .clearEvent } else machine
  | .clearEvent => { machine with event := false, control := .testCard }
  | .testCard =>
      { machine with control := if machine.card = none then .probeLed else .testFailed }
  | .probeLed => { machine.writeLed hasLed false with control := .probe }
  | .probe =>
      if found then
        { machine with card := some machine.created, created := machine.created + 1
                       control := .attach }
      else { machine with control := .probeResult }
  | .attach => { machine with unit := machine.card, failed := false, control := .probeResult }
  | .probeResult =>
      let shown := if machine.card = none then machine.writeLed hasLed true else machine
      { shown with control := .wait }
  | .testFailed => { machine with control := if machine.failed then .detach else .wait }
  | .detach => { machine with unit := none, failed := false, control := .deinit }
  | .deinit => { machine with freed := machine.freed ++ machine.card.toList, control := .forget }
  | .forget => { machine with card := none, control := .failLed }
  | .failLed => { machine.writeLed hasLed true with control := .wait }

inductive Label where
  | main (found : Bool)
  | event
  /-- `onMassStorageEvent` of the unit that has just failed. -/
  | failure
  deriving DecidableEq

def step (hasLed : Bool) (machine : Machine) : Label → Option Machine
  | .main found => some (statement hasLed found machine)
  | .event => some { machine with event := true }
  | .failure =>
      if machine.unit = none then none else some { machine with failed := true, event := true }

end HalmExamples.UsbMsc
