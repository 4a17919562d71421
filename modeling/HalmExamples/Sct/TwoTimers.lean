import HalmExamples.Sct.Fields

/-!
# Two timers on the halves of one block

Each half has an SOF timer, an ADC timer or none.  A step constructs a timer, calls one of
its methods or destroys it.
-/

set_option autoImplicit false

namespace HalmExamples.Sct

open Foundation Foundation.Attempt Foundation.Footprint

/-! ## Timers -/

inductive Device where
  | sof (device : Sof.Device)
  | adc (timer : Adc.SctAdc)

def Device.part : Device → SctPart
  | .sof device => device.part
  | .adc timer => timer.part

def Device.events : Device → Set (Fin 16)
  | .sof device => {device.timer.events.i2sEvent, device.timer.events.usbEvent}
  | .adc timer => {timer.conversion, timer.memory, timer.reset}

def Device.outputs : Device → Set (Fin 16)
  | .sof _ => ∅
  | .adc timer => {output | timer.adcOutput = some output ∨ timer.dmaOutput = some output}

def Device.owned (device : Device) : Set Field := fun
  | .half part => part = device.part
  | .cell event part => event ∈ device.events ∧ part = device.part
  | .event event => event ∈ device.events
  | .output output => output ∈ device.outputs

/-- The mask that the constructor of the ADC timer has computed. -/
def Device.MaskOwn : Device → Prop
  | .sof _ => True
  | .adc timer => Masks (Device.adc timer).events timer.mask

/-- The methods of both classes, and the interrupt of an SOF timer of which the hardware has
raised these flags and captured these values. -/
inductive Request where
  | enable
  | disable
  | setFrequency (frequency : UInt32)
  | setOverflow (overflow : UInt32)
  | setValue (value : UInt32)
  | interrupt (raised : BitVec 32) (captured : Fin 16 → UInt16)

def Request.sofCall (mask evflag : BitVec 32) : Request → Option Sof.Call
  | .enable => some .enable
  | .disable => some .disable
  | .setFrequency frequency => some (.setFrequency frequency)
  | .setOverflow _ => none
  | .setValue value => some (.setValue value.toUInt16)
  | .interrupt raised captured => some (.interrupt (evflag ||| raised &&& mask) captured)

def Request.adcCall : Request → Option Adc.Call
  | .enable => some .enable
  | .disable => some .disable
  | .setFrequency frequency => some (.setFrequency frequency)
  | .setOverflow overflow => some (.setOverflow overflow)
  | .setValue value => some (.setValue value)
  | .interrupt _ _ => none

/-- Nothing if the class does not have the method. -/
def Device.request (halm : Halm) (registers : LpcSct) (request : Request) :
    Device → Option (Device × LpcSct)
  | .sof device =>
      (request.sofCall device.timer.mask registers.evflag).map fun call =>
        let (after, changed) := Sof.call halm device registers call
        (.sof after, changed)
  | .adc timer =>
      request.adcCall.map fun call =>
        let (after, changed) := Adc.call halm timer registers call
        (.adc after, changed)

/-! ## The block with its timers -/

/-- What `SctBase` does to the registers: only those of the half. -/
structure SctBase where
  init : SctPart → LpcSct → LpcSct
  deinit : SctPart → LpcSct → LpcSct
  init_touches : ∀ part, Touches readField (area part ∅ ∅) (init part)
  deinit_touches : ∀ part, Touches readField (area part ∅ ∅) (deinit part)

structure System where
  block : Block
  devices : SctPart → Option Device

inductive HalfLabel where
  | initSof (config : Sof.SctSofConfig)
  | initAdc (config : Adc.SctAdcConfig)
  | request (part : SctPart) (request : Request)
  | deinit (part : SctPart)

def HalfLabel.part : HalfLabel → SctPart
  | .initSof config => config.part
  | .initAdc config => config.part
  | .request part _ => part
  | .deinit part => part

/-- The base constructor is the first statement of both constructors: if it fails, nothing
is written. -/
def SctBase.before (base : SctBase) (part : SctPart) (block : Block) : Block :=
  if block.allocation.halves part then block
  else { block with registers := base.init part block.registers }

/-- A timer is there if its constructor succeeds. -/
def System.install {Value : Type} (system : System) (part : SctPart) (device : Value → Device) :
    EStateM.Result Failure Trace Value → System
  | .ok value trace =>
      { block := trace.block
        devices := Function.update system.devices part (some (device value)) }
  | .error _ trace => { system with block := trace.block }

def Device.deinit (base : SctBase) (block : Block) (device : Device) : Block :=
  let cleared :=
    match device with
    | .sof device => Sof.tmrDeinit device block
    | .adc timer => Adc.tmrDeinit timer block
  { cleared with registers := base.deinit device.part cleared.registers }

def halfStep (halm : Halm) (base : SctBase) (system : System) : HalfLabel → Option System
  | .initSof config =>
      let block := base.before config.part system.block
      some (system.install config.part .sof (Sof.tmrInit halm config (Trace.start block)))
  | .initAdc config =>
      let block := base.before config.part system.block
      some (system.install config.part .adc (Adc.tmrInit halm config (Trace.start block)))
  | .request part request => do
      let device ← system.devices part
      let (after, registers) ← device.request halm system.block.registers request
      return {
        block := { system.block with registers := registers }
        devices := Function.update system.devices part (some after) }
  | .deinit part => do
      let device ← system.devices part
      return {
        block := device.deinit base system.block
        devices := Function.update system.devices part none }

end HalmExamples.Sct
