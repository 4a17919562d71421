import HalmExamples.Sct.Block

/-!
# The constructors and destructors of the two drivers

`tmrInit` and `tmrDeinit` of `sct_sof.c` and `sct_adc.c`, with their register writes in the
order of the source, and the other calls of both on the registers of the block.
-/

set_option autoImplicit false

namespace HalmExamples.Sct

open Foundation

/-! ## The SOF timer -/

namespace Sof

inductive SctSofInput where
  | i2s0RxMws6
  | i2s0TxMws6
  | i2s1RxMws3
  | i2s1TxMws3
  | i2s1RxMws4
  | i2s1TxMws4
  | usb0Sof7
  | usb1Sof7
  deriving DecidableEq

structure SctSofConfig where
  frequency : UInt32
  i2s : SctSofInput
  usb : SctSofInput
  part : SctPart
  priority : Nat
  deriving DecidableEq

/-- `struct SctSof` with the fields of `struct SctBase` that are set once. -/
structure Device where
  timer : SctSof
  part : SctPart
  i2sInput : Fin 8
  usbInput : Fin 8

/-- `SCT_INPUT_3` and so on by their numbers; no input is mapped to `SCT_INPUT_NONE`. -/
def inputToInputChannel : SctSofInput → Fin 8
  | .i2s0RxMws6 | .i2s0TxMws6 => 6
  | .i2s1RxMws3 | .i2s1TxMws3 => 3
  | .i2s1RxMws4 | .i2s1TxMws4 => 4
  | .usb0Sof7 | .usb1Sof7 => 7

def channelMuxMap : SctSofInput → Fin 8
  | .i2s0RxMws6 | .i2s0TxMws6 => 6
  | .i2s1RxMws3 | .i2s1TxMws3 => 3
  | .i2s1RxMws4 | .i2s1TxMws4 => 4
  | .usb0Sof7 | .usb1Sof7 => 7

def functionMuxMap : SctSofInput → Nat
  | .i2s0RxMws6 | .i2s1RxMws3 | .i2s1RxMws4 | .usb0Sof7 => 2
  | .i2s0TxMws6 | .i2s1TxMws3 | .i2s1TxMws4 | .usb1Sof7 => 3

def routeGimaInput (input : SctSofInput) : Setup Unit := fun trace =>
  .ok () { trace with block := { trace.block with
    ctinIn := Function.update trace.block.ctinIn (channelMuxMap input)
      { synch := true, select := functionMuxMap input } } }

/-- The two calls of `sctAllocateEvent`; the second one gives another event because the
first is claimed by then. -/
def allocateEvents (halm : Halm) : Setup Events := fun trace =>
  match halm.pickEvent trace.block.allocation.events with
  | none => .error .busy trace
  | some i2sEvent =>
      let claimed := trace.withAllocation (trace.block.allocation.claimEvent i2sEvent)
      match picked : halm.pickEvent claimed.block.allocation.events with
      | none => .error .busy claimed
      | some usbEvent =>
          .ok
            { i2sEvent := i2sEvent
              usbEvent := usbEvent
              distinct := by
                rintro rfl
                have free := halm.pick_free _ _ picked
                simp [claimed, Trace.withAllocation, Allocation.claimEvent] at free }
            (claimed.withAllocation (claimed.block.allocation.claimEvent usbEvent))

/-- The control word of both events: a rising edge of the input. -/
def eventControl (part : SctPart) (input : Fin 8) : EventControl :=
  { hevent := part = .high
    matchsel := 0
    outsel := true
    iosel := input
    iocond := .rise
    combmode := .io
    direction := .independent }

/-- The writes that configure one event. -/
def eventWrites (part : SctPart) (input : Fin 8) (event : Fin 16) : List (LpcSct → LpcSct) :=
  [fun registers =>
      { registers with
        evCtrl := Function.update registers.evCtrl event (eventControl part input) },
   fun registers => { registers with evState := Function.update registers.evState event 1 },
   fun registers =>
      { registers with
        regmode := Function.update registers.regmode part
          (registers.regmode part ||| halfBit event) },
   fun registers =>
      { registers with capctrl := setCell registers.capctrl event part (halfBit event) }]

def eventsMask (events : Events) : BitVec 32 := bit events.i2sEvent ||| bit events.usbEvent

def initWrites (halm : Halm) (config : SctSofConfig) (events : Events) :
    List (LpcSct → LpcSct) :=
  [fun registers =>
      { registers with
        ctrl := Function.update registers.ctrl config.part
          { halt := true, stop := false, pre := 0 } },
   sctSetFrequency halm config.part config.frequency,
   fun registers =>
      { registers with noreload := Function.update registers.noreload config.part true }] ++
  eventWrites config.part (inputToInputChannel config.i2s) events.i2sEvent ++
  eventWrites config.part (inputToInputChannel config.usb) events.usbEvent ++
  [fun registers => { registers with evflag := registers.evflag &&& ~~~eventsMask events },
   fun registers => { registers with even := registers.even ||| eventsMask events },
   fun registers => { registers with state := Function.update registers.state config.part 0 }]

def irqSetPriority (priority : Nat) : Setup Unit := fun trace =>
  .ok () { trace with block := { trace.block with irqPriority := priority } }

def tmrInit (halm : Halm) (config : SctSofConfig) : Setup Device := do
  sctBaseInit config.part
  let events ← allocateEvents halm
  let i2sInput := inputToInputChannel config.i2s
  let usbInput := inputToInputChannel config.usb
  sctReserveInputChannel i2sInput
  sctReserveInputChannel usbInput
  routeGimaInput config.i2s
  routeGimaInput config.usb
  write (initWrites halm config events)
  irqSetPriority config.priority
  return {
    timer := SctSof.initialized config.frequency events
    part := config.part
    i2sInput := i2sInput
    usbInput := usbInput }

def deinitWrites (device : Device) : List (LpcSct → LpcSct) :=
  let events := device.timer.events
  let part := device.part
  [fun registers =>
      { registers with
        ctrl := Function.update registers.ctrl part { halt := true, stop := false, pre := 0 } },
   fun registers => { registers with even := registers.even &&& ~~~device.timer.mask },
   fun registers => { registers with limit := Function.update registers.limit part 0 },
   fun registers => { registers with even := registers.even &&& ~~~eventsMask events },
   fun registers =>
      { registers with capctrl := setCell registers.capctrl events.i2sEvent part 0 },
   fun registers =>
      { registers with capctrl := setCell registers.capctrl events.usbEvent part 0 },
   fun registers =>
      { registers with evCtrl := Function.update registers.evCtrl events.usbEvent .zero },
   fun registers =>
      { registers with evState := Function.update registers.evState events.usbEvent 0 },
   fun registers =>
      { registers with evCtrl := Function.update registers.evCtrl events.i2sEvent .zero },
   fun registers =>
      { registers with evState := Function.update registers.evState events.i2sEvent 0 },
   fun registers =>
      { registers with noreload := Function.update registers.noreload part false }]

/-- What `tmrDeinit` and `SctBase->deinit` release. -/
def release (device : Device) (allocation : Allocation) : Allocation :=
  let events := device.timer.events
  { halves := Function.update allocation.halves device.part false
    events := Function.update (Function.update allocation.events events.usbEvent false)
      events.i2sEvent false
    inputs := Function.update (Function.update allocation.inputs device.usbInput false)
      device.i2sInput false
    outputs := allocation.outputs }

/-- The releases are independent of the writes between them. -/
def tmrDeinit (device : Device) (block : Block) : Block :=
  { block with
    registers := ((deinitWrites device).foldl (fun registers effect => effect registers)
      block.registers)
    allocation := release device block.allocation }

/-! ### The other calls -/

def half (registers : LpcSct) (part : SctPart) : Registers :=
  { evflag := registers.evflag
    cap := fun event => registers.matchcap event part
    halt := (registers.ctrl part).halt }

/-- Writes to the half; none of the functions writes the capture registers. -/
def withHalf (registers : LpcSct) (part : SctPart) (changed : Registers) : LpcSct :=
  { registers with
    evflag := changed.evflag
    ctrl := Function.update registers.ctrl part
      { registers.ctrl part with halt := changed.halt } }

/-- The counter is stopped while it is written. -/
def tmrSetValue (part : SctPart) (value : UInt16) (registers : LpcSct) : LpcSct :=
  let stopped := Function.update registers.ctrl part { registers.ctrl part with stop := true }
  { registers with
    ctrl := Function.update stopped part { stopped part with stop := false }
    count := Function.update registers.count part value }

inductive Call where
  | enable
  | disable
  | setFrequency (frequency : UInt32)
  /-- The value is asserted to fit in 16 bits. -/
  | setValue (value : UInt16)
  /-- The handler, with the flags and the captured values it finds. -/
  | interrupt (evflag : BitVec 32) (captured : Fin 16 → UInt16)

def call (halm : Halm) (device : Device) (registers : LpcSct) : Call → Device × LpcSct
  | .enable =>
      let (timer, changed) := tmrEnable device.timer (half registers device.part)
      ({ device with timer := timer }, withHalf registers device.part changed)
  | .disable => (device, withHalf registers device.part (tmrDisable (half registers device.part)))
  | .setFrequency frequency =>
      ({ device with timer := { device.timer with frequency := frequency } },
        sctSetFrequency halm device.part frequency registers)
  | .setValue value => (device, tmrSetValue device.part value registers)
  | .interrupt evflag captured =>
      let found := { registers with
        evflag := evflag
        matchcap := fun event part =>
          if part = device.part then captured event else registers.matchcap event part }
      let (timer, changed) := interruptHandler device.timer (half found device.part)
      ({ device with timer := timer }, withHalf found device.part changed)

def calls (halm : Halm) : List Call → Device → LpcSct → Device × LpcSct
  | [], device, registers => (device, registers)
  | next :: rest, device, registers =>
      let (after, changed) := call halm device registers next
      calls halm rest after changed

end Sof

/-! ## The ADC timer -/

namespace Adc

inductive SctAdcDmaOutput where
  | dma0
  | dma1
  | output2
  | output3
  deriving DecidableEq

inductive SctAdcOutput where
  | output8
  | output15
  deriving DecidableEq

structure SctAdcConfig where
  cycle : UInt32
  delay : UInt32
  frequency : UInt32
  adc : SctAdcOutput
  dma : SctAdcDmaOutput
  part : SctPart
  deriving DecidableEq

structure SctAdc where
  part : SctPart
  frequency : UInt32
  adc : SctAdcOutput
  dma : SctAdcDmaOutput
  /-- `none` for `SCT_OUTPUT_NONE`, here and below. -/
  adcOutput : Option (Fin 16)
  dmaOutput : Option (Fin 16)
  conversion : Fin 16
  memory : Fin 16
  reset : Fin 16
  mask : BitVec 32

def adcOutput : SctAdcOutput → Option (Fin 16)
  | .output8 => some ⟨8, by decide⟩
  | .output15 => some ⟨15, by decide⟩

def dmaOutput : SctAdcDmaOutput → Option (Fin 16)
  | .dma0 => none
  | .dma1 => none
  | .output2 => some ⟨2, by decide⟩
  | .output3 => some ⟨3, by decide⟩

/-- The control word of the three events: a match of the event's own register. -/
def eventControl (part : SctPart) (event : Fin 16) : EventControl :=
  { hevent := part = .high
    matchsel := event
    outsel := false
    iosel := 0
    iocond := .low
    combmode := .matching
    direction := .independent }

/-- The writes that configure one event; the match value is written before the mode of
its register is. -/
def eventWrites (part : SctPart) (event : Fin 16) (value : UInt16) : List (LpcSct → LpcSct) :=
  [fun registers => { registers with matchcap := setCell registers.matchcap event part value },
   fun registers =>
      { registers with evCtrl := Function.update registers.evCtrl event (eventControl part event) },
   fun registers => { registers with evState := Function.update registers.evState event 1 },
   fun registers =>
      { registers with
        regmode := Function.update registers.regmode part
          (registers.regmode part &&& ~~~halfBit event) }]

def baseWrites (halm : Halm) (config : SctAdcConfig) : List (LpcSct → LpcSct) :=
  [fun registers =>
      { registers with
        ctrl := Function.update registers.ctrl config.part
          { halt := true, stop := false, pre := 0 } },
   sctSetFrequency halm config.part config.frequency,
   fun registers =>
      { registers with noreload := Function.update registers.noreload config.part true }]

/-- An output is cleared by one event and set by another. -/
def outputWrites (output clear set : Fin 16) : List (LpcSct → LpcSct) :=
  [fun registers =>
      { registers with outputdirctrl := Function.update registers.outputdirctrl output 0 },
   fun registers => { registers with res := Function.update registers.res output 0 },
   fun registers =>
      { registers with outClr := Function.update registers.outClr output (bit clear) },
   fun registers => { registers with outSet := Function.update registers.outSet output (bit set) }]

/-- Claim an output, if there is one to use, and connect it. -/
def connectOutput (output : Option (Fin 16)) (clear set : Fin 16) : Setup Unit :=
  match output with
  | none => pure ()
  | some output => do
      sctReserveOutputChannel output
      write (outputWrites output clear set)

def dmaRequestWrites (dma : SctAdcDmaOutput) (memory : Fin 16) : List (LpcSct → LpcSct) :=
  match dma with
  | .dma0 => [fun registers => { registers with dmareq0 := registers.dmareq0 ||| bit memory }]
  | .dma1 => [fun registers => { registers with dmareq1 := registers.dmareq1 ||| bit memory }]
  | .output2 => []
  | .output3 => []

def endWrites (config : SctAdcConfig) (reset : Fin 16) : List (LpcSct → LpcSct) :=
  [fun registers => { registers with state := Function.update registers.state config.part 0 },
   fun registers =>
      { registers with limit := Function.update registers.limit config.part (halfBit reset) }]

def tmrInit (halm : Halm) (config : SctAdcConfig) : Setup SctAdc := do
  sctBaseInit config.part
  let conversion ← sctAllocateEvent halm
  let memory ← sctAllocateEvent halm
  let reset ← sctAllocateEvent halm
  write (baseWrites halm config)
  write (eventWrites config.part conversion 1)
  connectOutput (adcOutput config.adc) memory conversion
  write (eventWrites config.part memory (1 + config.delay).toUInt16)
  write (dmaRequestWrites config.dma memory)
  connectOutput (dmaOutput config.dma) reset memory
  write (eventWrites config.part reset config.cycle.toUInt16)
  write (endWrites config reset)
  return {
    part := config.part
    frequency := config.frequency
    adc := config.adc
    dma := config.dma
    adcOutput := adcOutput config.adc
    dmaOutput := dmaOutput config.dma
    conversion := conversion
    memory := memory
    reset := reset
    mask := bit conversion ||| bit memory ||| bit reset }

/-- The event is disabled before it is released. -/
def eventClears (event : Fin 16) : List (LpcSct → LpcSct) :=
  [fun registers => { registers with evCtrl := Function.update registers.evCtrl event .zero },
   fun registers => { registers with evState := Function.update registers.evState event 0 }]

def outputClears (output : Option (Fin 16)) : List (LpcSct → LpcSct) :=
  match output with
  | none => []
  | some output =>
      [fun registers => { registers with outClr := Function.update registers.outClr output 0 },
       fun registers => { registers with outSet := Function.update registers.outSet output 0 }]

def dmaRequestClears (dma : SctAdcDmaOutput) (memory : Fin 16) : List (LpcSct → LpcSct) :=
  match dma with
  | .dma0 => [fun registers => { registers with dmareq0 := registers.dmareq0 &&& ~~~bit memory }]
  | .dma1 => [fun registers => { registers with dmareq1 := registers.dmareq1 &&& ~~~bit memory }]
  | .output2 => []
  | .output3 => []

def deinitWrites (timer : SctAdc) : List (LpcSct → LpcSct) :=
  [fun registers =>
      { registers with
        ctrl := Function.update registers.ctrl timer.part
          { halt := true, stop := false, pre := 0 } },
   fun registers => { registers with even := registers.even &&& ~~~timer.mask },
   fun registers => { registers with limit := Function.update registers.limit timer.part 0 }] ++
  dmaRequestClears timer.dma timer.memory ++
  outputClears timer.dmaOutput ++
  outputClears timer.adcOutput ++
  eventClears timer.reset ++
  eventClears timer.memory ++
  eventClears timer.conversion ++
  [fun registers =>
      { registers with noreload := Function.update registers.noreload timer.part false }]

def releaseOutput (output : Option (Fin 16)) (claimed : Fin 16 → Bool) : Fin 16 → Bool :=
  match output with
  | none => claimed
  | some output => Function.update claimed output false

/-- What `tmrDeinit` and `SctBase->deinit` release. -/
def release (timer : SctAdc) (allocation : Allocation) : Allocation :=
  { halves := Function.update allocation.halves timer.part false
    events := Function.update (Function.update (Function.update allocation.events timer.reset false)
      timer.memory false) timer.conversion false
    inputs := allocation.inputs
    outputs := releaseOutput timer.adcOutput (releaseOutput timer.dmaOutput allocation.outputs) }

/-- The releases are independent of the writes between them. -/
def tmrDeinit (timer : SctAdc) (block : Block) : Block :=
  { block with
    registers := ((deinitWrites timer).foldl (fun registers effect => effect registers)
      block.registers)
    allocation := release timer block.allocation }

/-! ### The other calls -/

def tmrEnable (timer : SctAdc) (registers : LpcSct) : LpcSct :=
  { registers with
    evflag := registers.evflag &&& ~~~timer.mask
    ctrl := Function.update registers.ctrl timer.part
      { registers.ctrl timer.part with halt := false } }

def tmrDisable (timer : SctAdc) (registers : LpcSct) : LpcSct :=
  { registers with
    ctrl := Function.update registers.ctrl timer.part
      { registers.ctrl timer.part with halt := true } }

/-- A write of `CTRL_STOP` alone. -/
def setStop (part : SctPart) (stop : Bool) (registers : LpcSct) : LpcSct :=
  { registers with
    ctrl := Function.update registers.ctrl part { registers.ctrl part with stop := stop } }

/-- Behind the assertion that the value fits in 16 bits, as many as the register has. -/
def tmrSetOverflow (timer : SctAdc) (overflow : UInt32) (registers : LpcSct) : LpcSct :=
  let stopped := setStop timer.part true registers
  let matched := { stopped with
    matchcap := setCell stopped.matchcap timer.reset timer.part (overflow - 1).toUInt16 }
  setStop timer.part false matched

/-- Behind the assertion that the value is not above the match value. -/
def tmrSetValue (timer : SctAdc) (value : UInt32) (registers : LpcSct) : LpcSct :=
  let stopped := setStop timer.part true registers
  let counting := { stopped with
    count := Function.update stopped.count timer.part value.toUInt16 }
  setStop timer.part false counting

inductive Call where
  | enable
  | disable
  | setFrequency (frequency : UInt32)
  | setOverflow (overflow : UInt32)
  | setValue (value : UInt32)

def call (halm : Halm) (timer : SctAdc) (registers : LpcSct) : Call → SctAdc × LpcSct
  | .enable => (timer, tmrEnable timer registers)
  | .disable => (timer, tmrDisable timer registers)
  | .setFrequency frequency =>
      ({ timer with frequency := frequency },
        sctSetFrequency halm timer.part frequency registers)
  | .setOverflow overflow => (timer, tmrSetOverflow timer overflow registers)
  | .setValue value => (timer, tmrSetValue timer value registers)

end Adc

end HalmExamples.Sct
