import HalmExamples.Clock.Tree
import HalmExamples.Foundation.Attempt
import HalmExamples.Foundation.Supply

/-!
# The clocks of the whole board

The functions of `board.c` that set up the main clock and the branches of the peripherals,
statement by statement, and `boardResetClock`.  Each change of a clock is logged with the
clocks before it.  A wait for a clock that never becomes ready and a failed assertion end the
call.  `boardSetupRtc` and `boardSetupTimerAlarm` are left out, whose oscillator feeds none of
these clocks, and so is `boardSetupMemorySDRAM`, which gates the pins of its memory only.
-/

set_option autoImplicit false

namespace HalmExamples.Clock.Network

open Foundation Foundation.Attempt Foundation.Supply

inductive ClockName where
  | internalOsc
  | externalOsc
  /-- `CLOCK_ENET_TX`, which the PHY drives. -/
  | enetTx
  | systemPll
  | audioPll
  | usbPll
  | dividerA
  | dividerC
  | dividerD
  | dividerE
  | mainClock
  | spifiClock
  | apb1Clock
  | apb3Clock
  | usart0Clock
  | uart1Clock
  | usart2Clock
  | ssp0Clock
  | ssp1Clock
  | usb0Clock
  | usb1Clock
  | sdioClock
  | phyRxClock
  | phyTxClock
  | clockOutput
  deriving DecidableEq

def rank : ClockName → Nat
  | .internalOsc | .externalOsc | .enetTx => 0
  | .systemPll | .audioPll | .usbPll => 1
  | .dividerA | .dividerC | .dividerD | .dividerE => 2
  | _ => 3

structure ClockConfig where
  /-- An oscillator has none. -/
  source : Option ClockName
  multiplier : Nat
  divisor : Nat
  deriving DecidableEq

def oscillator : ClockConfig := { source := none, multiplier := 1, divisor := 1 }

def generic (source : ClockName) : ClockConfig :=
  { source := some source, multiplier := 1, divisor := 1 }

def divided (divisor : Nat) (source : ClockName) : ClockConfig :=
  { source := some source, multiplier := 1, divisor := divisor }

abbrev Clocks := ClockName → Option ClockConfig

def feeds (clocks : Clocks) : Feeds ClockName := fun name => (clocks name).map ClockConfig.source

structure Change where
  before : Clocks
  name : ClockName
  config : Option ClockConfig

def Change.after (change : Change) : Clocks :=
  Function.update change.before change.name change.config

structure Session where
  clocks : Clocks
  changes : List Change

inductive Stuck where
  | waiting (name : ClockName)
  | assertion
  deriving DecidableEq

abbrev Setup := EStateM Stuck Session

/-- `clockReady` of HALM: true of a clock that runs, false of one that is off.  Of a clock
that is on without a running source nothing is known. -/
structure Halm where
  ready : Clocks → ClockName → Bool
  ready_of_alive : ∀ clocks name, Alive (feeds clocks) name → ready clocks name = true
  not_ready_of_off : ∀ clocks name, clocks name = none → ready clocks name = false

/-! ## Statements -/

def change (name : ClockName) (config : Option ClockConfig) : Setup Unit := fun session =>
  .ok () { clocks := Function.update session.clocks name config
           changes := session.changes ++ [⟨session.clocks, name, config⟩] }

def clockEnable (name : ClockName) (config : ClockConfig) : Setup Unit := change name (some config)

def clockDisable (name : ClockName) : Setup Unit := change name none

variable (halm : Halm)

def clockReady (name : ClockName) : Setup Bool := fun session =>
  .ok (halm.ready session.clocks name) session

/-- `while (!clockReady(clock));` -/
def waitReady (name : ClockName) : Setup Unit := fun session =>
  if halm.ready session.clocks name then .ok () session else .error (.waiting name) session

/-- `if (clockReady(clock)) clockDisable(clock);` -/
def disableReady (name : ClockName) : Setup Unit := do
  let ready ← clockReady halm name
  if ready then clockDisable name else pure ()

/-! ## Set-up functions -/

def boardResetClock : Setup Unit := do
  clockEnable .mainClock (generic .internalOsc)
  disableReady halm .audioPll
  disableReady halm .usbPll
  disableReady halm .systemPll
  disableReady halm .externalOsc

/-- Whether stored settings are there and the sources they are for as well. -/
def clockSettingsLoaded (loaded : Bool) : Setup Bool := do
  let externalOsc ← clockReady halm .externalOsc
  let systemPll ← clockReady halm .systemPll
  pure (loaded && externalOsc && systemPll)

/-- `if (spifiClockEnabled) clockEnable(SpifiClock, ...);` -/
def switchSpifi (spifiClockEnabled : Bool) (source : ClockName) : Setup Unit :=
  if spifiClockEnabled then clockEnable .spifiClock (generic source) else pure ()

/-- The branch of `boardSetupClockExt` without stored settings. -/
def startExternal (spifiClockEnabled : Bool) : Setup Unit := do
  clockEnable .mainClock (generic .internalOsc)
  switchSpifi spifiClockEnabled .internalOsc
  clockEnable .externalOsc oscillator
  waitReady halm .externalOsc
  clockEnable .mainClock (generic .externalOsc)
  switchSpifi spifiClockEnabled .externalOsc
  disableReady halm .systemPll

/-- `loaded` is what `loadClockSettings` returns. -/
def boardSetupClockExt (loaded : Bool) : Setup Unit := do
  let settings ← clockSettingsLoaded halm loaded
  let spifiClockEnabled ← clockReady halm .spifiClock
  if settings then pure () else startExternal halm spifiClockEnabled

/-- The main clock is switched to the PLL, over a half of its frequency if that is high. -/
def switchMainToPll (divisor : Nat) : Setup Unit :=
  if divisor = 1 then do
    clockEnable .dividerA (divided 2 .systemPll)
    waitReady halm .dividerA
    clockEnable .mainClock (generic .dividerA)
    clockEnable .mainClock (generic .systemPll)
    clockDisable .dividerA
  else clockEnable .mainClock (generic .systemPll)

def switchSpifiToPll (frequency : Nat) : Setup Unit :=
  if frequency > spifiMaxFrequency then do
    clockEnable .dividerD
      (divided (wrap32 (frequency + spifiMaxFrequency - 1) / spifiMaxFrequency) .systemPll)
    waitReady halm .dividerD
    clockEnable .spifiClock (generic .dividerD)
  else clockEnable .spifiClock (generic .systemPll)

def startPll (spifiClockEnabled : Bool) (divisor multiplier : Nat) : Setup Unit := do
  clockEnable .mainClock (generic .internalOsc)
  switchSpifi spifiClockEnabled .internalOsc
  clockEnable .externalOsc oscillator
  waitReady halm .externalOsc
  clockEnable .systemPll
    { source := some .externalOsc, multiplier := multiplier, divisor := divisor }
  waitReady halm .systemPll
  switchMainToPll halm divisor
  if spifiClockEnabled then
    switchSpifiToPll halm (systemPllFrequency ⟨divisor, multiplier, .external⟩)
  else pure ()

def boardSetupClockPllGeneric (loaded : Bool) (divisor multiplier : Nat) : Setup Unit := do
  let settings ← clockSettingsLoaded halm loaded
  let spifiClockEnabled ← clockReady halm .spifiClock
  if settings then pure ()
  else
    startPll halm spifiClockEnabled divisor
      (if multiplier = 0 then maxCoreFrequency / extOscFrequency else multiplier)

def boardSetupClockPll (loaded : Bool) : Setup Unit :=
  boardSetupClockPllGeneric halm loaded 1 (maxCoreFrequency / extOscFrequency)

def boardSetupClockPllCustom (loaded : Bool) (frequency : Nat) : Setup Unit :=
  match findPllConfig extOscFrequency frequency 2 (maxCoreFrequency / extOscFrequency) with
  | some choice => boardSetupClockPllGeneric halm loaded choice.div choice.mul
  | none => fun session => .error .assertion session

/-! ## Clocks of the peripherals -/

def enablePeriphClock (clock : ClockName) : Setup Unit := do
  disableReady halm clock
  let systemPll ← clockReady halm .systemPll
  let externalOsc ← clockReady halm .externalOsc
  clockEnable clock (generic
    (if systemPll then .systemPll else if externalOsc then .externalOsc else .internalOsc))
  waitReady halm clock

/-- The functions that call `enablePeriphClock` and set up a driver: `boardSetupAdc`,
`boardSetupDac`, `boardSetupI2C0` and so on. -/
inductive Peripheral where
  | adc
  | dac
  | i2c0
  | i2c1
  | i2s
  | serial0
  | serial1
  | serial2
  | spi0
  | spi1
  deriving DecidableEq

def Peripheral.clock : Peripheral → ClockName
  | .adc | .dac | .i2c1 => .apb3Clock
  | .i2c0 | .i2s => .apb1Clock
  | .serial0 => .usart0Clock
  | .serial1 => .uart1Clock
  | .serial2 => .usart2Clock
  | .spi0 => .ssp0Clock
  | .spi1 => .ssp1Clock

def audioPllConfig : ClockConfig :=
  { source := some .externalOsc, multiplier := 40, divisor := 4 }

def startAudioPll : Setup Unit := do
  let ready ← clockReady halm .audioPll
  if ready then pure ()
  else do
    clockEnable .audioPll audioPllConfig
    waitReady halm .audioPll

/-- Channel 0 is on the APB3 bus. -/
def boardSetupCan : Setup Unit := do
  startAudioPll halm
  clockEnable .dividerA (divided 3 .audioPll)
  waitReady halm .dividerA
  clockEnable .apb3Clock (generic .dividerA)
  waitReady halm .apb3Clock

def boardSetupUsb1 : Setup Unit := do
  startAudioPll halm
  clockEnable .dividerA (divided 2 .audioPll)
  waitReady halm .dividerA
  clockEnable .usb1Clock (generic .dividerA)
  waitReady halm .usb1Clock

def boardSetupUsb0 : Setup Unit := do
  clockEnable .usbPll { source := some .externalOsc, multiplier := 40, divisor := 1 }
  waitReady halm .usbPll
  clockEnable .usb0Clock (generic .usbPll)
  waitReady halm .usb0Clock

def boardSetupSdio : Setup Unit := do
  let ready ← clockReady halm .systemPll
  if ready then do
    clockEnable .dividerC (divided 4 .systemPll)
    waitReady halm .dividerC
    clockEnable .sdioClock (generic .dividerC)
    waitReady halm .sdioClock
  else fun session => .error .assertion session

def boardSetupEthernet : Setup Unit := do
  clockEnable .phyRxClock (generic .enetTx)
  waitReady halm .phyRxClock
  clockEnable .phyTxClock (generic .enetTx)
  waitReady halm .phyTxClock

def boardSetupClockOutput (divisor : Nat) : Setup Unit := do
  clockEnable .dividerE (divided divisor .externalOsc)
  waitReady halm .dividerE
  clockEnable .clockOutput (generic .dividerE)
  waitReady halm .clockOutput

/-- `clockFrequency(SystemPll)` -/
def pllFrequency (clocks : Clocks) : Nat :=
  match clocks .systemPll with
  | some config => extOscFrequency * config.multiplier / config.divisor
  | none => 0

def boardSetupSpim : Setup Unit := do
  let systemPll ← clockReady halm .systemPll
  let externalOsc ← clockReady halm .externalOsc
  if systemPll then fun session => switchSpifiToPll halm (pllFrequency session.clocks) session
  else do
    clockEnable .spifiClock (generic (if externalOsc then .externalOsc else .internalOsc))
    waitReady halm .spifiClock

/-! ## Calls in any order -/

inductive Call where
  | setupClockExt (loaded : Bool)
  | setupClockPll (loaded : Bool)
  | setupClockPllGeneric (loaded : Bool) (divisor multiplier : Nat)
  | setupClockPllCustom (loaded : Bool) (frequency : Nat)
  | resetClock
  | setupPeripheral (peripheral : Peripheral)
  | setupCan
  | setupUsb0
  | setupUsb1
  | setupSdio
  | setupEthernet
  | setupClockOutput (divisor : Nat)
  | setupSpim
  deriving DecidableEq

def board : Call → Setup Unit
  | .setupClockExt loaded => boardSetupClockExt halm loaded
  | .setupClockPll loaded => boardSetupClockPll halm loaded
  | .setupClockPllGeneric loaded divisor multiplier =>
      boardSetupClockPllGeneric halm loaded divisor multiplier
  | .setupClockPllCustom loaded frequency => boardSetupClockPllCustom halm loaded frequency
  | .resetClock => boardResetClock halm
  | .setupPeripheral peripheral => enablePeriphClock halm peripheral.clock
  | .setupCan => boardSetupCan halm
  | .setupUsb0 => boardSetupUsb0 halm
  | .setupUsb1 => boardSetupUsb1 halm
  | .setupSdio => boardSetupSdio halm
  | .setupEthernet => boardSetupEthernet halm
  | .setupClockOutput divisor => boardSetupClockOutput halm divisor
  | .setupSpim => boardSetupSpim halm

/-- The changes a call makes, whether it returns or not. -/
def changesOf (clocks : Clocks) (call : Call) : List Change :=
  (stateOf (board halm call ⟨clocks, []⟩)).changes

/-- A call that returns. -/
def step (clocks : Clocks) (call : Call) : Option Clocks :=
  match board halm call ⟨clocks, []⟩ with
  | .ok _ session => some session.clocks
  | .error _ _ => none

end HalmExamples.Clock.Network
