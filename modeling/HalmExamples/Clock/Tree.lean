import Mathlib.Algebra.Order.Field.Rat
import HalmExamples.Foundation.Schedule
import HalmExamples.Clock.PllSearch

/-!
# The clock tree and its reconfiguration

Each `clockEnable` or `clockDisable` of the LPC43xx board is one step on the
selected sources.  A clock runs at the exact frequency of its source; waiting
for a source to become ready is not a step.  The assertion in
`boardSetupClockPllCustom` is compiled out.
-/

set_option autoImplicit false

namespace HalmExamples.Clock

open Foundation

inductive ClockSource where
  | internal
  | external
  | pll
  | idiva
  | idivd
  deriving DecidableEq

structure PllConfig where
  divisor : Nat
  multiplier : Nat
  source : ClockSource

structure GenericDividerConfig where
  divisor : Nat
  source : ClockSource

structure Clocks where
  main : ClockSource
  /-- The source of the SPIFI clock, if that is enabled. -/
  spifi : Option ClockSource
  /-- The frequency of the crystal, once its oscillator is enabled. -/
  externalOsc : Option Nat
  systemPll : Option PllConfig
  dividerA : Option GenericDividerConfig
  dividerD : Option GenericDividerConfig

def internalFrequency : Nat := 12000000

def extOscFrequency : Nat := 12000000
def maxCoreFrequency : Nat := 204000000
def spifiMaxFrequency : Nat := 30000000

namespace Clocks

/-! ## Frequencies -/

def oscillator (clocks : Clocks) : ClockSource → ℚ
  | .internal => internalFrequency
  | .external => (clocks.externalOsc.getD 0 : Nat)
  | _ => 0

def pll (clocks : Clocks) : ℚ :=
  match clocks.systemPll with
  | some config => clocks.oscillator config.source * config.multiplier / config.divisor
  | none => 0

def divided (clocks : Clocks) (divider : Option GenericDividerConfig) : ℚ :=
  match divider with
  | some config =>
      (if config.source = .pll then clocks.pll else clocks.oscillator config.source) /
        config.divisor
  | none => 0

def frequency (clocks : Clocks) : ClockSource → ℚ
  | .pll => clocks.pll
  | .idiva => clocks.divided clocks.dividerA
  | .idivd => clocks.divided clocks.dividerD
  | source => clocks.oscillator source

/-! ## Sources in use -/

def pllSources (clocks : Clocks) : List ClockSource :=
  .pll :: (clocks.systemPll.map PllConfig.source).toList

def dividerSources (clocks : Clocks) : Option GenericDividerConfig → List ClockSource
  | some config => if config.source = .pll then clocks.pllSources else [config.source]
  | none => []

def upstream (clocks : Clocks) : ClockSource → List ClockSource
  | .pll => clocks.pllSources
  | .idiva => .idiva :: clocks.dividerSources clocks.dividerA
  | .idivd => .idivd :: clocks.dividerSources clocks.dividerD
  | source => [source]

def inUse (clocks : Clocks) : List ClockSource :=
  clocks.upstream clocks.main ++ clocks.spifi.toList.flatMap clocks.upstream

end Clocks

/-! ## Steps -/

inductive ClockStep where
  | enableMain (source : ClockSource)
  | enableSpifi (source : ClockSource)
  | enableExternalOsc (frequency : Nat)
  | enableSystemPll (config : PllConfig)
  | enableDividerA (config : GenericDividerConfig)
  | enableDividerD (config : GenericDividerConfig)
  | disable (source : ClockSource)

def Clocks.apply (clocks : Clocks) : ClockStep → Clocks
  | .enableMain source => { clocks with main := source }
  | .enableSpifi source => { clocks with spifi := some source }
  | .enableExternalOsc frequency => { clocks with externalOsc := some frequency }
  | .enableSystemPll config => { clocks with systemPll := some config }
  | .enableDividerA config => { clocks with dividerA := some config }
  | .enableDividerD config => { clocks with dividerD := some config }
  | .disable .external => { clocks with externalOsc := none }
  | .disable .pll => { clocks with systemPll := none }
  | .disable .idiva => { clocks with dividerA := none }
  | .disable .idivd => { clocks with dividerD := none }
  | .disable .internal => clocks

def clockStep (clocks : Clocks) (step : ClockStep) : Option Clocks := some (clocks.apply step)

/-! ## The setup functions -/

/-- `clockFrequency(SystemPll)` when the PLL runs from the crystal. -/
def systemPllFrequency (config : PllConfig) : Nat :=
  extOscFrequency * config.multiplier / config.divisor

def mainSteps (config : PllConfig) : List ClockStep :=
  if config.divisor = 1 then
    [.enableDividerA { divisor := 2, source := .pll }, .enableMain .idiva, .enableMain .pll,
      .disable .idiva]
  else [.enableMain .pll]

def spifiSteps (config : PllConfig) : List ClockStep :=
  let frequency := systemPllFrequency config
  if frequency > spifiMaxFrequency then
    [.enableDividerD
        { divisor := wrap32 (frequency + spifiMaxFrequency - 1) / spifiMaxFrequency
          source := .pll },
      .enableSpifi .idivd]
  else [.enableSpifi .pll]

def boardSetupClockPllGeneric (settingsStored : Bool) (clocks : Clocks)
    (divisor multiplier : Nat) : List ClockStep :=
  let sysPllConfig : PllConfig :=
    { divisor := divisor
      multiplier :=
        if multiplier = 0 then maxCoreFrequency / extOscFrequency else multiplier
      source := .external }
  let clockSettingsLoaded :=
    settingsStored && clocks.externalOsc.isSome && clocks.systemPll.isSome
  let spifiClockEnabled := clocks.spifi.isSome
  if clockSettingsLoaded then []
  else
    [.enableMain .internal] ++
      ((if spifiClockEnabled then [.enableSpifi .internal] else []) ++
        ([.enableExternalOsc extOscFrequency, .enableSystemPll sysPllConfig] ++
          (mainSteps sysPllConfig ++
            if spifiClockEnabled then spifiSteps sysPllConfig else [])))

def boardSetupClockPllCustom (settingsStored : Bool) (clocks : Clocks) (frequency : Nat) :
    Option (List ClockStep) :=
  (findPllConfig extOscFrequency frequency 2 (maxCoreFrequency / extOscFrequency)).map
    fun choice => boardSetupClockPllGeneric settingsStored clocks choice.div choice.mul

end HalmExamples.Clock
