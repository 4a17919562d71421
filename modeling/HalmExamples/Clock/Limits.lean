import Mathlib.Data.Nat.Cast.Field
import Mathlib.Tactic.Linarith
import Mathlib.Tactic.NormNum
import Mathlib.Tactic.Positivity
import HalmExamples.Clock.CrystalSearch

/-!
# Limits of the core and SPIFI clocks

The setup is followed step by step: the main clock stays within the limit of the
core exactly if the PLL frequency does, and the SPIFI clock stays within its own
for every PLL setting whose divisor divides the crystal frequency.
-/

set_option autoImplicit false

namespace HalmExamples.Clock

open Foundation

/-! ## What is asked of a step -/

def WithinCore (clocks : Clocks) (step : ClockStep) : Prop :=
  (clocks.apply step).frequency (clocks.apply step).main ≤ maxCoreFrequency

def WithinSpifi (clocks : Clocks) (step : ClockStep) : Prop :=
  ∀ source, (clocks.apply step).spifi = some source →
    (clocks.apply step).frequency source ≤ spifiMaxFrequency

def KeepsUsed (clocks : Clocks) (step : ClockStep) : Prop :=
  ∀ source, step = .disable source → source ∉ clocks.inUse

/-- The main clock runs from the internal oscillator, the SPIFI clock within its
limit if it is on. -/
structure Started (clocks : Clocks) : Prop where
  main : clocks.main = .internal
  spifi : ∀ source, clocks.spifi = some source →
    clocks.frequency source ≤ spifiMaxFrequency

/-! ## The phases of the setup -/

def sysPllConfig (div mul : Nat) : PllConfig :=
  { divisor := div, multiplier := mul, source := .external }

structure PllReady (config : PllConfig) (clocks : Clocks) : Prop where
  externalOsc : clocks.externalOsc = some extOscFrequency
  systemPll : clocks.systemPll = some config
  source : config.source = .external

theorem PllReady.pll {config : PllConfig} {clocks : Clocks} (ready : PllReady config clocks) :
    clocks.pll = (extOscFrequency * config.multiplier : ℕ) / config.divisor := by
  unfold Clocks.pll
  rw [ready.systemPll]
  dsimp only
  rw [ready.source]
  unfold Clocks.oscillator
  rw [ready.externalOsc]
  push_cast
  rfl

def preparedClocks (clocks : Clocks) (config : PllConfig) : Clocks :=
  { clocks with
    main := .internal
    spifi := clocks.spifi.map fun _ => .internal
    externalOsc := some extOscFrequency
    systemPll := some config }

def prepareSteps (clocks : Clocks) (config : PllConfig) : List ClockStep :=
  [.enableMain .internal] ++
    ((if clocks.spifi.isSome then [.enableSpifi .internal] else []) ++
      [.enableExternalOsc extOscFrequency, .enableSystemPll config])

theorem boardSetupClockPllGeneric_eq (clocks : Clocks) (div mul : Nat) (nonzero : 0 < mul) :
    boardSetupClockPllGeneric false clocks div mul =
      prepareSteps clocks (sysPllConfig div mul) ++
        (mainSteps (sysPllConfig div mul) ++
          if clocks.spifi.isSome then spifiSteps (sysPllConfig div mul) else []) := by
  unfold boardSetupClockPllGeneric prepareSteps sysPllConfig
  simp [Nat.ne_of_gt nonzero]

theorem run_prepareSteps (clocks : Clocks) (config : PllConfig) :
    Schedule.run clockStep (prepareSteps clocks config) clocks =
      some (preparedClocks clocks config) := by
  obtain ⟨main, spifi, externalOsc, systemPll, dividerA, dividerD⟩ := clocks
  cases spifi with
  | none => rfl
  | some source => rfl

theorem preparedClocks_ready (clocks : Clocks) (div mul : Nat) :
    PllReady (sysPllConfig div mul) (preparedClocks clocks (sysPllConfig div mul)) :=
  ⟨rfl, rfl, rfl⟩

theorem internal_within_core : ((internalFrequency : ℕ) : ℚ) ≤ (maxCoreFrequency : ℕ) := by
  unfold internalFrequency maxCoreFrequency
  norm_num

theorem internal_within_spifi : ((internalFrequency : ℕ) : ℚ) ≤ (spifiMaxFrequency : ℕ) := by
  unfold internalFrequency spifiMaxFrequency
  norm_num

theorem prepareSteps_core (clocks : Clocks) (config : PllConfig) :
    Schedule.Along clockStep WithinCore (prepareSteps clocks config) clocks := by
  have core := internal_within_core
  obtain ⟨main, spifi, externalOsc, systemPll, dividerA, dividerD⟩ := clocks
  cases spifi with
  | none => exact ⟨core, core, core, trivial⟩
  | some source => exact ⟨core, core, core, core, trivial⟩

def mainOnPll (clocks : Clocks) (config : PllConfig) : Clocks :=
  { clocks with
    main := .pll
    dividerA := if config.divisor = 1 then none else clocks.dividerA }

theorem run_mainSteps (clocks : Clocks) (config : PllConfig) :
    Schedule.run clockStep (mainSteps config) clocks = some (mainOnPll clocks config) := by
  unfold mainSteps mainOnPll
  by_cases single : config.divisor = 1
  · rw [if_pos single, if_pos single]
    rfl
  · rw [if_neg single, if_neg single]
    rfl

theorem setup_along_iff (allowed : Clocks → ClockStep → Prop) (clocks : Clocks) (div mul : Nat)
    (nonzero : 0 < mul) :
    Schedule.Along clockStep allowed (boardSetupClockPllGeneric false clocks div mul) clocks ↔
      Schedule.Along clockStep allowed (prepareSteps clocks (sysPllConfig div mul)) clocks ∧
      Schedule.Along clockStep allowed (mainSteps (sysPllConfig div mul))
        (preparedClocks clocks (sysPllConfig div mul)) ∧
      Schedule.Along clockStep allowed
        (if clocks.spifi.isSome then spifiSteps (sysPllConfig div mul) else [])
        (mainOnPll (preparedClocks clocks (sysPllConfig div mul)) (sysPllConfig div mul)) := by
  rw [boardSetupClockPllGeneric_eq clocks div mul nonzero,
    Schedule.along_append _ _ _ _ _ _ (run_prepareSteps clocks _),
    Schedule.along_append _ _ _ _ _ _ (run_mainSteps _ _)]

/-- The ramp at half the frequency is safe whenever its end is. -/
theorem mainSteps_core_iff (clocks : Clocks) (config : PllConfig)
    (ready : PllReady config clocks) (main : clocks.main = .internal) :
    Schedule.Along clockStep WithinCore (mainSteps config) clocks ↔
      clocks.pll ≤ (maxCoreFrequency : ℕ) := by
  have nonneg : 0 ≤ clocks.pll := by
    rw [ready.pll]
    positivity
  unfold mainSteps
  by_cases single : config.divisor = 1
  · rw [if_pos single]
    constructor
    · intro along
      exact along.2.2.1
    · intro within
      have half : clocks.pll / (2 : ℕ) ≤ (maxCoreFrequency : ℕ) := by
        push_cast
        linarith
      refine ⟨?_, half, within, within, trivial⟩
      unfold WithinCore Clocks.apply
      dsimp only
      rw [main]
      exact internal_within_core
  · rw [if_neg single]
    exact ⟨fun along => along.1, fun within => ⟨within, trivial⟩⟩

theorem spifiSteps_core (clocks : Clocks) (config : PllConfig) (main : clocks.main = .pll)
    (within : clocks.pll ≤ (maxCoreFrequency : ℕ)) :
    Schedule.Along clockStep WithinCore (spifiSteps config) clocks := by
  obtain ⟨_, spifi, externalOsc, systemPll, dividerA, dividerD⟩ := clocks
  cases main
  unfold spifiSteps
  dsimp only
  by_cases fast : systemPllFrequency config > spifiMaxFrequency
  · rw [if_pos fast]
    exact ⟨within, within, trivial⟩
  · rw [if_neg fast]
    exact ⟨within, trivial⟩

theorem setup_core_iff (clocks : Clocks) (div mul : Nat) (nonzero : 0 < mul) :
    Schedule.Along clockStep WithinCore (boardSetupClockPllGeneric false clocks div mul) clocks ↔
      (((extOscFrequency * mul : ℕ) : ℚ) / div ≤ (maxCoreFrequency : ℕ)) := by
  have ready := preparedClocks_ready clocks div mul
  have frequency := ready.pll
  have middle := mainSteps_core_iff _ _ ready rfl
  rw [setup_along_iff WithinCore clocks div mul nonzero, middle, frequency]
  constructor
  · intro along
    exact along.2.1
  · intro within
    refine ⟨prepareSteps_core clocks _, within, ?_⟩
    split
    · exact spifiSteps_core _ _ rfl (frequency ▸ within)
    · trivial

/-! ## The SPIFI clock -/

theorem prepareSteps_spifi (clocks : Clocks) (config : PllConfig) (started : Started clocks) :
    Schedule.Along clockStep WithinSpifi (prepareSteps clocks config) clocks := by
  have fromStart := started.spifi
  obtain ⟨main, spifi, externalOsc, systemPll, dividerA, dividerD⟩ := clocks
  have internalOnly : ∀ source, some ClockSource.internal = some source →
      source = ClockSource.internal := fun source same => (Option.some.inj same).symm
  cases spifi with
  | none =>
      refine ⟨?_, ?_, ?_, trivial⟩
      · intro source on
        cases on
      · intro source on
        cases on
      · intro source on
        cases on
  | some selected =>
      refine ⟨?_, ?_, ?_, ?_, trivial⟩
      · intro source on
        exact fromStart source on
      · intro source on
        rw [internalOnly source on]
        exact internal_within_spifi
      · intro source on
        rw [internalOnly source on]
        exact internal_within_spifi
      · intro source on
        rw [internalOnly source on]
        exact internal_within_spifi

theorem mainSteps_spifi (clocks : Clocks) (config : PllConfig)
    (spifi : ∀ source, clocks.spifi = some source → source = .internal) :
    Schedule.Along clockStep WithinSpifi (mainSteps config) clocks := by
  have step : ∀ source, clocks.spifi = some source →
      ((internalFrequency : ℕ) : ℚ) ≤ (spifiMaxFrequency : ℕ) := fun _ _ => internal_within_spifi
  unfold mainSteps
  split
  · refine ⟨?_, ?_, ?_, ?_, trivial⟩
    all_goals
      intro source on
      cases spifi source on
      exact step _ on
  · refine ⟨?_, trivial⟩
    intro source on
    cases spifi source on
    exact step _ on

/-- A divisor that divides the crystal frequency gives a whole PLL frequency. -/
theorem systemPllFrequency_exact (config : PllConfig) (clocks : Clocks)
    (ready : PllReady config clocks) (nonzero : config.divisor ≠ 0)
    (divides : config.divisor ∣ extOscFrequency) :
    ((systemPllFrequency config : ℕ) : ℚ) = clocks.pll := by
  rw [ready.pll]
  exact Nat.cast_div (Nat.dvd_mul_right_of_dvd divides config.multiplier)
    (Nat.cast_ne_zero.mpr nonzero)

/-- The divider of the SPIFI clock is rounded up, so its output is within the limit. -/
theorem spifiSteps_spifi (clocks : Clocks) (config : PllConfig)
    (ready : PllReady config clocks) (nonzero : config.divisor ≠ 0)
    (divides : config.divisor ∣ extOscFrequency) (bound : config.multiplier ≤ 256)
    (spifi : ∀ source, clocks.spifi = some source → source = .internal) :
    Schedule.Along clockStep WithinSpifi (spifiSteps config) clocks := by
  have whole := systemPllFrequency_exact config clocks ready nonzero divides
  have small : systemPllFrequency config ≤ 12000000 * 256 :=
    Nat.le_trans (Nat.div_le_self _ _) (Nat.mul_le_mul_left _ bound)
  unfold spifiSteps
  dsimp only
  generalize systemPllFrequency config = frequency at whole small ⊢
  by_cases fast : frequency > spifiMaxFrequency
  · rw [if_pos fast]
    unfold spifiMaxFrequency at fast ⊢
    rw [wrap32_of_lt _ (by omega)]
    refine ⟨?_, ?_, trivial⟩
    · intro source on
      cases spifi source on
      exact internal_within_spifi
    · intro source on
      cases on
      show clocks.pll / (((frequency + 30000000 - 1) / 30000000 : ℕ) : ℚ) ≤
        ((30000000 : ℕ) : ℚ)
      have positive : 0 < (frequency + 30000000 - 1) / 30000000 := by omega
      have covered : frequency ≤ 30000000 * ((frequency + 30000000 - 1) / 30000000) := by omega
      rw [← whole, div_le_iff₀ (Nat.cast_pos.mpr positive)]
      exact_mod_cast covered
  · rw [if_neg fast]
    refine ⟨?_, trivial⟩
    intro source on
    cases on
    show clocks.pll ≤ (spifiMaxFrequency : ℕ)
    rw [← whole]
    exact_mod_cast Nat.not_lt.mp fast

theorem setup_spifi (clocks : Clocks) (div mul : Nat) (started : Started clocks)
    (legal : PllLegal div mul) :
    Schedule.Along clockStep WithinSpifi (boardSetupClockPllGeneric false clocks div mul)
      clocks := by
  obtain ⟨⟨power, small, isPower⟩, nonzero, bound⟩ := legal
  have divides : div ∣ extOscFrequency := by
    have factor : (2 : ℕ) ^ 5 ∣ extOscFrequency := by
      unfold extOscFrequency
      norm_num
    rw [isPower]
    exact dvd_trans (pow_dvd_pow 2 small) factor
  have divNonzero : div ≠ 0 := by
    rw [isPower]
    exact Nat.ne_of_gt (Nat.two_pow_pos power)
  have internal : ∀ source, (clocks.spifi.map fun _ => ClockSource.internal) = some source →
      source = .internal := by
    intro source on
    obtain ⟨_, _, same⟩ := Option.map_eq_some_iff.mp on
    exact same.symm
  rw [setup_along_iff WithinSpifi clocks div mul nonzero]
  refine ⟨prepareSteps_spifi clocks _ started, mainSteps_spifi _ _ internal, ?_⟩
  split
  · exact spifiSteps_spifi _ _ ⟨rfl, rfl, rfl⟩ divNonzero divides bound internal
  · trivial

/-! ## Sources that stay on -/

/-- Only the ramp divider is disabled, after the main clock has left it. -/
theorem setup_keepsUsed (clocks : Clocks) (div mul : Nat) (nonzero : 0 < mul) :
    Schedule.Along clockStep KeepsUsed (boardSetupClockPllGeneric false clocks div mul)
      clocks := by
  have enabling : ∀ (state : Clocks) (step : ClockStep), (∀ source, step ≠ .disable source) →
      KeepsUsed state step := fun state step enables source isDisable =>
    absurd isDisable (enables source)
  rw [setup_along_iff KeepsUsed clocks div mul nonzero]
  refine ⟨?_, ?_, ?_⟩
  · unfold prepareSteps
    split
    · exact ⟨enabling _ _ nofun, enabling _ _ nofun, enabling _ _ nofun, enabling _ _ nofun,
        trivial⟩
    · exact ⟨enabling _ _ nofun, enabling _ _ nofun, enabling _ _ nofun, trivial⟩
  · unfold mainSteps
    split
    · refine ⟨enabling _ _ nofun, enabling _ _ nofun, enabling _ _ nofun, ?_, trivial⟩
      intro source isDisable
      cases isDisable
      cases on : clocks.spifi with
      | none =>
          simp [Clocks.inUse, Clocks.apply, preparedClocks, on, Clocks.upstream,
            Clocks.pllSources, sysPllConfig]
      | some selected =>
          simp [Clocks.inUse, Clocks.apply, preparedClocks, on, Clocks.upstream,
            Clocks.pllSources, sysPllConfig]
    · exact ⟨enabling _ _ nofun, trivial⟩
  · split
    · unfold spifiSteps
      dsimp only
      split
      · exact ⟨enabling _ _ nofun, enabling _ _ nofun, trivial⟩
      · exact ⟨enabling _ _ nofun, trivial⟩
    · trivial

/-! ## Every requested frequency -/

/-- For every request the SPIFI clock stays within its limit and no source in use is
disabled; the core stays within its own exactly for requests up to 210 MHz. -/
theorem clock_setup_limits (clocks : Clocks) (frequency : Nat) (started : Started clocks) :
    (∀ steps, boardSetupClockPllCustom false clocks frequency = some steps →
      Schedule.Along clockStep WithinSpifi steps clocks ∧
      Schedule.Along clockStep KeepsUsed steps clocks) ∧
    (0 < frequency → frequency < 2 ^ 31 →
      ∃ steps, boardSetupClockPllCustom false clocks frequency = some steps ∧
        (Schedule.Along clockStep WithinCore steps clocks ↔ frequency ≤ 210000000)) := by
  have failSafe : PllLegal 2 (maxCoreFrequency / extOscFrequency) :=
    ⟨⟨1, by decide, rfl⟩, by decide, by decide⟩
  constructor
  · intro steps setup
    obtain ⟨choice, searched, same⟩ := Option.map_eq_some_iff.mp setup
    have legal := findPllConfig_legal _ _ _ _ choice failSafe searched
    rw [← same]
    exact ⟨setup_spifi clocks _ _ started legal, setup_keepsUsed clocks _ _ legal.2.1⟩
  · intro positive small
    obtain ⟨choice, searched, limit⟩ := findPllConfig_within_core_iff frequency positive small
    have legal := findPllConfig_legal _ _ _ _ choice failSafe searched
    obtain ⟨⟨power, _, isPower⟩, nonzero, _⟩ := legal
    have divPositive : 0 < choice.div := by
      rw [isPower]
      exact Nat.two_pow_pos power
    refine ⟨boardSetupClockPllGeneric false clocks choice.div choice.mul, ?_, ?_⟩
    · unfold boardSetupClockPllCustom
      rw [searched]
      rfl
    · rw [setup_core_iff clocks _ _ nonzero, ← limit, div_le_iff₀ (Nat.cast_pos.mpr divPositive),
        Nat.mul_comm extOscFrequency]
      exact_mod_cast Iff.rfl

def internalClocks : Clocks :=
  { main := .internal
    spifi := some .internal
    externalOsc := none
    systemPll := none
    dividerA := none
    dividerD := none }

theorem internalClocks_started : Started internalClocks := by
  refine ⟨rfl, ?_⟩
  intro source on
  cases on
  exact internal_within_spifi

theorem clock_setup_limits_96MHz :
    ∃ steps, boardSetupClockPllCustom false internalClocks 96000000 = some steps ∧
      Schedule.Along clockStep WithinCore steps internalClocks ∧
      Schedule.Along clockStep WithinSpifi steps internalClocks ∧
      Schedule.Along clockStep KeepsUsed steps internalClocks := by
  obtain ⟨always, limited⟩ := clock_setup_limits internalClocks 96000000 internalClocks_started
  obtain ⟨steps, setup, core⟩ := limited (by norm_num) (by norm_num)
  exact ⟨steps, setup, core.mpr (by norm_num), always steps setup⟩

/-- A request of 240 MHz is met exactly and drives the core above its limit. -/
theorem core_limit_exceeded :
    Started internalClocks ∧
      ∃ steps, boardSetupClockPllCustom false internalClocks 240000000 = some steps ∧
        ¬ Schedule.Along clockStep WithinCore steps internalClocks := by
  refine ⟨internalClocks_started, boardSetupClockPllGeneric false internalClocks 1 20, ?_, ?_⟩
  · have searched : findPllConfig extOscFrequency 240000000 2
        (maxCoreFrequency / extOscFrequency) = some ⟨0, 1, 20⟩ := by decide +kernel
    unfold boardSetupClockPllCustom
    rw [searched]
    rfl
  · rw [setup_core_iff internalClocks 1 20 (by decide)]
    unfold extOscFrequency maxCoreFrequency
    norm_num

end HalmExamples.Clock
