import HalmExamples.Clock.Continuity

/-!
# Sleeping and waking up

Before the chip is suspended the clocks are reset; after it wakes up they are set up again.
The settings that are shared with the other core may still be there then, but the sources
they are for are off, so the set-up never takes them for valid.
-/

set_option autoImplicit false

namespace HalmExamples.Clock.Network

open Foundation Foundation.Attempt Foundation.Supply Foundation.Schedule

theorem Steps.and {Value : Type} {inv inv' : Clocks → Prop} {good good' : Change → Prop}
    {attempt : Setup Value} {after after' : Value → Clocks → Prop}
    (first : Steps inv good attempt after) (second : Steps inv' good' attempt after') :
    Steps (fun clocks => inv clocks ∧ inv' clocks) (fun change => good change ∧ good' change)
      attempt fun value clocks => after value clocks ∧ after' value clocks := by
  intro session kept
  have one := first session ⟨kept.1.1, fun change member => (kept.2 change member).1⟩
  have other := second session ⟨kept.1.2, fun change member => (kept.2 change member).2⟩
  cases done : attempt session with
  | ok value next =>
      rw [done] at one other
      exact ⟨⟨one.1, other.1⟩, fun change member => ⟨one.2 change member, other.2 change member⟩⟩
  | error stuck next =>
      rw [done] at one other
      exact fun change member => ⟨one change member, other change member⟩

section Pll
variable {halm : Halm} {config : Option ClockConfig}

def PllSet (config : Option ClockConfig) (clocks : Clocks) : Prop := clocks .systemPll = config

theorem steps_pllKept (name : ClockName) (other : ClockName.systemPll ≠ name)
    (value : Option ClockConfig) :
    Steps (PllSet config) (fun _ => True) (change name value) fun _ => PllSet config :=
  steps_change name value fun _ set => ⟨trivial, (Function.update_of_ne other _ _).trans set⟩

theorem steps_pllKept_switchMain (divisor : Nat) :
    Steps (PllSet config) (fun _ => True) (switchMainToPll halm divisor)
      fun _ => PllSet config := by
  refine Steps.ite (fun _ => ?_) fun _ => ?_
  · refine (steps_pllKept .dividerA (by decide) _).bind fun _ => ?_
    refine (steps_waited .dividerA).bind fun _ => ?_
    refine (steps_pllKept .mainClock (by decide) _).bind fun _ => ?_
    refine (steps_pllKept .mainClock (by decide) _).bind fun _ => ?_
    exact steps_pllKept .dividerA (by decide) none
  · exact steps_pllKept .mainClock (by decide) _

theorem steps_pllKept_switchSpifi (frequency : Nat) :
    Steps (PllSet config) (fun _ => True) (switchSpifiToPll halm frequency)
      fun _ => PllSet config := by
  refine Steps.ite (fun _ => ?_) fun _ => ?_
  · refine (steps_pllKept .dividerD (by decide) _).bind fun _ => ?_
    refine (steps_waited .dividerD).bind fun _ => ?_
    exact steps_pllKept .spifiClock (by decide) _
  · exact steps_pllKept .spifiClock (by decide) _

def pllConfig (divisor multiplier : Nat) : ClockConfig :=
  { source := some .externalOsc, multiplier := multiplier, divisor := divisor }

theorem steps_startPll_config (spifiClockEnabled : Bool) (divisor multiplier : Nat) :
    Steps (fun _ => True) (fun _ => True) (startPll halm spifiClockEnabled divisor multiplier)
      fun _ => PllSet (some (pllConfig divisor multiplier)) := by
  have any (name : ClockName) (value : Option ClockConfig) :
      Steps (fun _ => True) (fun _ => True) (change name value) fun _ _ => True :=
    steps_change name value fun _ _ => ⟨trivial, trivial⟩
  refine (any .mainClock _).bind fun _ => ?_
  refine Steps.seq (fun _ => True) ?_ ?_
  · exact Steps.ite (fun _ => any .spifiClock _) fun _ => steps_pure () fun _ _ => trivial
  refine (any .externalOsc _).bind fun _ => (steps_waited .externalOsc).bind fun _ => ?_
  refine Steps.seq (PllSet (some (pllConfig divisor multiplier)))
    (steps_change .systemPll _ fun _ _ => ⟨trivial, Function.update_self _ _ _⟩) ?_
  refine (steps_waited .systemPll).bind fun _ => ?_
  refine (steps_pllKept_switchMain divisor).bind fun _ => ?_
  exact Steps.ite (fun _ => steps_pllKept_switchSpifi _) fun _ => steps_pure () fun _ set => set

end Pll

section Asleep
variable {halm : Halm} {externalOsc systemPll : Bool} {mainPath : List ClockName}
  {paths more : List (List ClockName)} {good : Change → Prop}

theorem Running.anyPaths {clocks : Clocks}
    (running : Running False externalOsc systemPll mainPath paths clocks) :
    Running False externalOsc systemPll mainPath more clocks :=
  ⟨running.sources, running.main, fun never => never.elim⟩

theorem steps_settings_refused {before : Clocks → Prop} (loaded : Bool)
    (enough : ∀ clocks, before clocks → Running False false false mainPath paths clocks) :
    Steps before good (clockSettingsLoaded halm loaded) fun settings clocks =>
      before clocks ∧ settings = false := by
  refine (steps_ready .externalOsc).bind fun externalReady => ?_
  refine (steps_ready .systemPll).bind fun pllReady => steps_pure _ fun clocks holds => ?_
  have notReady : externalReady = false :=
    holds.1.2.symm.trans (enough clocks holds.1.1).sources.ready_external
  exact ⟨holds.1.1, by rw [notReady, Bool.and_false, Bool.false_and]⟩

/-- From the reset clocks the set-up is done in full. -/
theorem steps_wake (loaded : Bool) (divisor multiplier : Nat) :
    Steps (Running False false false [.internalOsc] []) (fun change => Smooth False change ∧ True)
      (boardSetupClockPllGeneric halm loaded divisor multiplier) fun _ clocks =>
        Running False true true [.systemPll, .externalOsc] spifiPaths clocks ∧
          PllSet (some (pllConfig divisor
            (if multiplier = 0 then maxCoreFrequency / extOscFrequency else multiplier)))
            clocks := by
  refine (steps_settings_refused loaded fun _ running => running).bind fun settings => ?_
  refine (steps_ready .spifiClock).bind fun spifiClockEnabled =>
    Steps.ite (fun isTrue => ?_) fun _ => ?_
  · rintro session ⟨⟨⟨_, refused⟩, _⟩, _⟩
    exact absurd (refused.symm.trans isTrue) (by decide)
  · have sources (final : Nat) : Steps (Running False false false [.internalOsc]
        (if spifiClockEnabled then spifiPaths else [])) (Smooth False)
        (startPll halm spifiClockEnabled divisor final)
        fun _ => Running False true true [.systemPll, .externalOsc] spifiPaths :=
      steps_startPll spifiClockEnabled divisor final
    refine ((sources _).and (steps_startPll_config spifiClockEnabled divisor _)).weaken ?_
      fun _ _ both => both
    exact fun clocks holds => ⟨holds.1.1.anyPaths, trivial⟩

theorem steps_sleep :
    Steps (Settled False) (Smooth False) (board halm .resetClock)
      fun _ => Running False false false [.internalOsc] [] := by
  refine Steps.of_cases (fun position : Bool × Bool × List ClockName =>
    Running False position.1 position.2.1 position.2.2 []) ?_
    fun position => steps_boardResetClock (List.nil_subset _)
  rintro clocks ⟨externalOsc, systemPll, mainPath, _, running⟩
  exact ⟨⟨externalOsc, systemPll, mainPath⟩, running.anyPaths⟩

end Asleep

theorem run_settled {halm : Halm} (calls : List Call) (clocks final : Clocks)
    (settled : Settled False clocks) (done : run (step halm) calls clocks = some final) :
    Settled False final :=
  run_invariant (step halm) (Settled False)
    (fun _ _ _ settled taken => settled_next settled (fun _ never => never.elim) taken)
    calls clocks final settled done

/-- Whatever was set up before: the chip goes to sleep on the internal oscillator alone, and
wakes up on a PLL that is locked to the crystal and configured as asked for, whether old
settings are found or not. -/
theorem sleep_and_wake (halm : Halm) (calls : List Call) (start asleep awake : Clocks)
    (booted : Booted start) (slept : run (step halm) (calls ++ [.resetClock]) start = some asleep)
    (loaded : Bool) (divisor multiplier : Nat)
    (woken : step halm asleep (.setupClockPllGeneric loaded divisor multiplier) = some awake) :
    (feeds asleep .mainClock = some (some .internalOsc) ∧ asleep .externalOsc = none ∧
      asleep .systemPll = none) ∧
    (feeds awake .mainClock = some (some .systemPll) ∧ Alive (feeds awake) .mainClock ∧
      awake .systemPll = some (pllConfig divisor
        (if multiplier = 0 then maxCoreFrequency / extOscFrequency else multiplier))) := by
  rw [run_append] at slept
  obtain ⟨before, done, reset⟩ := Option.bind_eq_some_iff.mp slept
  have settled := run_settled calls start before (booted.settled fun never => never.elim) done
  have taken : step halm before .resetClock = some asleep := by
    simp only [run] at reset
    cases returned : step halm before .resetClock with
    | none => rw [returned] at reset; cases reset
    | some next => rw [returned] at reset; exact reset
  have quiet := Steps.returned steps_sleep settled taken
  have wake : Steps (Running False false false [.internalOsc] [])
      (fun change => Smooth False change ∧ True)
      (board halm (.setupClockPllGeneric loaded divisor multiplier)) fun _ clocks =>
        Running False true true [.systemPll, .externalOsc] spifiPaths clocks ∧
          PllSet (some (pllConfig divisor
            (if multiplier = 0 then maxCoreFrequency / extOscFrequency else multiplier))) clocks :=
    steps_wake loaded divisor multiplier
  obtain ⟨running, configured⟩ := wake.returned quiet woken
  refine ⟨⟨quiet.main.1, ?_, ?_⟩, running.main.1, running.main.alive, configured⟩
  · exact Option.map_eq_none_iff.mp quiet.sources.external
  · exact Option.map_eq_none_iff.mp quiet.sources.pll

theorem sleep_and_wake_flash :
    ∃ asleep awake,
      run (step promptHalm) ([.setupClockPll true] ++ [.resetClock]) flashBoot = some asleep ∧
        step promptHalm asleep (.setupClockPllGeneric true 1 0) = some awake ∧
        feeds awake .mainClock = some (some .systemPll) := by
  have returned : ((run (step promptHalm) ([.setupClockPll true] ++ [.resetClock]) flashBoot).bind
      fun asleep => step promptHalm asleep (.setupClockPllGeneric true 1 0)).isSome = true := rfl
  obtain ⟨awake, both⟩ := Option.isSome_iff_exists.mp returned
  obtain ⟨asleep, slept, woken⟩ := Option.bind_eq_some_iff.mp both
  exact ⟨asleep, awake, slept, woken, (sleep_and_wake promptHalm [.setupClockPll true] flashBoot
    asleep awake flashBoot_booted slept true 1 0 woken).2.1⟩

end HalmExamples.Clock.Network
