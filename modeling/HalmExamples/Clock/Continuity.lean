import HalmExamples.Clock.Peripherals
import HalmExamples.Foundation.Schedule

/-!
# The clocks that must not stop

The processor runs from the main clock, and from the NOR Flash if the program is stored
there.  The path that feeds each of the two is followed through the set-up functions: a
clock is reconfigured only after the paths have been led around it.
-/

set_option autoImplicit false

namespace HalmExamples.Clock.Network

open Foundation Foundation.Attempt Foundation.Supply Foundation.Schedule

/-! ## Conditions on a change -/

/-- The main clock runs before and after, and what it runs from is not touched. -/
def MainKept (change : Change) : Prop :=
  Alive (feeds change.before) .mainClock ∧ Alive (feeds change.after) .mainClock ∧
    (change.name = .mainClock ∨ ¬ Uses (feeds change.before) .mainClock change.name)

def SpifiRuns (clocks : Clocks) : Prop :=
  feeds clocks .spifiClock ≠ none → Alive (feeds clocks) .spifiClock

def Smooth (flash : Prop) (change : Change) : Prop :=
  MainKept change ∧ (flash → SpifiRuns change.after)

theorem feeds_update (clocks : Clocks) (name : ClockName) (config : Option ClockConfig) :
    feeds (Function.update clocks name config) =
      Function.update (feeds clocks) name (config.map ClockConfig.source) := by
  funext other
  by_cases same : other = name
  · subst same
    simp only [feeds, Function.update_self]
  · simp only [feeds, Function.update_of_ne same]

/-! ## The core -/

structure Sources (externalOsc systemPll : Bool) (clocks : Clocks) : Prop where
  internal : feeds clocks .internalOsc = some none
  external : feeds clocks .externalOsc = if externalOsc then some none else none
  pll : feeds clocks .systemPll = if systemPll then some (some .externalOsc) else none
  locked : systemPll = true → externalOsc = true

/-- What feeds the main clock, and what may feed the SPIFI clock unless it is off. -/
structure Running (flash : Prop) (externalOsc systemPll : Bool) (mainPath : List ClockName)
    (spifiPaths : List (List ClockName)) (clocks : Clocks) : Prop where
  sources : Sources externalOsc systemPll clocks
  main : Chain (feeds clocks) .mainClock mainPath
  spifi : flash → feeds clocks .spifiClock = none ∨
    ∃ path ∈ spifiPaths, Chain (feeds clocks) .spifiClock path

section Core
variable {flash : Prop} {clocks : Clocks} {externalOsc systemPll : Bool}
  {mainPath : List ClockName} {paths : List (List ClockName)}

theorem Sources.external_on (sources : Sources true systemPll clocks) :
    Chain (feeds clocks) .externalOsc [] :=
  sources.external

theorem Sources.pll_on (sources : Sources true true clocks) :
    Chain (feeds clocks) .systemPll [.externalOsc] :=
  ⟨sources.pll, sources.external⟩

theorem Sources.update (sources : Sources externalOsc systemPll clocks) (name : ClockName)
    (config : Option ClockConfig) (other : name ∉ [.internalOsc, .externalOsc, .systemPll]) :
    Sources externalOsc systemPll (Function.update clocks name config) where
  internal := by
    rw [feeds_update, Function.update_of_ne (fun same => other (by simp [← same]))]
    exact sources.internal
  external := by
    rw [feeds_update, Function.update_of_ne (fun same => other (by simp [← same]))]
    exact sources.external
  pll := by
    rw [feeds_update, Function.update_of_ne (fun same => other (by simp [← same]))]
    exact sources.pll
  locked := sources.locked

theorem Sources.enableExternal (sources : Sources externalOsc systemPll clocks) :
    Sources true systemPll (Function.update clocks .externalOsc (some oscillator)) where
  internal := by
    rw [feeds_update, Function.update_of_ne (by decide)]
    exact sources.internal
  external := by
    rw [feeds_update, Function.update_self]
    rfl
  pll := by
    rw [feeds_update, Function.update_of_ne (by decide)]
    exact sources.pll
  locked := fun _ => rfl

theorem Sources.disableExternal (sources : Sources externalOsc false clocks) :
    Sources false false (Function.update clocks .externalOsc none) where
  internal := by
    rw [feeds_update, Function.update_of_ne (by decide)]
    exact sources.internal
  external := by
    rw [feeds_update, Function.update_self]
    rfl
  pll := by
    rw [feeds_update, Function.update_of_ne (by decide)]
    exact sources.pll
  locked := fun on => on

theorem Sources.updatePll (sources : Sources externalOsc systemPll clocks) (on : Bool)
    (config : Option ClockConfig) (external : on = true → externalOsc = true)
    (fed : config.map ClockConfig.source = if on then some (some .externalOsc) else none) :
    Sources externalOsc on (Function.update clocks .systemPll config) where
  internal := by
    rw [feeds_update, Function.update_of_ne (by decide)]
    exact sources.internal
  external := by
    rw [feeds_update, Function.update_of_ne (by decide)]
    exact sources.external
  pll := by
    rw [feeds_update, Function.update_self]
    exact fed
  locked := external

theorem Running.smooth {externalAfter pllAfter : Bool} {mainAfter : List ClockName}
    {pathsAfter : List (List ClockName)} {name : ClockName} {config : Option ClockConfig}
    (running : Running flash externalOsc systemPll mainPath paths clocks)
    (after : Running flash externalAfter pllAfter mainAfter pathsAfter
      (Function.update clocks name config))
    (touched : name = .mainClock ∨ name ∉ ClockName.mainClock :: mainPath) :
    Smooth flash ⟨clocks, name, config⟩ := by
  refine ⟨⟨running.main.alive, after.main.alive, touched.imp id fun unused uses => ?_⟩,
    fun holds on => ?_⟩
  · exact unused (running.main.uses_iff.mp uses)
  · rcases after.spifi holds with off | ⟨path, _, chain⟩
    · exact absurd off on
    · exact chain.alive

theorem Running.spifi_update (running : Running flash externalOsc systemPll mainPath paths clocks)
    (name : ClockName) (config : Option ClockConfig)
    (spifi : ∀ path ∈ paths, name ∉ ClockName.spifiClock :: path) (other : name ≠ .spifiClock)
    (holds : flash) :
    feeds (Function.update clocks name config) .spifiClock = none ∨
      ∃ path ∈ paths, Chain (feeds (Function.update clocks name config)) .spifiClock path := by
  rw [feeds_update, Function.update_of_ne (Ne.symm other)]
  refine (running.spifi holds).imp id ?_
  rintro ⟨path, member, chain⟩
  exact ⟨path, member, chain.update _ (spifi path member)⟩

theorem Running.update {externalAfter pllAfter : Bool}
    (running : Running flash externalOsc systemPll mainPath paths clocks) (name : ClockName)
    (config : Option ClockConfig)
    (sources : Sources externalAfter pllAfter (Function.update clocks name config))
    (main : name ∉ ClockName.mainClock :: mainPath)
    (spifi : ∀ path ∈ paths, name ∉ ClockName.spifiClock :: path)
    (other : name ≠ .spifiClock) :
    Smooth flash ⟨clocks, name, config⟩ ∧
      Running flash externalAfter pllAfter mainPath paths (Function.update clocks name config) := by
  have after : Running flash externalAfter pllAfter mainPath paths
      (Function.update clocks name config) := by
    refine ⟨sources, ?_, running.spifi_update name config spifi other⟩
    rw [feeds_update]
    exact running.main.update _ main
  exact ⟨running.smooth after (Or.inr main), after⟩

theorem Running.switchMain (running : Running flash externalOsc systemPll mainPath paths clocks)
    (source : ClockName) (path : List ClockName) (chain : Chain (feeds clocks) source path)
    (main : ClockName.mainClock ∉ source :: path)
    (spifi : ∀ path ∈ paths, ClockName.mainClock ∉ ClockName.spifiClock :: path) :
    Smooth flash ⟨clocks, .mainClock, some (generic source)⟩ ∧
      Running flash externalOsc systemPll (source :: path) paths
        (Function.update clocks .mainClock (some (generic source))) := by
  have after : Running flash externalOsc systemPll (source :: path) paths
      (Function.update clocks .mainClock (some (generic source))) := by
    refine ⟨running.sources.update _ _ (by decide), ?_, running.spifi_update _ _ spifi (by decide)⟩
    rw [feeds_update]
    exact chain.enable main
  exact ⟨running.smooth after (Or.inl rfl), after⟩

theorem Running.switchSpifi (running : Running flash externalOsc systemPll mainPath paths clocks)
    (source : ClockName) (path : List ClockName) (chain : Chain (feeds clocks) source path)
    (spifi : ClockName.spifiClock ∉ source :: path)
    (main : ClockName.spifiClock ∉ ClockName.mainClock :: mainPath) :
    Smooth flash ⟨clocks, .spifiClock, some (generic source)⟩ ∧
      Running flash externalOsc systemPll mainPath [source :: path]
        (Function.update clocks .spifiClock (some (generic source))) := by
  have after : Running flash externalOsc systemPll mainPath [source :: path]
      (Function.update clocks .spifiClock (some (generic source))) := by
    refine ⟨running.sources.update _ _ (by decide), ?_, fun _ => Or.inr ⟨source :: path, ?_, ?_⟩⟩
    · rw [feeds_update]
      exact running.main.update _ main
    · exact List.mem_singleton_self _
    · rw [feeds_update]
      exact chain.enable spifi
  exact ⟨running.smooth after (Or.inr main), after⟩

end Core

/-! ## Statements -/

section Statements
variable {halm : Halm} {flash : Prop} {externalOsc systemPll : Bool} {mainPath : List ClockName}
  {paths : List (List ClockName)} {before : Clocks → Prop}

theorem steps_switchMain (source : ClockName) (path : List ClockName)
    (enough : ∀ clocks, before clocks → Running flash externalOsc systemPll mainPath paths clocks)
    (chain : ∀ clocks, before clocks → Chain (feeds clocks) source path)
    (main : ClockName.mainClock ∉ source :: path)
    (spifi : ∀ path ∈ paths, ClockName.mainClock ∉ ClockName.spifiClock :: path) :
    Steps before (Smooth flash) (clockEnable .mainClock (generic source))
      fun _ => Running flash externalOsc systemPll (source :: path) paths :=
  steps_change .mainClock (some (generic source)) fun clocks holds =>
    (enough clocks holds).switchMain source path (chain clocks holds) main spifi

def spifiAt (spifiClockEnabled : Bool) (path : List ClockName) : List (List ClockName) :=
  if spifiClockEnabled then [path] else []

theorem avoids_spifiAt {name : ClockName} (spifiClockEnabled : Bool) {path : List ClockName}
    (avoids : name ∉ ClockName.spifiClock :: path) :
    ∀ other ∈ spifiAt spifiClockEnabled path, name ∉ ClockName.spifiClock :: other := by
  intro other member
  cases spifiClockEnabled with
  | true => exact List.mem_singleton.mp member ▸ avoids
  | false => cases member

theorem steps_switchSpifi (spifiClockEnabled : Bool) (source : ClockName) (path : List ClockName)
    (enough : ∀ clocks, before clocks → Running flash externalOsc systemPll mainPath paths clocks)
    (chain : ∀ clocks, before clocks → Chain (feeds clocks) source path)
    (spifi : ClockName.spifiClock ∉ source :: path)
    (main : ClockName.spifiClock ∉ ClockName.mainClock :: mainPath)
    (off : spifiClockEnabled = false → paths = []) :
    Steps before (Smooth flash) (switchSpifi spifiClockEnabled source)
      fun _ => Running flash externalOsc systemPll mainPath
        (spifiAt spifiClockEnabled (source :: path)) := by
  cases spifiClockEnabled with
  | true =>
      exact steps_change .spifiClock (some (generic source)) fun clocks holds =>
        (enough clocks holds).switchSpifi source path (chain clocks holds) spifi main
  | false =>
      refine steps_pure () fun clocks holds => ?_
      have running := enough clocks holds
      have spifiOff := running.spifi
      rw [off rfl] at spifiOff
      exact ⟨running.sources, running.main, spifiOff⟩

theorem steps_enableExternal (main : ClockName.externalOsc ∉ ClockName.mainClock :: mainPath)
    (spifi : ∀ path ∈ paths, ClockName.externalOsc ∉ ClockName.spifiClock :: path) :
    Steps (Running flash externalOsc systemPll mainPath paths) (Smooth flash)
      (clockEnable .externalOsc oscillator)
      fun _ => Running flash true systemPll mainPath paths :=
  steps_change .externalOsc (some oscillator) fun _ running =>
    running.update .externalOsc (some oscillator) running.sources.enableExternal main spifi
      (by decide)

theorem steps_enablePll (divisor multiplier : Nat) (external : externalOsc = true)
    (main : ClockName.systemPll ∉ ClockName.mainClock :: mainPath)
    (spifi : ∀ path ∈ paths, ClockName.systemPll ∉ ClockName.spifiClock :: path) :
    Steps (Running flash externalOsc systemPll mainPath paths) (Smooth flash)
      (clockEnable .systemPll
        { source := some .externalOsc, multiplier := multiplier, divisor := divisor })
      fun _ => Running flash externalOsc true mainPath paths :=
  steps_change .systemPll _ fun _ running =>
    running.update .systemPll _ (running.sources.updatePll true _ (fun _ => external) rfl) main
      spifi (by decide)

theorem steps_other (name : ClockName) (config : Option ClockConfig)
    (other : name ∉ [.internalOsc, .externalOsc, .systemPll, .spifiClock])
    (main : name ∉ ClockName.mainClock :: mainPath)
    (spifi : ∀ path ∈ paths, name ∉ ClockName.spifiClock :: path)
    (enough : ∀ clocks, before clocks → Running flash externalOsc systemPll mainPath paths clocks) :
    Steps before (Smooth flash) (change name config) fun _ clocks =>
      Running flash externalOsc systemPll mainPath paths clocks ∧
        feeds clocks name = config.map ClockConfig.source := by
  refine steps_change name config fun clocks holds => ?_
  obtain ⟨smooth, running⟩ := (enough clocks holds).update name config
    ((enough clocks holds).sources.update name config fun member => other (by
      rw [List.mem_cons, List.mem_cons, List.mem_singleton] at member
      simpa only [List.mem_cons, List.not_mem_nil, or_false] using
        member.imp id (Or.imp id Or.inl))) main spifi (fun same => other (by simp [same]))
  refine ⟨smooth, running, ?_⟩
  rw [feeds_update, Function.update_self]

theorem Sources.ready_pll {clocks : Clocks} {externalOsc systemPll : Bool}
    (sources : Sources externalOsc systemPll clocks) :
    halm.ready clocks .systemPll = systemPll := by
  cases systemPll with
  | true =>
      have external := sources.locked rfl
      subst external
      exact halm.ready_of_alive clocks .systemPll sources.pll_on.alive
  | false => exact halm.not_ready_of_off clocks .systemPll (Option.map_eq_none_iff.mp sources.pll)

theorem Sources.ready_external {clocks : Clocks} {externalOsc systemPll : Bool}
    (sources : Sources externalOsc systemPll clocks) :
    halm.ready clocks .externalOsc = externalOsc := by
  cases externalOsc with
  | true => exact halm.ready_of_alive clocks .externalOsc sources.external_on.alive
  | false =>
      exact halm.not_ready_of_off clocks .externalOsc (Option.map_eq_none_iff.mp sources.external)

theorem steps_disablePll (main : ClockName.systemPll ∉ ClockName.mainClock :: mainPath)
    (spifi : ∀ path ∈ paths, ClockName.systemPll ∉ ClockName.spifiClock :: path) :
    Steps (Running flash externalOsc systemPll mainPath paths) (Smooth flash)
      (disableReady halm .systemPll)
      fun _ => Running flash externalOsc false mainPath paths := by
  refine steps_disableReady .systemPll (fun clocks running _ => ?_)
    fun clocks running notReady => ?_
  · exact running.update .systemPll none
      (running.sources.updatePll false none (fun on => absurd on (by decide)) rfl) main spifi
      (by decide)
  · have off : systemPll = false := running.sources.ready_pll.symm.trans notReady
    exact ⟨off ▸ running.sources, running.main, running.spifi⟩

theorem steps_disableExternal (off : systemPll = false)
    (main : ClockName.externalOsc ∉ ClockName.mainClock :: mainPath)
    (spifi : ∀ path ∈ paths, ClockName.externalOsc ∉ ClockName.spifiClock :: path) :
    Steps (Running flash externalOsc systemPll mainPath paths) (Smooth flash)
      (disableReady halm .externalOsc)
      fun _ => Running flash false false mainPath paths := by
  refine steps_disableReady .externalOsc (fun clocks running _ => ?_)
    fun clocks running notReady => ?_
  · have sources := running.sources
    rw [off] at sources
    exact running.update .externalOsc none sources.disableExternal main spifi
      (by decide)
  · have outside : externalOsc = false := running.sources.ready_external.symm.trans notReady
    have sources := running.sources
    rw [outside, off] at sources
    exact ⟨sources, running.main, running.spifi⟩

end Statements

/-! ## Calls -/

def mainPaths : List (List ClockName) :=
  [[.internalOsc], [.externalOsc], [.systemPll, .externalOsc]]

def spifiPaths : List (List ClockName) :=
  [[.internalOsc], [.externalOsc], [.systemPll, .externalOsc],
    [.dividerD, .systemPll, .externalOsc]]

def Settled (flash : Prop) (clocks : Clocks) : Prop :=
  ∃ externalOsc systemPll mainPath,
    mainPath ∈ mainPaths ∧ Running flash externalOsc systemPll mainPath spifiPaths clocks

section Calls
variable {halm : Halm} {flash : Prop} {externalOsc systemPll : Bool} {mainPath : List ClockName}
  {paths : List (List ClockName)}

/-- What the peripherals change is nowhere on the paths. -/
theorem settled_harmless : Harmless halm (Settled flash) (Smooth flash) := by
  rintro clocks name config ⟨externalOsc, systemPll, mainPath, main, running⟩ change
  have apart {used : List ClockName} (within : used ⊆ core) : name ∉ used :=
    fun member => change.outside (within member)
  have mainWithin : ∀ path ∈ mainPaths, ClockName.mainClock :: path ⊆ core := by decide
  have spifiWithin : ∀ path ∈ spifiPaths, ClockName.spifiClock :: path ⊆ core := by decide
  have other : name ≠ .spifiClock := fun same => change.outside (by simp [same, core])
  obtain ⟨smooth, after⟩ := running.update name config
    (running.sources.update name config (apart (by decide))) (apart (mainWithin mainPath main))
    (fun path member => apart (spifiWithin path member)) other
  exact ⟨smooth, externalOsc, systemPll, mainPath, main, after⟩

theorem steps_clockSettingsLoaded {before : Clocks → Prop} (loaded : Bool) :
    Steps before (Smooth flash) (clockSettingsLoaded halm loaded) fun _ => before := by
  refine (steps_ready .externalOsc).bind fun _ => (steps_ready .systemPll).bind fun _ => ?_
  exact steps_pure _ fun _ holds => holds.1.1

theorem Running.weaken {clocks : Clocks} {more : List (List ClockName)}
    (running : Running flash externalOsc systemPll mainPath paths clocks) (subset : paths ⊆ more) :
    Running flash externalOsc systemPll mainPath more clocks := by
  refine ⟨running.sources, running.main, fun holds => (running.spifi holds).imp id ?_⟩
  rintro ⟨path, member, chain⟩
  exact ⟨path, subset member, chain⟩

/-- A SPIFI clock that is not ready is off. -/
theorem Running.spifi_ready {clocks : Clocks}
    (running : Running flash externalOsc systemPll mainPath paths clocks)
    (notReady : halm.ready clocks .spifiClock = false) :
    Running flash externalOsc systemPll mainPath [] clocks := by
  refine ⟨running.sources, running.main, fun holds => Or.inl ?_⟩
  rcases running.spifi holds with off | ⟨path, _, chain⟩
  · exact off
  · exact absurd (halm.ready_of_alive clocks .spifiClock chain.alive) (by simp [notReady])

/-- Which paths the SPIFI clock may be on when it is known whether it is on. -/
theorem settled_spifi {clocks : Clocks} (settled : Settled flash clocks)
    (spifiClockEnabled : Bool) (ready : halm.ready clocks .spifiClock = spifiClockEnabled) :
    ∃ position : Bool × Bool × List ClockName,
      Running flash position.1 position.2.1 position.2.2
        (if spifiClockEnabled then spifiPaths else []) clocks := by
  obtain ⟨externalOsc, systemPll, mainPath, _, running⟩ := settled
  cases spifiClockEnabled with
  | true => exact ⟨⟨externalOsc, systemPll, mainPath⟩, running⟩
  | false => exact ⟨⟨externalOsc, systemPll, mainPath⟩, running.spifi_ready ready⟩

theorem avoids_enabled {name : ClockName} (spifiClockEnabled : Bool)
    (avoids : ∀ path ∈ spifiPaths, name ∉ ClockName.spifiClock :: path) :
    ∀ path ∈ (if spifiClockEnabled then spifiPaths else []),
      name ∉ ClockName.spifiClock :: path := by
  intro path member
  cases spifiClockEnabled with
  | true => exact avoids path member
  | false => cases member

theorem spifiAt_subset {path : List ClockName} (spifiClockEnabled : Bool)
    (known : path ∈ spifiPaths) : spifiAt spifiClockEnabled path ⊆ spifiPaths := by
  intro other member
  cases spifiClockEnabled with
  | true => exact List.mem_singleton.mp member ▸ known
  | false => cases member

theorem steps_toInternal {rest : Setup Unit} {after : Unit → Clocks → Prop}
    (spifiClockEnabled : Bool)
    (later : Steps (Running flash true systemPll [.internalOsc]
      (spifiAt spifiClockEnabled [.internalOsc])) (Smooth flash) rest after) :
    Steps (Running flash externalOsc systemPll mainPath
        (if spifiClockEnabled then spifiPaths else [])) (Smooth flash) (do
      clockEnable .mainClock (generic .internalOsc)
      switchSpifi spifiClockEnabled .internalOsc
      clockEnable .externalOsc oscillator
      waitReady halm .externalOsc
      rest) after := by
  refine Steps.bind (steps_switchMain .internalOsc [] (fun _ running => running)
    (fun _ running => running.sources.internal) (by decide) (avoids_enabled _ (by decide)))
    fun _ => ?_
  refine Steps.bind (steps_switchSpifi spifiClockEnabled .internalOsc [] (fun _ running => running)
    (fun _ running => running.sources.internal) (by decide) (by decide)
    (fun disabled => by rw [disabled]; rfl)) fun _ => ?_
  refine Steps.bind (steps_enableExternal (by decide) (avoids_spifiAt _ (by decide))) fun _ => ?_
  exact (steps_waited .externalOsc).bind fun _ => later

theorem steps_startExternal (spifiClockEnabled : Bool) :
    Steps (Running flash externalOsc systemPll mainPath
        (if spifiClockEnabled then spifiPaths else [])) (Smooth flash)
      (startExternal halm spifiClockEnabled) fun _ => Settled flash := by
  refine steps_toInternal spifiClockEnabled ?_
  refine Steps.bind (steps_switchMain .externalOsc [] (fun _ running => running)
    (fun _ running => running.sources.external_on) (by decide) (avoids_spifiAt _ (by decide)))
    fun _ => ?_
  refine Steps.bind (steps_switchSpifi spifiClockEnabled .externalOsc [] (fun _ running => running)
    (fun _ running => running.sources.external_on) (by decide) (by decide)
    (fun disabled => by rw [disabled]; rfl)) fun _ => ?_
  refine (steps_disablePll (by decide) (avoids_spifiAt _ (by decide))).weaken
    (fun _ running => running) fun _ _ running => ?_
  exact ⟨true, false, [.externalOsc], by decide,
    running.weaken (spifiAt_subset _ (by decide))⟩

/-- The settings are trusted, or the sources are set up anew. -/
theorem steps_setup (loaded : Bool) {setup : Bool → Setup Unit}
    (steps : ∀ spifiClockEnabled externalOsc systemPll mainPath,
      Steps (Running flash externalOsc systemPll mainPath
        (if spifiClockEnabled then spifiPaths else [])) (Smooth flash)
        (setup spifiClockEnabled) fun _ => Settled flash) :
    Steps (Settled flash) (Smooth flash) (do
      let settings ← clockSettingsLoaded halm loaded
      let spifiClockEnabled ← clockReady halm .spifiClock
      if settings then pure () else setup spifiClockEnabled) fun _ => Settled flash := by
  refine (steps_clockSettingsLoaded loaded).bind fun settings => ?_
  refine (steps_ready .spifiClock).bind fun spifiClockEnabled => Steps.ite (fun _ => ?_) fun _ => ?_
  · exact steps_pure () fun _ holds => holds.1
  · exact Steps.of_cases _ (fun clocks holds => settled_spifi holds.1 spifiClockEnabled holds.2)
      fun position => steps spifiClockEnabled position.1 position.2.1 position.2.2

theorem steps_switchMainToPll (divisor : Nat)
    (main : ClockName.dividerA ∉ ClockName.mainClock :: mainPath)
    (spifi : ∀ path ∈ paths, ClockName.dividerA ∉ ClockName.spifiClock :: path)
    (branch : ∀ path ∈ paths, ClockName.mainClock ∉ ClockName.spifiClock :: path) :
    Steps (Running flash true true mainPath paths) (Smooth flash) (switchMainToPll halm divisor)
      fun _ => Running flash true true [.systemPll, .externalOsc] paths := by
  refine Steps.ite (fun _ => ?_) fun _ => ?_
  · refine Steps.bind (steps_other .dividerA _ (by decide) main spifi fun _ running => running)
      fun _ => ?_
    refine (steps_waited .dividerA).bind fun _ => ?_
    refine Steps.bind (steps_switchMain .dividerA [.systemPll, .externalOsc]
      (fun _ holds => holds.1) (fun _ holds => ⟨holds.2, holds.1.sources.pll_on⟩) (by decide)
      branch) fun _ => ?_
    refine Steps.bind (steps_switchMain .systemPll [.externalOsc] (fun _ running => running)
      (fun _ running => running.sources.pll_on) (by decide) branch) fun _ => ?_
    exact (steps_other .dividerA none (by decide) (by decide) spifi
      fun _ running => running).weaken (fun _ running => running) fun _ _ holds => holds.1
  · exact steps_switchMain .systemPll [.externalOsc] (fun _ running => running)
      (fun _ running => running.sources.pll_on) (by decide) branch

/-- A path over divider D has it fed by the PLL already. -/
theorem Running.refeedDividerD {clocks : Clocks} (divisor : Nat)
    (running : Running flash true true mainPath spifiPaths clocks)
    (main : ClockName.dividerD ∉ ClockName.mainClock :: mainPath) :
    Smooth flash ⟨clocks, .dividerD, some (divided divisor .systemPll)⟩ ∧
      Running flash true true mainPath spifiPaths
        (Function.update clocks .dividerD (some (divided divisor .systemPll))) := by
  have leading : ∀ path ∈ spifiPaths, ClockName.dividerD ∈ ClockName.spifiClock :: path →
      path = [.dividerD, .systemPll, .externalOsc] := by decide
  have after : Running flash true true mainPath spifiPaths
      (Function.update clocks .dividerD (some (divided divisor .systemPll))) := by
    refine ⟨running.sources.update _ _ (by decide), ?_, fun holds => ?_⟩
    · rw [feeds_update]
      exact running.main.update _ main
    rw [feeds_update, Function.update_of_ne (by decide)]
    refine (running.spifi holds).imp id ?_
    rintro ⟨path, member, chain⟩
    refine ⟨path, member, ?_⟩
    by_cases divided : ClockName.dividerD ∈ ClockName.spifiClock :: path
    · have last := leading path member divided
      subst last
      have same :
          Function.update (feeds clocks) .dividerD (some (some .systemPll)) = feeds clocks :=
        Function.update_eq_self_iff.mpr chain.2.1.symm
      exact same.symm ▸ chain
    · exact chain.update _ divided
  exact ⟨running.smooth after (Or.inr main), after⟩

theorem steps_switchSpifiToPll (frequency : Nat) (main : ∀ name ∈ [ClockName.dividerD, .spifiClock],
      name ∉ ClockName.mainClock :: mainPath) :
    Steps (Running flash true true mainPath spifiPaths) (Smooth flash)
      (switchSpifiToPll halm frequency) fun _ => Running flash true true mainPath spifiPaths := by
  have mainSpifi := main .spifiClock (by decide)
  refine Steps.ite (fun _ => ?_) fun _ => ?_
  · refine Steps.seq (fun clocks => Running flash true true mainPath spifiPaths clocks ∧
      feeds clocks .dividerD = some (some .systemPll)) (steps_change .dividerD _ ?_) ?_
    · intro clocks running
      obtain ⟨smooth, after⟩ := running.refeedDividerD _ (main .dividerD (by decide))
      refine ⟨smooth, after, ?_⟩
      rw [feeds_update, Function.update_self]
      rfl
    refine (steps_waited .dividerD).bind fun _ => ?_
    refine Steps.weaken (steps_change .spifiClock _ fun clocks holds =>
      holds.1.switchSpifi .dividerD [.systemPll, .externalOsc]
        ⟨holds.2, holds.1.sources.pll_on⟩ (by decide) mainSpifi) (fun _ holds => holds) ?_
    exact fun _ _ running => running.weaken (by decide)
  · refine Steps.weaken (steps_change .spifiClock _ fun clocks running =>
      running.switchSpifi .systemPll [.externalOsc] running.sources.pll_on (by decide) mainSpifi)
      (fun _ running => running) ?_
    exact fun _ _ running => running.weaken (by decide)

theorem steps_startPll (spifiClockEnabled : Bool) (divisor multiplier : Nat) :
    Steps (Running flash externalOsc systemPll mainPath
        (if spifiClockEnabled then spifiPaths else [])) (Smooth flash)
      (startPll halm spifiClockEnabled divisor multiplier)
      fun _ => Running flash true true [.systemPll, .externalOsc] spifiPaths := by
  refine steps_toInternal spifiClockEnabled ?_
  refine Steps.bind (steps_enablePll divisor multiplier rfl (by decide)
    (avoids_spifiAt _ (by decide))) fun _ => ?_
  refine (steps_waited .systemPll).bind fun _ => ?_
  refine Steps.bind (steps_switchMainToPll divisor (by decide) (avoids_spifiAt _ (by decide))
    (avoids_spifiAt _ (by decide))) fun _ => ?_
  have known : spifiAt spifiClockEnabled [.internalOsc] ⊆ spifiPaths := spifiAt_subset _ (by decide)
  have spifi (frequency : Nat) :
      Steps (Running flash true true [.systemPll, .externalOsc] spifiPaths) (Smooth flash)
        (if spifiClockEnabled then switchSpifiToPll halm frequency else pure ())
        fun _ => Running flash true true [.systemPll, .externalOsc] spifiPaths :=
    Steps.ite (fun _ => steps_switchSpifiToPll frequency (by decide))
      fun _ => steps_pure () fun _ running => running
  exact (spifi _).weaken (fun _ running => running.weaken known) fun _ _ running => running

theorem steps_boardSetupClockPllGeneric (loaded : Bool) (divisor multiplier : Nat) :
    Steps (Settled flash) (Smooth flash) (boardSetupClockPllGeneric halm loaded divisor multiplier)
      fun _ => Settled flash :=
  steps_setup loaded fun spifiClockEnabled _ _ _ =>
    (steps_startPll spifiClockEnabled divisor _).weaken (fun _ running => running)
      fun _ _ running => ⟨true, true, _, by decide, running⟩

theorem steps_boardSetupClockPllCustom (loaded : Bool) (frequency : Nat) :
    Steps (Settled flash) (Smooth flash) (boardSetupClockPllCustom halm loaded frequency)
      fun _ => Settled flash := by
  unfold boardSetupClockPllCustom
  cases findPllConfig extOscFrequency frequency 2 (maxCoreFrequency / extOscFrequency) with
  | some choice => exact steps_boardSetupClockPllGeneric loaded choice.div choice.mul
  | none => exact fun _ kept => kept.2

theorem steps_boardResetClock (internal : paths ⊆ [[.internalOsc]]) :
    Steps (Running flash externalOsc systemPll mainPath paths) (Smooth flash)
      (boardResetClock halm) fun _ => Running flash false false [.internalOsc] paths := by
  have avoids {name : ClockName} (apart : name ∉ [ClockName.spifiClock, .internalOsc]) :
      ∀ path ∈ paths, name ∉ ClockName.spifiClock :: path := by
    intro path member
    rw [List.mem_singleton.mp (internal member)]
    exact apart
  have other (name : ClockName) (outside : name = .audioPll ∨ name = .usbPll) :
      Steps (Running flash externalOsc systemPll [.internalOsc] paths) (Smooth flash)
        (disableReady halm name)
        fun _ => Running flash externalOsc systemPll [.internalOsc] paths := by
    refine steps_disableReady name (fun clocks running _ => ?_) fun _ running _ => running
    refine running.update name none (running.sources.update name none ?_) ?_ (avoids ?_) ?_ <;>
      rcases outside with rfl | rfl <;> decide
  refine Steps.bind (steps_switchMain .internalOsc [] (fun _ running => running)
    (fun _ running => running.sources.internal) (by decide) (avoids (by decide))) fun _ => ?_
  refine (other .audioPll (Or.inl rfl)).bind fun _ => ?_
  refine (other .usbPll (Or.inr rfl)).bind fun _ => ?_
  refine (steps_disablePll (by decide) (avoids (by decide))).bind fun _ => ?_
  exact steps_disableExternal rfl (by decide) (avoids (by decide))

theorem main_avoids_spifi :
    ∀ path ∈ mainPaths, ∀ name ∈ [ClockName.dividerD, .spifiClock],
      name ∉ ClockName.mainClock :: path := by
  decide

theorem steps_boardSetupSpim :
    Steps (Settled flash) (Smooth flash) (boardSetupSpim halm) fun _ => Settled flash := by
  refine (steps_ready .systemPll).bind fun pllReady => ?_
  refine (steps_ready .externalOsc).bind fun externalReady =>
    Steps.ite (fun isReady => ?_) fun _ => ?_
  · rintro session ⟨⟨⟨⟨externalOsc, systemPll, mainPath, main, running⟩, ready⟩, _⟩, smooth⟩
    have pllOn : systemPll = true := running.sources.ready_pll.symm.trans (ready.trans isReady)
    subst pllOn
    have externalOn := running.sources.locked rfl
    subst externalOn
    refine Steps.weaken (steps_switchSpifiToPll _ (main_avoids_spifi mainPath main))
      (fun _ running => running) (fun _ _ running => ?_) session ⟨running, smooth⟩
    exact ⟨true, true, mainPath, main, running⟩
  · refine Steps.seq (Settled flash) (steps_change .spifiClock _ ?_) (steps_waited .spifiClock)
    rintro clocks ⟨⟨⟨externalOsc, systemPll, mainPath, main, running⟩, _⟩, ready⟩
    have apart := main_avoids_spifi mainPath main .spifiClock (by decide)
    cases externalReady with
    | true =>
        have externalOn : externalOsc = true := running.sources.ready_external.symm.trans ready
        subst externalOn
        obtain ⟨smooth, after⟩ := running.switchSpifi .externalOsc [] running.sources.external_on
          (by decide) apart
        exact ⟨smooth, true, systemPll, mainPath, main, after.weaken (by decide)⟩
    | false =>
        obtain ⟨smooth, after⟩ := running.switchSpifi .internalOsc [] running.sources.internal
          (by decide) apart
        exact ⟨smooth, externalOsc, systemPll, mainPath, main, after.weaken (by decide)⟩

/-- Every call but `boardResetClock` keeps what it needs itself. -/
theorem steps_board (call : Call) (noReset : call ≠ .resetClock) :
    Steps (Settled flash) (Smooth flash) (board halm call) fun _ => Settled flash := by
  cases call with
  | setupClockExt loaded =>
      exact steps_setup loaded fun enabled _ _ _ => steps_startExternal enabled
  | setupClockPll loaded => exact steps_boardSetupClockPllGeneric loaded _ _
  | setupClockPllGeneric loaded divisor multiplier =>
      exact steps_boardSetupClockPllGeneric loaded divisor multiplier
  | setupClockPllCustom loaded frequency => exact steps_boardSetupClockPllCustom loaded frequency
  | resetClock => exact absurd rfl noReset
  | setupSpim => exact steps_boardSetupSpim
  | setupPeripheral _ | setupCan | setupUsb0 | setupUsb1 | setupSdio | setupEthernet
  | setupClockOutput _ => exact settled_harmless.call _ rfl

def SpifiApart (clocks : Clocks) : Prop :=
  feeds clocks .spifiClock = none ∨ feeds clocks .spifiClock = some (some .internalOsc)

theorem steps_reset :
    Steps (fun clocks => Settled flash clocks ∧ (flash → SpifiApart clocks)) (Smooth flash)
      (boardResetClock halm) fun _ => Settled flash := by
  refine Steps.of_cases (fun position : Bool × Bool × List ClockName =>
    Running flash position.1 position.2.1 position.2.2 [[.internalOsc]]) ?_ fun position => ?_
  · rintro clocks ⟨⟨externalOsc, systemPll, mainPath, _, running⟩, apart⟩
    refine ⟨⟨externalOsc, systemPll, mainPath⟩, running.sources, running.main, fun holds => ?_⟩
    refine (apart holds).imp id fun fed => ⟨[.internalOsc], List.mem_singleton_self _, fed, ?_⟩
    exact running.sources.internal
  · refine (steps_boardResetClock (List.Subset.refl _)).weaken (fun _ running => running)
      fun _ _ running => ⟨false, false, [.internalOsc], by decide, running.weaken (by decide)⟩

end Calls

theorem steps_board_reset (halm : Halm) (flash : Prop) :
    Steps (fun clocks => Settled flash clocks ∧ (flash → SpifiApart clocks)) (Smooth flash)
      (board halm .resetClock) fun _ => Settled flash :=
  steps_reset

/-! ## Runs -/

section Runs
variable {halm : Halm} {inv next : Clocks → Prop} {good : Change → Prop} {call : Call}
  {clocks after : Clocks}

theorem Steps.changes (steps : Steps inv good (board halm call) fun _ => next)
    (holds : inv clocks) : ∀ change ∈ changesOf halm clocks call, good change := by
  have kept := steps ⟨clocks, []⟩ ⟨holds, fun _ member => by cases member⟩
  unfold changesOf
  cases done : board halm call ⟨clocks, []⟩ with
  | ok value session =>
      rw [done] at kept
      exact kept.2
  | error stuck session =>
      rw [done] at kept
      exact kept

theorem Steps.returned (steps : Steps inv good (board halm call) fun _ => next)
    (holds : inv clocks) (taken : step halm clocks call = some after) : next after := by
  have kept := steps ⟨clocks, []⟩ ⟨holds, fun _ member => by cases member⟩
  unfold step at taken
  cases done : board halm call ⟨clocks, []⟩ with
  | ok value session =>
      rw [done] at kept taken
      cases taken
      exact kept.1
  | error stuck session =>
      rw [done] at taken
      cases taken

end Runs

/-! ## Resetting the clocks -/

section Reset
variable (halm : Halm)

/-- `boardResetClock` cannot get stuck: what it leaves behind. -/
def switchedOff (name : ClockName) (session : Session) : Session :=
  if halm.ready session.clocks name then
    { clocks := Function.update session.clocks name none
      changes := session.changes ++ [⟨session.clocks, name, none⟩] }
  else session

theorem disableReady_eq (name : ClockName) (session : Session) :
    disableReady halm name session = .ok () (switchedOff halm name session) := by
  unfold disableReady switchedOff
  rw [bind_of_ok (clockReady halm name) _ session session (halm.ready session.clocks name) rfl]
  cases halm.ready session.clocks name <;> rfl

theorem switchedOff_other {name other : ClockName} (different : other ≠ name) (session : Session) :
    (switchedOff halm name session).clocks other = session.clocks other := by
  unfold switchedOff
  split
  · exact Function.update_of_ne different _ _
  · rfl

def Recorded (session : Session) : Prop :=
  ∃ change ∈ session.changes, change.after = session.clocks

theorem Recorded.switchedOff {session : Session} (recorded : Recorded session) (name : ClockName) :
    Recorded (switchedOff halm name session) := by
  unfold Network.switchedOff
  split
  · exact ⟨_, List.mem_append_right _ (List.mem_singleton_self _), rfl⟩
  · exact recorded

def resetSession (clocks : Clocks) : Session :=
  switchedOff halm .externalOsc (switchedOff halm .systemPll (switchedOff halm .usbPll
    (switchedOff halm .audioPll
      { clocks := Function.update clocks .mainClock (some (generic .internalOsc))
        changes := [⟨clocks, .mainClock, some (generic .internalOsc)⟩] })))

theorem boardResetClock_eq (clocks : Clocks) :
    boardResetClock halm ⟨clocks, []⟩ = .ok () (resetSession halm clocks) := by
  unfold boardResetClock resetSession
  rw [bind_of_ok (clockEnable .mainClock (generic .internalOsc)) _ _ _ () rfl,
    bind_of_ok _ _ _ _ () (disableReady_eq halm .audioPll _),
    bind_of_ok _ _ _ _ () (disableReady_eq halm .usbPll _),
    bind_of_ok _ _ _ _ () (disableReady_eq halm .systemPll _), disableReady_eq]
  rfl

theorem resetSession_recorded (clocks : Clocks) : Recorded (resetSession halm clocks) := by
  refine Recorded.switchedOff halm (Recorded.switchedOff halm (Recorded.switchedOff halm
    (Recorded.switchedOff halm ?_ _) _) _) _
  exact ⟨_, List.mem_singleton_self _, rfl⟩

theorem resetSession_other (clocks : Clocks) (name : ClockName)
    (other : name ∉ [.mainClock, .audioPll, .usbPll, .systemPll, .externalOsc]) :
    (resetSession halm clocks).clocks name = clocks name := by
  simp only [List.mem_cons, List.not_mem_nil, or_false, not_or] at other
  obtain ⟨main, audio, usb, system, external⟩ := other
  unfold resetSession
  rw [switchedOff_other halm external, switchedOff_other halm system, switchedOff_other halm usb,
    switchedOff_other halm audio]
  exact Function.update_of_ne main _ _

variable {halm}

/-- A SPIFI clock that was not apart from what is switched off has stopped. -/
theorem spifi_stops (halm : Halm) {clocks : Clocks} (settled : Settled True clocks)
    (apart : ¬ SpifiApart clocks) :
    ¬ SpifiRuns (resetSession halm clocks).clocks := by
  obtain ⟨externalOsc, systemPll, mainPath, _, running⟩ := settled
  have weaker : Running False externalOsc systemPll mainPath [] clocks :=
    ⟨running.sources, running.main, fun never => never.elim⟩
  have reset : Steps (Running False externalOsc systemPll mainPath []) (Smooth False)
      (boardResetClock halm) fun _ => Running False false false [.internalOsc] [] :=
    steps_boardResetClock (List.nil_subset _)
  have steps := reset ⟨clocks, []⟩ ⟨weaker, fun _ member => by cases member⟩
  rw [boardResetClock_eq] at steps
  have after : Sources false false (resetSession halm clocks).clocks := steps.1.sources
  have spifi : feeds (resetSession halm clocks).clocks .spifiClock = feeds clocks .spifiClock := by
    rw [feeds, feeds, resetSession_other halm clocks .spifiClock (by decide)]
  have divider : feeds (resetSession halm clocks).clocks .dividerD = feeds clocks .dividerD := by
    rw [feeds, feeds, resetSession_other halm clocks .dividerD (by decide)]
  have externalOff : ¬ Alive (feeds (resetSession halm clocks).clocks) .externalOsc :=
    fun alive => alive.on after.external
  have pllOff : ¬ Alive (feeds (resetSession halm clocks).clocks) .systemPll :=
    fun alive => alive.on after.pll
  rcases running.spifi trivial with off | ⟨path, member, chain⟩
  · exact absurd (Or.inl off) apart
  intro runs
  rw [SpifiRuns, spifi] at runs
  have alive := runs chain.alive.on
  simp only [spifiPaths, List.mem_cons, List.not_mem_nil, or_false] at member
  rcases member with rfl | rfl | rfl | rfl
  · exact apart (Or.inr chain.1)
  · exact externalOff (alive.of_fed (spifi.trans chain.1))
  · exact pllOff (alive.of_fed (spifi.trans chain.1))
  · exact pllOff ((alive.of_fed (spifi.trans chain.1)).of_fed (divider.trans chain.2.1))

theorem reset_runs_iff {clocks : Clocks} (settled : Settled True clocks) :
    (∀ change ∈ changesOf halm clocks .resetClock, SpifiRuns change.after) ↔
      SpifiApart clocks := by
  refine ⟨fun all => ?_, fun apart change member => ?_⟩
  · by_contra notApart
    obtain ⟨change, member, last⟩ := resetSession_recorded halm clocks
    refine spifi_stops halm settled notApart (last ▸ all change ?_)
    unfold changesOf
    rw [board, boardResetClock_eq]
    exact member
  · exact ((steps_board_reset halm True).changes ⟨settled, fun _ => apart⟩ change member).2 trivial

end Reset

/-! ## Results -/

/-- How the reset or the boot loader leaves the clocks. -/
structure Booted (clocks : Clocks) : Prop where
  internal : feeds clocks .internalOsc = some none
  external : feeds clocks .externalOsc = none ∨ feeds clocks .externalOsc = some none
  systemPll : feeds clocks .systemPll = none ∨
    feeds clocks .systemPll = some (some .externalOsc) ∧ feeds clocks .externalOsc = some none
  main : ∃ source ∈ [ClockName.internalOsc, .externalOsc, .systemPll],
    feeds clocks .mainClock = some (some source) ∧ feeds clocks source ≠ none

structure SpifiBooted (clocks : Clocks) : Prop where
  dividerD : feeds clocks .dividerD = none ∨ feeds clocks .dividerD = some (some .systemPll)
  spifi : feeds clocks .spifiClock = none ∨
    ∃ source ∈ [ClockName.internalOsc, .externalOsc, .systemPll, .dividerD],
      feeds clocks .spifiClock = some (some source) ∧ Alive (feeds clocks) source

theorem Booted.sources {clocks : Clocks} (booted : Booted clocks) :
    ∃ externalOsc systemPll, Sources externalOsc systemPll clocks := by
  rcases booted.systemPll with off | ⟨on, external⟩
  · rcases booted.external with externalOff | externalOn
    · exact ⟨false, false, booted.internal, externalOff, off, id⟩
    · exact ⟨true, false, booted.internal, externalOn, off, fun _ => rfl⟩
  · exact ⟨true, true, booted.internal, external, on, fun _ => rfl⟩

theorem Sources.chain {externalOsc systemPll : Bool} {clocks : Clocks} {source : ClockName}
    (sources : Sources externalOsc systemPll clocks)
    (one : source ∈ [ClockName.internalOsc, .externalOsc, .systemPll])
    (on : feeds clocks source ≠ none) :
    ∃ path, source :: path ∈ mainPaths ∧ Chain (feeds clocks) source path := by
  simp only [List.mem_cons, List.not_mem_nil, or_false] at one
  rcases one with rfl | rfl | rfl
  · exact ⟨[], by decide, sources.internal⟩
  · cases externalOsc with
    | true => exact ⟨[], by decide, sources.external_on⟩
    | false => exact absurd sources.external on
  · cases systemPll with
    | true =>
        have external := sources.locked rfl
        subst external
        exact ⟨[.externalOsc], by decide, sources.pll_on⟩
    | false => exact absurd sources.pll on

theorem Booted.settled {flash : Prop} {clocks : Clocks} (booted : Booted clocks)
    (spifi : flash → SpifiBooted clocks) : Settled flash clocks := by
  obtain ⟨externalOsc, systemPll, sources⟩ := booted.sources
  obtain ⟨source, one, fed, on⟩ := booted.main
  obtain ⟨path, known, chain⟩ := sources.chain one on
  refine ⟨externalOsc, systemPll, source :: path, known, sources, ⟨fed, chain⟩, fun holds => ?_⟩
  refine (spifi holds).spifi.imp id ?_
  rintro ⟨source, member, fed, alive⟩
  by_cases divider : source = .dividerD
  · subst divider
    have dividerFed := (spifi holds).dividerD.resolve_left alive.on
    have pllMember : ClockName.systemPll ∈ [ClockName.internalOsc, .externalOsc, .systemPll] := by
      decide
    obtain ⟨path, known, chain⟩ := sources.chain pllMember (alive.of_fed dividerFed).on
    refine ⟨.dividerD :: .systemPll :: path, ?_, fed, dividerFed, chain⟩
    simp only [mainPaths, List.mem_cons, List.cons.injEq, reduceCtorEq, false_and, true_and,
      List.not_mem_nil, or_false, false_or] at known
    rw [known]
    decide
  · have one : source ∈ [ClockName.internalOsc, .externalOsc, .systemPll] := by
      simp only [List.mem_cons, List.not_mem_nil, or_false] at member ⊢
      tauto
    obtain ⟨path, known, chain⟩ := sources.chain one alive.on
    exact ⟨source :: path, List.mem_append_left [_] known, fed, chain⟩

variable {halm : Halm}

theorem settled_next {flash : Prop} {clocks after : Clocks} {call : Call}
    (settled : Settled flash clocks)
    (apart : call = .resetClock → flash → SpifiApart clocks)
    (taken : step halm clocks call = some after) : Settled flash after := by
  by_cases reset : call = .resetClock
  · subst reset
    exact (steps_board_reset halm flash).returned ⟨settled, apart rfl⟩ taken
  · exact Steps.returned (steps_board call reset) settled taken

theorem settled_changes {flash : Prop} {clocks : Clocks} {call : Call}
    (settled : Settled flash clocks) (apart : call = .resetClock → flash → SpifiApart clocks) :
    ∀ change ∈ changesOf halm clocks call, Smooth flash change := by
  by_cases reset : call = .resetClock
  · subst reset
    exact (steps_board_reset halm flash).changes ⟨settled, apart rfl⟩
  · exact Steps.changes (steps_board call reset) settled

/-- Whatever functions are called in whatever order, also if one of them gets stuck. -/
theorem main_clock_never_stops (halm : Halm) (calls : List Call) (clocks : Clocks)
    (booted : Booted clocks) :
    Along (step halm) (fun clocks call => ∀ change ∈ changesOf halm clocks call, MainKept change)
      calls clocks := by
  have settled : Settled False clocks := booted.settled fun never => never.elim
  refine (along_iff_of_kept (step halm) (Settled False) _ (fun _ _ => True) ?_ ?_ calls clocks
    settled).mpr (along_true _ calls clocks)
  · exact fun clocks call next settled _ taken =>
      settled_next settled (fun _ never => never.elim) taken
  · refine fun clocks call settled => iff_of_true (fun change member => ?_) trivial
    exact (settled_changes settled (fun _ never => never.elim) change member).1

/-- A clock that was switched on is ready. -/
def promptHalm : Halm where
  ready clocks name := (clocks name).isSome
  ready_of_alive clocks name alive := by
    cases on : clocks name with
    | some config => rfl
    | none => exact absurd (by rw [feeds, on]; rfl) alive.on
  not_ready_of_off clocks name off := by rw [off]; rfl

/-- Started from the NOR Flash by the internal oscillator. -/
def flashBoot : Clocks
  | .internalOsc => some oscillator
  | .mainClock | .spifiClock => some (generic .internalOsc)
  | _ => none

theorem flashBoot_booted : Booted flashBoot where
  internal := rfl
  external := Or.inl rfl
  systemPll := Or.inl rfl
  main := ⟨.internalOsc, by decide, rfl, by simp [feeds, flashBoot]⟩

theorem flashBoot_spifi : SpifiBooted flashBoot where
  dividerD := Or.inl rfl
  spifi := Or.inr ⟨.internalOsc, by decide, rfl, .root rfl⟩

theorem main_clock_never_stops_flash :
    Along (step promptHalm)
      (fun clocks call => ∀ change ∈ changesOf promptHalm clocks call, MainKept change)
      [.setupClockExt false, .setupClockPll false, .setupCan, .resetClock] flashBoot :=
  main_clock_never_stops promptHalm _ flashBoot flashBoot_booted

/-- A program that runs from the NOR Flash keeps running unless it resets the clocks while
the SPIFI clock needs one of them. -/
theorem spifi_clock_runs_iff (halm : Halm) (calls : List Call) (clocks : Clocks)
    (booted : Booted clocks) (spifi : SpifiBooted clocks) :
    Along (step halm)
        (fun clocks call => ∀ change ∈ changesOf halm clocks call, SpifiRuns change.after)
        calls clocks ↔
      Along (step halm) (fun clocks call => call = .resetClock → SpifiApart clocks) calls
        clocks := by
  refine along_iff_of_kept (step halm) (Settled True) _ _ ?_ ?_ calls clocks
    (booted.settled fun _ => spifi)
  · exact fun clocks call next settled apart taken =>
      settled_next settled (fun reset _ => apart reset) taken
  · intro clocks call settled
    by_cases reset : call = .resetClock
    · subst reset
      rw [reset_runs_iff settled]
      exact ⟨fun apart _ => apart, fun apart => apart rfl⟩
    · refine iff_of_true (fun change member => ?_) fun same => absurd same reset
      exact (settled_changes settled (fun same => absurd same reset) change member).2 trivial

/-- The reset stops the clock that `boardSetupSpim` has put on a divider. -/
theorem spifi_clock_runs_iff_flash :
    Along (step promptHalm)
        (fun clocks call => ∀ change ∈ changesOf promptHalm clocks call, SpifiRuns change.after)
        [.setupClockPll false, .setupSpim] flashBoot ∧
      ¬ Along (step promptHalm)
        (fun clocks call => ∀ change ∈ changesOf promptHalm clocks call, SpifiRuns change.after)
        [.setupClockPll false, .setupSpim, .resetClock] flashBoot := by
  refine ⟨(spifi_clock_runs_iff promptHalm _ flashBoot flashBoot_booted flashBoot_spifi).mpr
    ⟨nofun, nofun, trivial⟩, fun runs => ?_⟩
  have apart := ((spifi_clock_runs_iff promptHalm _ flashBoot flashBoot_booted
    flashBoot_spifi).mp runs).2.2.1 rfl
  rcases apart with off | fed
  · cases off
  · cases fed

end HalmExamples.Clock.Network
