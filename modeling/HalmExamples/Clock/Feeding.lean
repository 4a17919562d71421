import HalmExamples.Clock.Continuity

/-!
# How the clocks are fed

The set-up functions lead the main clock and the SPIFI clock around what they switch off, and
no other branch.  A branch that is left behind starves: it is on, but what feeds it is not.
The functions can be called in any order as long as none of them takes a source that another
branch needs, or starts a PLL without the crystal.
-/

set_option autoImplicit false

namespace HalmExamples.Clock.Network

open Foundation Foundation.Attempt Foundation.Supply Foundation.Schedule

/-- On, without a source that runs. -/
def Starves (clocks : Clocks) (branch : ClockName) : Prop :=
  feeds clocks branch ≠ none ∧ ¬ Alive (feeds clocks) branch

def Quiet (change : Change) : Prop :=
  ∀ branch, rank branch = 3 → ¬ Starves change.after branch

/-- Dividers may be left behind without a source, since each is fed anew before it is used. -/
structure Fed (clocks : Clocks) : Prop where
  ranked : Ranked rank (feeds clocks)
  root : ∀ name, rank name = 0 → feeds clocks name = none ∨ feeds clocks name = some none
  internal : feeds clocks .internalOsc ≠ none
  pll : ∀ name, rank name = 1 → feeds clocks name = none ∨
    feeds clocks name = some (some .externalOsc) ∧ feeds clocks .externalOsc = some none
  branch : ∀ name, rank name = 3 → ¬ Starves clocks name

def Free (users : List ClockName) (target : ClockName) (clocks : Clocks) : Prop :=
  ∀ branch, rank branch = 3 → feeds clocks branch ≠ none → Uses (feeds clocks) branch target →
    branch ∈ users

/-- Where the settings are found, `boardSetupClockPllGeneric` changes nothing. -/
def PllSafe (loaded : Bool) (divisor : Nat) (clocks : Clocks) : Prop :=
  (loaded = true ∧ feeds clocks .systemPll ≠ none) ∨
    (divisor = 1 → Free [.mainClock, .spifiClock] .dividerA clocks)

def Safe (clocks : Clocks) : Call → Prop
  | .setupClockExt loaded => loaded = true ∨ Free [.mainClock, .spifiClock] .systemPll clocks
  | .setupClockPll loaded => PllSafe loaded 1 clocks
  | .setupClockPllGeneric loaded divisor _ => PllSafe loaded divisor clocks
  | .setupClockPllCustom loaded frequency =>
      ∀ choice, findPllConfig extOscFrequency frequency 2 (maxCoreFrequency / extOscFrequency) =
        some choice → PllSafe loaded choice.div clocks
  | .resetClock => Free [.mainClock] .externalOsc clocks
  | .setupPeripheral _ | .setupSdio | .setupSpim => True
  | .setupCan | .setupUsb0 | .setupUsb1 | .setupClockOutput _ => feeds clocks .externalOsc ≠ none
  | .setupEthernet => feeds clocks .enetTx ≠ none

section Fed
variable {halm : Halm} {clocks : Clocks} {name source target : ClockName}

theorem rank_le (name : ClockName) : rank name ≤ 3 := by
  cases name <;> decide

theorem Fed.alive_of_on (fed : Fed clocks) (notDivider : rank name ≠ 2)
    (on : feeds clocks name ≠ none) : Alive (feeds clocks) name := by
  have bound := rank_le name
  rcases (by omega : rank name = 0 ∨ rank name = 1 ∨ rank name = 3) with low | middle | high
  · exact .root ((fed.root name low).resolve_left on)
  · obtain ⟨path, external⟩ := (fed.pll name middle).resolve_left on
    exact .fed path (.root external)
  · by_contra dead
    exact fed.branch name high ⟨on, dead⟩

theorem on_of_ready (ready : halm.ready clocks name = true) : feeds clocks name ≠ none := by
  intro off
  rw [halm.not_ready_of_off clocks name (Option.map_eq_none_iff.mp off)] at ready
  cases ready

theorem Fed.alive_of_ready (fed : Fed clocks) (notDivider : rank name ≠ 2)
    (ready : halm.ready clocks name = true) : Alive (feeds clocks) name :=
  fed.alive_of_on notDivider (on_of_ready ready)

theorem Fed.off_of_not_ready (fed : Fed clocks) (notDivider : rank name ≠ 2)
    (notReady : halm.ready clocks name = false) : feeds clocks name = none := by
  by_contra on
  have ready := halm.ready_of_alive clocks name (fed.alive_of_on notDivider on)
  rw [notReady] at ready
  cases ready

theorem ne_of_rank {one two : ClockName} (different : rank one ≠ rank two) : one ≠ two :=
  fun same => different (congrArg rank same)

theorem feeds_update_self (clocks : Clocks) (name : ClockName) (config : Option ClockConfig) :
    feeds (Function.update clocks name config) name = config.map ClockConfig.source := by
  rw [feeds_update, Function.update_self]

theorem feeds_update_of_ne {other : ClockName} (different : other ≠ name)
    (config : Option ClockConfig) :
    feeds (Function.update clocks name config) other = feeds clocks other := by
  rw [feeds_update, Function.update_of_ne different]

/-- All but the branches is a matter of the changed clock alone. -/
theorem Fed.update (fed : Fed clocks) (name : ClockName) (config : Option ClockConfig)
    (internal : name ≠ .internalOsc)
    (falls : ∀ source, config.map ClockConfig.source = some (some source) → rank source < rank name)
    (root : rank name = 0 → config.map ClockConfig.source = none ∨
      config.map ClockConfig.source = some none)
    (pll : rank name = 1 → config.map ClockConfig.source = none ∨
      config.map ClockConfig.source = some (some .externalOsc) ∧
        feeds clocks .externalOsc = some none)
    (crystal : name = .externalOsc → config.map ClockConfig.source = some none ∨
      ∀ pll, rank pll = 1 → feeds clocks pll = none)
    (branch : ∀ other, rank other = 3 → feeds (Function.update clocks name config) other ≠ none →
      Alive (feeds (Function.update clocks name config)) other) :
    Fed (Function.update clocks name config) where
  ranked := by
    rw [feeds_update]
    exact fed.ranked.update _ falls
  root := by
    intro other low
    by_cases same : other = name
    · rw [same, feeds_update_self]
      exact root (same ▸ low)
    · rw [feeds_update_of_ne same]
      exact fed.root other low
  internal := by
    rw [feeds_update_of_ne (Ne.symm internal)]
    exact fed.internal
  pll := by
    intro other middle
    by_cases same : other = name
    · have above : ClockName.externalOsc ≠ name := ne_of_rank (by rw [← same, middle]; decide)
      rw [same, feeds_update_self, feeds_update_of_ne above]
      exact pll (same ▸ middle)
    · rw [feeds_update_of_ne same]
      by_cases external : name = .externalOsc
      · rw [external, feeds_update_self]
        rcases crystal external with runs | off
        · exact (fed.pll other middle).imp id fun both => ⟨both.1, runs⟩
        · exact Or.inl (off other middle)
      · rw [feeds_update_of_ne (Ne.symm external)]
        exact fed.pll other middle
  branch := fun other high starves => starves.2 (branch other high starves.1)

/-- A clock above the oscillators is fed from one that runs. -/
theorem Fed.feed (fed : Fed clocks) (name : ClockName) (config : ClockConfig)
    (is : config.source = some source)
    (falls : rank source < rank name) (crystal : rank name = 1 → source = .externalOsc)
    (alive : Alive (feeds clocks) source) :
    Fed (Function.update clocks name (some config)) ∧
      Alive (feeds (Function.update clocks name (some config))) name := by
  have after : feeds (Function.update clocks name (some config)) =
      Function.update (feeds clocks) name (some (some source)) := by
    rw [feeds_update, Option.map_some, is]
  have unused : ¬ Uses (feeds clocks) source name :=
    not_uses_of_rank fed.ranked (ne_of_rank (Nat.ne_of_lt falls)) (Nat.le_of_lt falls)
  have rewired := alive.enable unused
  rw [after]
  refine ⟨fed.update name (some config)
    (ne_of_rank (Nat.ne_of_gt (Nat.zero_lt_of_lt falls))) ?_ ?_ ?_
    ?_ ?_, rewired⟩
  · intro other same
    rw [Option.map_some, is] at same
    cases same
    exact falls
  · exact fun low => absurd low (Nat.ne_of_gt (Nat.zero_lt_of_lt falls))
  · intro middle
    have external := crystal middle
    subst external
    exact Or.inr ⟨by rw [Option.map_some, is], (fed.root .externalOsc rfl).resolve_left alive.on⟩
  · intro external
    rw [external] at falls
    exact absurd falls (Nat.not_lt_zero _)
  · intro other high on
    by_cases same : other = name
    · rw [same, after]
      exact rewired
    · rw [feeds_update_of_ne same] at on
      rw [after]
      exact (fed.alive_of_on (by omega) on).of_rewired _ rewired

/-- What no other branch needs is switched off, an oscillator after the PLLs. -/
theorem Fed.disable (fed : Fed clocks) (internal : name ≠ .internalOsc)
    (free : Free [name] name clocks)
    (crystal : name = .externalOsc → ∀ pll, rank pll = 1 → feeds clocks pll = none) :
    Fed (Function.update clocks name none) := by
  refine fed.update name none internal (fun source same => by cases same) (fun _ => Or.inl rfl)
    (fun _ => Or.inl rfl) (fun external => Or.inr (crystal external)) fun other high on => ?_
  have different : other ≠ name := fun same => on (same ▸ feeds_update_self clocks name none)
  rw [feeds_update_of_ne different] at on
  have alive := fed.alive_of_on (by omega) on
  rw [feeds_update]
  refine (alive_disable_iff alive).mpr fun uses => different ?_
  exact List.mem_singleton.mp (free other high on uses)

theorem Fed.enableExternal (fed : Fed clocks) :
    Fed (Function.update clocks .externalOsc (some oscillator)) := by
  refine fed.update .externalOsc (some oscillator) (by decide) (fun source same => by cases same)
    (fun _ => Or.inr rfl) (fun middle => by cases middle) (fun _ => Or.inl rfl)
    fun other high on => ?_
  rw [feeds_update_of_ne (ne_of_rank (by rw [high]; decide))] at on
  rw [feeds_update]
  exact (fed.alive_of_on (by omega) on).of_rewired _ alive_start

theorem quiet_of_fed {change : Change} (fed : Fed change.after) : Quiet change :=
  fed.branch

/-! ## Who needs a clock -/

variable {users : List ClockName}

theorem Free.mono {more : List ClockName} (free : Free users target clocks)
    (subset : users ⊆ more) :
    Free more target clocks :=
  fun branch high on uses => subset (free branch high on uses)

theorem Free.update (free : Free users target clocks) (ranked : Ranked rank (feeds clocks))
    (config : Option ClockConfig)
    (after : Ranked rank (feeds (Function.update clocks name config)))
    (beside : rank name = 3 ∨ rank name ≤ rank target) (branch : ClockName)
    (high : rank branch = 3) (different : branch ≠ name)
    (on : feeds (Function.update clocks name config) branch ≠ none)
    (uses : Uses (feeds (Function.update clocks name config)) branch target) : branch ∈ users := by
  rw [feeds_update_of_ne different] at on
  rw [feeds_update] at uses after
  refine free branch high on ((uses_update_iff ranked after (Ne.symm different) ?_).mp uses)
  exact beside.imp (fun top => by rw [high, top]) id

theorem Free.add (free : Free users target clocks) (ranked : Ranked rank (feeds clocks))
    (config : Option ClockConfig)
    (after : Ranked rank (feeds (Function.update clocks name config)))
    (branch : rank name = 3) :
    Free (name :: users) target (Function.update clocks name config) := by
  intro other high on uses
  by_cases same : other = name
  · exact same ▸ List.mem_cons_self
  · exact List.mem_cons_of_mem name
      (free.update ranked config after (Or.inl branch) other high same on uses)

theorem Free.below (free : Free users target clocks) (ranked : Ranked rank (feeds clocks))
    (config : Option ClockConfig)
    (after : Ranked rank (feeds (Function.update clocks name config)))
    (low : rank name < 3) (beside : rank name ≤ rank target) :
    Free users target (Function.update clocks name config) := by
  intro other high on uses
  exact free.update ranked config after (Or.inr beside) other high (ne_of_rank (by omega)) on uses

theorem Free.drop (free : Free (name :: users) target clocks) (ranked : Ranked rank (feeds clocks))
    (config : ClockConfig) (is : config.source = some source)
    (after : Ranked rank (feeds (Function.update clocks name (some config))))
    (branch : rank name = 3) (inner : rank target < 3) (apart : source ≠ target)
    (beside : rank source ≤ rank target) :
    Free users target (Function.update clocks name (some config)) := by
  intro other high on uses
  by_cases same : other = name
  · subst same
    have fedBy : feeds (Function.update clocks other (some config)) other = some (some source) := by
      rw [feeds_update_self, Option.map_some, is]
    cases uses with
    | refl => omega
    | fed from_ uses =>
        rw [fedBy] at from_
        cases from_
        exact absurd uses (not_uses_of_rank after apart beside)
  · have member := free.update ranked (some config) after (Or.inl branch) other high same on uses
    exact (List.mem_cons.mp member).resolve_left same

end Fed

end HalmExamples.Clock.Network
