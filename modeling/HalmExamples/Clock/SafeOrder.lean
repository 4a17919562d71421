import HalmExamples.Clock.Feeding

/-!
# Calls that leave no branch behind

Every statement of a safe call is followed with what is known of the clocks between two
statements: which of them are on, and which branches still need the clock that will be
switched off at the end.
-/

set_option autoImplicit false

namespace HalmExamples.Clock.Network

open Foundation Foundation.Attempt Foundation.Supply Foundation.Schedule

/-! ## The set-up functions -/

/-- Between two statements: the clocks in `on` are on, and if the target is to be switched off
no branch but the `users` needs it. -/
structure Held (target : ClockName) (need : Prop) (users on : List ClockName) (clocks : Clocks) :
    Prop where
  fed : Fed clocks
  free : need → Free users target clocks
  on : ∀ name ∈ on, feeds clocks name ≠ none

section Held
variable {halm : Halm} {target name source : ClockName} {need : Prop}
  {users on : List ClockName} {before : Clocks → Prop}

theorem Held.kept {clocks : Clocks} (held : Held target need users on clocks)
    (config : Option ClockConfig) (outside : name ∉ on) :
    ∀ other ∈ on, feeds (Function.update clocks name config) other ≠ none := by
  intro other member
  rw [feeds_update_of_ne fun same : other = name => outside (same ▸ member)]
  exact held.on other member

theorem steps_lend (branch : rank name = 3) (below : rank source < 3) (outside : name ∉ on)
    (enough : ∀ clocks, before clocks → Held target need users on clocks)
    (alive : ∀ clocks, before clocks → Alive (feeds clocks) source) :
    Steps before Quiet (clockEnable name (generic source))
      fun _ => Held target need (name :: users) on := by
  refine steps_change name _ fun clocks holds => ?_
  have held := enough clocks holds
  have fed := held.fed.feed name (generic source) rfl (branch ▸ below)
    (fun middle => by omega) (alive clocks holds)
  refine ⟨quiet_of_fed fed.1, fed.1, fun needed => ?_, held.kept _ outside⟩
  exact (held.free needed).add held.fed.ranked _ fed.1.ranked branch

theorem steps_release (users : List ClockName) (branch : rank name = 3) (inner : rank target < 3)
    (apart : source ≠ target)
    (beside : rank source ≤ rank target) (outside : name ∉ on)
    (enough : ∀ clocks, before clocks → Held target need (name :: users) on clocks)
    (alive : ∀ clocks, before clocks → Alive (feeds clocks) source) :
    Steps before Quiet (clockEnable name (generic source))
      fun _ => Held target need users on := by
  refine steps_change name _ fun clocks holds => ?_
  have held := enough clocks holds
  have fed := held.fed.feed name (generic source) rfl (branch ▸ by omega)
    (fun middle => by omega) (alive clocks holds)
  refine ⟨quiet_of_fed fed.1, fed.1, fun needed => ?_, held.kept _ outside⟩
  exact (held.free needed).drop held.fed.ranked _ rfl fed.1.ranked branch inner apart beside

theorem Held.weaken {clocks : Clocks} {more : List ClockName}
    (held : Held target need users on clocks) (subset : users ⊆ more) :
    Held target need more on clocks :=
  ⟨held.fed, fun needed => (held.free needed).mono subset, held.on⟩

def led (spifiClockEnabled : Bool) : List ClockName :=
  if spifiClockEnabled then [.spifiClock] else []

theorem steps_releaseSpifi (spifiClockEnabled : Bool) (inner : rank target < 3)
    (apart : source ≠ target) (beside : rank source ≤ rank target)
    (outside : ClockName.spifiClock ∉ on)
    (enough : ∀ clocks, before clocks → Held target need (led spifiClockEnabled) on clocks)
    (alive : ∀ clocks, before clocks → Alive (feeds clocks) source) :
    Steps before Quiet (switchSpifi spifiClockEnabled source)
      fun _ => Held target need [] on := by
  cases spifiClockEnabled with
  | true => exact steps_release [] rfl inner apart beside outside enough alive
  | false => exact steps_pure () fun clocks holds => enough clocks holds

theorem Held.alive {clocks : Clocks} (held : Held target need users on clocks) (member : name ∈ on)
    (notDivider : rank name ≠ 2) : Alive (feeds clocks) name :=
  held.fed.alive_of_on notDivider (held.on name member)

theorem Fed.internal_alive {clocks : Clocks} (fed : Fed clocks) :
    Alive (feeds clocks) .internalOsc :=
  fed.alive_of_on (by decide) fed.internal

theorem steps_holdExternal (above : 0 < rank target) :
    Steps (Held target need users []) Quiet (clockEnable .externalOsc oscillator)
      fun _ => Held target need users [.externalOsc] := by
  refine steps_change .externalOsc (some oscillator) fun clocks held => ?_
  have fed := held.fed.enableExternal
  refine ⟨quiet_of_fed fed, fed, fun needed => ?_, ?_⟩
  · exact (held.free needed).below held.fed.ranked _ fed.ranked (by decide) (Nat.le_of_lt above)
  · intro other member
    rw [List.mem_singleton.mp member, feeds_update_self]
    exact Option.some_ne_none _

theorem steps_heldToInternal {rest : Setup Unit} {after : Unit → Clocks → Prop}
    (spifiClockEnabled : Bool) (above : 0 < rank target) (inner : rank target < 3)
    (later : Steps (Held target need [] [.externalOsc]) Quiet rest after) :
    Steps (Held target need (.mainClock :: led spifiClockEnabled) []) Quiet (do
      clockEnable .mainClock (generic .internalOsc)
      switchSpifi spifiClockEnabled .internalOsc
      clockEnable .externalOsc oscillator
      waitReady halm .externalOsc
      rest) after := by
  have apart : ClockName.internalOsc ≠ target := ne_of_rank (Nat.ne_of_lt above)
  refine Steps.bind
    (steps_release _ rfl inner apart (Nat.zero_le _) (by decide) (fun _ held => held)
    fun _ held => held.fed.internal_alive) fun _ => ?_
  refine Steps.bind (steps_releaseSpifi spifiClockEnabled inner apart (Nat.zero_le _) (by decide)
    (fun _ held => held) fun _ held => held.fed.internal_alive) fun _ => ?_
  refine Steps.bind (steps_holdExternal above) fun _ => ?_
  exact (steps_waited .externalOsc).bind fun _ => later

theorem steps_heldExternal (spifiClockEnabled : Bool) :
    Steps (Held .systemPll True (.mainClock :: led spifiClockEnabled) []) Quiet
      (startExternal halm spifiClockEnabled) fun _ => Fed := by
  have external {clocks : Clocks} {users : List ClockName}
      (held : Held .systemPll True users [.externalOsc] clocks) :
      Alive (feeds clocks) .externalOsc :=
    held.alive (List.mem_singleton_self _) (by decide)
  refine steps_heldToInternal spifiClockEnabled (by decide) (by decide) ?_
  refine Steps.bind (steps_release [] rfl (by decide) (by decide) (by decide) (by decide)
    (fun _ held => held.weaken (List.nil_subset _)) fun _ held => external held) fun _ => ?_
  refine Steps.bind (steps_releaseSpifi spifiClockEnabled (by decide) (by decide) (by decide)
    (by decide) (fun _ held => held.weaken (List.nil_subset _)) fun _ held => external held)
    fun _ => ?_
  refine steps_disableReady .systemPll (fun clocks held _ => ?_) fun _ held _ => held.fed
  have fed := held.fed.disable (by decide) ((held.free trivial).mono (List.nil_subset _))
    fun same => absurd same (by decide)
  exact ⟨quiet_of_fed fed, fed⟩

theorem steps_raise (config : ClockConfig) (is : config.source = some source)
    (falls : rank source < rank name) (crystal : rank name = 1 → source = .externalOsc)
    (low : rank name < 3) (beside : rank name ≤ rank target) (outside : name ∉ on)
    (enough : ∀ clocks, before clocks → Held target need users on clocks)
    (alive : ∀ clocks, before clocks → Alive (feeds clocks) source) :
    Steps before Quiet (clockEnable name config) fun _ clocks =>
      Held target need users on clocks ∧ Alive (feeds clocks) name := by
  refine steps_change name (some config) fun clocks holds => ?_
  have held := enough clocks holds
  have fed := held.fed.feed name config is falls crystal (alive clocks holds)
  refine ⟨quiet_of_fed fed.1, ⟨fed.1, fun needed => ?_, held.kept _ outside⟩, fed.2⟩
  exact (held.free needed).below held.fed.ranked _ fed.1.ranked low beside

theorem steps_heldMainToPll (divisor : Nat) :
    Steps (Held .dividerA (divisor = 1) [] [.systemPll]) Quiet (switchMainToPll halm divisor)
      fun _ clocks => Fed clocks ∧ feeds clocks .systemPll ≠ none := by
  have pll {clocks : Clocks} {users : List ClockName}
      (held : Held .dividerA (divisor = 1) users [.systemPll] clocks) :
      Alive (feeds clocks) .systemPll :=
    held.alive (List.mem_singleton_self _) (by decide)
  refine Steps.ite (fun needed => ?_) fun _ => ?_
  · refine Steps.bind (steps_raise (divided 2 .systemPll) rfl (by decide)
      (fun middle => by cases middle) (by decide) (by decide) (by decide) (fun _ held => held)
      fun _ held => pll held) fun _ => ?_
    refine (steps_waited .dividerA).bind fun _ => ?_
    refine Steps.bind (steps_lend rfl (by decide) (by decide) (fun _ holds => holds.1)
      fun _ holds => holds.2) fun _ => ?_
    refine Steps.bind (steps_release [] rfl (by decide) (by decide) (by decide) (by decide)
      (fun _ held => held) fun _ held => pll held) fun _ => ?_
    refine steps_change .dividerA none fun clocks held => ?_
    have fed := held.fed.disable (by decide) ((held.free needed).mono (List.nil_subset _))
      fun same => absurd same (by decide)
    exact ⟨quiet_of_fed fed, fed, held.kept none (by decide) _ (List.mem_singleton_self _)⟩
  · refine (steps_lend rfl (by decide) (by decide) (fun _ held => held)
      fun _ held => pll held).weaken (fun _ held => held) fun _ _ held => ?_
    exact ⟨held.fed, held.on _ (List.mem_singleton_self _)⟩

theorem steps_fedSpifiToPll (frequency : Nat) :
    Steps (fun clocks => Fed clocks ∧ feeds clocks .systemPll ≠ none) Quiet
      (switchSpifiToPll halm frequency) fun _ => Fed := by
  have held {clocks : Clocks} (holds : Fed clocks ∧ feeds clocks .systemPll ≠ none) :
      Held .dividerD False [] [] clocks :=
    ⟨holds.1, fun never => never.elim, fun _ member => nomatch member⟩
  have pll {clocks : Clocks} (holds : Fed clocks ∧ feeds clocks .systemPll ≠ none) :
      Alive (feeds clocks) .systemPll :=
    holds.1.alive_of_on (by decide) holds.2
  refine Steps.ite (fun _ => ?_) fun _ => ?_
  · refine Steps.bind (steps_raise _ rfl (by decide) (fun middle => by cases middle) (by decide)
      (by decide) (by decide) (fun _ holds => held holds) fun _ holds => pll holds) fun _ => ?_
    refine (steps_waited .dividerD).bind fun _ => ?_
    exact (steps_lend rfl (by decide) (by decide) (fun _ holds => holds.1)
      fun _ holds => holds.2).weaken (fun _ holds => holds) fun _ _ after => after.fed
  · exact (steps_lend rfl (by decide) (by decide) (fun _ holds => held holds)
      fun _ holds => pll holds).weaken (fun _ holds => holds) fun _ _ after => after.fed

theorem steps_heldPll (spifiClockEnabled : Bool) (divisor multiplier : Nat) :
    Steps (Held .dividerA (divisor = 1) (.mainClock :: led spifiClockEnabled) []) Quiet
      (startPll halm spifiClockEnabled divisor multiplier) fun _ => Fed := by
  refine steps_heldToInternal spifiClockEnabled (by decide) (by decide) ?_
  refine Steps.seq (Held .dividerA (divisor = 1) [] [.systemPll])
    ((steps_raise _ rfl (by decide) (fun _ => rfl) (by decide) (by decide) (by decide)
      (fun _ held => held)
      fun _ held => held.alive (List.mem_singleton_self _) (by decide)).weaken
      (fun _ held => held) fun _ clocks holds => ?_) ?_
  · refine ⟨holds.1.fed, holds.1.free, fun name member => ?_⟩
    exact List.mem_singleton.mp member ▸ holds.2.on
  refine (steps_waited .systemPll).bind fun _ => ?_
  refine (steps_heldMainToPll divisor).bind fun _ => ?_
  exact Steps.ite (fun _ => steps_fedSpifiToPll _)
    fun _ => steps_pure () fun _ holds => holds.1

end Held

/-! ## Safe calls -/

section Safe
variable {halm : Halm} {clocks : Clocks} {target : ClockName} {before : Clocks → Prop}

theorem Fed.free_of_off (fed : Fed clocks) (off : feeds clocks target = none) :
    Free [] target clocks := by
  intro branch high on uses
  exact absurd off ((fed.alive_of_on (by omega) on).of_uses uses).on

/-- A SPIFI clock that is not ready is off. -/
theorem Fed.free_led (fed : Fed clocks) (free : Free [.mainClock, .spifiClock] target clocks)
    (spifiClockEnabled : Bool) (ready : halm.ready clocks .spifiClock = spifiClockEnabled) :
    Free (.mainClock :: led spifiClockEnabled) target clocks := by
  cases spifiClockEnabled with
  | true => exact free
  | false =>
      intro branch high on uses
      have off := fed.off_of_not_ready (by decide) ready
      have member := free branch high on uses
      rw [List.mem_cons, List.mem_singleton] at member
      rcases member with rfl | rfl
      · exact List.mem_cons_self
      · exact absurd off on

theorem steps_settings {good : Change → Prop} (loaded : Bool) :
    Steps before good (clockSettingsLoaded halm loaded) fun settings clocks =>
      before clocks ∧
        settings = (loaded && halm.ready clocks .externalOsc && halm.ready clocks .systemPll) := by
  refine (steps_ready .externalOsc).bind fun external => (steps_ready .systemPll).bind fun pll => ?_
  refine steps_pure _ fun clocks holds => ⟨holds.1.1, ?_⟩
  rw [holds.1.2, holds.2]

/-- Settings are only refused while the PLL is off. -/
theorem Fed.off_of_refused (fed : Fed clocks)
    (refused : (halm.ready clocks .externalOsc && halm.ready clocks .systemPll) = false) :
    feeds clocks .systemPll = none := by
  by_contra on
  have alive := fed.alive_of_on (by decide) on
  have external := alive.of_fed ((fed.pll .systemPll rfl).resolve_left on).1
  rw [halm.ready_of_alive clocks _ alive, halm.ready_of_alive clocks _ external] at refused
  cases refused

theorem steps_fedSetup (loaded : Bool) (need : Prop) {setup : Bool → Setup Unit}
    (steps : ∀ spifiClockEnabled, Steps
      (Held target need (.mainClock :: led spifiClockEnabled) []) Quiet
      (setup spifiClockEnabled) fun _ => Fed)
    (enough : ∀ clocks, before clocks → Fed clocks)
    (free : ∀ clocks, before clocks →
      (loaded && halm.ready clocks .externalOsc && halm.ready clocks .systemPll) = false →
      need → Free [.mainClock, .spifiClock] target clocks) :
    Steps before Quiet (do
      let settings ← clockSettingsLoaded halm loaded
      let spifiClockEnabled ← clockReady halm .spifiClock
      if settings then pure () else setup spifiClockEnabled) fun _ => Fed := by
  refine (steps_settings loaded).bind fun settings => ?_
  refine (steps_ready .spifiClock).bind fun spifiClockEnabled => Steps.ite (fun _ => ?_)
    fun refused => ?_
  · exact steps_pure () fun _ holds => enough _ holds.1.1
  · refine (steps spifiClockEnabled).weaken (fun clocks holds => ?_) fun _ _ fed => fed
    have fed := enough clocks holds.1.1
    refine ⟨fed, fun needed => ?_, fun _ member => nomatch member⟩
    exact fed.free_led (free clocks holds.1.1
      (holds.1.2.symm.trans (Bool.eq_false_iff.mpr refused)) needed) spifiClockEnabled holds.2

theorem steps_safeExt (loaded : Bool) :
    Steps (fun clocks => Fed clocks ∧ Safe clocks (.setupClockExt loaded)) Quiet
      (boardSetupClockExt halm loaded) fun _ => Fed := by
  refine steps_fedSetup loaded True steps_heldExternal (fun _ holds => holds.1)
    fun clocks holds refused _ => ?_
  rcases holds.2 with rfl | free
  · rw [Bool.true_and] at refused
    exact (holds.1.free_of_off (holds.1.off_of_refused refused)).mono (List.nil_subset _)
  · exact free

theorem steps_safePll (loaded : Bool) (divisor multiplier : Nat) :
    Steps (fun clocks => Fed clocks ∧ PllSafe loaded divisor clocks) Quiet
      (boardSetupClockPllGeneric halm loaded divisor multiplier) fun _ => Fed := by
  refine steps_fedSetup loaded (divisor = 1) (fun spifiClockEnabled =>
    steps_heldPll spifiClockEnabled divisor _) (fun _ holds => holds.1)
    fun clocks holds refused needed => ?_
  rcases holds.2 with ⟨rfl, on⟩ | free
  · rw [Bool.true_and] at refused
    exact absurd (holds.1.off_of_refused refused) on
  · exact free needed

structure Unneeded (off : List ClockName) (clocks : Clocks) : Prop where
  fed : Fed clocks
  free : Free [] .externalOsc clocks
  off : ∀ name ∈ off, feeds clocks name = none

theorem off_of_disable {off : List ClockName} {name : ClockName}
    (known : ∀ other ∈ off, feeds clocks other = none) :
    ∀ other ∈ name :: off, feeds (Function.update clocks name none) other = none := by
  intro other member
  by_cases same : other = name
  · rw [same, feeds_update_self, Option.map_none]
  · rw [feeds_update_of_ne same]
    exact known other ((List.mem_cons.mp member).resolve_left same)

theorem off_cons {off : List ClockName} {name : ClockName} (own : feeds clocks name = none)
    (known : ∀ other ∈ off, feeds clocks other = none) :
    ∀ other ∈ name :: off, feeds clocks other = none := by
  intro other member
  rcases List.mem_cons.mp member with rfl | rest
  · exact own
  · exact known other rest

theorem Unneeded.disablePll {off : List ClockName} (pll : ClockName) (isPll : rank pll = 1) :
    Steps (Unneeded off) Quiet (disableReady halm pll) fun _ => Unneeded (pll :: off) := by
  refine steps_disableReady pll (fun clocks unneeded ready => ?_) fun clocks unneeded notReady => ?_
  · have path := ((unneeded.fed.pll pll isPll).resolve_left (on_of_ready ready)).1
    have unused : Free [pll] pll clocks := by
      intro branch high on uses
      have alive := unneeded.fed.alive_of_on (by omega) on
      have external : Uses (feeds clocks) branch .externalOsc :=
        uses.trans (.fed path (.refl _))
      exact nomatch unneeded.free branch high on external
    have fed := unneeded.fed.disable (ne_of_rank (by rw [isPll]; decide)) unused
      fun same => by rw [same] at isPll; cases isPll
    refine ⟨quiet_of_fed fed, fed, ?_, off_of_disable unneeded.off⟩
    intro branch high on uses
    rw [feeds_update_of_ne (ne_of_rank (by rw [high, isPll]; decide))] at on
    rw [feeds_update] at uses
    exact unneeded.free branch high on uses.of_disable
  · exact ⟨unneeded.fed, unneeded.free,
      off_cons (unneeded.fed.off_of_not_ready (by omega) notReady) unneeded.off⟩

theorem pll_cases (name : ClockName) (isPll : rank name = 1) :
    name ∈ [ClockName.systemPll, .usbPll, .audioPll] := by
  revert isPll
  cases name <;> decide

theorem steps_safeReset :
    Steps (fun clocks => Fed clocks ∧ Free [.mainClock] .externalOsc clocks) Quiet
      (boardResetClock halm) fun _ => Fed := by
  refine Steps.seq (Unneeded []) ((steps_release [] rfl (by decide) (by decide) (by decide)
    (by decide) (fun clocks holds =>
      (⟨holds.1, fun _ => holds.2, fun _ member => nomatch member⟩ :
        Held .externalOsc True [.mainClock] [] clocks))
    fun _ holds => holds.1.internal_alive).weaken (fun _ holds => holds)
    fun _ _ held => ⟨held.fed, held.free trivial, fun _ member => nomatch member⟩) ?_
  refine (Unneeded.disablePll .audioPll rfl).bind fun _ => ?_
  refine (Unneeded.disablePll .usbPll rfl).bind fun _ => ?_
  refine (Unneeded.disablePll .systemPll rfl).bind fun _ => ?_
  refine steps_disableReady .externalOsc (fun clocks unneeded _ => ?_) fun _ unneeded _ =>
    unneeded.fed
  have fed := unneeded.fed.disable (by decide) (unneeded.free.mono (List.nil_subset _))
    fun _ pll isPll => unneeded.off pll (pll_cases pll isPll)
  exact ⟨quiet_of_fed fed, fed⟩

/-! The peripherals, each along its own path. -/

theorem steps_feed {name source : ClockName} (config : ClockConfig)
    (is : config.source = some source) (falls : rank source < rank name)
    (crystal : rank name = 1 → source = .externalOsc)
    (enough : ∀ clocks, before clocks → Fed clocks ∧ Alive (feeds clocks) source) :
    Steps before Quiet (do clockEnable name config; waitReady halm name) fun _ clocks =>
      Fed clocks ∧ Alive (feeds clocks) name := by
  refine Steps.bind (steps_change name (some config) fun clocks holds => ?_)
    fun _ => steps_waited name
  have fed := (enough clocks holds).1.feed name config is falls crystal (enough clocks holds).2
  exact ⟨quiet_of_fed fed.1, fed⟩

theorem steps_feedThen {name source : ClockName} {rest : Setup Unit} {after : Unit → Clocks → Prop}
    (config : ClockConfig) (is : config.source = some source) (falls : rank source < rank name)
    (crystal : rank name = 1 → source = .externalOsc)
    (enough : ∀ clocks, before clocks → Fed clocks ∧ Alive (feeds clocks) source)
    (later : Steps (fun clocks => Fed clocks ∧ Alive (feeds clocks) name) Quiet rest after) :
    Steps before Quiet (do clockEnable name config; waitReady halm name; rest) after := by
  refine Steps.bind (steps_change name (some config) fun clocks holds => ?_)
    fun _ => (steps_waited name).bind fun _ => later
  have fed := (enough clocks holds).1.feed name config is falls crystal (enough clocks holds).2
  exact ⟨quiet_of_fed fed.1, fed⟩

theorem steps_safePeriph (clock : ClockName) (branch : rank clock = 3) :
    Steps Fed Quiet (enablePeriphClock halm clock) fun _ => Fed := by
  refine Steps.seq Fed (steps_disableReady clock (fun clocks fed _ => ?_) fun _ fed _ => fed) ?_
  · have unused : Free [clock] clock clocks := by
      intro other high _ uses
      rcases uses.eq_or_rank_lt fed.ranked with rfl | lower
      · exact List.mem_singleton_self _
      · omega
    have next := fed.disable (ne_of_rank (by rw [branch]; decide)) unused
      fun same => by rw [same] at branch; cases branch
    exact ⟨quiet_of_fed next, next⟩
  refine (steps_ready .systemPll).bind fun systemPll =>
    (steps_ready .externalOsc).bind fun externalOsc => ?_
  refine (steps_feed _ rfl ?_ (fun middle => by omega) fun clocks holds => ⟨holds.1.1, ?_⟩).weaken
    (fun _ holds => holds) fun _ _ holds => holds.1
  · exact branch ▸ rank_chosen systemPll externalOsc
  · have fed := holds.1.1
    cases systemPll with
    | true => exact fed.alive_of_ready (show rank .systemPll ≠ 2 by decide) holds.1.2
    | false =>
        cases externalOsc with
        | true => exact fed.alive_of_ready (show rank .externalOsc ≠ 2 by decide) holds.2
        | false => exact fed.internal_alive

/-- A middle clock that runs, through which a branch is fed. -/
theorem steps_safeBranch {middle : ClockName} (branch : ClockName) (last : rank branch = 3)
    (below : rank middle < 3) :
    Steps (fun clocks => Fed clocks ∧ Alive (feeds clocks) middle) Quiet
      (do clockEnable branch (generic middle); waitReady halm branch) fun _ => Fed :=
  (steps_feed (generic middle) rfl (last ▸ below) (fun middle => by omega)
    fun _ holds => holds).weaken (fun _ holds => holds) fun _ _ holds => holds.1

theorem steps_safeAudio (divisor : Nat) (branch : ClockName) (last : rank branch = 3) :
    Steps (fun clocks => Fed clocks ∧ feeds clocks .externalOsc ≠ none) Quiet (do
      startAudioPll halm
      clockEnable .dividerA (divided divisor .audioPll)
      waitReady halm .dividerA
      clockEnable branch (generic .dividerA)
      waitReady halm branch) fun _ => Fed := by
  refine Steps.seq (fun clocks => Fed clocks ∧ Alive (feeds clocks) .audioPll) ?_ ?_
  · refine (steps_ready .audioPll).bind fun ready => Steps.ite (fun isReady => ?_) fun _ => ?_
    · exact steps_pure () fun _ holds =>
        ⟨holds.1.1, holds.1.1.alive_of_ready (by decide) (holds.2.trans isReady)⟩
    · exact steps_feed audioPllConfig rfl (by decide) (fun _ => rfl) fun _ holds =>
        ⟨holds.1.1, holds.1.1.alive_of_on (by decide) holds.1.2⟩
  · exact steps_feedThen _ rfl (by decide) (fun middle => by cases middle) (fun _ holds => holds)
      (steps_safeBranch branch last (by decide))

theorem steps_safeSdio : Steps Fed Quiet (boardSetupSdio halm) fun _ => Fed := by
  refine (steps_ready .systemPll).bind fun ready => Steps.ite (fun isReady => ?_) fun _ => ?_
  · refine steps_feedThen _ rfl (by decide) (fun middle => by cases middle) (fun _ holds => ?_)
      (steps_safeBranch .sdioClock rfl (by decide))
    exact ⟨holds.1, holds.1.alive_of_ready (by decide) (holds.2.trans isReady)⟩
  · exact fun _ kept => kept.2

theorem steps_safeSpim : Steps Fed Quiet (boardSetupSpim halm) fun _ => Fed := by
  refine (steps_ready .systemPll).bind fun systemPll =>
    (steps_ready .externalOsc).bind fun externalOsc => Steps.ite (fun isReady => ?_) fun _ => ?_
  · intro session kept
    exact steps_fedSpifiToPll (pllFrequency session.clocks) session
      ⟨⟨kept.1.1.1, on_of_ready (kept.1.1.2.trans isReady)⟩, kept.2⟩
  · refine (steps_feed _ rfl ?_ (fun middle => by cases middle)
      fun _ holds => ⟨holds.1.1, ?_⟩).weaken
      (fun _ holds => holds) fun _ _ holds => holds.1
    · cases externalOsc <;> decide
    · cases externalOsc with
      | true => exact holds.1.1.alive_of_ready (by decide) holds.2
      | false => exact holds.1.1.internal_alive

theorem steps_safeEthernet :
    Steps (fun clocks => Fed clocks ∧ feeds clocks .enetTx ≠ none) Quiet (boardSetupEthernet halm)
      fun _ => Fed := by
  have phy (users : List ClockName) (name : ClockName) (last : rank name = 3)
      (outside : name ∉ [ClockName.enetTx]) :
      Steps (Held .dividerA False users [.enetTx]) Quiet (clockEnable name (generic .enetTx))
        fun _ => Held .dividerA False (name :: users) [.enetTx] :=
    steps_lend last (by decide) outside (fun _ held => held)
      fun _ held => held.alive (List.mem_singleton_self _) (by decide)
  refine Steps.weaken (Steps.bind (phy [] .phyRxClock rfl (by decide)) fun _ =>
    (steps_waited .phyRxClock).bind fun _ => (phy _ .phyTxClock rfl (by decide)).bind fun _ =>
      steps_waited .phyTxClock) (fun clocks holds => ?_) fun _ _ held => held.fed
  exact ⟨holds.1, fun never => never.elim, fun _ member => List.mem_singleton.mp member ▸ holds.2⟩

/-- What no call may do without: no branch is left without a clock at any moment. -/
theorem steps_safe (call : Call) :
    Steps (fun clocks => Fed clocks ∧ Safe clocks call) Quiet (board halm call) fun _ => Fed := by
  have fed {attempt : Setup Unit} (steps : Steps Fed Quiet attempt fun _ => Fed)
      (safe : Clocks → Prop) :
      Steps (fun clocks => Fed clocks ∧ safe clocks) Quiet attempt fun _ => Fed :=
    steps.weaken (fun _ holds => holds.1) fun _ _ after => after
  have oscillator (source middle branch : ClockName) (config : ClockConfig)
      (is : config.source = some source) (falls : rank source < rank middle)
      (crystal : rank middle = 1 → source = .externalOsc) (below : rank middle < 3)
      (last : rank branch = 3) (root : rank source = 0) :
      Steps (fun clocks => Fed clocks ∧ feeds clocks source ≠ none) Quiet (do
        clockEnable middle config
        waitReady halm middle
        clockEnable branch (generic middle)
        waitReady halm branch) fun _ => Fed :=
    steps_feedThen config is falls crystal
      (fun _ holds => ⟨holds.1, holds.1.alive_of_on (by omega) holds.2⟩)
      (steps_safeBranch branch last below)
  cases call with
  | setupClockExt loaded => exact steps_safeExt loaded
  | setupClockPll loaded => exact steps_safePll loaded 1 _
  | setupClockPllGeneric loaded divisor multiplier => exact steps_safePll loaded divisor multiplier
  | setupClockPllCustom loaded frequency =>
      unfold board boardSetupClockPllCustom
      simp only [Safe]
      cases findPllConfig extOscFrequency frequency 2 (maxCoreFrequency / extOscFrequency) with
      | some choice =>
          exact (steps_safePll loaded choice.div choice.mul).weaken
            (fun _ holds => ⟨holds.1, holds.2 choice rfl⟩) fun _ _ after => after
      | none => exact fun _ kept => kept.2
  | resetClock => exact steps_safeReset
  | setupPeripheral peripheral =>
      exact fed (steps_safePeriph peripheral.clock peripheral.rank_clock) _
  | setupCan => exact steps_safeAudio 3 .apb3Clock rfl
  | setupUsb1 => exact steps_safeAudio 2 .usb1Clock rfl
  | setupUsb0 =>
      exact oscillator .externalOsc .usbPll .usb0Clock _ rfl (by decide) (fun _ => rfl) (by decide)
        rfl rfl
  | setupClockOutput divisor =>
      exact oscillator .externalOsc .dividerE .clockOutput _ rfl (by decide)
        (fun middle => by cases middle) (by decide) rfl rfl
  | setupSdio => exact fed steps_safeSdio _
  | setupSpim => exact fed steps_safeSpim _
  | setupEthernet => exact steps_safeEthernet

end Safe

end HalmExamples.Clock.Network
