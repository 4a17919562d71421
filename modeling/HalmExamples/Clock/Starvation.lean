import HalmExamples.Clock.SafeOrder

/-!
# Calls that let a branch starve

A call that is not safe leaves some branch behind.  Together with the safe calls this says
exactly which orders of calls are right.
-/

set_option autoImplicit false

namespace HalmExamples.Clock.Network

open Foundation Foundation.Attempt Foundation.Supply Foundation.Schedule

/-! ## Calls that are not safe -/

structure Needs (branch target : ClockName) (clocks : Clocks) : Prop where
  ranked : Ranked rank (feeds clocks)
  on : feeds clocks branch ≠ none
  uses : Uses (feeds clocks) branch target

section Unsafe
variable {halm : Halm} {branch target : ClockName} {clocks : Clocks}

def anyChange (_ : Change) : Prop := True

theorem Steps.follows (middle : Clocks → Prop) {good : Change → Prop} {attempt : Setup Unit}
    {inv after : Clocks → Prop} (steps : Steps inv good attempt fun _ => middle)
    (enough : ∀ clocks, middle clocks → after clocks) : Steps inv good attempt fun _ => after :=
  steps.weaken (fun _ holds => holds) fun _ clocks holds => enough clocks holds

theorem Needs.starves (needs : Needs branch target clocks)
    (dead : ¬ Alive (feeds clocks) target) : Starves clocks branch :=
  ⟨needs.on, fun alive => dead (alive.of_uses needs.uses)⟩

theorem Needs.update (needs : Needs branch target clocks) {name : ClockName}
    (config : Option ClockConfig) (different : branch ≠ name)
    (falls : ∀ source, config.map ClockConfig.source = some (some source) → rank source < rank name)
    (beside : rank branch ≤ rank name ∨ rank name ≤ rank target) :
    Needs branch target (Function.update clocks name config) where
  ranked := by
    rw [feeds_update]
    exact needs.ranked.update _ falls
  on := by
    rw [feeds_update_of_ne different]
    exact needs.on
  uses := by
    rw [feeds_update]
    exact needs.uses.update needs.ranked _ (Ne.symm different) beside

theorem steps_needs (name : ClockName) (config : Option ClockConfig) (different : branch ≠ name)
    (falls : ∀ source, config.map ClockConfig.source = some (some source) → rank source < rank name)
    (beside : rank branch ≤ rank name ∨ rank name ≤ rank target) :
    Steps (Needs branch target) anyChange (change name config) fun _ => Needs branch target :=
  steps_change name config fun _ needs => ⟨trivial, needs.update config different falls beside⟩

theorem falls_of_source {name source : ClockName} {config : ClockConfig}
    (is : config.source = some source) (falls : rank source < rank name) :
    ∀ other, (some config).map ClockConfig.source = some (some other) → rank other < rank name := by
  intro other same
  rw [Option.map_some, is] at same
  cases same
  exact falls

theorem steps_needsSwitch (name source : ClockName) (last : rank branch = 3) (top : rank name = 3)
    (below : rank source < 3) (different : branch ≠ name) :
    Steps (Needs branch target) anyChange (clockEnable name (generic source))
      fun _ => Needs branch target :=
  steps_needs name _ different (falls_of_source rfl (top ▸ below)) (Or.inl (by omega))

theorem steps_needsSpifi (spifiClockEnabled : Bool) (source : ClockName) (last : rank branch = 3)
    (below : rank source < 3) (different : branch ≠ .spifiClock) :
    Steps (Needs branch target) anyChange (switchSpifi spifiClockEnabled source)
      fun _ => Needs branch target := by
  cases spifiClockEnabled with
  | true => exact steps_needsSwitch .spifiClock source last rfl below different
  | false => exact steps_pure () fun _ needs => needs

theorem steps_needsInternal {rest : Setup Unit} {after : Unit → Clocks → Prop}
    (spifiClockEnabled : Bool) (last : rank branch = 3)
    (other : branch ∉ [ClockName.mainClock, .spifiClock])
    (later : Steps (Needs branch target) anyChange rest after) :
    Steps (Needs branch target) anyChange (do
      clockEnable .mainClock (generic .internalOsc)
      switchSpifi spifiClockEnabled .internalOsc
      clockEnable .externalOsc oscillator
      waitReady halm .externalOsc
      rest) after := by
  rw [List.mem_cons, List.mem_singleton, not_or] at other
  refine (steps_needsSwitch .mainClock _ last rfl (by decide) other.1).bind fun _ => ?_
  refine (steps_needsSpifi spifiClockEnabled _ last (by decide) other.2).bind fun _ => ?_
  refine (steps_needs .externalOsc _ (ne_of_rank (by rw [last]; decide))
    (fun source same => by cases same) (Or.inr (Nat.zero_le _))).bind fun _ => ?_
  exact (steps_waited .externalOsc).bind fun _ => later

theorem steps_starveExternal (spifiClockEnabled : Bool) (last : rank branch = 3)
    (other : branch ∉ [ClockName.mainClock, .spifiClock]) :
    Steps (Needs branch .systemPll) anyChange (startExternal halm spifiClockEnabled)
      fun _ clocks => Starves clocks branch := by
  refine steps_needsInternal spifiClockEnabled last other ?_
  rw [List.mem_cons, List.mem_singleton, not_or] at other
  refine (steps_needsSwitch .mainClock _ last rfl (by decide) other.1).bind fun _ => ?_
  refine (steps_needsSpifi spifiClockEnabled _ last (by decide) other.2).bind fun _ => ?_
  refine steps_disableReady .systemPll (fun clocks needs _ => ⟨trivial, ?_⟩)
    fun clocks needs notReady => ?_
  · refine (needs.update none (ne_of_rank (by rw [last]; decide)) (fun source same => by cases same)
      (Or.inr (Nat.le_refl _))).starves fun alive => alive.on (feeds_update_self _ _ _)
  · refine needs.starves fun alive => ?_
    rw [halm.ready_of_alive clocks _ alive] at notReady
    cases notReady

theorem steps_starvePll (spifiClockEnabled : Bool) (multiplier : Nat) (last : rank branch = 3)
    (other : branch ∉ [ClockName.mainClock, .spifiClock]) :
    Steps (Needs branch .dividerA) anyChange (startPll halm spifiClockEnabled 1 multiplier)
      fun _ clocks => Starves clocks branch := by
  have inner {name : ClockName} (low : rank name < 3) : branch ≠ name := ne_of_rank (by omega)
  refine steps_needsInternal spifiClockEnabled last other ?_
  rw [List.mem_cons, List.mem_singleton, not_or] at other
  refine (steps_needs .systemPll _ (inner (by decide)) (falls_of_source rfl (by decide))
    (Or.inr (by decide))).bind fun _ => ?_
  refine (steps_waited .systemPll).bind fun _ => ?_
  refine Steps.seq (fun clocks => Needs branch .dividerA clocks ∧ feeds clocks .dividerA = none)
    ?_ ?_
  · refine (steps_needs .dividerA _ (inner (by decide)) (falls_of_source rfl (by decide))
      (Or.inr (by decide))).bind fun _ => ?_
    refine (steps_waited .dividerA).bind fun _ => ?_
    refine (steps_needsSwitch .mainClock _ last rfl (by decide) other.1).bind fun _ => ?_
    refine (steps_needsSwitch .mainClock _ last rfl (by decide) other.1).bind fun _ => ?_
    refine steps_change .dividerA none fun clocks needs => ⟨trivial, ?_, feeds_update_self _ _ _⟩
    exact needs.update none (inner (by decide)) (fun source same => by cases same)
      (Or.inr (by decide))
  have kept (name source : ClockName) (config : ClockConfig) (is : config.source = some source)
      (falls : rank source < rank name) (apart : name ≠ .dividerA) (different : branch ≠ name)
      (beside : rank branch ≤ rank name ∨ rank name ≤ 2) :
      Steps (fun clocks => Needs branch .dividerA clocks ∧ feeds clocks .dividerA = none) anyChange
        (clockEnable name config)
        fun _ clocks => Needs branch .dividerA clocks ∧ feeds clocks .dividerA = none :=
    steps_change name _ fun clocks holds => ⟨trivial,
      holds.1.update _ different (falls_of_source is falls) beside,
      by rw [feeds_update_of_ne (Ne.symm apart), holds.2]⟩
  refine Steps.follows (fun clocks => Needs branch .dividerA clocks ∧ feeds clocks .dividerA = none)
    ?_ fun clocks holds => holds.1.starves fun alive => alive.on holds.2
  refine Steps.ite (fun _ => Steps.ite (fun _ => ?_) fun _ => ?_) fun _ => ?_
  · refine (kept .dividerD .systemPll _ rfl (by decide) (by decide) (inner (by decide))
      (Or.inr (by decide))).bind fun _ => ?_
    refine (steps_waited .dividerD).bind fun _ => ?_
    exact kept .spifiClock .dividerD _ rfl (by decide) (by decide) other.2
      (Or.inl (Nat.le_of_eq last))
  · exact kept .spifiClock .systemPll _ rfl (by decide) (by decide) other.2
      (Or.inl (Nat.le_of_eq last))
  · exact steps_pure () fun _ holds => holds

theorem steps_starveSetup (loaded : Bool) {setup : Bool → Setup Unit}
    (steps : ∀ spifiClockEnabled, Steps (Needs branch target) anyChange (setup spifiClockEnabled)
      fun _ clocks => Starves clocks branch) :
    Steps (fun clocks => Needs branch target clocks ∧
        (loaded && halm.ready clocks .externalOsc && halm.ready clocks .systemPll) = false)
      anyChange (do
        let settings ← clockSettingsLoaded halm loaded
        let spifiClockEnabled ← clockReady halm .spifiClock
        if settings then pure () else setup spifiClockEnabled)
      fun _ clocks => Starves clocks branch := by
  refine (steps_settings loaded).bind fun settings => ?_
  refine (steps_ready .spifiClock).bind fun spifiClockEnabled => Steps.ite (fun taken => ?_)
    fun _ => ?_
  · rintro session ⟨⟨⟨⟨_, refused⟩, same⟩, _⟩, _⟩
    rw [same, refused] at taken
    cases taken
  · exact (steps spifiClockEnabled).weaken (fun _ holds => holds.1.1.1) fun _ _ after => after

structure Pending (branch : ClockName) (clocks : Clocks) : Prop where
  on : feeds clocks branch ≠ none
  uses : Alive (feeds clocks) branch → Uses (feeds clocks) branch .externalOsc

theorem Pending.disable (pending : Pending branch clocks) {name : ClockName}
    (different : branch ≠ name) : Pending branch (Function.update clocks name none) where
  on := by
    rw [feeds_update_of_ne different]
    exact pending.on
  uses := by
    rw [feeds_update]
    intro alive
    obtain ⟨before, unused⟩ := alive.of_disable
    exact (pending.uses before).update_of_unused _ unused

theorem steps_starveReset (last : rank branch = 3) (other : branch ≠ .mainClock) :
    Steps (Needs branch .externalOsc) anyChange (boardResetClock halm)
      fun _ clocks => Starves clocks branch := by
  have inner {name : ClockName} (low : rank name < 3) : branch ≠ name := ne_of_rank (by omega)
  have disable (name : ClockName) (low : rank name < 3) :
      Steps (Pending branch) anyChange (disableReady halm name) fun _ => Pending branch :=
    steps_disableReady name (fun _ pending _ => ⟨trivial, pending.disable (inner low)⟩)
      fun _ pending _ => pending
  refine Steps.seq (Pending branch) (Steps.follows (Needs branch .externalOsc)
    (steps_needsSwitch .mainClock _ last rfl (by decide) other)
    fun _ needs => ⟨needs.on, fun _ => needs.uses⟩) ?_
  refine (disable .audioPll (by decide)).bind fun _ => ?_
  refine (disable .usbPll (by decide)).bind fun _ => ?_
  refine (disable .systemPll (by decide)).bind fun _ => ?_
  refine steps_disableReady .externalOsc (fun clocks pending _ => ⟨trivial, ?_⟩)
    fun clocks pending notReady => ⟨pending.on, fun alive => ?_⟩
  · have after := pending.disable (inner (by decide : rank .externalOsc < 3))
    refine ⟨after.on, fun alive => ?_⟩
    exact (alive.of_uses (after.uses alive)).on (feeds_update_self _ _ _)
  · rw [halm.ready_of_alive clocks _ (alive.of_uses (pending.uses alive))] at notReady
    cases notReady

structure Dead (name : ClockName) (clocks : Clocks) : Prop where
  ranked : Ranked rank (feeds clocks)
  dead : ¬ Alive (feeds clocks) name

theorem Dead.enable {name source : ClockName} (dead : Dead source clocks) (config : ClockConfig)
    (is : config.source = some source) (falls : rank source < rank name) :
    Dead name (Function.update clocks name (some config)) ∧
      feeds (Function.update clocks name (some config)) name ≠ none := by
  have ranked := dead.ranked.update _ (falls_of_source is falls)
  refine ⟨⟨?_, ?_⟩, ?_⟩
  · rw [feeds_update]
    exact ranked
  · rw [Option.map_some, is] at ranked
    rw [feeds_update, Option.map_some, is]
    exact not_alive_enable ranked dead.dead
  · rw [feeds_update_self]
    exact Option.some_ne_none _

/-- What is fed by a dead clock is dead, even if a wait for it should end. -/
theorem steps_dead {name source : ClockName} {before : Clocks → Prop} (config : ClockConfig)
    (is : config.source = some source) (falls : rank source < rank name)
    (enough : ∀ clocks, before clocks → Dead source clocks) :
    Steps before anyChange (do clockEnable name config; waitReady halm name) fun _ clocks =>
      Dead name clocks ∧ feeds clocks name ≠ none :=
  Steps.bind (steps_change name (some config) fun clocks holds =>
    ⟨trivial, (enough clocks holds).enable config is falls⟩) fun _ => steps_waited name

theorem steps_deadThen {name source : ClockName} {before : Clocks → Prop} {rest : Setup Unit}
    {after : Unit → Clocks → Prop} (config : ClockConfig) (is : config.source = some source)
    (falls : rank source < rank name) (enough : ∀ clocks, before clocks → Dead source clocks)
    (later : Steps (Dead name) anyChange rest after) :
    Steps before anyChange (do clockEnable name config; waitReady halm name; rest) after :=
  Steps.bind (steps_change name (some config) fun clocks holds =>
    ⟨trivial, ((enough clocks holds).enable config is falls).1⟩)
    fun _ => (steps_waited name).bind fun _ => later

theorem steps_starveBranch {middle : ClockName} (branch : ClockName)
    (falls : rank middle < rank branch) :
    Steps (Dead middle) anyChange (do clockEnable branch (generic middle); waitReady halm branch)
      fun _ clocks => Starves clocks branch :=
  Steps.follows _ (steps_dead (generic middle) rfl falls fun _ dead => dead)
    fun _ holds => ⟨holds.2, holds.1.dead⟩

theorem Fed.dead_of_off (fed : Fed clocks) {name : ClockName} (off : feeds clocks name = none) :
    Dead name clocks :=
  ⟨fed.ranked, fun alive => alive.on off⟩

theorem steps_starveAudio (divisor : Nat) (branch : ClockName) (last : rank branch = 3) :
    Steps (fun clocks => Fed clocks ∧ feeds clocks .externalOsc = none) anyChange (do
      startAudioPll halm
      clockEnable .dividerA (divided divisor .audioPll)
      waitReady halm .dividerA
      clockEnable branch (generic .dividerA)
      waitReady halm branch) fun _ clocks => Starves clocks branch := by
  refine Steps.seq (Dead .audioPll) ?_ (steps_deadThen _ rfl (by decide) (fun _ dead => dead)
    (steps_starveBranch branch (last ▸ by decide)))
  refine (steps_ready .audioPll).bind fun ready => Steps.ite (fun isReady => ?_) fun _ => ?_
  · rintro session ⟨⟨⟨fed, off⟩, same⟩, _⟩
    have on := on_of_ready (same.trans isReady)
    exact absurd off (((fed.pll .audioPll rfl).resolve_left on).2 ▸ Option.some_ne_none _)
  · exact Steps.follows _ (steps_dead audioPllConfig rfl (by decide)
      fun _ holds => holds.1.1.dead_of_off holds.1.2) fun _ holds => holds.1

theorem steps_starveOscillator (source middle branch : ClockName) (config : ClockConfig)
    (is : config.source = some source) (falls : rank source < rank middle)
    (below : rank middle < rank branch) :
    Steps (fun clocks => Fed clocks ∧ feeds clocks source = none) anyChange (do
      clockEnable middle config
      waitReady halm middle
      clockEnable branch (generic middle)
      waitReady halm branch) fun _ clocks => Starves clocks branch :=
  steps_deadThen config is falls (fun _ holds => holds.1.dead_of_off holds.2)
    (steps_starveBranch branch below)

theorem steps_starveEthernet :
    Steps (fun clocks => Fed clocks ∧ feeds clocks .enetTx = none) anyChange
      (boardSetupEthernet halm) fun _ clocks => Starves clocks .phyTxClock := by
  refine Steps.seq (Dead .enetTx) (steps_change .phyRxClock _ fun clocks holds => ⟨trivial, ?_⟩) ?_
  · refine ⟨?_, fun alive => alive.on ?_⟩
    · rw [feeds_update]
      exact holds.1.ranked.update _ (falls_of_source rfl (by decide))
    · rw [feeds_update_of_ne (by decide), holds.2]
  · exact (steps_waited .phyRxClock).bind fun _ => steps_starveBranch .phyTxClock (by decide)

end Unsafe

/-! ## Results -/

section Results
variable {halm : Halm} {clocks next : Clocks}

theorem needs_of_not_free {users : List ClockName} {target : ClockName} (fed : Fed clocks)
    (notFree : ¬ Free users target clocks) :
    ∃ branch, rank branch = 3 ∧ branch ∉ users ∧ Needs branch target clocks := by
  unfold Free at notFree
  push Not at notFree
  obtain ⟨branch, high, on, uses, outside⟩ := notFree
  exact ⟨branch, high, outside, fed.ranked, on, uses⟩

theorem starves_of_not_pllSafe (loaded : Bool) (divisor multiplier : Nat) (fed : Fed clocks)
    (notSafe : ¬ PllSafe loaded divisor clocks)
    (taken : step halm clocks (.setupClockPllGeneric loaded divisor multiplier) = some next) :
    ∃ branch, rank branch = 3 ∧ Starves next branch := by
  obtain ⟨refused, needed⟩ := not_or.mp notSafe
  obtain ⟨one, notFree⟩ := Classical.not_imp.mp needed
  subst one
  obtain ⟨branch, last, other, needs⟩ := needs_of_not_free fed notFree
  refine ⟨branch, last, ?_⟩
  have steps : Steps _ anyChange (board halm (.setupClockPllGeneric loaded 1 multiplier)) _ :=
    steps_starveSetup loaded fun spifiClockEnabled =>
      steps_starvePll spifiClockEnabled _ last other
  refine steps.returned ⟨needs, ?_⟩ taken
  cases loaded with
  | false => rfl
  | true =>
      have off : feeds clocks .systemPll = none := by
        by_contra on
        exact refused ⟨rfl, on⟩
      rw [halm.not_ready_of_off clocks _ (Option.map_eq_none_iff.mp off), Bool.and_false]

/-- A call that is not safe leaves a branch behind if it returns. -/
theorem starves_of_not_safe (call : Call) (fed : Fed clocks) (notSafe : ¬ Safe clocks call)
    (taken : step halm clocks call = some next) :
    ∃ branch, rank branch = 3 ∧ Starves next branch := by
  cases call with
  | setupClockExt loaded =>
      obtain ⟨notLoaded, notFree⟩ := not_or.mp notSafe
      obtain ⟨branch, last, other, needs⟩ := needs_of_not_free fed notFree
      have steps : Steps _ anyChange (board halm (.setupClockExt loaded)) _ :=
        steps_starveSetup loaded fun spifiClockEnabled =>
          steps_starveExternal spifiClockEnabled last other
      refine ⟨branch, last, steps.returned ⟨needs, ?_⟩ taken⟩
      rw [Bool.eq_false_iff.mpr notLoaded]
      rfl
  | setupClockPll loaded => exact starves_of_not_pllSafe loaded 1 _ fed notSafe taken
  | setupClockPllGeneric loaded divisor multiplier =>
      exact starves_of_not_pllSafe loaded divisor multiplier fed notSafe taken
  | setupClockPllCustom loaded frequency =>
      simp only [Safe] at notSafe
      push Not at notSafe
      obtain ⟨choice, found, notPllSafe⟩ := notSafe
      have generic : step halm clocks (.setupClockPllGeneric loaded choice.div choice.mul) =
          some next := by
        rw [← taken]
        simp only [step, board, boardSetupClockPllCustom, found]
      exact starves_of_not_pllSafe loaded choice.div choice.mul fed notPllSafe generic
  | resetClock =>
      obtain ⟨branch, last, other, needs⟩ := needs_of_not_free fed notSafe
      rw [List.mem_singleton] at other
      have steps : Steps _ anyChange (board halm .resetClock) _ := steps_starveReset last other
      exact ⟨branch, last, steps.returned needs taken⟩
  | setupPeripheral _ | setupSdio | setupSpim => exact absurd trivial notSafe
  | setupCan =>
      have steps : Steps _ anyChange (board halm .setupCan) _ := steps_starveAudio 3 .apb3Clock rfl
      exact ⟨_, rfl, steps.returned ⟨fed, not_not.mp notSafe⟩ taken⟩
  | setupUsb1 =>
      have steps : Steps _ anyChange (board halm .setupUsb1) _ := steps_starveAudio 2 .usb1Clock rfl
      exact ⟨_, rfl, steps.returned ⟨fed, not_not.mp notSafe⟩ taken⟩
  | setupUsb0 =>
      have steps : Steps _ anyChange (board halm .setupUsb0) _ :=
        steps_starveOscillator .externalOsc .usbPll .usb0Clock _ rfl (by decide) (by decide)
      exact ⟨_, rfl, steps.returned ⟨fed, not_not.mp notSafe⟩ taken⟩
  | setupClockOutput divisor =>
      have steps : Steps _ anyChange (board halm (.setupClockOutput divisor)) _ :=
        steps_starveOscillator .externalOsc .dividerE .clockOutput _ rfl (by decide) (by decide)
      exact ⟨_, rfl, steps.returned ⟨fed, not_not.mp notSafe⟩ taken⟩
  | setupEthernet =>
      have steps : Steps _ anyChange (board halm .setupEthernet) _ := steps_starveEthernet
      exact ⟨_, rfl, steps.returned ⟨fed, not_not.mp notSafe⟩ taken⟩

def NothingStarves (halm : Halm) (clocks : Clocks) (call : Call) : Prop :=
  ∀ next, step halm clocks call = some next → ∀ branch, rank branch = 3 → ¬ Starves next branch

theorem fed_next {call : Call} (fed : Fed clocks) (safe : Safe clocks call)
    (taken : step halm clocks call = some next) : Fed next :=
  (steps_safe call).returned ⟨fed, safe⟩ taken

/-- The order of the calls is right exactly if each of them is safe where it is made: then no
branch is without a clock even for a moment, and otherwise a branch is after some call. -/
theorem no_branch_starves_iff (halm : Halm) (calls : List Call) (clocks final : Clocks)
    (fed : Fed clocks) (done : run (step halm) calls clocks = some final) :
    (Along (step halm) (NothingStarves halm) calls clocks ↔ Along (step halm) Safe calls clocks) ∧
      (Along (step halm) Safe calls clocks →
        Along (step halm) (fun clocks call => ∀ change ∈ changesOf halm clocks call, Quiet change)
          calls clocks) := by
  have kept : ∀ state call next, Fed state → Safe state call →
      step halm state call = some next → Fed next :=
    fun _ _ _ fed safe taken => fed_next fed safe taken
  refine ⟨run_along_iff (step halm) Fed _ Safe kept ?_ calls clocks final fed done, ?_⟩
  · intro state call next fed taken
    refine ⟨fun nothing => ?_, fun safe other same => ?_⟩
    · by_contra notSafe
      obtain ⟨branch, last, starves⟩ := starves_of_not_safe call fed notSafe taken
      exact nothing next taken branch last starves
    · exact (fed_next fed safe same).branch
  · exact along_mono_of_kept (step halm) Fed Safe _ kept
      (fun _ call fed safe => (steps_safe call).changes ⟨fed, safe⟩) calls clocks fed

theorem flashBoot_fed : Fed flashBoot where
  ranked := by
    intro name source fed
    cases name <;> cases fed <;> decide
  root := by
    intro name low
    cases name <;> first | exact Or.inl rfl | exact Or.inr rfl | cases low
  internal := Option.some_ne_none _
  pll := by
    intro name middle
    cases name <;> first | exact Or.inl rfl | cases middle
  branch := by
    intro name high ⟨on, dead⟩
    cases name with
    | mainClock => exact dead (.fed rfl (.root rfl))
    | spifiClock => exact dead (.fed rfl (.root rfl))
    | _ => first | exact absurd rfl on | cases high

/-- The second set-up takes divider A from the CAN interface. -/
theorem no_branch_starves_iff_flash :
    ∃ early final,
      run (step promptHalm) [.setupClockPll false, .setupCan] flashBoot = some early ∧
      Along (step promptHalm) (NothingStarves promptHalm) [.setupClockPll false, .setupCan]
        flashBoot ∧
      run (step promptHalm) [.setupClockPll false, .setupCan, .setupClockPll false] flashBoot =
        some final ∧
      ¬ Along (step promptHalm) (NothingStarves promptHalm)
        [.setupClockPll false, .setupCan, .setupClockPll false] flashBoot := by
  have first : (run (step promptHalm) [.setupClockPll false, .setupCan] flashBoot).isSome =
      true := rfl
  have second : (run (step promptHalm) [.setupClockPll false, .setupCan, .setupClockPll false]
      flashBoot).isSome = true := rfl
  obtain ⟨early, ready⟩ := Option.isSome_iff_exists.mp first
  obtain ⟨final, done⟩ := Option.isSome_iff_exists.mp second
  refine ⟨early, final, ready, ?_, done, fun right => ?_⟩
  · refine (no_branch_starves_iff promptHalm _ flashBoot early flashBoot_fed ready).1.mpr
      ⟨Or.inr fun _ branch last on uses => ?_, Option.some_ne_none _, trivial⟩
    cases branch with
    | mainClock | spifiClock => simp
    | _ => first | exact absurd rfl on | cases last
  · have safe := ((no_branch_starves_iff promptHalm _ flashBoot final flashBoot_fed done).1.mp
      right).2.2.1
    rcases safe with ⟨loaded, _⟩ | free
    · cases loaded
    · have user := free rfl .apb3Clock rfl (Option.some_ne_none _) (.fed rfl (.refl _))
      exact absurd user (by decide)

end Results

end HalmExamples.Clock.Network
