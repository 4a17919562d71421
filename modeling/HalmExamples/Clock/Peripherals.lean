import HalmExamples.Clock.Network

/-!
# What the peripherals change

Invariants of the clocks and conditions on each change are carried through a call by one rule
for each statement.  The functions that set up peripherals make two kinds of changes: a
branch is disabled, or a divider, a PLL or a branch of the peripherals is fed from a clock
that is ready or from an oscillator.
-/

set_option autoImplicit false

namespace HalmExamples.Clock.Network

open Foundation Foundation.Attempt Foundation.Supply

/-! ## Rules -/

def Kept (inv : Clocks → Prop) (good : Change → Prop) (session : Session) : Prop :=
  inv session.clocks ∧ ∀ change ∈ session.changes, good change

def Steps {Value : Type} (inv : Clocks → Prop) (good : Change → Prop) (attempt : Setup Value)
    (after : Value → Clocks → Prop) : Prop :=
  Triple (Kept inv good) attempt (fun value => Kept (after value) good)
    fun session => ∀ change ∈ session.changes, good change

section Rules
variable {Value Result : Type} {halm : Halm} {inv next : Clocks → Prop} {good : Change → Prop}
  {after : Value → Clocks → Prop}

theorem Steps.bind {first : Setup Value} {rest : Value → Setup Result}
    {final : Result → Clocks → Prop} (steps : Steps inv good first after)
    (later : ∀ value, Steps (after value) good (rest value) final) :
    Steps inv good (first >>= rest) final :=
  Triple.bind steps later

theorem Steps.seq (middle : Clocks → Prop) {first : Setup Unit} {rest : Setup Result}
    {final : Result → Clocks → Prop} (steps : Steps inv good first fun _ => middle)
    (later : Steps middle good rest final) : Steps inv good (do first; rest) final :=
  Triple.bind steps fun _ => later

theorem Steps.weaken {attempt : Setup Value} {before : Clocks → Prop}
    {weaker : Value → Clocks → Prop} (steps : Steps inv good attempt after)
    (enough : ∀ clocks, before clocks → inv clocks)
    (follows : ∀ value clocks, after value clocks → weaker value clocks) :
    Steps before good attempt weaker :=
  Triple.weaken steps (fun session kept => ⟨enough session.clocks kept.1, kept.2⟩)
    fun value session kept => ⟨follows value session.clocks kept.1, kept.2⟩

theorem Steps.of_cases {Index : Type} (known : Index → Clocks → Prop) {attempt : Setup Value}
    (cases : ∀ clocks, inv clocks → ∃ index, known index clocks)
    (each : ∀ index, Steps (known index) good attempt after) : Steps inv good attempt after := by
  intro session kept
  obtain ⟨index, holds⟩ := cases session.clocks kept.1
  exact each index session ⟨holds, kept.2⟩

theorem steps_pure (value : Value) (holds : ∀ clocks, inv clocks → after value clocks) :
    Steps inv good (pure value) after :=
  triple_pure value fun session kept => ⟨holds session.clocks kept.1, kept.2⟩

theorem Steps.ite {condition : Prop} [Decidable condition] {first second : Setup Value}
    (whenTrue : condition → Steps inv good first after)
    (whenFalse : ¬ condition → Steps inv good second after) :
    Steps inv good (if condition then first else second) after :=
  Triple.ite whenTrue whenFalse

theorem steps_change (name : ClockName) (config : Option ClockConfig)
    (holds : ∀ clocks, inv clocks →
      good ⟨clocks, name, config⟩ ∧ next (Function.update clocks name config)) :
    Steps inv good (change name config) fun _ => next := by
  intro session kept
  obtain ⟨goodChange, afterwards⟩ := holds session.clocks kept.1
  refine ⟨afterwards, fun change member => ?_⟩
  rcases List.mem_append.mp member with earlier | last
  · exact kept.2 change earlier
  · exact List.mem_singleton.mp last ▸ goodChange

theorem steps_ready (name : ClockName) :
    Steps inv good (clockReady halm name) fun ready clocks =>
      inv clocks ∧ halm.ready clocks name = ready :=
  fun _ kept => ⟨⟨kept.1, rfl⟩, kept.2⟩

theorem steps_wait (name : ClockName) :
    Steps inv good (waitReady halm name) fun _ clocks =>
      inv clocks ∧ halm.ready clocks name = true := by
  intro session kept
  unfold waitReady
  by_cases ready : halm.ready session.clocks name = true
  · rw [if_pos ready]
    exact ⟨⟨kept.1, ready⟩, kept.2⟩
  · rw [if_neg ready]
    exact kept.2

theorem steps_waited (name : ClockName) :
    Steps inv good (waitReady halm name) fun _ => inv :=
  (steps_wait name).weaken (fun _ holds => holds) fun _ _ holds => holds.1

theorem steps_disableReady (name : ClockName)
    (disabled : ∀ clocks, inv clocks → halm.ready clocks name = true →
      good ⟨clocks, name, none⟩ ∧ next (Function.update clocks name none))
    (kept : ∀ clocks, inv clocks → halm.ready clocks name = false → next clocks) :
    Steps inv good (disableReady halm name) fun _ => next := by
  refine (steps_ready name).bind fun ready => ?_
  refine Steps.ite (fun isReady => ?_) fun notReady => ?_
  · refine steps_change name none fun clocks holds => ?_
    exact disabled clocks holds.1 (holds.2.trans isReady)
  · refine steps_pure () fun clocks holds => ?_
    exact kept clocks holds.1 (holds.2.trans (Bool.eq_false_iff.mpr notReady))

end Rules

/-! ## Changes -/

def core : List ClockName :=
  [.internalOsc, .externalOsc, .enetTx, .systemPll, .dividerD, .mainClock, .spifiClock]

inductive PeriphChange (halm : Halm) (clocks : Clocks) :
    ClockName → Option ClockConfig → Prop where
  | disable (name : ClockName) (outside : name ∉ core) (branch : rank name = 3) :
      PeriphChange halm clocks name none
  | feed (name source : ClockName) (config : ClockConfig) (outside : name ∉ core)
      (fed : config.source = some source) (falls : rank source < rank name)
      (available : rank source = 0 ∨ halm.ready clocks source = true) :
      PeriphChange halm clocks name (some config)

theorem PeriphChange.outside {halm : Halm} {clocks : Clocks} {name : ClockName}
    {config : Option ClockConfig} (change : PeriphChange halm clocks name config) :
    name ∉ core := by
  cases change with
  | disable outside _ => exact outside
  | feed _ _ outside _ _ _ => exact outside

section Peripherals
variable {halm : Halm} {inv : Clocks → Prop} {good : Change → Prop}

def Harmless (halm : Halm) (inv : Clocks → Prop) (good : Change → Prop) : Prop :=
  ∀ clocks name config, inv clocks → PeriphChange halm clocks name config →
    good ⟨clocks, name, config⟩ ∧ inv (Function.update clocks name config)

theorem Harmless.feed (harmless : Harmless halm inv good) {before : Clocks → Prop}
    (name source : ClockName) (config : ClockConfig) (outside : name ∉ core)
    (fed : config.source = some source) (falls : rank source < rank name)
    (enough : ∀ clocks, before clocks → inv clocks)
    (available : ∀ clocks, before clocks → rank source = 0 ∨ halm.ready clocks source = true) :
    Steps before good (clockEnable name config >>= fun _ => waitReady halm name)
      fun _ clocks => inv clocks ∧ halm.ready clocks name = true := by
  refine Steps.seq inv (steps_change name (some config) fun clocks holds => ?_) (steps_wait name)
  exact harmless clocks name (some config) (enough clocks holds)
    (.feed name source config outside fed falls (available clocks holds))

/-- `enablePeriphClock` chooses a clock that is ready, or the internal oscillator. -/
theorem rank_chosen (systemPll externalOsc : Bool) :
    rank (if systemPll then .systemPll
      else if externalOsc then .externalOsc else .internalOsc) < 3 := by
  cases systemPll <;> cases externalOsc <;> decide

theorem chosen_available (clocks : Clocks) (systemPll externalOsc : Bool)
    (pllReady : halm.ready clocks .systemPll = systemPll)
    (externalReady : halm.ready clocks .externalOsc = externalOsc) :
    rank (if systemPll then .systemPll
      else if externalOsc then .externalOsc else .internalOsc) = 0 ∨
      halm.ready clocks
        (if systemPll then .systemPll
          else if externalOsc then .externalOsc else .internalOsc) = true := by
  cases systemPll with
  | true => exact Or.inr pllReady
  | false =>
      cases externalOsc with
      | true => exact Or.inr externalReady
      | false => exact Or.inl rfl

theorem Harmless.enablePeriphClock (harmless : Harmless halm inv good) (clock : ClockName)
    (outside : clock ∉ core) (branch : rank clock = 3) :
    Steps inv good (Network.enablePeriphClock halm clock) fun _ => inv := by
  refine Steps.seq inv (steps_disableReady clock ?_ ?_) ?_
  · intro clocks holds _
    exact harmless clocks clock none holds (.disable clock outside branch)
  · exact fun clocks holds _ => holds
  refine (steps_ready .systemPll).bind fun systemPll =>
    (steps_ready .externalOsc).bind fun externalOsc => ?_
  refine (harmless.feed clock _ _ outside rfl ?_ ?_ ?_).weaken (fun _ holds => holds)
    fun _ clocks holds => holds.1
  · exact branch ▸ rank_chosen systemPll externalOsc
  · exact fun clocks holds => holds.1.1
  · exact fun clocks holds => chosen_available clocks systemPll externalOsc holds.1.2 holds.2

theorem Harmless.startAudioPll (harmless : Harmless halm inv good) :
    Steps inv good (Network.startAudioPll halm) fun _ clocks =>
      inv clocks ∧ halm.ready clocks .audioPll = true := by
  refine (steps_ready .audioPll).bind fun ready => Steps.ite (fun isReady => ?_) fun _ => ?_
  · exact steps_pure () fun clocks holds => ⟨holds.1, holds.2.trans isReady⟩
  · exact harmless.feed .audioPll .externalOsc audioPllConfig (by decide) rfl (by decide)
      (fun _ holds => holds.1) fun _ _ => Or.inl rfl

theorem Harmless.feedThen (harmless : Harmless halm inv good) {before : Clocks → Prop}
    {Result : Type} {final : Result → Clocks → Prop} {rest : Setup Result}
    (name source : ClockName) (config : ClockConfig) (outside : name ∉ core)
    (fed : config.source = some source) (falls : rank source < rank name)
    (enough : ∀ clocks, before clocks → inv clocks)
    (available : ∀ clocks, before clocks → rank source = 0 ∨ halm.ready clocks source = true)
    (later : Steps (fun clocks => inv clocks ∧ halm.ready clocks name = true) good rest final) :
    Steps before good (do clockEnable name config; waitReady halm name; rest) final := by
  refine Steps.seq inv (steps_change name (some config) fun clocks holds => ?_)
    ((steps_wait name).bind fun _ => later)
  exact harmless clocks name (some config) (enough clocks holds)
    (.feed name source config outside fed falls (available clocks holds))

theorem Harmless.audioBranch (harmless : Harmless halm inv good) (divisor : Nat)
    (branch : ClockName) (outside : branch ∉ core) (last : rank branch = 3) :
    Steps inv good (do
      Network.startAudioPll halm
      clockEnable .dividerA (divided divisor .audioPll)
      waitReady halm .dividerA
      clockEnable branch (generic .dividerA)
      waitReady halm branch) fun _ => inv := by
  refine harmless.startAudioPll.bind fun _ => ?_
  refine harmless.feedThen .dividerA .audioPll _ (by decide) rfl (by decide)
    (fun _ holds => holds.1) (fun _ holds => Or.inr holds.2) ?_
  refine (harmless.feed branch .dividerA _ outside rfl ?_ (fun _ holds => holds.1)
    fun _ holds => Or.inr holds.2).weaken (fun _ holds => holds) fun _ _ holds => holds.1
  exact last ▸ (by decide : rank .dividerA < 3)

theorem Harmless.oscillatorBranch (harmless : Harmless halm inv good)
    (source middle branch : ClockName) (config : ClockConfig) (fed : config.source = some source)
    (root : rank source = 0) (middleOutside : middle ∉ core) (middleRank : 0 < rank middle)
    (outside : branch ∉ core) (falls : rank middle < rank branch) :
    Steps inv good (do
      clockEnable middle config
      waitReady halm middle
      clockEnable branch (generic middle)
      waitReady halm branch) fun _ => inv := by
  refine harmless.feedThen middle source config middleOutside fed (root ▸ middleRank)
    (fun _ holds => holds) (fun _ _ => Or.inl root) ?_
  exact (harmless.feed branch middle _ outside rfl falls (fun _ holds => holds.1)
    fun _ holds => Or.inr holds.2).weaken (fun _ holds => holds) fun _ _ holds => holds.1

theorem Harmless.boardSetupSdio (harmless : Harmless halm inv good) :
    Steps inv good (Network.boardSetupSdio halm) fun _ => inv := by
  refine (steps_ready .systemPll).bind fun ready => Steps.ite (fun isReady => ?_) fun _ => ?_
  · refine harmless.feedThen .dividerC .systemPll _ (by decide) rfl (by decide)
      (fun _ holds => holds.1) (fun _ holds => Or.inr (holds.2.trans isReady)) ?_
    exact (harmless.feed .sdioClock .dividerC _ (by decide) rfl (by decide)
      (fun _ holds => holds.1) fun _ holds => Or.inr holds.2).weaken (fun _ holds => holds)
      fun _ _ holds => holds.1
  · exact fun session kept => kept.2

theorem Harmless.boardSetupEthernet (harmless : Harmless halm inv good) :
    Steps inv good (Network.boardSetupEthernet halm) fun _ => inv := by
  refine harmless.feedThen .phyRxClock .enetTx _ (by decide) rfl (by decide)
    (fun _ holds => holds) (fun _ _ => Or.inl rfl) ?_
  exact (harmless.feed .phyTxClock .enetTx _ (by decide) rfl (by decide)
    (fun _ holds => holds.1) fun _ _ => Or.inl rfl).weaken (fun _ holds => holds)
    fun _ _ holds => holds.1

/-! ## Calls -/

def Call.peripheral : Call → Bool
  | .setupPeripheral _ | .setupCan | .setupUsb0 | .setupUsb1 | .setupSdio | .setupEthernet
  | .setupClockOutput _ => true
  | .setupClockExt _ | .setupClockPll _ | .setupClockPllGeneric _ _ _ | .setupClockPllCustom _ _
  | .resetClock | .setupSpim => false

theorem Peripheral.clock_outside (peripheral : Peripheral) : peripheral.clock ∉ core := by
  cases peripheral <;> decide

theorem Peripheral.rank_clock (peripheral : Peripheral) : rank peripheral.clock = 3 := by
  cases peripheral <;> rfl

theorem Harmless.call (harmless : Harmless halm inv good) (call : Call)
    (outer : call.peripheral = true) : Steps inv good (board halm call) fun _ => inv := by
  cases call with
  | setupPeripheral peripheral =>
      exact harmless.enablePeriphClock peripheral.clock peripheral.clock_outside
        peripheral.rank_clock
  | setupCan => exact harmless.audioBranch 3 .apb3Clock (by decide) rfl
  | setupUsb1 => exact harmless.audioBranch 2 .usb1Clock (by decide) rfl
  | setupUsb0 =>
      exact harmless.oscillatorBranch .externalOsc .usbPll .usb0Clock _ rfl rfl (by decide)
        (by decide) (by decide) (by decide)
  | setupSdio => exact harmless.boardSetupSdio
  | setupEthernet => exact harmless.boardSetupEthernet
  | setupClockOutput divisor =>
      exact harmless.oscillatorBranch .externalOsc .dividerE .clockOutput _ rfl rfl (by decide)
        (by decide) (by decide) (by decide)
  | setupClockExt _ | setupClockPll _ | setupClockPllGeneric _ _ _ | setupClockPllCustom _ _
  | resetClock | setupSpim => cases outer

end Peripherals

end HalmExamples.Clock.Network
