import HalmExamples.UsbUac.Program

/-!
# Sample rate changes

A reported rate sets `event.rateChanged` and wakes the loop.  The flag is cleared
after the change, so a rate reported in between is forgotten; where the latest
report is the one that was read, the loop never waits on an old rate.
-/

set_option autoImplicit false

namespace HalmExamples.UsbUac

open Foundation

/-! ## Phases of a change -/

inductive Phase where
  | start
  | idle
  | check
  | change
  deriving DecidableEq

def phase : Control → Phase
  | .changeRate _ _ .start => .start
  | .setCallback => .start
  | .checkRateChanged => .check
  | .readRate => .change
  | .changeRate _ _ .loop => .change
  | .clearRateChanged _ => .change
  | _ => .idle

def clearedRate : Control → Label → Option Nat
  | .clearRateChanged rate, .main _ => some rate
  | _, _ => none

/-- When the flag is cleared, the latest report is the rate that was applied. -/
def LatestApplied (machine : Machine) (label : Label) : Prop :=
  ∀ rate ∈ clearedRate machine.control label, machine.reported = some rate

instance (machine : Machine) (label : Label) : Decidable (LatestApplied machine label) :=
  inferInstanceAs (Decidable (∀ rate ∈ clearedRate machine.control label,
    machine.reported = some rate))

/-- What is pending of a report, by the phase of `main`. -/
structure RateTracked (machine : Machine) : Prop where
  silent : machine.listening = false → machine.event.rateChanged = false ∧ machine.reported = none
  starting : phase machine.control = .start → machine.listening = false
  changing : phase machine.control = .change → machine.event.rateChanged = true
  awake : phase machine.control = .idle → machine.event.rateChanged = true →
    machine.state.updated = true
  applied : machine.event.rateChanged = false → ∀ rate, machine.reported = some rate →
    machine.audioRate = some rate
  carried : ∀ rate, machine.control = .clearRateChanged rate → machine.audioRate = some rate

/-! ## What leaves the rates alone -/

structure SameRates (before after : Machine) : Prop where
  reported : after.reported = before.reported
  rateChanged : after.event.rateChanged = before.event.rateChanged
  updated : after.state.updated = before.state.updated
  audioRate : after.audioRate = before.audioRate
  listening : after.listening = before.listening

theorem SameRates.refl (machine : Machine) : SameRates machine machine :=
  ⟨rfl, rfl, rfl, rfl, rfl⟩

theorem rateEffect_sameRates (package : StreamPackage) (machine : Machine) (rate : Nat)
    (statement : RateStatement) (notSet : statement ≠ .setRate) :
    SameRates machine (rateEffect package machine rate statement) := by
  cases statement with
  | setRate => exact absurd rfl notSet
  | setChunk => exact ⟨rfl, rfl, rfl, rfl, rfl⟩
  | clearRx =>
      obtain ⟨micQueue, micRequests, cleared⟩ := streamClearRx_changes machine.rx machine
      simp only [rateEffect, cleared]
      split
      · exact ⟨rfl, rfl, rfl, rfl, rfl⟩
      · exact SameRates.refl machine
  | clearTx =>
      obtain ⟨spkQueue, playing, cleared⟩ := streamClearTx_changes machine.tx machine
      simp only [rateEffect, cleared]
      split
      · exact ⟨rfl, rfl, rfl, rfl, rfl⟩
      · exact SameRates.refl machine
  | clearMicQueue | clearSpkQueue | setSpkRequest request rest | pushSpkRequest request rest
  | setMicRequest request rest | enqueueMicRequest request rest =>
      simp only [rateEffect]
      split
      · exact ⟨rfl, rfl, rfl, rfl, rfl⟩
      · exact SameRates.refl machine

/-! ## Steps -/

section Steps

variable {package : StreamPackage} {machine next : Machine}

theorem RateTracked.same (tracked : RateTracked machine) (same : SameRates machine next)
    (samePhase : phase next.control = phase machine.control)
    (notClear : ∀ rate, next.control = .clearRateChanged rate →
      machine.control = .clearRateChanged rate) : RateTracked next := by
  refine ⟨?_, ?_, ?_, ?_, ?_, ?_⟩
  · rw [same.listening, same.rateChanged, same.reported]
    exact tracked.silent
  · rw [samePhase, same.listening]
    exact tracked.starting
  · rw [samePhase, same.rateChanged]
    exact tracked.changing
  · rw [samePhase, same.rateChanged, same.updated]
    exact tracked.awake
  · rw [same.rateChanged, same.reported, same.audioRate]
    exact tracked.applied
  · intro rate control
    rw [same.audioRate]
    exact tracked.carried rate (notClear rate control)

/-- A step of the callback that reports no rate may wake the loop. -/
structure Wakes (before after : Machine) : Prop where
  reported : after.reported = before.reported
  rateChanged : after.event.rateChanged = before.event.rateChanged
  updated : before.state.updated = true → after.state.updated = true
  audioRate : after.audioRate = before.audioRate
  listening : after.listening = before.listening
  control : after.control = before.control

theorem RateTracked.wakes (tracked : RateTracked machine) (wakes : Wakes machine next) :
    RateTracked next := by
  refine ⟨?_, ?_, ?_, ?_, ?_, ?_⟩
  · rw [wakes.listening, wakes.rateChanged, wakes.reported]
    exact tracked.silent
  · rw [wakes.control, wakes.listening]
    exact tracked.starting
  · rw [wakes.control, wakes.rateChanged]
    exact tracked.changing
  · rw [wakes.control, wakes.rateChanged]
    intro idle flag
    exact wakes.updated (tracked.awake idle flag)
  · rw [wakes.rateChanged, wakes.reported, wakes.audioRate]
    exact tracked.applied
  · rw [wakes.control, wakes.audioRate]
    exact tracked.carried

theorem uacDataReceived_wakes (package : StreamPackage) (available : Nat) (machine : Machine) :
    Wakes machine (uacDataReceived package available machine) := by
  obtain ⟨dataReceived, updated, changed, keeps⟩ :=
    uacDataReceived_changes package available machine
  rw [changed]
  exact ⟨rfl, rfl, keeps, rfl, rfl, rfl⟩

theorem uacStartOfFrame_wakes (highSpeed : Bool) (machine : Machine) :
    Wakes machine (uacStartOfFrame highSpeed machine) := by
  refine ⟨rfl, rfl, ?_, rfl, rfl, rfl⟩
  intro updated
  show (machine.state.updated || _) = true
  rw [updated, Bool.true_or]

theorem uacSuspended_wakes (suspended : Bool) (machine : Machine) :
    Wakes machine (uacSuspended suspended machine) := by
  obtain ⟨nowSuspended, updated, changed, keeps⟩ := uacSuspended_changes suspended machine
  rw [changed]
  exact ⟨rfl, rfl, keeps, rfl, rfl, rfl⟩

/-- A report leaves its flag and the wake-up behind. -/
theorem uacRate_tracked (rate : Nat) (listening : machine.listening = true)
    (tracked : RateTracked machine) : RateTracked (uacRate rate machine) := by
  refine ⟨?_, tracked.starting, fun _ => rfl, fun _ _ => rfl, nofun, tracked.carried⟩
  intro silent
  exact absurd (listening.symm.trans silent) (by simp)

theorem onUacEvent_tracked (event : UacEvent) (listening : machine.listening = true)
    (tracked : RateTracked machine) : RateTracked (onUacEvent package event machine) := by
  have received := uacDataReceived_wakes package event.available machine
  have afterFrame : ∃ framed, framed = (if event.startOfFrame then
      uacStartOfFrame event.highSpeed (uacDataReceived package event.available machine)
      else uacDataReceived package event.available machine) ∧
      framed.listening = true ∧ RateTracked framed := by
    refine ⟨_, rfl, ?_⟩
    split
    · have wakes := uacStartOfFrame_wakes event.highSpeed
        (uacDataReceived package event.available machine)
      exact ⟨wakes.listening.trans (received.listening.trans listening),
        (tracked.wakes received).wakes wakes⟩
    · exact ⟨received.listening.trans listening, tracked.wakes received⟩
  obtain ⟨framed, isFramed, framedListening, framedTracked⟩ := afterFrame
  unfold onUacEvent
  dsimp only
  rw [← isFramed]
  cases event.rate with
  | none => exact framedTracked.wakes (uacSuspended_wakes event.suspended framed)
  | some rate =>
      exact (uacRate_tracked rate framedListening framedTracked).wakes
        (uacSuspended_wakes event.suspended (uacRate rate framed))

/-- The statements of `changeRate`; the last one applies the rate. -/
theorem changeRate_tracked (statement : RateStatement) (rate : Nat) (caller : Caller)
    (here : machine.control = .changeRate statement rate caller)
    (tracked : RateTracked machine) :
    RateTracked { rateEffect package machine rate statement with
      control := rateNext rate caller statement } := by
  by_cases sets : statement = .setRate
  · rw [sets] at here ⊢
    cases caller with
    | start =>
        have quiet := tracked.starting (by rw [here]; rfl)
        obtain ⟨noFlag, noReport⟩ := tracked.silent quiet
        refine ⟨fun _ => ⟨noFlag, noReport⟩, fun _ => quiet, nofun, nofun, ?_, nofun⟩
        intro _ reported isReported
        exact absurd (noReport.symm.trans isReported) (by simp)
    | loop =>
        have flag := tracked.changing (by rw [here]; rfl)
        refine ⟨?_, nofun, fun _ => flag, nofun, ?_, ?_⟩
        · intro quiet
          exact tracked.silent quiet
        · intro noFlag
          exact absurd (noFlag.symm.trans flag) (by simp)
        · intro applied control
          cases control
          rfl
  · have same := rateEffect_sameRates package machine rate statement sets
    apply RateTracked.same tracked
    · exact ⟨same.reported, same.rateChanged, same.updated, same.audioRate, same.listening⟩
    · rw [here]
      cases statement with
      | setRate => exact absurd rfl sets
      | _ => cases caller <;> rfl
    · intro applied control
      cases statement with
      | setRate => exact absurd rfl sets
      | _ => cases control

theorem mainStep_idle (count : Nat) (idle : phase machine.control = .idle)
    (awake : machine.control ≠ .clearUpdated) (taken : mainStep package count machine = some next) :
    SameRates machine next ∧ phase next.control = .idle := by
  cases here : machine.control with
  | changeRate statement rate caller => cases caller <;> simp [here, phase] at idle
  | clearUpdated => exact absurd here awake
  | setCallback | checkRateChanged | readRate | clearRateChanged rate => simp [here, phase] at idle
  | clearMicLength request | returnMicRequest request | clearStartOfFrame
  | popSpkRequest request | sendSpkRequest request | setPlaying | clearDataReceived =>
      simp only [mainStep, here] at taken
      cases taken
      exact ⟨⟨rfl, rfl, rfl, rfl, rfl⟩, rfl⟩
  | wait | checkStartOfFrame | checkMicQueue | writeMicRequest request | checkDataReceived
  | checkSpkQueue =>
      simp only [mainStep, here] at taken
      cases taken
      refine ⟨⟨rfl, rfl, rfl, rfl, rfl⟩, ?_⟩
      dsimp only
      split <;> rfl
  | takeMicRequest =>
      simp only [mainStep, here] at taken
      split at taken
      · simp at taken
      · cases taken
        exact ⟨⟨rfl, rfl, rfl, rfl, rfl⟩, rfl⟩
  | frontSpkRequest =>
      simp only [mainStep, here] at taken
      obtain ⟨request, _, rfl⟩ := Option.map_eq_some_iff.mp taken
      exact ⟨⟨rfl, rfl, rfl, rfl, rfl⟩, rfl⟩
  | readSpkRequest request =>
      simp only [mainStep, here] at taken
      split at taken
      · cases taken
        refine ⟨⟨rfl, rfl, rfl, rfl, rfl⟩, ?_⟩
        dsimp only
        split <;> rfl
      · simp at taken

theorem mainStep_tracked (count : Nat)
    (latest : ∀ rate, machine.control = .clearRateChanged rate → machine.reported = some rate)
    (tracked : RateTracked machine) (taken : mainStep package count machine = some next) :
    RateTracked next := by
  cases here : machine.control with
  | changeRate statement rate caller =>
      simp only [mainStep, here] at taken
      cases taken
      exact changeRate_tracked statement rate caller here tracked
  | setCallback =>
      simp only [mainStep, here] at taken
      cases taken
      obtain ⟨noFlag, noReport⟩ := tracked.silent (tracked.starting (by rw [here]; rfl))
      refine ⟨nofun, nofun, nofun, ?_, ?_, nofun⟩
      · intro _ flag
        exact absurd (noFlag.symm.trans flag) (by simp)
      · intro _ reported isReported
        exact absurd (noReport.symm.trans isReported) (by simp)
  | clearUpdated =>
      simp only [mainStep, here] at taken
      cases taken
      exact ⟨tracked.silent, nofun, nofun, nofun, tracked.applied, nofun⟩
  | checkRateChanged =>
      simp only [mainStep, here] at taken
      cases taken
      cases flag : machine.event.rateChanged with
      | true =>
          have applied := tracked.applied
          exact ⟨tracked.silent, nofun, fun _ => flag, nofun, applied, nofun⟩
      | false =>
          have noFlag : ∀ proposition : Prop, machine.event.rateChanged = true → proposition :=
            fun _ isSet => absurd (flag.symm.trans isSet) (by simp)
          exact ⟨tracked.silent, nofun, nofun, fun _ isSet => noFlag _ isSet, tracked.applied,
            nofun⟩
  | readRate =>
      simp only [mainStep, here] at taken
      obtain ⟨rate, _, same⟩ := Option.map_eq_some_iff.mp taken
      rw [← same]
      apply RateTracked.same tracked
      · exact ⟨rfl, rfl, rfl, rfl, rfl⟩
      · rw [here]
        rfl
      · nofun
  | clearRateChanged rate =>
      simp only [mainStep, here] at taken
      cases taken
      have current := latest rate here
      have applied := tracked.carried rate here
      refine ⟨?_, nofun, nofun, nofun, ?_, nofun⟩
      · intro silent
        exact ⟨rfl, (tracked.silent silent).2⟩
      · intro _ reported isReported
        rw [← isReported, current]
        exact applied
  | _ =>
      obtain ⟨same, idle⟩ := mainStep_idle count (by rw [here]; rfl) (by simp [here]) taken
      apply RateTracked.same tracked same
      · rw [idle, here]
        rfl
      · intro rate control
        rw [control] at idle
        cases idle

end Steps

/-! ## Every run -/

theorem step_tracked (package : StreamPackage) (machine : Machine) (label : Label)
    (next : Machine) (tracked : RateTracked machine) (latest : LatestApplied machine label)
    (taken : step package machine label = some next) : RateTracked next := by
  cases label with
  | main count =>
      apply mainStep_tracked count _ tracked taken
      intro rate here
      exact latest rate (by rw [here]; rfl)
  | rxComplete status length =>
      obtain ⟨request, rest, _, _, rfl⟩ := step_rxComplete taken
      obtain ⟨rx, micQueue, micRequests, changed⟩ := onDataReceived_changes
        ({ machine with rx := rest }.setMicLength request length) request status
      rw [changed]
      apply RateTracked.same tracked
      · exact ⟨rfl, rfl, rfl, rfl, rfl⟩
      · rfl
      · exact fun rate same => same
  | txComplete =>
      obtain ⟨request, rest, _, rfl⟩ := step_txComplete taken
      obtain ⟨spkQueue, playing, changed⟩ := onDataSent_changes { machine with tx := rest } request
      rw [changed]
      apply RateTracked.same tracked
      · exact ⟨rfl, rfl, rfl, rfl, rfl⟩
      · rfl
      · exact fun rate same => same
  | uac event =>
      obtain ⟨listening, rfl⟩ := step_uac taken
      exact onUacEvent_tracked event listening tracked

/-- In every run in which the flag is only cleared while the latest report is the
rate that was read, the loop waits on no other rate. -/
theorem rate_changes_applied (package : StreamPackage) (first : Nat) (labels : List Label)
    (final : Machine)
    (latest : Schedule.Along (step package) LatestApplied labels (initialMachine first))
    (done : Schedule.run (step package) labels (initialMachine first) = some final)
    (waiting : final.control = .wait) (quiet : final.state.updated = false)
    (rate : Nat) (reported : final.reported = some rate) : final.audioRate = some rate := by
  have start : RateTracked (initialMachine first) :=
    ⟨fun _ => ⟨rfl, rfl⟩, fun _ => rfl, nofun, nofun, nofun, nofun⟩
  have tracked := Schedule.run_preserves (step package) LatestApplied RateTracked
    (step_tracked package) labels _ final start latest done
  have noFlag : final.event.rateChanged = false := by
    cases flag : final.event.rateChanged with
    | false => rfl
    | true =>
        have awake := tracked.awake (by rw [waiting]; rfl) flag
        exact absurd (quiet.symm.trans awake) (by simp)
  exact tracked.applied noFlag rate reported

/-- A report of the rate, and nothing else. -/
def rateReport (rate : Nat) : UacEvent :=
  { startOfFrame := false, rate := some rate, suspended := true, available := 0
    highSpeed := false }

/-- 44100 Hz is reported twice, the second time while the change is under way. -/
def repeatedReportLabels : List Label :=
  startLabels ++ [.uac (rateReport 44100)] ++ List.replicate 10 (.main 0) ++
    [.uac (rateReport 44100)] ++ List.replicate 28 (.main 0)

theorem rate_changes_applied_repeated :
    ∃ final, Schedule.run (step bothStreams) repeatedReportLabels (initialMachine 48000) =
        some final ∧
      final.reported = some 44100 ∧ final.audioRate = some 44100 := by
  have waits : (Schedule.run (step bothStreams) repeatedReportLabels
      (initialMachine 48000)).map
        (fun final => (final.control, final.state.updated, final.reported)) =
      some (.wait, false, some 44100) := by decide +kernel
  obtain ⟨final, done, view⟩ := Option.map_eq_some_iff.mp waits
  obtain ⟨waiting, flags⟩ := Prod.mk.inj view
  obtain ⟨quiet, reported⟩ := Prod.mk.inj flags
  have latest : Schedule.Along (step bothStreams) LatestApplied repeatedReportLabels
      (initialMachine 48000) := by decide +kernel
  exact ⟨final, done, reported,
    rate_changes_applied bothStreams 48000 repeatedReportLabels final latest done waiting quiet
      44100 reported⟩

/-- 48000 Hz is reported while 44100 Hz is being applied. -/
def overtakenReportLabels : List Label :=
  startLabels ++ [.uac (rateReport 44100)] ++ List.replicate 10 (.main 0) ++
    [.uac (rateReport 48000)] ++ List.replicate 28 (.main 0)

/-- The loop waits with 44100 Hz although 48000 Hz was reported last. -/
theorem overtaken_report_lost :
    ∃ final, Schedule.run (step bothStreams) overtakenReportLabels (initialMachine 48000) =
        some final ∧
      final.control = .wait ∧ final.state.updated = false ∧
      final.reported = some 48000 ∧ final.audioRate = some 44100 := by
  have waits : (Schedule.run (step bothStreams) overtakenReportLabels
      (initialMachine 48000)).map
        (fun final => (final.control, final.state.updated, final.reported, final.audioRate)) =
      some (.wait, false, some 48000, some 44100) := by decide +kernel
  obtain ⟨final, done, view⟩ := Option.map_eq_some_iff.mp waits
  obtain ⟨waiting, flags⟩ := Prod.mk.inj view
  obtain ⟨quiet, rates⟩ := Prod.mk.inj flags
  obtain ⟨reported, applied⟩ := Prod.mk.inj rates
  exact ⟨final, done, waiting, quiet, reported, applied⟩

end HalmExamples.UsbUac
