import HalmExamples.Foundation.Custody
import HalmExamples.UsbUac.Program

/-!
# Ownership of the microphone requests

Every microphone request is in the receive stream, in the queue, in the hand of
`main` or still to be set up by `changeRate`.  Interrupts only move requests
between the stream and the queue.  Clearing the queue keeps the account only if
the stream is empty: what it holds is pushed to the queue again when the stream
is cleared afterwards.
-/

set_option autoImplicit false

namespace HalmExamples.UsbUac

open Foundation

/-- The requests that are in neither list, unless `changeRate` is about to clear
the queue. -/
def absent : Control → Option (List RequestId)
  | .changeRate .setChunk _ _ => none
  | .changeRate .clearMicQueue _ _ => none
  | .changeRate .clearRx _ _ => some (List.finRange bufferCount)
  | .changeRate .clearTx _ _ => some (List.finRange bufferCount)
  | .changeRate .clearSpkQueue _ _ => some (List.finRange bufferCount)
  | .changeRate (.setSpkRequest request rest) _ _ => some (request :: rest)
  | .changeRate (.pushSpkRequest request rest) _ _ => some (request :: rest)
  | .changeRate (.setMicRequest request rest) _ _ => some (request :: rest)
  | .changeRate (.enqueueMicRequest request rest) _ _ => some (request :: rest)
  | .writeMicRequest request => some [request]
  | .clearMicLength request => some [request]
  | .returnMicRequest request => some [request]
  | _ => some []

def Accounted (machine : Machine) : Prop :=
  ∀ outside, absent machine.control = some outside → ∀ request,
    machine.rx.count request + machine.micQueue.count request + outside.count request = 1

def clearsMicQueue : Control → Label → Bool
  | .changeRate .clearMicQueue _ _, .main _ => true
  | _, _ => false

/-- No request is pending in the receive stream when its queue is cleared. -/
def DrainedBeforeClear (machine : Machine) (label : Label) : Prop :=
  clearsMicQueue machine.control label = true → machine.rx = []

instance (machine : Machine) (label : Label) : Decidable (DrainedBeforeClear machine label) :=
  inferInstanceAs (Decidable (clearsMicQueue machine.control label = true → machine.rx = []))

/-! ## Room in the stream -/

theorem Accounted.length {machine : Machine} (accounted : Accounted machine)
    (outside : List RequestId) (isAbsent : absent machine.control = some outside) :
    machine.rx.length + machine.micQueue.length + outside.length = bufferCount := by
  have once : ∀ request, (machine.rx ++ machine.micQueue ++ outside).count request = 1 := by
    intro request
    rw [List.count_append, List.count_append]
    exact accounted outside isAbsent request
  have total := length_eq_of_count_one _ once
  rwa [List.length_append, List.length_append] at total

theorem streamEnqueue_count (stream : List RequestId) (request other : RequestId)
    (room : stream.length < bufferCount) :
    (streamEnqueue stream request).count other =
      stream.count other + [request].count other :=
  enqueue_count bufferCount stream request other room

/-! ## Interrupts -/

/-- The oldest requests of the queue go back to the stream. -/
theorem dropOutdated_splits (queue : List RequestId) (machine : Machine)
    (room : machine.rx.length + queue.length ≤ bufferCount) :
    ∃ dropped kept, queue = dropped ++ kept ∧ kept.length ≤ bufferCount / 2 ∧
      (dropOutdated queue machine).rx = machine.rx ++ dropped ∧
      (dropOutdated queue machine).micQueue = kept := by
  induction queue generalizing machine with
  | nil => exact ⟨[], [], rfl, Nat.zero_le _, (List.append_nil _).symm, rfl⟩
  | cons outdated rest ih =>
      rw [List.length_cons] at room
      unfold dropOutdated
      split
      · have enqueued : streamEnqueue machine.rx outdated = machine.rx ++ [outdated] :=
          enqueue_of_room _ _ _ (by omega)
        obtain ⟨dropped, kept, isRest, few, rx, micQueue⟩ := ih
          { machine.setMicLength outdated 0 with rx := streamEnqueue machine.rx outdated } (by
            show (streamEnqueue machine.rx outdated).length + rest.length ≤ bufferCount
            rw [enqueued, List.length_append, List.length_singleton]
            omega)
        refine ⟨outdated :: dropped, kept, by rw [isRest, List.cons_append], few, ?_, micQueue⟩
        rw [rx]
        show streamEnqueue machine.rx outdated ++ dropped = _
        rw [enqueued, List.append_assoc, List.singleton_append]
      · exact ⟨[], outdated :: rest, rfl, by omega, (List.append_nil _).symm, rfl⟩

theorem onDataReceived_count (machine : Machine) (request other : RequestId)
    (status : RequestStatus)
    (room : machine.rx.length + machine.micQueue.length ≤ bufferCount) :
    (onDataReceived machine request status).rx.count other +
        (onDataReceived machine request status).micQueue.count other =
      machine.rx.count other + machine.micQueue.count other + [request].count other := by
  unfold onDataReceived
  dsimp only
  rw [List.count_append]
  by_cases cancelled : status = .cancelled
  · rw [if_neg (not_not.mpr cancelled)]
    show machine.rx.count other + (machine.micQueue.count other + _) = _
    omega
  · rw [if_pos cancelled]
    obtain ⟨dropped, kept, queue, _, rx, micQueue⟩ :=
      dropOutdated_splits machine.micQueue machine room
    rw [rx, micQueue, List.count_append]
    rw [queue, List.count_append]
    omega

/-- What the account of the microphone requests depends on. -/
structure SameMicrophone (before after : Machine) : Prop where
  rx : after.rx = before.rx
  micQueue : after.micQueue = before.micQueue
  control : after.control = before.control

theorem SameMicrophone.accounted {before after : Machine} (same : SameMicrophone before after)
    (accounted : Accounted before) : Accounted after := by
  intro outside isAbsent request
  rw [same.control] at isAbsent
  rw [same.rx, same.micQueue]
  exact accounted outside isAbsent request

theorem onDataSent_sameMicrophone (machine : Machine) (request : RequestId) :
    SameMicrophone machine (onDataSent machine request) := by
  obtain ⟨spkQueue, playing, changed⟩ := onDataSent_changes machine request
  rw [changed]
  exact ⟨rfl, rfl, rfl⟩

theorem onUacEvent_sameMicrophone (package : StreamPackage) (event : UacEvent)
    (machine : Machine) : SameMicrophone machine (onUacEvent package event machine) := by
  obtain ⟨frame, events, suspended, updated, reported, changed, _⟩ :=
    onUacEvent_changes package event machine
  rw [changed]
  exact ⟨rfl, rfl, rfl⟩

/-- A completion moves requests between the stream and the queue, wherever `main` is. -/
theorem rxComplete_accounted (machine : Machine) (request : RequestId) (rest : List RequestId)
    (pending : machine.rx = request :: rest) (length : Nat) (status : RequestStatus)
    (accounted : Accounted machine) :
    Accounted (onDataReceived ({ machine with rx := rest }.setMicLength request length) request
      status) := by
  intro outside isAbsent other
  obtain ⟨rx, micQueue, micRequests, changed⟩ :=
    onDataReceived_changes ({ machine with rx := rest }.setMicLength request length) request status
  replace isAbsent : absent machine.control = some outside := by
    rw [changed] at isAbsent
    exact isAbsent
  have total := accounted.length outside isAbsent
  have before := accounted outside isAbsent other
  rw [pending, List.length_cons] at total
  rw [pending, count_cons_split] at before
  have moved := onDataReceived_count ({ machine with rx := rest }.setMicLength request length)
    request other status (by
      show rest.length + machine.micQueue.length ≤ bufferCount
      omega)
  rw [moved]
  show rest.count other + machine.micQueue.count other + [request].count other +
    outside.count other = 1
  omega

/-! ## Statements -/

section Statements

variable {package : StreamPackage} {machine next : Machine}

/-- A statement that moves nothing keeps the account if nothing else is absent. -/
theorem accounted_of_absent_eq (accounted : Accounted machine) (sameRx : next.rx = machine.rx)
    (sameQueue : next.micQueue = machine.micQueue)
    (sameAbsent : absent next.control = absent machine.control ∨ absent next.control = none) :
    Accounted next := by
  intro outside isAbsent request
  rcases sameAbsent with same | unknown
  · rw [same] at isAbsent
    rw [sameRx, sameQueue]
    exact accounted outside isAbsent request
  · rw [unknown] at isAbsent
    exact absurd isAbsent (by simp)

theorem absent_nextRequest (rest : List RequestId) (rate : Nat) (caller : Caller) :
    absent (.changeRate (nextRequest rest) rate caller) = some rest := by
  cases rest with
  | nil => rfl
  | cons request later => rfl

/-- Clearing a queue whose stream is empty leaves every request to be set up. -/
theorem clearMicQueue_accounted (recording : package.rx = true) (rate : Nat) (caller : Caller)
    (drained : machine.rx = []) :
    Accounted { rateEffect package machine rate .clearMicQueue with
      control := rateNext rate caller .clearMicQueue } := by
  intro outside isAbsent request
  cases isAbsent
  simp only [rateEffect, recording, if_true]
  rw [drained, count_finRange]
  rfl

theorem clearRx_accounted (rate : Nat) (caller : Caller)
    (here : machine.control = .changeRate .clearRx rate caller) (accounted : Accounted machine) :
    Accounted { rateEffect package machine rate .clearRx with
      control := rateNext rate caller .clearRx } := by
  have total := accounted.length (List.finRange bufferCount) (by rw [here]; rfl)
  rw [List.length_finRange] at total
  have noRx : machine.rx = [] := List.eq_nil_of_length_eq_zero (by omega)
  have noQueue : machine.micQueue = [] := List.eq_nil_of_length_eq_zero (by omega)
  intro outside isAbsent request
  cases isAbsent
  simp only [rateEffect, noRx, streamClearRx]
  split
  · simp [noQueue]
  · simp [noRx, noQueue]

theorem enqueueMicRequest_accounted (recording : package.rx = true) (request : RequestId)
    (rest : List RequestId) (rate : Nat) (caller : Caller)
    (here : machine.control = .changeRate (.enqueueMicRequest request rest) rate caller)
    (accounted : Accounted machine) :
    Accounted { rateEffect package machine rate (.enqueueMicRequest request rest) with
      control := rateNext rate caller (.enqueueMicRequest request rest) } := by
  have isAbsent : absent machine.control = some (request :: rest) := by rw [here]; rfl
  have total := accounted.length _ isAbsent
  rw [List.length_cons] at total
  intro outside nextAbsent other
  have outsideRest : outside = rest :=
    (Option.some.inj ((absent_nextRequest rest rate caller).symm.trans nextAbsent)).symm
  have before := accounted _ isAbsent other
  rw [count_cons_split] at before
  rw [outsideRest]
  simp only [rateEffect, recording, if_true]
  rw [streamEnqueue_count machine.rx request other (by omega)]
  omega

theorem changeRate_still (package : StreamPackage) (machine : Machine) (statement : RateStatement)
    (rate : Nat) (caller : Caller) (notClearQueue : statement ≠ .clearMicQueue)
    (notClearRx : statement ≠ .clearRx)
    (notEnqueue : ∀ request rest, statement ≠ .enqueueMicRequest request rest) :
    (rateEffect package machine rate statement).rx = machine.rx ∧
      (rateEffect package machine rate statement).micQueue = machine.micQueue ∧
      (absent (rateNext rate caller statement) = absent (.changeRate statement rate caller) ∨
        absent (rateNext rate caller statement) = none) := by
  cases statement with
  | setChunk => exact ⟨rfl, rfl, Or.inr rfl⟩
  | clearMicQueue => exact absurd rfl notClearQueue
  | clearRx => exact absurd rfl notClearRx
  | clearTx =>
      obtain ⟨spkQueue, playing, cleared⟩ := streamClearTx_changes machine.tx machine
      simp only [rateEffect, cleared]
      split
      · exact ⟨rfl, rfl, Or.inl rfl⟩
      · exact ⟨rfl, rfl, Or.inl rfl⟩
  | clearSpkQueue =>
      have noneLeft := absent_nextRequest (List.finRange bufferCount) rate caller
      simp only [rateEffect]
      split
      · exact ⟨rfl, rfl, Or.inl noneLeft⟩
      · exact ⟨rfl, rfl, Or.inl noneLeft⟩
  | setSpkRequest request rest =>
      simp only [rateEffect]
      split
      · exact ⟨rfl, rfl, Or.inl rfl⟩
      · exact ⟨rfl, rfl, Or.inl rfl⟩
  | pushSpkRequest request rest =>
      simp only [rateEffect]
      split
      · exact ⟨rfl, rfl, Or.inl rfl⟩
      · exact ⟨rfl, rfl, Or.inl rfl⟩
  | setMicRequest request rest =>
      simp only [rateEffect]
      split
      · exact ⟨rfl, rfl, Or.inl rfl⟩
      · exact ⟨rfl, rfl, Or.inl rfl⟩
  | enqueueMicRequest request rest => exact absurd rfl (notEnqueue request rest)
  | setRate =>
      cases caller with
      | start => exact ⟨rfl, rfl, Or.inl rfl⟩
      | loop => exact ⟨rfl, rfl, Or.inl rfl⟩

theorem changeRate_accounted (recording : package.rx = true) (statement : RateStatement)
    (rate : Nat) (caller : Caller)
    (here : machine.control = .changeRate statement rate caller)
    (drained : statement = .clearMicQueue → machine.rx = []) (accounted : Accounted machine) :
    Accounted { rateEffect package machine rate statement with
      control := rateNext rate caller statement } := by
  by_cases clearsQueue : statement = .clearMicQueue
  · rw [clearsQueue]
    exact clearMicQueue_accounted recording rate caller (drained clearsQueue)
  by_cases clearsRx : statement = .clearRx
  · rw [clearsRx] at here ⊢
    exact clearRx_accounted rate caller here accounted
  by_cases enqueues : ∃ request rest, statement = .enqueueMicRequest request rest
  · obtain ⟨request, rest, same⟩ := enqueues
    rw [same] at here ⊢
    exact enqueueMicRequest_accounted recording request rest rate caller here accounted
  · have notEnqueue : ∀ request rest, statement ≠ .enqueueMicRequest request rest :=
      fun request rest same => enqueues ⟨request, rest, same⟩
    obtain ⟨sameRx, sameQueue, sameAbsent⟩ :=
      changeRate_still package machine statement rate caller clearsQueue clearsRx notEnqueue
    rw [← here] at sameAbsent
    exact accounted_of_absent_eq accounted sameRx sameQueue sameAbsent

theorem mainStep_accounted (recording : package.rx = true) (count : Nat)
    (drained : ∀ rate caller, machine.control = .changeRate .clearMicQueue rate caller →
      machine.rx = [])
    (accounted : Accounted machine) (taken : mainStep package count machine = some next) :
    Accounted next := by
  unfold mainStep at taken
  cases here : machine.control with
  | changeRate statement rate caller =>
      simp only [here] at taken
      cases taken
      apply changeRate_accounted recording statement rate caller here _ accounted
      intro clears
      exact drained rate caller (clears ▸ here)
  | takeMicRequest =>
      simp only [here] at taken
      cases queue : machine.micQueue with
      | nil => simp [queue] at taken
      | cons request rest =>
          simp only [queue] at taken
          cases taken
          intro outside isAbsent other
          cases isAbsent
          have before := accounted [] (by rw [here]; rfl) other
          rw [queue, count_cons_split] at before
          simp only [List.count_nil] at before
          show machine.rx.count other + rest.count other + [request].count other = 1
          omega
  | returnMicRequest request =>
      simp only [here] at taken
      cases taken
      have isAbsent : absent machine.control = some [request] := by rw [here]; rfl
      have total := accounted.length _ isAbsent
      rw [List.length_singleton] at total
      intro outside nextAbsent other
      cases nextAbsent
      have before := accounted _ isAbsent other
      show (streamEnqueue machine.rx request).count other + machine.micQueue.count other + 0 = 1
      rw [streamEnqueue_count machine.rx request other (by omega)]
      omega
  | setCallback | clearUpdated | clearRateChanged rate | clearMicLength request
  | clearStartOfFrame | popSpkRequest request | sendSpkRequest request | setPlaying
  | clearDataReceived =>
      simp only [here] at taken
      cases taken
      refine accounted_of_absent_eq accounted rfl rfl (Or.inl ?_)
      rw [here]
      rfl
  | wait | checkRateChanged | checkStartOfFrame | checkMicQueue | writeMicRequest request
  | checkDataReceived | checkSpkQueue =>
      simp only [here] at taken
      cases taken
      refine accounted_of_absent_eq accounted rfl rfl (Or.inl ?_)
      rw [here]
      dsimp only
      split
      · rfl
      · rfl
  | readRate =>
      simp only [here] at taken
      obtain ⟨rate, _, same⟩ := Option.map_eq_some_iff.mp taken
      rw [← same]
      exact accounted_of_absent_eq accounted rfl rfl (Or.inr rfl)
  | frontSpkRequest =>
      simp only [here] at taken
      obtain ⟨request, _, same⟩ := Option.map_eq_some_iff.mp taken
      rw [← same]
      refine accounted_of_absent_eq accounted rfl rfl (Or.inl ?_)
      rw [here]
      rfl
  | readSpkRequest request =>
      simp only [here] at taken
      split at taken
      · cases taken
        refine accounted_of_absent_eq accounted rfl rfl (Or.inl ?_)
        rw [here]
        dsimp only
        split
        · rfl
        · rfl
      · simp at taken

end Statements

/-! ## Every run -/

theorem step_accounted (package : StreamPackage) (recording : package.rx = true)
    (machine : Machine) (label : Label) (next : Machine) (accounted : Accounted machine)
    (drained : DrainedBeforeClear machine label) (taken : step package machine label = some next) :
    Accounted next := by
  cases label with
  | main count =>
      apply mainStep_accounted recording count _ accounted taken
      intro rate caller here
      exact drained (by rw [here]; rfl)
  | rxComplete status length =>
      obtain ⟨request, rest, pending, _, rfl⟩ := step_rxComplete taken
      exact rxComplete_accounted machine request rest pending length status accounted
  | txComplete =>
      obtain ⟨request, rest, _, rfl⟩ := step_txComplete taken
      have same := onDataSent_sameMicrophone { machine with tx := rest } request
      exact SameMicrophone.accounted ⟨same.rx, same.micQueue, same.control⟩ accounted
  | uac event =>
      obtain ⟨_, rfl⟩ := step_uac taken
      exact (onUacEvent_sameMicrophone package event machine).accounted accounted

/-- In every run in which the queue is only cleared while the stream is empty, each
request is in the stream or the queue once, whenever `main` is at its loop. -/
theorem mic_requests_owned_once (package : StreamPackage) (recording : package.rx = true)
    (rate : Nat) (labels : List Label) (final : Machine)
    (drained : Schedule.Along (step package) DrainedBeforeClear labels (initialMachine rate))
    (done : Schedule.run (step package) labels (initialMachine rate) = some final)
    (boundary : final.control = .wait) (request : RequestId) :
    (final.rx ++ final.micQueue).count request = 1 := by
  have start : Accounted (initialMachine rate) := by
    intro outside isAbsent
    exact absurd isAbsent (by simp [initialMachine, absent])
  have accounted := Schedule.run_preserves (step package) DrainedBeforeClear Accounted
    (step_accounted package recording) labels _ final start drained done
  have once := accounted [] (by rw [boundary]; rfl) request
  rw [List.count_append]
  exact once

/-- After the start, one recorded chunk goes to the host on a start of frame. -/
def recordLabels : List Label :=
  startLabels ++ [.rxComplete .completed 192,
    .uac { startOfFrame := true, rate := none, suspended := true, available := 0,
           highSpeed := false }] ++ List.replicate 11 (.main 0)

theorem mic_requests_owned_once_recording :
    ∃ final, Schedule.run (step bothStreams) recordLabels (initialMachine 48000) = some final ∧
      final.rx = [1, 2, 3, 4, 0] ∧ final.micQueue = [] ∧
      ∀ request, (final.rx ++ final.micQueue).count request = 1 := by
  have waits : (Schedule.run (step bothStreams) recordLabels (initialMachine 48000)).map
      (fun final => (final.control, final.rx, final.micQueue)) =
        some (.wait, [1, 2, 3, 4, 0], []) := by decide +kernel
  obtain ⟨final, done, view⟩ := Option.map_eq_some_iff.mp waits
  obtain ⟨boundary, lists⟩ := Prod.mk.inj view
  obtain ⟨stream, queue⟩ := Prod.mk.inj lists
  have drained : Schedule.Along (step bothStreams) DrainedBeforeClear recordLabels
      (initialMachine 48000) := by decide +kernel
  exact ⟨final, done, stream, queue,
    mic_requests_owned_once bothStreams rfl 48000 recordLabels final drained done boundary⟩

/-- A change to 44100 Hz while the loop is idle. -/
def rateChangeLabels : List Label :=
  startLabels ++ [.uac { startOfFrame := false, rate := some 44100, suspended := true,
                         available := 0, highSpeed := false }] ++
    List.replicate 33 (.main 0)

/-- Every request is cancelled into the queue and enqueued again: it is owned twice. -/
theorem rate_change_owns_twice :
    ∃ final, Schedule.run (step bothStreams) rateChangeLabels (initialMachine 48000) =
        some final ∧
      final.control = .wait ∧ ∀ request, (final.rx ++ final.micQueue).count request = 2 := by
  have waits : (Schedule.run (step bothStreams) rateChangeLabels (initialMachine 48000)).map
      (fun final => (final.control, final.rx, final.micQueue)) =
        some (.wait, [0, 1, 2, 3, 4], [0, 1, 2, 3, 4]) := by decide +kernel
  obtain ⟨final, done, view⟩ := Option.map_eq_some_iff.mp waits
  obtain ⟨boundary, lists⟩ := Prod.mk.inj view
  obtain ⟨stream, queue⟩ := Prod.mk.inj lists
  refine ⟨final, done, boundary, ?_⟩
  rw [stream, queue]
  decide

end HalmExamples.UsbUac
