import HalmExamples.UsbUac.Program

/-!
# The playing flag

`onDataSent` clears `state.playing` when the stream has drained, and `main` sets it
after it has filled the stream.  A completion between the last enqueue and the
assignment is overtaken: the flag stays set with nothing to play.  Where the stream
holds a request at the assignment, the flag is true only while it does.
-/

set_option autoImplicit false

namespace HalmExamples.UsbUac

open Foundation

def setsPlaying : Control → Label → Bool
  | .setPlaying, .main _ => true
  | _, _ => false

/-- A request is pending in the transmit stream when `main` sets the flag. -/
def SendingWhenSet (machine : Machine) (label : Label) : Prop :=
  setsPlaying machine.control label = true → machine.tx ≠ []

instance (machine : Machine) (label : Label) : Decidable (SendingWhenSet machine label) :=
  inferInstanceAs (Decidable (setsPlaying machine.control label = true → machine.tx ≠ []))

def Sending (machine : Machine) : Prop := machine.state.playing = true → machine.tx ≠ []

/-! ## Completions -/

theorem onDataSent_drained (machine : Machine) (request : RequestId) (drained : machine.tx = []) :
    (onDataSent machine request).state.playing = false := by
  simp only [onDataSent, drained, List.length_nil, if_true]

theorem onDataSent_sending (machine : Machine) (request : RequestId) :
    Sending (onDataSent machine request) := by
  intro playing drained
  obtain ⟨spkQueue, stillPlaying, changed⟩ := onDataSent_changes machine request
  have empty : machine.tx = [] := by
    rw [changed] at drained
    exact drained
  rw [onDataSent_drained machine request empty] at playing
  exact Bool.false_ne_true playing

theorem streamClearTx_playing (pending : List RequestId) (machine : Machine)
    (playing : (streamClearTx pending machine).state.playing = true) :
    pending = [] ∧ machine.state.playing = true := by
  induction pending generalizing machine with
  | nil => exact ⟨rfl, playing⟩
  | cons request rest ih =>
      obtain ⟨last, stillPlaying⟩ := ih (onDataSent { machine with tx := rest } request) playing
      rw [last, onDataSent_drained _ _ rfl] at stillPlaying
      exact absurd stillPlaying Bool.false_ne_true

theorem streamEnqueue_ne_nil (stream : List RequestId) (request : RequestId) :
    streamEnqueue stream request ≠ [] := by
  rw [streamEnqueue]
  split
  · exact List.append_ne_nil_of_right_ne_nil _ (List.cons_ne_nil _ _)
  · rintro rfl
    exact absurd (show ([] : List RequestId).length < bufferCount from Nat.succ_pos 4) ‹_›

/-! ## Statements -/

section Statements

variable {package : StreamPackage} {machine next : Machine}

theorem changeRate_sending (sending : Sending machine) (statement : RateStatement)
    (rate : Nat) : Sending (rateEffect package machine rate statement) := by
  cases statement with
  | clearTx =>
      simp only [rateEffect]
      split
      · intro playing
        obtain ⟨drained, wasPlaying⟩ := streamClearTx_playing machine.tx machine playing
        exact absurd drained (sending wasPlaying)
      · exact sending
  | clearRx =>
      obtain ⟨micQueue, micRequests, cleared⟩ := streamClearRx_changes machine.rx machine
      simp only [rateEffect, cleared]
      split
      · exact sending
      · exact sending
  | setChunk | setRate => exact sending
  | clearMicQueue | clearSpkQueue | setSpkRequest request rest | pushSpkRequest request rest
  | setMicRequest request rest | enqueueMicRequest request rest =>
      simp only [rateEffect]
      split
      · exact sending
      · exact sending

theorem mainStep_sending (count : Nat) (sending : Sending machine)
    (set : machine.control = .setPlaying → machine.tx ≠ [])
    (taken : mainStep package count machine = some next) : Sending next := by
  unfold mainStep at taken
  cases here : machine.control with
  | changeRate statement rate caller =>
      simp only [here] at taken
      cases taken
      exact changeRate_sending sending statement rate
  | setPlaying =>
      simp only [here] at taken
      cases taken
      exact fun _ => set here
  | sendSpkRequest request =>
      simp only [here] at taken
      cases taken
      exact fun _ => streamEnqueue_ne_nil machine.tx request
  | takeMicRequest =>
      simp only [here] at taken
      split at taken
      · simp at taken
      · cases taken
        exact sending
  | readRate | frontSpkRequest =>
      simp only [here] at taken
      obtain ⟨_, _, same⟩ := Option.map_eq_some_iff.mp taken
      rw [← same]
      exact sending
  | readSpkRequest request =>
      simp only [here] at taken
      split at taken
      · cases taken
        exact sending
      · simp at taken
  | _ =>
      simp only [here] at taken
      cases taken
      exact sending

end Statements

/-! ## Every run -/

theorem step_sending (package : StreamPackage) (machine : Machine) (label : Label)
    (next : Machine) (sending : Sending machine) (set : SendingWhenSet machine label)
    (taken : step package machine label = some next) : Sending next := by
  cases label with
  | main count =>
      apply mainStep_sending count sending _ taken
      intro here
      exact set (by rw [here]; rfl)
  | rxComplete status length =>
      obtain ⟨request, rest, _, _, rfl⟩ := step_rxComplete taken
      obtain ⟨rx, micQueue, micRequests, changed⟩ := onDataReceived_changes
        ({ machine with rx := rest }.setMicLength request length) request status
      rw [changed]
      exact sending
  | txComplete =>
      obtain ⟨request, rest, _, rfl⟩ := step_txComplete taken
      exact onDataSent_sending _ _
  | uac event =>
      obtain ⟨_, rfl⟩ := step_uac taken
      obtain ⟨frame, events, suspended, updated, reported, changed, _⟩ :=
        onUacEvent_changes package event machine
      rw [changed]
      exact sending

/-- A stopped playback asks for data only when more than half of the buffers can be filled. -/
theorem onUacEvent_restart (package : StreamPackage) (event : UacEvent) (machine : Machine)
    (stopped : machine.state.playing = false) (quiet : machine.event.dataReceived = false)
    (asked : (onUacEvent package event machine).event.dataReceived = true) :
    machine.chunk * (bufferCount / 2) < event.available := by
  have received : (onUacEvent package event machine).event.dataReceived =
      (uacDataReceived package event.available machine).event.dataReceived := by
    simp only [onUacEvent]
    generalize uacDataReceived package event.available machine = before
    obtain ⟨suspended, updated, changed, _⟩ := uacSuspended_changes event.suspended
      (uacReported event.rate (if event.startOfFrame then uacStartOfFrame event.highSpeed before
        else before))
    rw [changed]
    cases event.startOfFrame with
    | false =>
        cases event.rate with
        | none => rfl
        | some rate => rfl
    | true =>
        cases event.rate with
        | none => rfl
        | some rate => rfl
  rw [received] at asked
  by_contra few
  simp [uacDataReceived, stopped, few, quiet] at asked

/-- In every run in which the stream holds a request whenever the flag is set, it holds
one while the flag is true, and a stopped playback waits for enough data. -/
theorem playing_flag_true (package : StreamPackage) (first : Nat) (labels : List Label)
    (final : Machine)
    (sendingWhenSet : Schedule.Along (step package) SendingWhenSet labels (initialMachine first))
    (done : Schedule.run (step package) labels (initialMachine first) = some final) :
    (final.control = .wait → final.state.updated = false → final.state.playing = true →
      final.tx ≠ []) ∧
    (∀ event next, final.state.playing = false → final.event.dataReceived = false →
      step package final (.uac event) = some next → next.event.dataReceived = true →
        final.chunk * (bufferCount / 2) < event.available) := by
  have start : Sending (initialMachine first) := nofun
  have sending := Schedule.run_preserves (step package) SendingWhenSet Sending
    (step_sending package) labels _ final start sendingWhenSet done
  refine ⟨fun _ _ => sending, fun event next stopped quiet taken asked => ?_⟩
  obtain ⟨_, rfl⟩ := step_uac taken
  exact onUacEvent_restart package event final stopped quiet asked

def dataArrival : UacEvent :=
  { startOfFrame := false, rate := none, suspended := true, available := 600
    highSpeed := false }

def sendLabels : List Label :=
  [.uac dataArrival] ++ List.replicate 5 (.main 0) ++
    List.replicate 15 (.main 192) ++ List.replicate 5 (.main 24) ++ List.replicate 3 (.main 0)

/-- The flag is set before any of the four requests has completed. -/
def playbackLabels : List Label :=
  startLabels ++ sendLabels ++ List.replicate 2 (.main 0) ++ [.txComplete]

theorem playing_flag_true_three_left :
    ∃ final, Schedule.run (step bothStreams) playbackLabels (initialMachine 48000) =
        some final ∧
      final.state.playing = true ∧ final.tx = [1, 2, 3] ∧
      ((final.control = .wait → final.state.updated = false → final.state.playing = true →
        final.tx ≠ []) ∧
      (∀ event next, final.state.playing = false → final.event.dataReceived = false →
        step bothStreams final (.uac event) = some next → next.event.dataReceived = true →
          final.chunk * (bufferCount / 2) < event.available)) := by
  have reached : (Schedule.run (step bothStreams) playbackLabels (initialMachine 48000)).map
      (fun final => (final.state.playing, final.tx)) = some (true, [1, 2, 3]) := by
    decide +kernel
  obtain ⟨final, done, view⟩ := Option.map_eq_some_iff.mp reached
  obtain ⟨playing, tx⟩ := Prod.mk.inj view
  have sendingWhenSet : Schedule.Along (step bothStreams) SendingWhenSet playbackLabels
      (initialMachine 48000) := by decide +kernel
  exact ⟨final, done, playing, tx,
    playing_flag_true bothStreams 48000 playbackLabels final sendingWhenSet done⟩

/-- All four requests complete before the flag is set. -/
def underrunLabels : List Label :=
  startLabels ++ sendLabels ++ List.replicate 4 .txComplete ++ List.replicate 2 (.main 0)

theorem playing_without_request :
    ∃ final, Schedule.run (step bothStreams) underrunLabels (initialMachine 48000) =
        some final ∧
      final.control = .wait ∧ final.state.updated = false ∧ final.state.playing = true ∧
      final.tx = [] := by
  have reached : (Schedule.run (step bothStreams) underrunLabels (initialMachine 48000)).map
      (fun final => (final.control, final.state.updated, final.state.playing, final.tx)) =
        some (.wait, false, true, []) := by decide +kernel
  obtain ⟨final, done, view⟩ := Option.map_eq_some_iff.mp reached
  obtain ⟨waiting, flags⟩ := Prod.mk.inj view
  obtain ⟨quiet, rest⟩ := Prod.mk.inj flags
  obtain ⟨playing, tx⟩ := Prod.mk.inj rest
  exact ⟨final, done, waiting, quiet, playing, tx⟩

end HalmExamples.UsbUac
