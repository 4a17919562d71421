import Mathlib.Data.List.FinRange
import HalmExamples.Foundation.Schedule
import HalmExamples.Foundation.Word

/-!
# The USB audio example

The template `usb_uac.jinja2` without rate feedback, one statement of `main` and
`changeRate` at a time.  Completions of the two I2S streams and the UAC callback
are atomic and run between any two statements.  The run starts where `main`
calls `changeRate` for the first time.  The light of the pins is left out.
-/

set_option autoImplicit false

namespace HalmExamples.UsbUac

open Foundation

abbrev bufferCount : Nat := 5
def channelCount : Nat := 2

/-- Index of a request, and of the row of the arena behind it. -/
abbrev RequestId := Fin bufferCount

inductive RequestStatus where
  | completed
  | failed
  | cancelled
  deriving DecidableEq

structure StreamRequest where
  capacity : Nat
  length : Nat
  buffer : RequestId

/-- Which streams `boardSetupI2S` returns. -/
structure StreamPackage where
  rx : Bool
  tx : Bool

structure Events where
  dataReceived : Bool
  rateChanged : Bool
  rateFeedback : Bool
  startOfFrame : Bool

structure Flags where
  playing : Bool
  suspended : Bool
  updated : Bool

/-! ## Where `main` stands -/

inductive Caller where
  | start
  | loop
  deriving DecidableEq

/-- The statements of `changeRate`; those of its loop carry the request they set
up and the ones that follow. -/
inductive RateStatement where
  | setChunk
  | clearMicQueue
  | clearRx
  | clearTx
  | clearSpkQueue
  | setSpkRequest (request : RequestId) (rest : List RequestId)
  | pushSpkRequest (request : RequestId) (rest : List RequestId)
  | setMicRequest (request : RequestId) (rest : List RequestId)
  | enqueueMicRequest (request : RequestId) (rest : List RequestId)
  | setRate
  deriving DecidableEq

inductive Control where
  | changeRate (statement : RateStatement) (rate : Nat) (caller : Caller)
  | setCallback
  | wait
  | clearUpdated
  | checkRateChanged
  | readRate
  | clearRateChanged (rate : Nat)
  | checkStartOfFrame
  | checkMicQueue
  | takeMicRequest
  | writeMicRequest (request : RequestId)
  | clearMicLength (request : RequestId)
  | returnMicRequest (request : RequestId)
  | clearStartOfFrame
  | checkDataReceived
  | checkSpkQueue
  | frontSpkRequest
  | readSpkRequest (request : RequestId)
  | popSpkRequest (request : RequestId)
  | sendSpkRequest (request : RequestId)
  | setPlaying
  | clearDataReceived
  deriving DecidableEq

/-- The context, the streams and interfaces it uses, and the next statement. -/
structure Machine where
  rx : List RequestId
  tx : List RequestId
  micQueue : List RequestId
  spkQueue : List RequestId
  micRequests : RequestId → StreamRequest
  spkRequests : RequestId → StreamRequest
  chunk : Nat
  frame : Nat
  event : Events
  state : Flags
  /-- `onUacEvent` has been registered. -/
  listening : Bool
  /-- The rate most recently reported, read with `IF_RATE` of the UAC. -/
  reported : Option Nat
  /-- `IF_RATE` of the I2S interface, set at the end of every `changeRate`. -/
  audioRate : Option Nat
  control : Control

/-! ## Callbacks -/

/-- A stream has room for all requests. -/
def streamEnqueue (stream : List RequestId) (request : RequestId) : List RequestId :=
  if stream.length < bufferCount then stream ++ [request] else stream

def Machine.setMicLength (machine : Machine) (request : RequestId) (length : Nat) : Machine :=
  { machine with
    micRequests := Function.update machine.micRequests request
      { machine.micRequests request with length := length } }

/-- The loop of `onDataReceived` over the queue it starts with. -/
def dropOutdated : List RequestId → Machine → Machine
  | [], machine => { machine with micQueue := [] }
  | outdated :: rest, machine =>
      if (outdated :: rest).length > bufferCount / 2 then
        dropOutdated rest
          { machine.setMicLength outdated 0 with rx := streamEnqueue machine.rx outdated }
      else { machine with micQueue := outdated :: rest }

def onDataReceived (machine : Machine) (request : RequestId) (status : RequestStatus) : Machine :=
  let machine :=
    if status ≠ .cancelled then dropOutdated machine.micQueue machine
    else machine.setMicLength request 0
  { machine with micQueue := machine.micQueue ++ [request] }

def onDataSent (machine : Machine) (request : RequestId) : Machine :=
  let pending := machine.tx.length
  let machine := { machine with spkQueue := machine.spkQueue ++ [request] }
  if pending = 0 then { machine with state := { machine.state with playing := false } }
  else machine

/-- Every pending request is handed to its callback, oldest first. -/
def streamClearRx : List RequestId → Machine → Machine
  | [], machine => { machine with rx := [] }
  | request :: rest, machine =>
      streamClearRx rest (onDataReceived { machine with rx := rest } request .cancelled)

def streamClearTx : List RequestId → Machine → Machine
  | [], machine => { machine with tx := [] }
  | request :: rest, machine =>
      streamClearTx rest (onDataSent { machine with tx := rest } request)

/-- What the UAC tells when it runs its callback. -/
structure UacEvent where
  startOfFrame : Bool
  rate : Option Nat
  suspended : Bool
  available : Nat
  highSpeed : Bool

def uacDataReceived (package : StreamPackage) (available : Nat) (machine : Machine) : Machine :=
  let enough :=
    if machine.state.playing then available > 0
    else available > machine.chunk * (bufferCount / 2)
  if package.tx && enough then
    { machine with
      event := { machine.event with dataReceived := true }
      state := { machine.state with updated := true } }
  else machine

def uacStartOfFrame (highSpeed : Bool) (machine : Machine) : Machine :=
  let count := (machine.frame + 1) % 2 ^ 16
  let frame := if count = 8000 then 0 else count
  let event := if highSpeed then frame % 8 = 0 else true
  let feedback := if highSpeed then frame % 800 = 0 else frame % 100 = 0
  { machine with
    frame := frame
    event :=
      { machine.event with
        rateFeedback := machine.event.rateFeedback || feedback
        startOfFrame := machine.event.startOfFrame || event }
    state := { machine.state with updated := machine.state.updated || event } }

def uacRate (rate : Nat) (machine : Machine) : Machine :=
  { machine with
    reported := some rate
    event := { machine.event with rateChanged := true }
    state := { machine.state with updated := true } }

def uacReported (rate : Option Nat) (machine : Machine) : Machine :=
  match rate with
  | some rate => uacRate rate machine
  | none => machine

def uacSuspended (suspended : Bool) (machine : Machine) : Machine :=
  if suspended ≠ machine.state.suspended then
    { machine with state := { machine.state with suspended := suspended, updated := true } }
  else machine

def onUacEvent (package : StreamPackage) (event : UacEvent) (machine : Machine) : Machine :=
  let machine := uacDataReceived package event.available machine
  let machine := if event.startOfFrame then uacStartOfFrame event.highSpeed machine else machine
  let machine := uacReported event.rate machine
  uacSuspended event.suspended machine

/-! ## Statements of `changeRate` -/

def chunkSize (rate : Nat) : Nat := wrap32 (rate + 999) / 1000 * channelCount * 2

/-- The loop goes on with the first request left, if any. -/
def nextRequest : List RequestId → RateStatement
  | [] => .setRate
  | request :: rest => .setSpkRequest request rest

def preparedRequest (machine : Machine) (request : RequestId) : StreamRequest :=
  { capacity := machine.chunk, length := 0, buffer := request }

def rateEffect (package : StreamPackage) (machine : Machine) (rate : Nat) :
    RateStatement → Machine
  | .setChunk => { machine with chunk := chunkSize rate }
  | .clearMicQueue => if package.rx then { machine with micQueue := [] } else machine
  | .clearRx => if package.rx then streamClearRx machine.rx machine else machine
  | .clearTx => if package.tx then streamClearTx machine.tx machine else machine
  | .clearSpkQueue => if package.tx then { machine with spkQueue := [] } else machine
  | .setSpkRequest request _ =>
      if package.tx then
        { machine with
          spkRequests :=
            Function.update machine.spkRequests request (preparedRequest machine request) }
      else machine
  | .pushSpkRequest request _ =>
      if package.tx then { machine with spkQueue := machine.spkQueue ++ [request] } else machine
  | .setMicRequest request _ =>
      if package.rx then
        { machine with
          micRequests :=
            Function.update machine.micRequests request (preparedRequest machine request) }
      else machine
  | .enqueueMicRequest request _ =>
      if package.rx then { machine with rx := streamEnqueue machine.rx request } else machine
  | .setRate => { machine with audioRate := some rate }

def rateNext (rate : Nat) (caller : Caller) : RateStatement → Control
  | .setChunk => .changeRate .clearMicQueue rate caller
  | .clearMicQueue => .changeRate .clearRx rate caller
  | .clearRx => .changeRate .clearTx rate caller
  | .clearTx => .changeRate .clearSpkQueue rate caller
  | .clearSpkQueue => .changeRate (nextRequest (List.finRange bufferCount)) rate caller
  | .setSpkRequest request rest => .changeRate (.pushSpkRequest request rest) rate caller
  | .pushSpkRequest request rest => .changeRate (.setMicRequest request rest) rate caller
  | .setMicRequest request rest => .changeRate (.enqueueMicRequest request rest) rate caller
  | .enqueueMicRequest _ rest => .changeRate (nextRequest rest) rate caller
  | .setRate =>
      match caller with
      | .start => .setCallback
      | .loop => .clearRateChanged rate

/-! ## Statements of `main` -/

/-- One statement of `main`; `count` is what `ifRead` returns if that is the one. -/
def mainStep (package : StreamPackage) (count : Nat) (machine : Machine) : Option Machine :=
  match machine.control with
  | .changeRate statement rate caller =>
      some { rateEffect package machine rate statement with
        control := rateNext rate caller statement }
  | .setCallback => some { machine with listening := true, control := .wait }
  | .wait => some { machine with
      control := if machine.state.updated then .clearUpdated else .wait }
  | .clearUpdated => some { machine with
      state := { machine.state with updated := false }
      control := .checkRateChanged }
  | .checkRateChanged => some { machine with
      control := if machine.event.rateChanged then .readRate else .checkStartOfFrame }
  | .readRate => machine.reported.map fun rate =>
      { machine with control := .changeRate .setChunk rate .loop }
  | .clearRateChanged _ => some { machine with
      event := { machine.event with rateChanged := false }
      control := .checkStartOfFrame }
  | .checkStartOfFrame => some { machine with
      control := if machine.event.startOfFrame then .checkMicQueue else .checkDataReceived }
  | .checkMicQueue => some { machine with
      control := if package.rx && !machine.micQueue.isEmpty then .takeMicRequest
        else .clearStartOfFrame }
  | .takeMicRequest =>
      match machine.micQueue with
      | [] => none
      | request :: rest => some { machine with
          micQueue := rest, control := .writeMicRequest request }
  | .writeMicRequest request => some { machine with
      control := if (machine.micRequests request).length > 0 then .clearMicLength request
        else .returnMicRequest request }
  | .clearMicLength request => some { machine.setMicLength request 0 with
      control := .returnMicRequest request }
  | .returnMicRequest request => some { machine with
      rx := streamEnqueue machine.rx request, control := .clearStartOfFrame }
  | .clearStartOfFrame => some { machine with
      event := { machine.event with startOfFrame := false }
      control := .checkDataReceived }
  | .checkDataReceived => some { machine with
      control := if machine.event.dataReceived then .checkSpkQueue else .wait }
  | .checkSpkQueue => some { machine with
      control := if machine.spkQueue.isEmpty then .setPlaying else .frontSpkRequest }
  | .frontSpkRequest => machine.spkQueue.head?.map fun request =>
      { machine with control := .readSpkRequest request }
  | .readSpkRequest request =>
      if count ≤ (machine.spkRequests request).capacity then
        some { machine with
          spkRequests := Function.update machine.spkRequests request
            { machine.spkRequests request with length := count }
          control := if count > 0 then .popSpkRequest request else .setPlaying }
      else none
  | .popSpkRequest request => some { machine with
      spkQueue := machine.spkQueue.tail, control := .sendSpkRequest request }
  | .sendSpkRequest request => some { machine with
      tx := streamEnqueue machine.tx request, control := .checkSpkQueue }
  | .setPlaying => some { machine with
      state := { machine.state with playing := true }
      control := .clearDataReceived }
  | .clearDataReceived => some { machine with
      event := { machine.event with dataReceived := false }
      control := .wait }

/-! ## The system -/

inductive Label where
  | main (count : Nat)
  | rxComplete (status : RequestStatus) (length : Nat)
  | txComplete
  | uac (event : UacEvent)

def step (package : StreamPackage) (machine : Machine) : Label → Option Machine
  | .main count => mainStep package count machine
  | .rxComplete status length =>
      match machine.rx with
      | [] => none
      | request :: rest =>
          if length ≤ (machine.micRequests request).capacity then
            some (onDataReceived ({ machine with rx := rest }.setMicLength request length)
              request status)
          else none
  | .txComplete =>
      match machine.tx with
      | [] => none
      | request :: rest => some (onDataSent { machine with tx := rest } request)
  | .uac event => if machine.listening then some (onUacEvent package event machine) else none

/-- The state in which `main` calls `changeRate` with the first advertised rate. -/
def initialMachine (rate : Nat) : Machine :=
  { rx := []
    tx := []
    micQueue := []
    spkQueue := []
    micRequests := fun request => { capacity := 0, length := 0, buffer := request }
    spkRequests := fun request => { capacity := 0, length := 0, buffer := request }
    chunk := 0
    frame := 0
    event :=
      { dataReceived := false, rateChanged := false, rateFeedback := false, startOfFrame := false }
    state := { playing := false, suspended := true, updated := false }
    listening := false
    reported := none
    audioRate := none
    control := .changeRate .setChunk rate .start }

def bothStreams : StreamPackage := { rx := true, tx := true }

/-- The first call of `changeRate`, up to the loop. -/
def startLabels : List Label := List.replicate 27 (.main 0)

/-! ## What an interrupt does

A completion takes the oldest request of its stream; the UAC reports once its callback is set. -/

section Interrupts

variable {package : StreamPackage} {machine next : Machine}

theorem step_rxComplete {status : RequestStatus} {length : Nat}
    (taken : step package machine (.rxComplete status length) = some next) :
    ∃ request rest, machine.rx = request :: rest ∧
      length ≤ (machine.micRequests request).capacity ∧
      next = onDataReceived ({ machine with rx := rest }.setMicLength request length) request
        status := by
  simp only [step] at taken
  cases pending : machine.rx with
  | nil => simp [pending] at taken
  | cons request rest =>
      simp only [pending] at taken
      split at taken
      · cases taken
        exact ⟨request, rest, rfl, ‹_›, rfl⟩
      · simp at taken

theorem step_txComplete (taken : step package machine .txComplete = some next) :
    ∃ request rest, machine.tx = request :: rest ∧
      next = onDataSent { machine with tx := rest } request := by
  simp only [step] at taken
  cases pending : machine.tx with
  | nil => simp [pending] at taken
  | cons request rest =>
      simp only [pending] at taken
      cases taken
      exact ⟨request, rest, rfl, rfl⟩

theorem step_uac {event : UacEvent} (taken : step package machine (.uac event) = some next) :
    machine.listening = true ∧ next = onUacEvent package event machine := by
  simp only [step] at taken
  split at taken
  · cases taken
    exact ⟨‹_›, rfl⟩
  · simp at taken

end Interrupts

/-! ## What the callbacks change

The fields a callback leaves alone are read off these equations. -/

theorem dropOutdated_changes (queue : List RequestId) (machine : Machine) :
    ∃ rx micQueue micRequests, dropOutdated queue machine =
      { machine with rx := rx, micQueue := micQueue, micRequests := micRequests } := by
  induction queue generalizing machine with
  | nil => exact ⟨machine.rx, [], machine.micRequests, rfl⟩
  | cons outdated rest ih =>
      simp only [dropOutdated]
      split
      · obtain ⟨rx, micQueue, micRequests, changed⟩ := ih
          { machine.setMicLength outdated 0 with rx := streamEnqueue machine.rx outdated }
        exact ⟨rx, micQueue, micRequests, changed⟩
      · exact ⟨machine.rx, outdated :: rest, machine.micRequests, rfl⟩

theorem onDataReceived_changes (machine : Machine) (request : RequestId)
    (status : RequestStatus) :
    ∃ rx micQueue micRequests, onDataReceived machine request status =
      { machine with rx := rx, micQueue := micQueue, micRequests := micRequests } := by
  simp only [onDataReceived]
  split
  · obtain ⟨rx, micQueue, micRequests, changed⟩ := dropOutdated_changes machine.micQueue machine
    exact ⟨rx, micQueue ++ [request], micRequests, by rw [changed]⟩
  · exact ⟨_, _, _, rfl⟩

theorem onDataSent_changes (machine : Machine) (request : RequestId) :
    ∃ spkQueue playing, onDataSent machine request =
      { machine with
        spkQueue := spkQueue
        state := { machine.state with playing := playing } } := by
  simp only [onDataSent]
  split
  · exact ⟨machine.spkQueue ++ [request], false, rfl⟩
  · exact ⟨machine.spkQueue ++ [request], machine.state.playing, rfl⟩

theorem onDataSent_spkQueue (machine : Machine) (request : RequestId) :
    (onDataSent machine request).spkQueue = machine.spkQueue ++ [request] := by
  simp only [onDataSent]
  split
  · rfl
  · rfl

theorem streamClearRx_changes (pending : List RequestId) (machine : Machine) :
    ∃ micQueue micRequests, streamClearRx pending machine =
      { machine with rx := [], micQueue := micQueue, micRequests := micRequests } := by
  induction pending generalizing machine with
  | nil => exact ⟨machine.micQueue, machine.micRequests, rfl⟩
  | cons request rest ih =>
      obtain ⟨rx, queue, requests, called⟩ :=
        onDataReceived_changes { machine with rx := rest } request .cancelled
      obtain ⟨micQueue, micRequests, cleared⟩ :=
        ih (onDataReceived { machine with rx := rest } request .cancelled)
      refine ⟨micQueue, micRequests, ?_⟩
      rw [streamClearRx, cleared, called]

theorem streamClearTx_changes (pending : List RequestId) (machine : Machine) :
    ∃ spkQueue playing, streamClearTx pending machine =
      { machine with
        tx := []
        spkQueue := spkQueue
        state := { machine.state with playing := playing } } := by
  induction pending generalizing machine with
  | nil => exact ⟨machine.spkQueue, machine.state.playing, rfl⟩
  | cons request rest ih =>
      obtain ⟨queue, stillPlaying, called⟩ :=
        onDataSent_changes { machine with tx := rest } request
      obtain ⟨spkQueue, playing, cleared⟩ :=
        ih (onDataSent { machine with tx := rest } request)
      refine ⟨spkQueue, playing, ?_⟩
      rw [streamClearTx, cleared, called]

theorem uacDataReceived_changes (package : StreamPackage) (available : Nat) (machine : Machine) :
    ∃ dataReceived updated, uacDataReceived package available machine =
        { machine with
          event := { machine.event with dataReceived := dataReceived }
          state := { machine.state with updated := updated } } ∧
      (machine.state.updated = true → updated = true) := by
  simp only [uacDataReceived]
  generalize (package.tx && _ : Bool) = received
  cases received with
  | false => exact ⟨machine.event.dataReceived, machine.state.updated, rfl, id⟩
  | true => exact ⟨true, true, rfl, fun _ => rfl⟩

theorem uacSuspended_changes (suspended : Bool) (machine : Machine) :
    ∃ nowSuspended updated, uacSuspended suspended machine =
        { machine with
          state := { machine.state with suspended := nowSuspended, updated := updated } } ∧
      (machine.state.updated = true → updated = true) := by
  simp only [uacSuspended]
  split
  · exact ⟨suspended, true, rfl, fun _ => rfl⟩
  · exact ⟨machine.state.suspended, machine.state.updated, rfl, id⟩

/-- The callback leaves the streams, the queues and the playback alone. -/
theorem onUacEvent_changes (package : StreamPackage) (event : UacEvent) (machine : Machine) :
    ∃ frame events suspended updated reported, onUacEvent package event machine =
        { machine with
          frame := frame
          event := events
          state := { machine.state with suspended := suspended, updated := updated }
          reported := reported } ∧
      (event.rate = none → events.rateChanged = machine.event.rateChanged) := by
  obtain ⟨dataReceived, woken, received, _⟩ :=
    uacDataReceived_changes package event.available machine
  simp only [onUacEvent, received]
  generalize reporting : uacReported event.rate _ = reported
  obtain ⟨suspended, updated, changed, _⟩ := uacSuspended_changes event.suspended reported
  rw [changed, ← reporting]
  cases event.startOfFrame with
  | false =>
      cases event.rate with
      | none => exact ⟨_, _, _, _, _, rfl, fun _ => rfl⟩
      | some rate => exact ⟨_, _, _, _, _, rfl, nofun⟩
  | true =>
      cases event.rate with
      | none => exact ⟨_, _, _, _, _, rfl, fun _ => rfl⟩
      | some rate => exact ⟨_, _, _, _, _, rfl, nofun⟩

end HalmExamples.UsbUac
