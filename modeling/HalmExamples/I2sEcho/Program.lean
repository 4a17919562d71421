import HalmExamples.Foundation.Custody
import HalmExamples.Foundation.Schedule

/-!
# The I2S echo example

`templates/i2s_echo.jinja2`: the two stream callbacks and `main` from the set-up of
the requests on.  A stream completes its requests in order: it takes the first one out
and calls the callback stored in the request.  An assertion that fails and a
call through `NULL` stop the machine.
-/

set_option autoImplicit false

namespace HalmExamples.I2sEcho

open Foundation

abbrev bufferCount : Nat := 5

/-- `BUFFER_LENGTH * CHANNEL_COUNT * sizeof(int16_t)` -/
def bufferCapacity : Nat := 512 * 2 * 2

abbrev RequestId := Fin bufferCount

inductive Callback where
  | onDataReceived
  | onDataSent
  deriving DecidableEq

structure StreamRequest where
  capacity : Nat
  length : Nat
  callback : Option Callback
  deriving DecidableEq

inductive StreamRequestStatus where
  | completed
  | failed
  | cancelled
  deriving DecidableEq

inductive Control where
  /-- The test `i < BUFFER_COUNT` of the set-up loop. -/
  | checkCount (i : Nat)
  | setRequest (request : RequestId)
  | enqueueRequest (request : RequestId)
  | wait
  | clearEvent
  | checkFirst
  | checkSize
  | clearFirst
  | checkQueue
  | takeRequest
  | sendRequest (request : RequestId)
  deriving DecidableEq

structure Machine where
  rx : List RequestId
  tx : List RequestId
  queue : List RequestId
  requests : RequestId → StreamRequest
  event : Bool
  first : Bool
  control : Control
  received : List RequestId
  sent : List RequestId

/-- The requests are static, so they start out zeroed. -/
def initialMachine : Machine :=
  { rx := []
    tx := []
    queue := []
    requests := fun _ => { capacity := 0, length := 0, callback := none }
    event := false
    first := true
    control := .checkCount 0
    received := []
    sent := [] }

def streamEnqueue (stream : List RequestId) (request : RequestId) : List RequestId :=
  enqueue bufferCount stream request

def pointerQueuePushBack (queue : List RequestId) (request : RequestId) : List RequestId :=
  enqueue bufferCount queue request

def Machine.setRequest (machine : Machine) (request : RequestId) (value : StreamRequest) :
    Machine :=
  { machine with requests := Function.update machine.requests request value }

/-! ## Callbacks -/

def onDataReceived (machine : Machine) (request : RequestId) :
    StreamRequestStatus → Option Machine
  | .completed =>
      some { machine.setRequest request
               { machine.requests request with callback := some .onDataSent } with
             queue := pointerQueuePushBack machine.queue request
             event := true }
  | .failed =>
      some { machine.setRequest request
               { machine.requests request with
                 length := 0, callback := some .onDataReceived } with
             rx := streamEnqueue machine.rx request }
  | .cancelled => none

def onDataSent (machine : Machine) (request : RequestId) (_ : StreamRequestStatus) :
    Option Machine :=
  some { machine.setRequest request
           { machine.requests request with length := 0, callback := some .onDataReceived } with
         rx := streamEnqueue machine.rx request }

/-- `request->callback(request->callbackArgument, request, status)` -/
def call (machine : Machine) (request : RequestId) (status : StreamRequestStatus) :
    Option Machine :=
  match (machine.requests request).callback with
  | none => none
  | some .onDataReceived => onDataReceived machine request status
  | some .onDataSent => onDataSent machine request status

/-! ## The main loop -/

def mainStep (machine : Machine) : Option Machine :=
  match machine.control with
  | .checkCount i =>
      if inside : i < bufferCount then some { machine with control := .setRequest ⟨i, inside⟩ }
      else some { machine with control := .wait }
  | .setRequest request =>
      some { machine.setRequest request
               { capacity := bufferCapacity, length := 0, callback := some .onDataReceived } with
             control := .enqueueRequest request }
  | .enqueueRequest request =>
      some { machine with
        rx := streamEnqueue machine.rx request, control := .checkCount (request + 1) }
  | .wait => if machine.event then some { machine with control := .clearEvent } else some machine
  | .clearEvent => some { machine with event := false, control := .checkFirst }
  | .checkFirst =>
      if machine.first then some { machine with control := .checkSize }
      else some { machine with control := .checkQueue }
  | .checkSize =>
      if machine.queue.length < 2 then some { machine with control := .wait }
      else some { machine with control := .clearFirst }
  | .clearFirst => some { machine with first := false, control := .checkQueue }
  | .checkQueue =>
      if machine.queue.isEmpty then some { machine with control := .wait }
      else some { machine with control := .takeRequest }
  | .takeRequest =>
      -- with interrupts masked
      match machine.queue with
      | [] => none
      | request :: rest => some { machine with queue := rest, control := .sendRequest request }
  | .sendRequest request =>
      some { machine with
        tx := streamEnqueue machine.tx request
        sent := machine.sent ++ [request]
        control := .checkQueue }

inductive Label where
  | main
  | rxComplete (status : StreamRequestStatus) (length : Nat)
  | txComplete (status : StreamRequestStatus)
  deriving DecidableEq

def step (machine : Machine) : Label → Option Machine
  | .main => mainStep machine
  | .rxComplete status length =>
      match machine.rx with
      | [] => none
      | request :: rest =>
          if length ≤ (machine.requests request).capacity then
            let received :=
              if status = .completed then machine.received ++ [request] else machine.received
            call ({ machine with rx := rest, received := received }.setRequest request
              { machine.requests request with length := length }) request status
          else none
  | .txComplete status =>
      match machine.tx with
      | [] => none
      | request :: rest => call { machine with tx := rest } request status

end HalmExamples.I2sEcho
