import HalmExamples.Foundation.Custody
import HalmExamples.Foundation.Memory
import HalmExamples.Foundation.Schedule
import Mathlib.Algebra.Group.Nat.Defs

/-!
# The ADC stream example

`onConversionCompleted` and the buffers of `main` in `adc_dma_stream/main.c`.  The
three boards differ in `ADC_RATE` and in the timers that trigger the conversions.
The stream fills the pending requests in order, one sample of 16 bits at a time, and
goes on with the next one while the callback of the completed one runs.
-/

set_option autoImplicit false

namespace HalmExamples.AdcStream

open Foundation

structure Config where
  adcRate : Nat
  /-- What `boardGetAdcPinCount` returns. -/
  pinCount : Nat

/-- `const size_t count = ADC_RATE * boardGetAdcPinCount();` -/
def Config.count (config : Config) : Nat := config.adcRate * config.pinCount

def Config.bufferCells (config : Config) : Nat := config.count * 2

abbrev requestCount : Nat := 2

/-- `requests[0]` or `requests[1]` -/
abbrev RequestId := Fin requestCount

structure StreamRequest where
  /-- In bytes, as is the length. -/
  capacity : Nat
  length : Nat
  buffer : Nat
  deriving DecidableEq

/-- `&buffers[row]` -/
def rowAddress (row : Nat) : Nat := row * 2

def initialRequest (config : Config) (request : RequestId) : StreamRequest :=
  { capacity := config.count * 2, length := 0, buffer := rowAddress request }

/-- The two loops of the callback with the samples formatted so far; `buffer` has been
incremented once for each of them. -/
inductive Callback where
  | idle
  | nextChunk (request : RequestId) (chunk : Nat) (formatted : List UInt16)
  | nextSample (request : RequestId) (chunk index : Nat) (formatted : List UInt16)
  deriving DecidableEq

def Callback.formatted : Callback → List UInt16
  | .idle => []
  | .nextChunk _ _ formatted => formatted
  | .nextSample _ _ _ formatted => formatted

def Callback.running : Callback → List RequestId
  | .idle => []
  | .nextChunk request _ _ => [request]
  | .nextSample request _ _ _ => [request]

structure Report where
  captured : List UInt16
  formatted : List UInt16
  deriving DecidableEq

structure Machine where
  /-- The cells from the start of `buffers` on, and those behind it. -/
  memory : Nat → UInt16
  requests : RequestId → StreamRequest
  /-- Requests in the stream, the one being filled first. -/
  pending : List RequestId
  /-- Samples stored for the first pending request. -/
  filled : Nat
  /-- Completed requests whose callback has not started. -/
  completed : List RequestId
  callback : Callback
  /-- The samples captured for a request since it was enqueued. -/
  captured : RequestId → List UInt16
  writes : List Nat
  reports : List Report

def initialMachine (config : Config) (memory : Nat → UInt16) : Machine :=
  { memory := memory
    requests := initialRequest config
    pending := List.finRange requestCount
    filled := 0
    completed := []
    callback := .idle
    captured := fun _ => []
    writes := []
    reports := [] }

/-! ## The stream -/

def Machine.store (machine : Machine) (request : RequestId) (value : UInt16) : Machine :=
  let cell := (machine.requests request).buffer + machine.filled
  { machine with
    memory := Function.update machine.memory cell value
    captured := Function.update machine.captured request
      (machine.captured request ++ [value])
    writes := machine.writes ++ [cell] }

/-- The first request is complete when its capacity is reached; without a pending
request the sample is lost. -/
def Machine.sample (machine : Machine) (value : UInt16) : Machine :=
  match machine.pending with
  | [] => machine
  | request :: rest =>
      let stored := machine.store request value
      let filled := machine.filled + 1
      if filled * 2 < (machine.requests request).capacity then
        { stored with filled := filled }
      else
        { stored with
          pending := rest
          filled := 0
          completed := machine.completed ++ [request]
          requests := Function.update machine.requests request
            { machine.requests request with length := filled * 2 } }

/-! ## The callback -/

/-- `const size_t chunks = (request->length >> 1) / count;` -/
def chunks (config : Config) (request : StreamRequest) : Nat :=
  (request.length >>> 1) / config.pinCount

/-- The end of the callback: the request goes back to the stream. -/
def Machine.finish (machine : Machine) (request : RequestId) (formatted : List UInt16) :
    Machine :=
  { machine with
    requests := Function.update machine.requests request
      { machine.requests request with length := 0 }
    pending := enqueue requestCount machine.pending request
    callback := .idle
    captured := Function.update machine.captured request []
    reports := machine.reports ++ [⟨machine.captured request, formatted⟩] }

/-- The next step of `onConversionCompleted`, or its start. -/
def onConversionCompleted (config : Config) (machine : Machine) : Option Machine :=
  match machine.callback with
  | .idle =>
      match machine.completed with
      | [] => none
      | request :: rest =>
          some { machine with completed := rest, callback := .nextChunk request 0 [] }
  | .nextChunk request chunk formatted =>
      if chunk < chunks config (machine.requests request) then
        some { machine with callback := .nextSample request chunk 0 formatted }
      else some (machine.finish request formatted)
  | .nextSample request chunk index formatted =>
      if index < config.pinCount then
        let value := machine.memory ((machine.requests request).buffer + formatted.length)
        some { machine with
          callback := .nextSample request chunk (index + 1) (formatted ++ [value]) }
      else some { machine with callback := .nextChunk request (chunk + 1) formatted }

inductive Label where
  | sample (value : UInt16)
  | callback
  deriving DecidableEq

def step (config : Config) (machine : Machine) : Label → Option Machine
  | .sample value => some (machine.sample value)
  | .callback => onConversionCompleted config machine

end HalmExamples.AdcStream
