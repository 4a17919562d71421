import HalmExamples.Foundation.CyclicCounter
import HalmExamples.Foundation.Schedule

/-!
# The capture example

The main loop of `templates/capture.jinja2` from the frequencies of its two timers on.
The capture timer starts at 0 and each edge of the signal keeps its value.
-/

set_option autoImplicit false

namespace HalmExamples.Capture

open Foundation

/-- What the timers of the board and the pin return. -/
structure Board where
  captureFrequency : UInt32
  pwmFrequency : UInt32
  pwmOverflow : UInt32
  ledOverflowValid : Bool
  deriving DecidableEq

/-- What `timerSetOverflow` is called with. -/
def Board.overflow (board : Board) : UInt32 := board.captureFrequency * 5

/-- The divisors are not 0 on a board that the example runs on. -/
def Board.outFrequency (board : Board) : UInt32 := board.pwmFrequency / board.pwmOverflow

def Board.outPeriodTicks (board : Board) : UInt32 := board.captureFrequency / board.outFrequency

def Board.maxPeriodValue (board : Board) : UInt32 :=
  board.outPeriodTicks + board.outPeriodTicks / 100

def Board.minPeriodValue (board : Board) : UInt32 :=
  board.outPeriodTicks - board.outPeriodTicks / 100

inductive Control where
  /-- In `while (!captureEvent && !overflowEvent)`. -/
  | wait
  | checkCapture
  /-- The flag is cleared, the period is not compared yet. -/
  | measure
  | checkOverflow
  deriving DecidableEq

structure Measurement where
  distance : Nat
  toggled : Bool
  deriving DecidableEq

structure Machine where
  control : Control
  captureEvent : Bool
  overflowEvent : Bool
  previousTime : UInt32
  ledCapture : Bool
  ledOverflow : Bool
  captured : UInt32
  /-- The ticks from the capture before the latest, or from the start of the timer. -/
  distance : Nat
  measured : List Measurement
  deriving DecidableEq

def initialMachine : Machine :=
  { control := .wait
    captureEvent := false
    overflowEvent := false
    previousTime := 0
    ledCapture := false
    ledOverflow := false
    captured := 0
    distance := 0
    measured := [] }

/-- `period >= minPeriodValue && period <= maxPeriodValue` -/
def Board.accepts (board : Board) (period : UInt32) : Bool :=
  period ≥ board.minPeriodValue && period ≤ board.maxPeriodValue

def mainStep (board : Board) (machine : Machine) : Machine :=
  match machine.control with
  | .wait =>
      if machine.captureEvent || machine.overflowEvent then
        { machine with control := .checkCapture }
      else machine
  | .checkCapture =>
      if machine.captureEvent then { machine with captureEvent := false, control := .measure }
      else { machine with control := .checkOverflow }
  | .measure =>
      let currentTime := machine.captured
      let toggles := board.accepts (currentTime - machine.previousTime)
      { machine with
        ledCapture := machine.ledCapture ^^ toggles
        previousTime := currentTime
        measured := machine.measured ++ [{ distance := machine.distance, toggled := toggles }]
        control := .checkOverflow }
  | .checkOverflow =>
      { machine with
        overflowEvent := false
        ledOverflow := machine.ledOverflow ^^ (machine.overflowEvent && board.ledOverflowValid)
        control := .wait }

def Machine.Pending (machine : Machine) : Prop :=
  machine.captureEvent = true ∨ machine.control = .measure

instance (machine : Machine) : Decidable machine.Pending := by
  unfold Machine.Pending
  infer_instance

inductive Label where
  | main
  /-- An edge, so many ticks after the one before. -/
  | capture (ticks : Nat)
  | overflow
  deriving DecidableEq

/-- Each capture is handled before the next one comes, and each but the first comes within a
round of the timer. -/
def step (board : Board) (machine : Machine) : Label → Option Machine
  | .main => some (mainStep board machine)
  | .capture ticks =>
      if ¬ machine.Pending ∧ (machine.measured = [] ∨ ticks < board.overflow.toNat) then
        some { machine with
          captureEvent := true
          captured := UInt32.ofNat
            (CyclicCounter.advance board.overflow.toNat machine.captured.toNat ticks)
          distance := ticks }
      else none
  | .overflow => some { machine with overflowEvent := true }

end HalmExamples.Capture
