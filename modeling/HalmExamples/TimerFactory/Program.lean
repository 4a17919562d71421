import HalmExamples.Foundation.CyclicCounter

/-!
# The timer factory checks

`onTimerOverflow` of the templates `timer_factory.jinja2` and `tickless_factory.jinja2`,
which is the same in both, and `periodicTask` of the examples of the same names for the
host, where `long` has 64 bits.
-/

set_option autoImplicit false

namespace HalmExamples.TimerFactory

open Foundation

/-! ## The templates -/

namespace Template

structure Context where
  ledValid : Bool
  period : UInt32
  previous : UInt32
  deriving DecidableEq

/-- What one call of the callback does beside its context. -/
structure Invocation where
  delta : Int32
  asserted : Bool
  toggled : Bool
  deriving DecidableEq

/-- `overflow` and `timestamp` are what `timerGetOverflow` and `timerGetValue` return. -/
def onTimerOverflow (overflow timestamp : UInt32) (context : Context) : Invocation × Context :=
  let difference := (timestamp - context.previous).toInt32
  -- The sum of a signed and an unsigned operand is unsigned.
  let delta := if difference < 0 then (difference.toUInt32 + overflow).toInt32 else difference
  ({ delta := delta
     asserted := delta.toUInt32 = context.period
     toggled := delta.toUInt32 = context.period && context.ledValid },
    { context with previous := timestamp })

end Template

/-! ## The examples for the host -/

namespace Generic

structure Context where
  failures : UInt32
  iteration : UInt32
  limit : UInt32
  period : UInt64
  previous : UInt64
  deriving DecidableEq

/-- The line that is printed; the task is named by its key. -/
structure Line where
  timestamp : UInt64
  iteration : UInt32
  delta : Int64
  /-- With `UNSYNC` at the end. -/
  failure : Bool
  deriving DecidableEq

/-- There is no line where the callback ends the program instead. -/
def periodicTask (overflow timestamp : UInt32) (context : Context) : Option Line × Context :=
  if context.limit = 0 ∨ context.iteration < context.limit then
    let overflow := overflow.toUInt64
    let timestamp := timestamp.toUInt64
    let difference := (timestamp - context.previous).toInt64
    let delta := if difference < 0 then (difference.toUInt64 + overflow).toInt64 else difference
    let failure := decide (delta ≠ context.period.toInt64)
    (some
      { timestamp := timestamp
        iteration := context.iteration
        delta := delta
        failure := failure },
      { context with
        previous := timestamp
        failures := if failure then context.failures + 1 else context.failures
        iteration := context.iteration + 1 })
  else (none, context)

end Generic

/-! ## Runs -/

/-- The value of a counter of `overflow` values some ticks after it was `reading`. -/
def later (overflow reading : UInt32) (ticks : Nat) : UInt32 :=
  UInt32.ofNat (CyclicCounter.advance overflow.toNat reading.toNat ticks)

/-- Call the callback after each of the given numbers of ticks. -/
def run {Context Result : Type} (callback : UInt32 → UInt32 → Context → Result × Context)
    (overflow : UInt32) : List Nat → UInt32 → Context → List Result
  | [], _, _ => []
  | ticks :: rest, reading, context =>
      let timestamp := later overflow reading ticks
      let (result, next) := callback overflow timestamp context
      result :: run callback overflow rest timestamp next

end HalmExamples.TimerFactory
