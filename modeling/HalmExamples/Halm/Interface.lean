/-!
# The interface of a HALM driver

What the examples use of `struct Interface`: its parameter codes, the results of
a call and, for code that works with any driver, the driver's operations on a
state of its own.
-/

set_option autoImplicit false

namespace HalmExamples.Halm

inductive Result where
  | ok
  | address
  | invalid
  deriving DecidableEq

/-- The codes of the flash and of the generic enumeration are different numbers. -/
inductive Parameter where
  | flashPageSize
  | flashErasePage
  | flashSectorSize
  | flashEraseSector
  | flashBlockSize
  | flashEraseBlock
  | position
  | size
  | other (code : Int)
  deriving DecidableEq

/-- A driver: `getParam` gives a value when it returns `E_OK`, `setParam` says
whether it did, and the transfers say how far they came. -/
structure Interface (State : Type) where
  getParam : State → Parameter → Option Nat
  setParam : State → Parameter → Nat → Bool × State
  read : State → Nat → List UInt8 × State
  write : State → (Nat → UInt8) → Nat → Nat × State

end HalmExamples.Halm
