import HalmExamples.Foundation.Attempt
import HalmExamples.Sct.SofTimer
import Mathlib.Data.Finset.Card
import Mathlib.Data.Fintype.Basic

/-!
# The shared SCT block

What the drivers of the two timer halves share: the registers they write, and which
halves, events, inputs and outputs are claimed.  `Halm` stands for the choices of the
HALM library: which free event it hands out and which prescaler makes a frequency.
-/

set_option autoImplicit false

namespace HalmExamples.Sct

open Foundation

/-- `SCT_LOW` or `SCT_HIGH`; the drivers assert that it is not `SCT_UNIFIED`. -/
inductive SctPart where
  | low
  | high
  deriving DecidableEq

/-! ## Registers -/

/-- What is used of `CTRL_PART[part]`: `CTRL_HALT`, `CTRL_STOP` and `CTRL_PRE`. -/
structure Control where
  halt : Bool
  stop : Bool
  pre : Nat
  deriving DecidableEq

inductive IoCondition where
  | low
  | rise
  | fall
  | high
  deriving DecidableEq

inductive CombinationMode where
  | or
  | matching
  | io
  | and
  deriving DecidableEq

inductive Direction where
  | independent
  | up
  | down
  deriving DecidableEq

/-- The fields of `EV[event].CTRL`. -/
structure EventControl where
  hevent : Bool
  matchsel : Nat
  outsel : Bool
  iosel : Nat
  iocond : IoCondition
  combmode : CombinationMode
  direction : Direction
  deriving DecidableEq

def EventControl.zero : EventControl :=
  { hevent := false, matchsel := 0, outsel := false, iosel := 0, iocond := .low, combmode := .or,
    direction := .independent }

/-- The registers of `LPC_SCT` that the two drivers use. -/
structure LpcSct where
  noreload : SctPart → Bool
  ctrl : SctPart → Control
  limit : SctPart → BitVec 16
  count : SctPart → UInt16
  state : SctPart → UInt16
  regmode : SctPart → BitVec 16
  outputdirctrl : Fin 16 → BitVec 2
  res : Fin 16 → BitVec 2
  dmareq0 : BitVec 32
  dmareq1 : BitVec 32
  even : BitVec 32
  evflag : BitVec 32
  /-- `MATCH_PART[event][part]` and `CAP_PART[event][part]` are one register. -/
  matchcap : Fin 16 → SctPart → UInt16
  capctrl : Fin 16 → SctPart → BitVec 16
  evCtrl : Fin 16 → EventControl
  evState : Fin 16 → BitVec 32
  outSet : Fin 16 → BitVec 32
  outClr : Fin 16 → BitVec 32

/-- `array[event][part] = value` -/
def setCell {α : Type} (array : Fin 16 → SctPart → α) (event : Fin 16) (part : SctPart)
    (value : α) : Fin 16 → SctPart → α :=
  Function.update array event (Function.update (array event) part value)

/-- The register of a half is 16 bits wide. -/
def halfBit (event : Fin 16) : BitVec 16 := (bit event).setWidth 16

theorem halfBit_getLsbD (event : Fin 16) (index : Nat) :
    (halfBit event).getLsbD index = decide (index = (event : Nat)) := by
  have eventBound := event.isLt
  rw [halfBit, BitVec.getLsbD_setWidth, bit_getLsbD]
  by_cases same : index = (event : Nat)
  · simp [same]
  · simp [same]

/-! ## Claims -/

structure Allocation where
  halves : SctPart → Bool
  events : Fin 16 → Bool
  inputs : Fin 8 → Bool
  outputs : Fin 16 → Bool

/-- The choices of HALM.  An event is handed out as long as there is a free one. -/
structure Halm where
  pickEvent : (Fin 16 → Bool) → Option (Fin 16)
  pick_free : ∀ claimed event, pickEvent claimed = some event → claimed event = false
  pick_none : ∀ claimed, pickEvent claimed = none → ∀ event, claimed event = true
  prescaler : UInt32 → Nat

/-- The input multiplexer of the SCT: `GIMA_SYNCH` and `GIMA_SELECT`. -/
structure GimaInput where
  synch : Bool
  select : Nat
  deriving DecidableEq

structure Block where
  allocation : Allocation
  registers : LpcSct
  ctinIn : Fin 8 → GimaInput
  irqPriority : Nat

/-- The result of the base constructor, or `E_BUSY`. -/
inductive Failure where
  | base
  | busy
  deriving DecidableEq

/-- A block, and its registers after each write so far. -/
structure Trace where
  block : Block
  steps : List LpcSct

def Trace.start (block : Block) : Trace := { block := block, steps := [] }

abbrev Setup := EStateM Failure Trace

def Trace.withAllocation (trace : Trace) (allocation : Allocation) : Trace :=
  { trace with block := { trace.block with allocation := allocation } }

def claim (failure : Failure) (taken : Allocation → Bool) (claimed : Allocation → Allocation) :
    Setup Unit := fun trace =>
  if taken trace.block.allocation then .error failure trace
  else .ok () (trace.withAllocation (claimed trace.block.allocation))

def sctBaseInit (part : SctPart) : Setup Unit :=
  claim .base (fun allocation => allocation.halves part) fun allocation =>
    { allocation with halves := Function.update allocation.halves part true }

def sctReserveInputChannel (input : Fin 8) : Setup Unit :=
  claim .busy (fun allocation => allocation.inputs input) fun allocation =>
    { allocation with inputs := Function.update allocation.inputs input true }

def sctReserveOutputChannel (output : Fin 16) : Setup Unit :=
  claim .busy (fun allocation => allocation.outputs output) fun allocation =>
    { allocation with outputs := Function.update allocation.outputs output true }

def Allocation.claimEvent (allocation : Allocation) (event : Fin 16) : Allocation :=
  { allocation with events := Function.update allocation.events event true }

def sctAllocateEvent (halm : Halm) : Setup (Fin 16) := fun trace =>
  match halm.pickEvent trace.block.allocation.events with
  | none => .error .busy trace
  | some event =>
      .ok event (trace.withAllocation (trace.block.allocation.claimEvent event))

/-! ## Writes -/

def Trace.write (trace : Trace) (effect : LpcSct → LpcSct) : Trace :=
  let registers := effect trace.block.registers
  { block := { trace.block with registers := registers }, steps := trace.steps ++ [registers] }

def Trace.writeAll (trace : Trace) (effects : List (LpcSct → LpcSct)) : Trace :=
  effects.foldl Trace.write trace

def write (effects : List (LpcSct → LpcSct)) : Setup Unit := fun trace =>
  .ok () (trace.writeAll effects)

def sctSetFrequency (halm : Halm) (part : SctPart) (frequency : UInt32) (registers : LpcSct) :
    LpcSct :=
  { registers with
    ctrl := Function.update registers.ctrl part
      { registers.ctrl part with pre := halm.prescaler frequency } }

theorem writeAll_block (trace : Trace) (effects : List (LpcSct → LpcSct)) :
    (trace.writeAll effects).block =
      { trace.block with
        registers := effects.foldl (fun registers effect => effect registers)
          trace.block.registers } := by
  induction effects generalizing trace with
  | nil => rfl
  | cons effect rest ih =>
      rw [Trace.writeAll, List.foldl_cons]
      exact ih (trace.write effect)

end HalmExamples.Sct
