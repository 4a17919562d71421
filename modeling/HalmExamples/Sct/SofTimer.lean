import HalmExamples.Foundation.Word
import Mathlib.Data.BitVec

/-!
# The SOF and MWS capture timer

The object of `sct_sof.c`, the registers of its half of the SCT that the
capture path touches, and the functions over both.  `mws` and `sof` group the
fields `mwsDuration`, `mwsPrevious`, `mwsValid` and their `sof` counterparts.
-/

set_option autoImplicit false

namespace HalmExamples.Sct

open Foundation

/-- The two sources of capture events: I2S word select and USB start of frame. -/
inductive Kind where
  | i2s
  | usb
  deriving DecidableEq

structure Measurement where
  duration : UInt16
  previous : UInt16
  valid : Bool
  deriving DecidableEq

/-- `sctAllocateEvent` hands out different events. -/
structure Events where
  i2sEvent : Fin 16
  usbEvent : Fin 16
  distinct : i2sEvent ≠ usbEvent
  deriving DecidableEq

structure SctSof where
  frequency : UInt32
  rate : UInt32
  events : Events
  mws : Measurement
  sof : Measurement
  deriving DecidableEq

structure Registers where
  evflag : BitVec 32
  cap : Fin 16 → UInt16
  halt : Bool

def Events.of (events : Events) : Kind → Fin 16
  | .i2s => events.i2sEvent
  | .usb => events.usbEvent

def SctSof.measurement (timer : SctSof) : Kind → Measurement
  | .i2s => timer.mws
  | .usb => timer.sof

def bit (event : Fin 16) : BitVec 32 := 1#32 <<< (event : Nat)

/-- `timer->base.mask` as `tmrInit` sets it. -/
def SctSof.mask (timer : SctSof) : BitVec 32 :=
  bit timer.events.i2sEvent ||| bit timer.events.usbEvent

/-- A write to a register whose bits are cleared by writing ones. -/
def Registers.writeEvflag (regs : Registers) (value : BitVec 32) : Registers :=
  { regs with evflag := regs.evflag &&& ~~~value }

/-! ## The interrupt handler -/

/-- The common body of the two branches of `interruptHandler`. -/
def Measurement.capture (measurement : Measurement) (value : UInt16) : Measurement :=
  { duration :=
      if measurement.valid then
        narrow16 ((value.toNat : Int) - (measurement.previous.toNat : Int))
      else measurement.duration
    previous := value
    valid := true }

def SctSof.record (timer : SctSof) (value : UInt16) : Kind → SctSof
  | .i2s => { timer with mws := timer.mws.capture value }
  | .usb => { timer with sof := timer.sof.capture value }

/-- One branch of `interruptHandler`, taken when the flag was read as set. -/
def serve (kind : Kind) (evflag : BitVec 32) (regs : Registers) (timer : SctSof) : SctSof :=
  if evflag &&& bit (timer.events.of kind) ≠ 0 then
    timer.record (regs.cap (timer.events.of kind)) kind
  else timer

def interruptHandler (timer : SctSof) (regs : Registers) : SctSof × Registers :=
  let evflag := regs.evflag
  let regs := regs.writeEvflag (bit timer.events.i2sEvent ||| bit timer.events.usbEvent)
  (serve .usb evflag regs (serve .i2s evflag regs timer), regs)

/-! ## Enabling, disabling and reading -/

def SctSof.initialized (frequency : UInt32) (events : Events) : SctSof :=
  { frequency := frequency, rate := 0, events := events
    mws := ⟨0, 0, false⟩, sof := ⟨0, 0, false⟩ }

def tmrEnable (timer : SctSof) (regs : Registers) : SctSof × Registers :=
  ({ timer with
      mws := { timer.mws with duration := 0, valid := false }
      sof := { timer.sof with duration := 0, valid := false } },
    { regs.writeEvflag timer.mask with halt := false })

def tmrDisable (regs : Registers) : Registers := { regs with halt := true }

def uint32Max : Nat := 2 ^ 32 - 1

def divide (dividend divisor : Nat) : Option Nat :=
  if divisor = 0 then none else some (dividend / divisor)

def RatioAsserts (timer : SctSof) : Prop :=
  timer.frequency.toNat < uint32Max / 128 ∧ timer.frequency.toNat % 1000 = 0

instance (timer : SctSof) : Decidable (RatioAsserts timer) :=
  inferInstanceAs (Decidable (_ ∧ _))

/-- The body of `sctSofGetRatio` after its assertions; there is no result where
a division is undefined. -/
def sctSofGetRatio (timer : SctSof) : Option Nat := do
  let mwsDuration := timer.mws.duration.toNat
  let sofDuration := timer.sof.duration.toNat
  let frequency := timer.frequency.toNat
  let rate := timer.rate.toNat
  if mwsDuration = 0 ∨ sofDuration = 0 ∨ rate = 0 then
    return 0
  else
    let mwsExpected := wrap32 (wrap32 (frequency <<< 7) + (rate >>> 1)) / rate
    let mwsExpectedMul ← divide uint32Max mwsExpected
    let sofDurationMul ← divide uint32Max sofDuration
    let sofNominal := frequency / 1000
    -- in high-speed mode the SOF duration is eight times lower
    let sofExpected := if sofDuration < sofNominal >>> 2 then sofNominal >>> 3 else sofNominal
    let product := wrap32 (mwsDuration * sofExpected)
    let scaled := wrap32 ((product * sofDurationMul) >>> 24)
    return wrap32 ((scaled * mwsExpectedMul) >>> 24)

def sctSofSetSampleRate (timer : SctSof) (rate : UInt32) : SctSof := { timer with rate := rate }

/-! ## Measurements of one kind -/

@[simp] theorem record_events (timer : SctSof) (value : UInt16) (kind : Kind) :
    (timer.record value kind).events = timer.events := by
  cases kind <;> rfl

theorem record_measurement (timer : SctSof) (value : UInt16) (kind other : Kind) :
    (timer.record value kind).measurement other =
      if other = kind then (timer.measurement kind).capture value
      else timer.measurement other := by
  cases kind <;> cases other <;> rfl

@[simp] theorem serve_events (kind : Kind) (evflag : BitVec 32) (regs : Registers)
    (timer : SctSof) : (serve kind evflag regs timer).events = timer.events := by
  rw [serve]
  split
  · exact record_events ..
  · rfl

/-- The measurement after the values of all served events, newest first. -/
def Follows (measurement : Measurement) : List UInt16 → Prop
  | [] => measurement.valid = false ∧ measurement.duration = 0
  | [only] => measurement.valid = true ∧ measurement.previous = only ∧ measurement.duration = 0
  | latest :: before :: _ =>
      measurement.valid = true ∧ measurement.previous = latest ∧
        measurement.duration = narrow16 ((latest.toNat : Int) - (before.toNat : Int))

theorem follows_capture (measurement : Measurement) (value : UInt16) (values : List UInt16)
    (follows : Follows measurement values) :
    Follows (measurement.capture value) (value :: values) := by
  cases values with
  | nil =>
      obtain ⟨invalid, zero⟩ := follows
      exact ⟨rfl, rfl, by simp [Measurement.capture, invalid, zero]⟩
  | cons latest rest =>
      have known : measurement.valid = true ∧ measurement.previous = latest := by
        cases rest with
        | nil => exact ⟨follows.1, follows.2.1⟩
        | cons before older => exact ⟨follows.1, follows.2.1⟩
      refine ⟨rfl, rfl, ?_⟩
      simp [Measurement.capture, known.1, known.2]

/-! ## Event flags -/

def Flagged (evflag : BitVec 32) (event : Fin 16) : Prop := evflag.getLsbD event = true

instance (evflag : BitVec 32) (event : Fin 16) : Decidable (Flagged evflag event) :=
  inferInstanceAs (Decidable (_ = true))

theorem bit_getLsbD (event : Fin 16) (index : Nat) :
    (bit event).getLsbD index = decide (index = (event : Nat)) := by
  have eventBound := event.isLt
  rw [bit, BitVec.getLsbD_shiftLeft]
  by_cases same : index = (event : Nat)
  · subst same
    simp
    omega
  · by_cases below : index < (event : Nat)
    · simp [below, same]
    · have positive : index - (event : Nat) ≠ 0 := by omega
      simp [same, BitVec.getLsbD_one, positive]

theorem and_bit_ne_zero (evflag : BitVec 32) (event : Fin 16) :
    evflag &&& bit event ≠ 0 ↔ Flagged evflag event := by
  have eventBound := event.isLt
  constructor
  · intro nonzero
    by_contra clear
    apply nonzero
    apply BitVec.eq_of_getLsbD_eq
    intro index _
    rw [BitVec.getLsbD_and, bit_getLsbD]
    by_cases same : index = (event : Nat)
    · subst same
      have low : evflag.getLsbD event = false := Bool.eq_false_iff.mpr clear
      simp [low]
    · simp [same]
  · intro flagged zero
    have read := congrArg (fun word => word.getLsbD (event : Nat)) zero
    have high : evflag.getLsbD event = true := flagged
    simp [BitVec.getLsbD_and, bit_getLsbD, high] at read

theorem flagged_or_bit (evflag : BitVec 32) (set event : Fin 16) :
    Flagged (evflag ||| bit set) event ↔ Flagged evflag event ∨ event = set := by
  rw [Flagged, Flagged, BitVec.getLsbD_or, bit_getLsbD, Bool.or_eq_true, decide_eq_true_eq,
    Fin.val_inj]

theorem mask_flagged (timer : SctSof) (event : Fin 16) :
    Flagged timer.mask event ↔ ∃ kind, event = timer.events.of kind := by
  rw [SctSof.mask, flagged_or_bit, Flagged, bit_getLsbD, decide_eq_true_eq, Fin.val_inj]
  constructor
  · rintro (i2s | usb)
    · exact ⟨.i2s, i2s⟩
    · exact ⟨.usb, usb⟩
  · rintro ⟨kind, same⟩
    cases kind with
    | i2s => exact Or.inl same
    | usb => exact Or.inr same

theorem Events.of_injective (events : Events) (left right : Kind)
    (same : events.of left = events.of right) : left = right := by
  have distinct := events.distinct
  cases left <;> cases right
  · rfl
  · exact absurd same distinct
  · exact absurd same.symm distinct
  · rfl

theorem writeEvflag_mask (timer : SctSof) (regs : Registers) (kind : Kind) :
    ¬ Flagged (regs.writeEvflag timer.mask).evflag (timer.events.of kind) := by
  have masked : timer.mask.getLsbD (timer.events.of kind) = true :=
    (mask_flagged timer (timer.events.of kind)).mpr ⟨kind, rfl⟩
  rw [Flagged, Registers.writeEvflag, BitVec.getLsbD_and, BitVec.getLsbD_not, masked]
  simp

end HalmExamples.Sct
