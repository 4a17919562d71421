import HalmExamples.Sct.Constructors

/-!
# Construction and destruction of the SOF timer

`tmrDeinit` gives back what `tmrInit` has claimed and resets what it has configured, but
for the mode of the two capture registers: both bits of `REGMODE` stay set.  The ADC
timer writes the match register of its first event before it clears that bit.
-/

set_option autoImplicit false

namespace HalmExamples.Sct

open Foundation Foundation.Attempt

/-! ## Configuration bits -/

/-- The configuration of one event in one half. -/
structure EventConfiguration where
  control : EventControl
  state : BitVec 32
  capctrl : BitVec 16
  regmode : Bool
  even : Bool
  deriving DecidableEq

def EventConfiguration.reset : EventConfiguration :=
  { control := .zero, state := 0, capctrl := 0, regmode := false, even := false }

def LpcSct.eventConfiguration (registers : LpcSct) (part : SctPart) (event : Fin 16) :
    EventConfiguration :=
  { control := registers.evCtrl event
    state := registers.evState event
    capctrl := registers.capctrl event part
    regmode := (registers.regmode part).getLsbD event
    even := registers.even.getLsbD event }

structure Configuration where
  i2s : EventConfiguration
  usb : EventConfiguration
  limit : BitVec 16
  noreload : Bool
  deriving DecidableEq

def Configuration.reset : Configuration :=
  { i2s := .reset, usb := .reset, limit := 0, noreload := false }

/-- A reset half of which both capture registers are in capture mode. -/
def Configuration.capturing : Configuration :=
  { i2s := { EventConfiguration.reset with regmode := true }
    usb := { EventConfiguration.reset with regmode := true }
    limit := 0
    noreload := false }

def LpcSct.configuration (registers : LpcSct) (part : SctPart) (events : Events) :
    Configuration :=
  { i2s := registers.eventConfiguration part events.i2sEvent
    usb := registers.eventConfiguration part events.usbEvent
    limit := registers.limit part
    noreload := registers.noreload part }

namespace Sof

/-- The events that `tmrInit` would claim, and the half, are configured as after a
reset. -/
def ResetWhereClaimed (halm : Halm) (part : SctPart) (block : Block) : Prop :=
  ∀ events : Events, halm.pickEvent block.allocation.events = some events.i2sEvent →
    halm.pickEvent (block.allocation.claimEvent events.i2sEvent).events = some events.usbEvent →
      block.registers.configuration part events = .reset

/-- The block after `tmrDeinit`, with other calls in between. -/
def teardown (halm : Halm) (later : List Call) (device : Device) (block : Block) : Block :=
  tmrDeinit (calls halm later device block.registers).1
    { block with registers := (calls halm later device block.registers).2 }

def adcSteps (halm : Halm) (adc : Adc.SctAdcConfig) (block : Block) : List LpcSct :=
  (stateOf (Adc.tmrInit halm adc (Trace.start block))).steps

/-- What was claimed and configured before is claimed and configured again, and the next
constructor sees no difference at any step. -/
structure Restored (halm : Halm) (part : SctPart) (events : Events) (before after : Block) :
    Prop where
  allocation : after.allocation = before.allocation
  configuration : after.registers.configuration part events =
    before.registers.configuration part events
  next : ∀ adc : Adc.SctAdcConfig, adc.part = part →
    (adcSteps halm adc after).map (fun registers => registers.configuration part events) =
      (adcSteps halm adc before).map fun registers => registers.configuration part events

/-- If `tmrInit` succeeds, it is undone by `tmrDeinit`. -/
def Invisible (halm : Halm) (config : SctSofConfig) (later : List Call) (block : Block) : Prop :=
  ∀ device trace, tmrInit halm config (Trace.start block) = .ok device trace →
    Restored halm config.part device.timer.events block (teardown halm later device trace.block)

/-! ## A successful constructor -/

theorem claim_eq_ok (failure : Failure) (taken : Allocation → Bool)
    (claimed : Allocation → Allocation) (trace next : Trace)
    (done : claim failure taken claimed trace = .ok () next) :
    taken trace.block.allocation = false ∧
      next = trace.withAllocation (claimed trace.block.allocation) := by
  unfold claim at done
  split at done
  · cases done
  · rename_i free
    cases done
    exact ⟨Bool.eq_false_iff.mpr free, rfl⟩

theorem allocateEvents_eq_ok (halm : Halm) (trace next : Trace) (events : Events)
    (done : allocateEvents halm trace = .ok events next) :
    halm.pickEvent trace.block.allocation.events = some events.i2sEvent ∧
      halm.pickEvent (trace.block.allocation.claimEvent events.i2sEvent).events =
        some events.usbEvent ∧
      next = trace.withAllocation
        ((trace.block.allocation.claimEvent events.i2sEvent).claimEvent events.usbEvent) := by
  unfold allocateEvents at done
  split at done
  · cases done
  · rename_i first picked
    dsimp only at done
    split at done
    · cases done
    · rename_i second pickedSecond
      cases done
      exact ⟨picked, pickedSecond, rfl⟩

def claimAll (config : SctSofConfig) (events : Events) (allocation : Allocation) : Allocation :=
  { halves := Function.update allocation.halves config.part true
    events := Function.update (Function.update allocation.events events.i2sEvent true)
      events.usbEvent true
    inputs := Function.update (Function.update allocation.inputs
      (inputToInputChannel config.i2s) true) (inputToInputChannel config.usb) true
    outputs := allocation.outputs }

theorem tmrInit_eq_ok (halm : Halm) (config : SctSofConfig) (block : Block) (device : Device)
    (trace : Trace) (done : tmrInit halm config (Trace.start block) = .ok device trace) :
    ∃ events : Events,
      halm.pickEvent block.allocation.events = some events.i2sEvent ∧
      halm.pickEvent (block.allocation.claimEvent events.i2sEvent).events = some events.usbEvent ∧
      block.allocation.halves config.part = false ∧
      block.allocation.inputs (inputToInputChannel config.i2s) = false ∧
      Function.update block.allocation.inputs (inputToInputChannel config.i2s) true
        (inputToInputChannel config.usb) = false ∧
      device = ⟨SctSof.initialized config.frequency events, config.part,
        inputToInputChannel config.i2s, inputToInputChannel config.usb⟩ ∧
      trace.block.allocation = claimAll config events block.allocation ∧
      trace.block.registers = (initWrites halm config events).foldl
        (fun registers effect => effect registers) block.registers := by
  unfold tmrInit at done
  obtain ⟨_, based, isBased, done⟩ := bind_eq_ok _ _ _ _ _ done
  obtain ⟨events, allocated, isAllocated, done⟩ := bind_eq_ok _ _ _ _ _ done
  obtain ⟨_, firstInput, isFirst, done⟩ := bind_eq_ok _ _ _ _ _ done
  obtain ⟨_, secondInput, isSecond, done⟩ := bind_eq_ok _ _ _ _ _ done
  obtain ⟨half, same⟩ := claim_eq_ok _ _ _ _ _ isBased
  subst same
  obtain ⟨picked, pickedSecond, same⟩ := allocateEvents_eq_ok _ _ _ _ isAllocated
  subst same
  obtain ⟨i2sInput, same⟩ := claim_eq_ok _ _ _ _ _ isFirst
  subst same
  obtain ⟨usbInput, same⟩ := claim_eq_ok _ _ _ _ _ isSecond
  subst same
  cases done
  refine ⟨events, picked, pickedSecond, half, i2sInput, usbInput, rfl, ?_, ?_⟩
  · rw [writeAll_block]
    rfl
  · rw [writeAll_block]
    rfl

/-! ## The calls in between -/

theorem interruptHandler_events (timer : SctSof) (registers : Registers) :
    (interruptHandler timer registers).1.events = timer.events := by
  rw [interruptHandler, serve_events, serve_events]

/-- What a call leaves of the object's resources and of the modes. -/
structure Untouched (before after : Device × LpcSct) : Prop where
  part : after.1.part = before.1.part
  i2sInput : after.1.i2sInput = before.1.i2sInput
  usbInput : after.1.usbInput = before.1.usbInput
  events : after.1.timer.events = before.1.timer.events
  regmode : after.2.regmode = before.2.regmode

theorem call_untouched (halm : Halm) (device : Device) (registers : LpcSct) (next : Call) :
    Untouched (device, registers) (call halm device registers next) := by
  cases next with
  | interrupt evflag captured => exact ⟨rfl, rfl, rfl, interruptHandler_events _ _, rfl⟩
  | _ => exact ⟨rfl, rfl, rfl, rfl, rfl⟩

theorem calls_untouched (halm : Halm) (later : List Call) (device : Device)
    (registers : LpcSct) : Untouched (device, registers) (calls halm later device registers) := by
  induction later generalizing device registers with
  | nil => exact ⟨rfl, rfl, rfl, rfl, rfl⟩
  | cons next rest ih =>
      have first := call_untouched halm device registers next
      have others := ih (call halm device registers next).1 (call halm device registers next).2
      exact ⟨others.part.trans first.part, others.i2sInput.trans first.i2sInput,
        others.usbInput.trans first.usbInput, others.events.trans first.events,
        others.regmode.trans first.regmode⟩

/-! ## What the destructor leaves -/

theorem setCell_same {α : Type} (array : Fin 16 → SctPart → α) (event : Fin 16) (part : SctPart)
    (value : α) : setCell array event part value event part = value := by
  rw [setCell, Function.update_self, Function.update_self]

theorem setCell_of_ne {α : Type} (array : Fin 16 → SctPart → α) (event other : Fin 16)
    (part : SctPart) (value : α) (different : other ≠ event) :
    setCell array event part value other = array other := by
  rw [setCell, Function.update_of_ne different]

theorem eventsMask_getLsbD (events : Events) (index : Nat) :
    (eventsMask events).getLsbD index =
      (decide (index = (events.i2sEvent : Nat)) || decide (index = (events.usbEvent : Nat))) := by
  rw [eventsMask, BitVec.getLsbD_or, bit_getLsbD, bit_getLsbD]

/-- All that stays is the mode of the capture registers, as the destructor finds it. -/
theorem deinitWrites_configuration (device : Device) (registers : LpcSct) :
    (((deinitWrites device).foldl (fun registers effect => effect registers)
      registers).configuration device.part device.timer.events) =
      { Configuration.reset with
        i2s := { EventConfiguration.reset with
          regmode := (registers.regmode device.part).getLsbD device.timer.events.i2sEvent }
        usb := { EventConfiguration.reset with
          regmode := (registers.regmode device.part).getLsbD device.timer.events.usbEvent } } := by
  have distinct := device.timer.events.distinct
  simp only [deinitWrites, List.foldl_cons, List.foldl_nil, LpcSct.configuration,
    LpcSct.eventConfiguration, Configuration.reset, EventConfiguration.reset,
    Function.update_self, Function.update_of_ne distinct.symm,
    setCell_same, setCell_of_ne _ _ _ _ _ distinct, BitVec.getLsbD_and, BitVec.getLsbD_not,
    eventsMask_getLsbD]
  simp

theorem initWrites_regmode (halm : Halm) (config : SctSofConfig) (events : Events)
    (registers : LpcSct) :
    (((initWrites halm config events).foldl (fun registers effect => effect registers)
      registers).regmode config.part) =
      registers.regmode config.part ||| halfBit events.i2sEvent ||| halfBit events.usbEvent := by
  simp only [initWrites, eventWrites, sctSetFrequency, List.cons_append, List.nil_append,
    List.foldl_cons, List.foldl_nil, Function.update_self]

/-! ## Both together -/

theorem update_back {Index : Type} [DecidableEq Index] (claimed : Index → Bool) (index : Index)
    (free : claimed index = false) :
    Function.update (Function.update claimed index true) index false = claimed := by
  rw [Function.update_idem, ← free, Function.update_eq_self]

theorem update_both_back {Index : Type} [DecidableEq Index] (claimed : Index → Bool)
    (first second : Index) (firstFree : claimed first = false)
    (secondFree : Function.update claimed first true second = false) :
    Function.update (Function.update (Function.update (Function.update claimed first true) second
      true) second false) first false = claimed := by
  rw [update_back _ second secondFree, update_back _ first firstFree]

/-- The claims are given back, and all but the two capture modes is reset. -/
theorem teardown_leaves (halm : Halm) (config : SctSofConfig) (later : List Call) (block : Block)
    (device : Device) (trace : Trace)
    (done : tmrInit halm config (Trace.start block) = .ok device trace) :
    (teardown halm later device trace.block).allocation = block.allocation ∧
      (teardown halm later device trace.block).registers.configuration config.part
        device.timer.events = .capturing := by
  obtain ⟨events, picked, pickedSecond, half, i2sInput, usbInput, isDevice, claimed, registers⟩ :=
    tmrInit_eq_ok halm config block device trace done
  have kept := calls_untouched halm later device trace.block.registers
  have sameEvents : (calls halm later device trace.block.registers).1.timer.events = events := by
    rw [kept.events, isDevice]
    rfl
  have samePart : (calls halm later device trace.block.registers).1.part = config.part := by
    rw [kept.part, isDevice]
  have sameI2s : (calls halm later device trace.block.registers).1.i2sInput =
      inputToInputChannel config.i2s := by
    rw [kept.i2sInput, isDevice]
  have sameUsb : (calls halm later device trace.block.registers).1.usbInput =
      inputToInputChannel config.usb := by
    rw [kept.usbInput, isDevice]
  have mode : (calls halm later device trace.block.registers).2.regmode config.part =
      block.registers.regmode config.part ||| halfBit events.i2sEvent |||
        halfBit events.usbEvent := by
    rw [kept.regmode, registers, initWrites_regmode]
  constructor
  · have firstFree := halm.pick_free _ _ picked
    have secondFree := halm.pick_free _ _ pickedSecond
    simp only [teardown, tmrDeinit, release, samePart, sameEvents, sameI2s, sameUsb, claimed,
      claimAll]
    rw [update_back _ _ half, update_both_back _ _ _ i2sInput usbInput,
      update_both_back _ _ _ firstFree secondFree]
  · have left := deinitWrites_configuration (calls halm later device trace.block.registers).1
      (calls halm later device trace.block.registers).2
    rw [sameEvents, samePart, mode] at left
    have isEvents : device.timer.events = events := by
      rw [isDevice]
      rfl
    rw [isEvents]
    refine left.trans ?_
    simp only [BitVec.getLsbD_or, halfBit_getLsbD, decide_true, Bool.or_true, Bool.true_or]
    rfl

/-- The constructor succeeds where everything it needs is free. -/
theorem tmrInit_isOk (halm : Halm) (config : SctSofConfig) (block : Block)
    (half : block.allocation.halves config.part = false)
    (available : Available config block.allocation) :
    ∃ device trace, tmrInit halm config (Trace.start block) = .ok device trace :=
  (needs_tmrInit halm config (Trace.start block)).mpr ⟨half, available⟩

theorem init_deinit_invisible_iff (halm : Halm) (config : SctSofConfig) (later : List Call)
    (block : Block) (reset : ResetWhereClaimed halm config.part block) :
    Invisible halm config later block ↔
      ¬ (block.allocation.halves config.part = false ∧ Available config block.allocation) := by
  constructor
  · rintro invisible ⟨half, available⟩
    obtain ⟨device, trace, done⟩ := tmrInit_isOk halm config block half available
    have restored := (invisible device trace done).configuration
    rw [(teardown_leaves halm config later block device trace done).2] at restored
    obtain ⟨events, picked, pickedSecond, _, _, _, isDevice, _⟩ :=
      tmrInit_eq_ok halm config block device trace done
    have before : block.registers.configuration config.part device.timer.events = .reset := by
      rw [isDevice]
      exact reset events picked pickedSecond
    rw [before] at restored
    exact absurd restored (by decide)
  · intro missing device trace done
    exact absurd ((needs_tmrInit halm config (Trace.start block)).mp ⟨device, trace, done⟩) missing

theorem resetBlock_reset (halm : Halm) (part : SctPart) (claimed : Fin 16 → Bool) :
    ResetWhereClaimed halm part (resetBlock claimed) := by
  intro events _ _
  simp [LpcSct.configuration, LpcSct.eventConfiguration, resetBlock, resetRegisters,
    Configuration.reset, EventConfiguration.reset]

/-- A measurement on a block that nobody else uses. -/
def measurement : List Call :=
  [.enable, .interrupt 1 fun _ => 100, .interrupt 3 fun _ => 350, .setValue 7, .disable]

def unusedBlock : Block := resetBlock fun _ => false

theorem init_deinit_invisible_iff_measurement :
    Available usbTimer unusedBlock.allocation ∧
      (Invisible lowestFirst usbTimer measurement unusedBlock ↔
        ¬ (unusedBlock.allocation.halves .low = false ∧
          Available usbTimer unusedBlock.allocation)) :=
  ⟨by decide, init_deinit_invisible_iff lowestFirst usbTimer measurement unusedBlock
    (resetBlock_reset _ _ _)⟩

/-- The ADC timer of the same half finds the register of its first event in capture
mode. -/
theorem capture_modes_left :
    ¬ Invisible lowestFirst usbTimer measurement unusedBlock ∧
      ∃ device trace, tmrInit lowestFirst usbTimer (Trace.start unusedBlock) = .ok device trace ∧
        (adcSteps lowestFirst { streamTimer with part := .low }
          (teardown lowestFirst measurement device trace.block)).map
            (fun registers => (registers.regmode .low).getLsbD 0) ≠
          (adcSteps lowestFirst { streamTimer with part := .low } unusedBlock).map
            fun registers => (registers.regmode .low).getLsbD 0 := by
  refine ⟨?_, _, _, rfl, by decide⟩
  intro invisible
  have restored := (invisible _ _ rfl).configuration
  have modes := congrArg (fun configuration => configuration.i2s.regmode) restored
  exact absurd modes (by decide)

end Sof

end HalmExamples.Sct
