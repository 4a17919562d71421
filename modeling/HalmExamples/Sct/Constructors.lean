import HalmExamples.Sct.Drivers

/-!
# Constructors that fail halfway

A constructor claims one resource after another and returns at the first one that is
taken.  What it has claimed until then, the timer half first of all, stays claimed.  So
a failure changes nothing only if the half itself is taken.
-/

set_option autoImplicit false

namespace HalmExamples.Sct

open Foundation Foundation.Attempt

/-! ## What a constructor needs -/

def freeEvents (allocation : Allocation) : Finset (Fin 16) :=
  Finset.univ.filter fun event => allocation.events event = false

/-- The attempt succeeds exactly where the allocation has what it needs. -/
def Needs {Value : Type} (attempt : Setup Value) (needed : Allocation → Prop) : Prop :=
  ∀ trace, Succeeds attempt trace ↔ needed trace.block.allocation

section Needs

variable {Value : Type} {rest : Setup Value} {needed : Allocation → Prop}

theorem needs_pure (value : Value) : Needs (pure value : Setup Value) fun _ => True :=
  fun trace => iff_of_true (succeeds_pure value trace) trivial

theorem Needs.congr {attempt : Setup Value} {other : Allocation → Prop}
    (needs : Needs attempt needed) (same : ∀ allocation, needed allocation ↔ other allocation) :
    Needs attempt other :=
  fun trace => (needs trace).trans (same trace.block.allocation)

theorem Needs.claim (later : Needs rest needed) (failure : Failure)
    (taken : Allocation → Bool) (claimed : Allocation → Allocation) :
    Needs (Sct.claim failure taken claimed >>= fun _ => rest) fun allocation =>
      taken allocation = false ∧ needed (claimed allocation) := by
  intro trace
  by_cases isTaken : taken trace.block.allocation = true
  · have stopped : Sct.claim failure taken claimed trace = .error failure trace := if_pos isTaken
    exact iff_of_false (not_succeeds_bind_of_error _ _ trace trace failure stopped)
      fun needs => Bool.false_ne_true (needs.1.symm.trans isTaken)
  · have free := Bool.eq_false_iff.mpr isTaken
    rw [succeeds_bind_of_ok _ _ trace _ () (if_neg isTaken), later]
    exact (and_iff_right free).symm

theorem Needs.step (later : Needs rest needed) (statement : Setup Unit)
    (done : ∀ trace, ∃ next, statement trace = .ok () next ∧
      next.block.allocation = trace.block.allocation) :
    Needs (statement >>= fun _ => rest) needed := by
  intro trace
  obtain ⟨next, finished, same⟩ := done trace
  rw [succeeds_bind_of_ok statement _ trace next () finished, later, same]

theorem Needs.write (later : Needs rest needed) (effects : List (LpcSct → LpcSct)) :
    Needs (Sct.write effects >>= fun _ => rest) needed :=
  later.step _ fun trace => ⟨trace.writeAll effects, rfl, by rw [writeAll_block]⟩

theorem Needs.sctBaseInit (later : Needs rest needed) (part : SctPart) :
    Needs (Sct.sctBaseInit part >>= fun _ => rest) fun allocation =>
      allocation.halves part = false ∧
        needed { allocation with halves := Function.update allocation.halves part true } :=
  later.claim _ _ _

theorem Needs.sctReserveInputChannel (later : Needs rest needed) (input : Fin 8) :
    Needs (Sct.sctReserveInputChannel input >>= fun _ => rest) fun allocation =>
      allocation.inputs input = false ∧
        needed { allocation with inputs := Function.update allocation.inputs input true } :=
  later.claim _ _ _

theorem Needs.sctReserveOutputChannel (later : Needs rest needed) (output : Fin 16) :
    Needs (Sct.sctReserveOutputChannel output >>= fun _ => rest) fun allocation =>
      allocation.outputs output = false ∧
        needed { allocation with outputs := Function.update allocation.outputs output true } :=
  later.claim _ _ _

theorem update_true_eq_false {Index : Type} [DecidableEq Index] (claimed : Index → Bool)
    (index other : Index) :
    Function.update claimed index true other = false ↔ claimed other = false ∧ index ≠ other := by
  by_cases same : other = index
  · subst same
    simp
  · rw [Function.update_of_ne same, and_iff_left (Ne.symm same)]

/-! ### Events -/

theorem mem_freeEvents (allocation : Allocation) (event : Fin 16) :
    event ∈ freeEvents allocation ↔ allocation.events event = false := by
  rw [freeEvents, Finset.mem_filter, and_iff_right (Finset.mem_univ event)]

theorem freeEvents_claimEvent (allocation : Allocation) (event : Fin 16) :
    freeEvents (allocation.claimEvent event) = (freeEvents allocation).erase event := by
  ext other
  rw [Finset.mem_erase, mem_freeEvents, mem_freeEvents, Allocation.claimEvent]
  by_cases same : other = event
  · subst same
    simp
  · simp [same]

theorem pickEvent_cases (halm : Halm) (allocation : Allocation) :
    (halm.pickEvent allocation.events = none ∧ (freeEvents allocation).card = 0) ∨
      ∃ event, halm.pickEvent allocation.events = some event ∧
        (freeEvents allocation).card = (freeEvents (allocation.claimEvent event)).card + 1 := by
  cases picked : halm.pickEvent allocation.events with
  | none =>
      refine Or.inl ⟨rfl, Finset.card_eq_zero.mpr (Finset.eq_empty_of_forall_notMem ?_)⟩
      intro event free
      rw [mem_freeEvents, halm.pick_none _ picked event] at free
      cases free
  | some event =>
      have free := (mem_freeEvents allocation event).mpr (halm.pick_free _ event picked)
      exact Or.inr ⟨event, rfl, by
        rw [freeEvents_claimEvent, Finset.card_erase_add_one free]⟩

theorem Needs.sctAllocateEvent (halm : Halm) (next : Fin 16 → Setup Value) (count : Nat)
    (others : Allocation → Prop)
    (same : ∀ allocation event, others (allocation.claimEvent event) ↔ others allocation)
    (later : ∀ event, Needs (next event) fun allocation =>
      count ≤ (freeEvents allocation).card ∧ others allocation) :
    Needs (Sct.sctAllocateEvent halm >>= next) fun allocation =>
      count + 1 ≤ (freeEvents allocation).card ∧ others allocation := by
  intro trace
  rcases pickEvent_cases halm trace.block.allocation with ⟨picked, none⟩ | ⟨event, picked, more⟩
  · have stopped : Sct.sctAllocateEvent halm trace = .error .busy trace := by
      simp only [Sct.sctAllocateEvent, picked]
    refine iff_of_false (not_succeeds_bind_of_error _ next trace trace .busy stopped) ?_
    rintro ⟨enough, _⟩
    omega
  · have done : Sct.sctAllocateEvent halm trace =
        .ok event (trace.withAllocation (trace.block.allocation.claimEvent event)) := by
      simp only [Sct.sctAllocateEvent, picked]
    rw [succeeds_bind_of_ok _ next trace _ event done, later event]
    simp only [Trace.withAllocation, same, more, Nat.add_le_add_iff_right]

end Needs

/-! ## What a failure leaves -/

/-- No event, request or output bit is enabled that was not enabled before. -/
structure NothingEnabled (before after : LpcSct) : Prop where
  events : ∀ event, after.evState event &&& ~~~before.evState event = 0
  interrupts : after.even &&& ~~~before.even = 0
  requests : after.dmareq0 &&& ~~~before.dmareq0 = 0 ∧ after.dmareq1 &&& ~~~before.dmareq1 = 0
  outputs : ∀ output, after.outSet output &&& ~~~before.outSet output = 0 ∧
    after.outClr output &&& ~~~before.outClr output = 0

/-- A constructor that did not return `E_OK` has changed nothing. -/
def FailureUnseen {Value : Type} (before : Block) : EStateM.Result Failure Trace Value → Prop
  | .ok _ _ => True
  | .error _ after =>
      after.block.allocation = before.allocation ∧
        NothingEnabled before.registers after.block.registers

def claimedHalves (trace : Trace) : SctPart → Bool := trace.block.allocation.halves

section Halves

variable {Value : Type} {rest : Setup Value}

theorem keeps_claim (failure : Failure) (taken : Allocation → Bool)
    (claimed : Allocation → Allocation)
    (same : ∀ allocation, (claimed allocation).halves = allocation.halves) :
    Keeps claimedHalves (claim failure taken claimed) := by
  intro trace
  unfold claim
  split
  · rfl
  · exact same trace.block.allocation

theorem keeps_sctReserveInputChannel (input : Fin 8) :
    Keeps claimedHalves (sctReserveInputChannel input) :=
  keeps_claim _ _ _ fun _ => rfl

theorem keeps_sctReserveOutputChannel (output : Fin 16) :
    Keeps claimedHalves (sctReserveOutputChannel output) :=
  keeps_claim _ _ _ fun _ => rfl

theorem keeps_write (effects : List (LpcSct → LpcSct)) : Keeps claimedHalves (write effects) := by
  intro trace
  simp only [write, stateOf, claimedHalves, writeAll_block]

theorem keeps_sctAllocateEvent (halm : Halm) : Keeps claimedHalves (sctAllocateEvent halm) := by
  intro trace
  unfold sctAllocateEvent
  split <;> rfl

/-- Behind the base constructor a failure leaves the half claimed. -/
theorem failureUnseen_iff (part : SctPart) (keeps : Keeps claimedHalves rest) (block : Block) :
    FailureUnseen block ((sctBaseInit part >>= fun _ => rest) (Trace.start block)) ↔
      block.allocation.halves part = true ∨
        Succeeds (sctBaseInit part >>= fun _ => rest) (Trace.start block) := by
  by_cases taken : block.allocation.halves part = true
  · have stopped : sctBaseInit part (Trace.start block) = .error .base (Trace.start block) :=
      if_pos taken
    rw [bind_of_error _ _ _ _ _ stopped]
    refine iff_of_true ⟨rfl, ?_⟩ (Or.inl taken)
    refine ⟨?_, ?_, ⟨?_, ?_⟩, ?_⟩ <;> simp [Trace.start]
  · have claimed : sctBaseInit part (Trace.start block) = .ok () ((Trace.start block).withAllocation
        { block.allocation with halves := Function.update block.allocation.halves part true }) :=
      if_neg taken
    rw [succeeds_bind_of_ok _ _ _ _ () claimed, bind_of_ok _ _ _ _ () claimed]
    have stays := keeps ((Trace.start block).withAllocation
      { block.allocation with halves := Function.update block.allocation.halves part true })
    cases result : rest ((Trace.start block).withAllocation
        { block.allocation with halves := Function.update block.allocation.halves part true }) with
    | ok value next => exact iff_of_true trivial (Or.inr ⟨value, next, result⟩)
    | error failure next =>
        apply iff_of_false
        · rintro ⟨same, _⟩
          rw [result] at stays
          have still := congrFun stays part
          simp only [stateOf, claimedHalves, same, Trace.withAllocation, Function.update_self]
            at still
          exact taken still
        · rintro (half | ⟨value, final, done⟩)
          · exact taken half
          · rw [result] at done
            cases done

theorem or_and_iff (allocation : Allocation) (part : SctPart) (available : Prop) :
    allocation.halves part = true ∨ allocation.halves part = false ∧ available ↔
      allocation.halves part = true ∨ available := by
  cases allocation.halves part <;> simp

end Halves

/-! ## The SOF timer -/

namespace Sof

def Available (config : SctSofConfig) (allocation : Allocation) : Prop :=
  2 ≤ (freeEvents allocation).card ∧
    allocation.inputs (inputToInputChannel config.i2s) = false ∧
    allocation.inputs (inputToInputChannel config.usb) = false ∧
    inputToInputChannel config.i2s ≠ inputToInputChannel config.usb

instance (config : SctSofConfig) (allocation : Allocation) :
    Decidable (Available config allocation) :=
  inferInstanceAs (Decidable (_ ∧ _))

/-- The two calls find two free events, or stop with what the first one has claimed. -/
theorem allocateEvents_cases (halm : Halm) (trace : Trace) :
    (∃ next, allocateEvents halm trace = .error .busy next ∧
      next.block.allocation.halves = trace.block.allocation.halves ∧
      (freeEvents trace.block.allocation).card < 2) ∨
    ∃ events : Events, allocateEvents halm trace = .ok events (trace.withAllocation
        ((trace.block.allocation.claimEvent events.i2sEvent).claimEvent events.usbEvent)) ∧
      trace.block.allocation.events events.i2sEvent = false ∧
      trace.block.allocation.events events.usbEvent = false ∧
      2 ≤ (freeEvents trace.block.allocation).card := by
  unfold allocateEvents
  rcases pickEvent_cases halm trace.block.allocation with ⟨picked, none⟩ | ⟨first, picked, more⟩
  · left
    simp only [picked]
    exact ⟨trace, rfl, rfl, by omega⟩
  · simp only [picked]
    have firstFree := halm.pick_free _ first picked
    rcases pickEvent_cases halm (trace.block.allocation.claimEvent first) with
      ⟨none, empty⟩ | ⟨second, pickedSecond, moreLeft⟩
    · left
      split
      · exact ⟨_, rfl, rfl, by omega⟩
      · rename_i event other
        rw [Trace.withAllocation, none] at other
        cases other
    · right
      split
      · rename_i other
        rw [Trace.withAllocation, pickedSecond] at other
        cases other
      · rename_i event other
        have secondFree := halm.pick_free _ event other
        have different : event ≠ first := by
          rintro rfl
          simp [Trace.withAllocation, Allocation.claimEvent] at secondFree
        refine ⟨_, rfl, firstFree, ?_, by omega⟩
        simpa [Trace.withAllocation, Allocation.claimEvent, different] using secondFree

theorem needs_allocateEvents {Value : Type} (halm : Halm) (next : Events → Setup Value)
    (others : Allocation → Prop)
    (same : ∀ allocation event, others (allocation.claimEvent event) ↔ others allocation)
    (later : ∀ events, Needs (next events) others) :
    Needs (allocateEvents halm >>= next) fun allocation =>
      2 ≤ (freeEvents allocation).card ∧ others allocation := by
  intro trace
  rcases allocateEvents_cases halm trace with
    ⟨after, stopped, _, few⟩ | ⟨events, done, _, _, enough⟩
  · refine iff_of_false (not_succeeds_bind_of_error _ next trace after .busy stopped) ?_
    rintro ⟨enough, _⟩
    omega
  · rw [succeeds_bind_of_ok _ next trace _ events done, later events]
    simp only [Trace.withAllocation, same, enough, true_and]

theorem needs_tmrInit (halm : Halm) (config : SctSofConfig) :
    Needs (tmrInit halm config) fun allocation =>
      allocation.halves config.part = false ∧ Available config allocation := by
  have finish : ∀ events, Needs (do
      routeGimaInput config.i2s
      routeGimaInput config.usb
      write (initWrites halm config events)
      irqSetPriority config.priority
      return ({
        timer := SctSof.initialized config.frequency events
        part := config.part
        i2sInput := inputToInputChannel config.i2s
        usbInput := inputToInputChannel config.usb } : Device)) fun _ => True := by
    intro events
    have priority := (needs_pure ({
      timer := SctSof.initialized config.frequency events
      part := config.part
      i2sInput := inputToInputChannel config.i2s
      usbInput := inputToInputChannel config.usb } : Device)).step
        (irqSetPriority config.priority) fun _ => ⟨_, rfl, rfl⟩
    have written := priority.write (initWrites halm config events)
    have routed := written.step (routeGimaInput config.usb) fun _ => ⟨_, rfl, rfl⟩
    exact routed.step (routeGimaInput config.i2s) fun _ => ⟨_, rfl, rfl⟩
  have reserved := fun events =>
    ((finish events).sctReserveInputChannel (inputToInputChannel config.usb)).sctReserveInputChannel
      (inputToInputChannel config.i2s)
  have allocated := needs_allocateEvents halm _ _ (fun _ _ => Iff.rfl) reserved
  have needs := allocated.sctBaseInit config.part
  intro trace
  refine (needs trace).trans (and_congr_right fun _ => and_congr_right fun _ => ?_)
  rw [and_true, update_true_eq_false]

theorem keeps_allocateEvents (halm : Halm) : Keeps claimedHalves (allocateEvents halm) := by
  intro trace
  rcases allocateEvents_cases halm trace with ⟨next, stopped, same, _⟩ | ⟨events, done, _⟩
  · rw [stopped]
    exact same
  · rw [done]
    rfl

theorem keeps_routeGimaInput (input : SctSofInput) : Keeps claimedHalves (routeGimaInput input) :=
  fun _ => rfl

theorem keeps_irqSetPriority (priority : Nat) : Keeps claimedHalves (irqSetPriority priority) :=
  fun _ => rfl

theorem failureUnseen_tmrInit_iff (halm : Halm) (config : SctSofConfig) (block : Block) :
    FailureUnseen block (tmrInit halm config (Trace.start block)) ↔
      block.allocation.halves config.part = true ∨ Available config block.allocation := by
  refine (failureUnseen_iff config.part ?_ block).trans ?_
  · refine (keeps_allocateEvents halm).bind fun events => ?_
    refine (keeps_sctReserveInputChannel (inputToInputChannel config.i2s)).bind fun _ => ?_
    refine (keeps_sctReserveInputChannel (inputToInputChannel config.usb)).bind fun _ => ?_
    refine (keeps_routeGimaInput config.i2s).bind fun _ => ?_
    refine (keeps_routeGimaInput config.usb).bind fun _ => ?_
    refine (keeps_write (initWrites halm config events)).bind fun _ => ?_
    exact (keeps_irqSetPriority config.priority).bind fun _ => keeps_pure _
  · refine (or_congr_right (needs_tmrInit halm config (Trace.start block))).trans ?_
    exact or_and_iff block.allocation config.part (Available config block.allocation)

end Sof

/-! ## The ADC timer -/

namespace Adc

def Available (config : SctAdcConfig) (allocation : Allocation) : Prop :=
  3 ≤ (freeEvents allocation).card ∧
    (∀ output ∈ adcOutput config.adc, allocation.outputs output = false) ∧
    ∀ output ∈ dmaOutput config.dma, allocation.outputs output = false

instance (config : SctAdcConfig) (allocation : Allocation) :
    Decidable (Available config allocation) :=
  inferInstanceAs (Decidable (_ ∧ _ ∧ _))

def claimOutput (output : Option (Fin 16)) (allocation : Allocation) : Allocation :=
  match output with
  | none => allocation
  | some output =>
      { allocation with outputs := Function.update allocation.outputs output true }

theorem needs_connectOutput {Value : Type} {rest : Setup Value} {needed : Allocation → Prop}
    (later : Needs rest needed) (output : Option (Fin 16)) (clear set : Fin 16) :
    Needs (connectOutput output clear set >>= fun _ => rest) fun allocation =>
      (∀ used ∈ output, allocation.outputs used = false) ∧
        needed (claimOutput output allocation) := by
  cases output with
  | none =>
      rw [connectOutput, pure_bind]
      exact later.congr fun allocation => by simp [claimOutput]
  | some used =>
      rw [connectOutput, bind_assoc]
      refine ((later.write (outputWrites used clear set)).sctReserveOutputChannel used).congr ?_
      intro allocation
      simp [claimOutput]

theorem outputs_claimOutput (adc : SctAdcOutput) (dma : SctAdcDmaOutput) (allocation : Allocation) :
    (∀ used ∈ dmaOutput dma, (claimOutput (adcOutput adc) allocation).outputs used = false) ↔
      ∀ used ∈ dmaOutput dma, allocation.outputs used = false := by
  cases adc <;> cases dma <;> simp [claimOutput, adcOutput, dmaOutput, Function.update]

theorem needs_tmrInit (halm : Halm) (config : SctAdcConfig) :
    Needs (tmrInit halm config) fun allocation =>
      allocation.halves config.part = false ∧ Available config allocation := by
  have configured : ∀ conversion memory reset, Needs (do
      write (baseWrites halm config)
      write (eventWrites config.part conversion 1)
      connectOutput (adcOutput config.adc) memory conversion
      write (eventWrites config.part memory (1 + config.delay).toUInt16)
      write (dmaRequestWrites config.dma memory)
      connectOutput (dmaOutput config.dma) reset memory
      write (eventWrites config.part reset config.cycle.toUInt16)
      write (endWrites config reset)
      return ({
        part := config.part
        frequency := config.frequency
        adc := config.adc
        dma := config.dma
        adcOutput := adcOutput config.adc
        dmaOutput := dmaOutput config.dma
        conversion := conversion
        memory := memory
        reset := reset
        mask := bit conversion ||| bit memory ||| bit reset } : SctAdc)) fun allocation =>
        0 ≤ (freeEvents allocation).card ∧
          (∀ output ∈ adcOutput config.adc, allocation.outputs output = false) ∧
          ∀ output ∈ dmaOutput config.dma, allocation.outputs output = false := by
    intro conversion memory reset
    have finish := ((needs_pure ({
        part := config.part
        frequency := config.frequency
        adc := config.adc
        dma := config.dma
        adcOutput := adcOutput config.adc
        dmaOutput := dmaOutput config.dma
        conversion := conversion
        memory := memory
        reset := reset
        mask := bit conversion ||| bit memory ||| bit reset } : SctAdc)).write
      (endWrites config reset)).write (eventWrites config.part reset config.cycle.toUInt16)
    have transfer := ((needs_connectOutput finish (dmaOutput config.dma) reset memory).write
      (dmaRequestWrites config.dma memory)).write
      (eventWrites config.part memory (1 + config.delay).toUInt16)
    have started := ((needs_connectOutput transfer (adcOutput config.adc) memory conversion).write
      (eventWrites config.part conversion 1)).write (baseWrites halm config)
    refine started.congr fun allocation => ?_
    rw [and_true, outputs_claimOutput, and_iff_right (Nat.zero_le _)]
  have third := fun conversion memory => Needs.sctAllocateEvent halm _ 0 _ (fun _ _ => Iff.rfl)
    (configured conversion memory)
  have second := fun conversion => Needs.sctAllocateEvent halm _ 1 _ (fun _ _ => Iff.rfl)
    (third conversion)
  have first := Needs.sctAllocateEvent halm _ 2 _ (fun _ _ => Iff.rfl) second
  exact first.sctBaseInit config.part

theorem keeps_connectOutput (output : Option (Fin 16)) (clear set : Fin 16) :
    Keeps claimedHalves (connectOutput output clear set) := by
  cases output with
  | none => exact keeps_pure ()
  | some used => exact (keeps_sctReserveOutputChannel used).bind fun _ => keeps_write _

theorem failureUnseen_tmrInit_iff (halm : Halm) (config : SctAdcConfig) (block : Block) :
    FailureUnseen block (tmrInit halm config (Trace.start block)) ↔
      block.allocation.halves config.part = true ∨ Available config block.allocation := by
  refine (failureUnseen_iff config.part ?_ block).trans ?_
  · exact (keeps_sctAllocateEvent halm).bind fun conversion =>
      (keeps_sctAllocateEvent halm).bind fun memory =>
      (keeps_sctAllocateEvent halm).bind fun reset =>
      (keeps_write _).bind fun _ => (keeps_write _).bind fun _ =>
      (keeps_connectOutput _ _ _).bind fun _ => (keeps_write _).bind fun _ =>
      (keeps_write _).bind fun _ => (keeps_connectOutput _ _ _).bind fun _ =>
      (keeps_write _).bind fun _ => (keeps_write _).bind fun _ => keeps_pure _
  · refine (or_congr_right (needs_tmrInit halm config (Trace.start block))).trans ?_
    exact or_and_iff block.allocation config.part (Available config block.allocation)

end Adc

/-! ## Both constructors -/

theorem failed_init_unseen_iff (halm : Halm) (block : Block) :
    (∀ config : Sof.SctSofConfig,
      FailureUnseen block (Sof.tmrInit halm config (Trace.start block)) ↔
        block.allocation.halves config.part = true ∨ Sof.Available config block.allocation) ∧
    (∀ config : Adc.SctAdcConfig,
      FailureUnseen block (Adc.tmrInit halm config (Trace.start block)) ↔
        block.allocation.halves config.part = true ∨ Adc.Available config block.allocation) :=
  ⟨fun config => Sof.failureUnseen_tmrInit_iff halm config block,
    fun config => Adc.failureUnseen_tmrInit_iff halm config block⟩

/-- The lowest free event, and no prescaler. -/
def lowestFirst : Halm where
  pickEvent claimed := (List.finRange 16).find? fun event => !claimed event
  pick_free claimed event picked := by
    have free := List.find?_some picked
    simpa using free
  pick_none claimed picked event := by
    have taken := List.find?_eq_none.mp picked event (List.mem_finRange event)
    simpa using taken
  prescaler := fun _ => 0

def resetRegisters : LpcSct :=
  { noreload := fun _ => false
    ctrl := fun _ => { halt := true, stop := false, pre := 0 }
    limit := fun _ => 0
    count := fun _ => 0
    state := fun _ => 0
    regmode := fun _ => 0
    outputdirctrl := fun _ => 0
    res := fun _ => 0
    dmareq0 := 0
    dmareq1 := 0
    even := 0
    evflag := 0
    matchcap := fun _ _ => 0
    capctrl := fun _ _ => 0
    evCtrl := fun _ => .zero
    evState := fun _ => 0
    outSet := fun _ => 0
    outClr := fun _ => 0 }

/-- A block of which nothing is claimed but the given events. -/
def resetBlock (claimed : Fin 16 → Bool) : Block :=
  { allocation :=
      { halves := fun _ => false
        events := claimed
        inputs := fun _ => false
        outputs := fun _ => false }
    registers := resetRegisters
    ctinIn := fun _ => { synch := false, select := 0 }
    irqPriority := 0 }

def usbTimer : Sof.SctSofConfig :=
  { frequency := 12000000, i2s := .i2s0TxMws6, usb := .usb0Sof7, part := .low, priority := 1 }

def streamTimer : Adc.SctAdcConfig :=
  { cycle := 1000, delay := 10, frequency := 0, adc := .output15, dma := .dma0, part := .high }

/-- With one event left neither driver gets far, and both leave their half claimed. -/
theorem failed_init_seen :
    ¬ FailureUnseen (resetBlock (· ≠ 15))
        (Sof.tmrInit lowestFirst usbTimer (Trace.start (resetBlock (· ≠ 15)))) ∧
      ¬ FailureUnseen (resetBlock (· ≠ 15))
        (Adc.tmrInit lowestFirst streamTimer (Trace.start (resetBlock (· ≠ 15)))) := by
  constructor
  · rintro ⟨same, _⟩
    exact Bool.false_ne_true (congrFun (congrArg Allocation.halves same) .low).symm
  · rintro ⟨same, _⟩
    exact Bool.false_ne_true (congrFun (congrArg Allocation.halves same) .high).symm

end HalmExamples.Sct
