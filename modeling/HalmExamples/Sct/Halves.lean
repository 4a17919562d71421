import HalmExamples.Foundation.Schedule
import HalmExamples.Sct.Teardown
import HalmExamples.Sct.TwoTimers

/-!
# The halves do not disturb each other

Whatever is done to one half, the fields that the timer of the other half owns stay as they
are: a constructor claims free events and outputs only, and every write is within the half
and what is claimed.
-/

set_option autoImplicit false

namespace HalmExamples.Sct

open Foundation Foundation.Attempt Foundation.Footprint

/-! ## Construction -/

/-- A constructor has claimed these events and outputs, which were free, and has touched
nothing but them and the half. -/
structure Claimed (part : SctPart) (before : Block) (events outputs : Set (Fin 16))
    (trace : Trace) : Prop where
  confined : Confined readField (area part events outputs) before.registers trace.block.registers
  claimedEvents : ∀ event, trace.block.allocation.events event = true ↔
    event ∈ events ∨ before.allocation.events event = true
  claimedOutputs : ∀ output, trace.block.allocation.outputs output = true ↔
    output ∈ outputs ∨ before.allocation.outputs output = true
  eventsFree : ∀ event ∈ events, before.allocation.events event = false
  outputsFree : ∀ output ∈ outputs, before.allocation.outputs output = false

def Stopped (part : SctPart) (before : Block) (trace : Trace) : Prop :=
  ∃ events outputs, Claimed part before events outputs trace

section Construction

variable (part : SctPart) (before : Block) (events outputs : Set (Fin 16))

theorem claimed_start (registers : LpcSct)
    (touched : Confined readField (area part ∅ ∅) before.registers registers) :
    Claimed part before ∅ ∅ (Trace.start { before with registers := registers }) :=
  ⟨touched, by simp [Trace.start], by simp [Trace.start], by simp, by simp⟩

theorem triple_claim (failure : Failure) (taken : Allocation → Bool)
    (claimed : Allocation → Allocation)
    (sameEvents : ∀ allocation, (claimed allocation).events = allocation.events)
    (sameOutputs : ∀ allocation, (claimed allocation).outputs = allocation.outputs) :
    Triple (Claimed part before events outputs) (claim failure taken claimed)
      (fun _ => Claimed part before events outputs) (Stopped part before) := by
  intro trace holds
  by_cases isTaken : taken trace.block.allocation = true
  · rw [show claim failure taken claimed trace = .error failure trace from if_pos isTaken]
    exact ⟨events, outputs, holds⟩
  · rw [show claim failure taken claimed trace =
      .ok () (trace.withAllocation (claimed trace.block.allocation)) from if_neg isTaken]
    refine ⟨holds.confined, ?_, ?_, holds.eventsFree, holds.outputsFree⟩
    · intro event
      rw [Trace.withAllocation, sameEvents]
      exact holds.claimedEvents event
    · intro output
      rw [Trace.withAllocation, sameOutputs]
      exact holds.claimedOutputs output

theorem triple_other (statement : Setup Unit)
    (done : ∀ trace, ∃ next, statement trace = .ok () next ∧
      next.block.allocation = trace.block.allocation ∧
      next.block.registers = trace.block.registers) :
    Triple (Claimed part before events outputs) statement
      (fun _ => Claimed part before events outputs) (Stopped part before) := by
  intro trace holds
  obtain ⟨next, finished, allocation, registers⟩ := done trace
  rw [finished]
  refine ⟨?_, ?_, ?_, holds.eventsFree, holds.outputsFree⟩
  · rw [registers]
    exact holds.confined
  · rw [allocation]
    exact holds.claimedEvents
  · rw [allocation]
    exact holds.claimedOutputs

theorem triple_write (changes : List (LpcSct → LpcSct))
    (each : ∀ change ∈ changes, Touches readField (area part events outputs) change) :
    Triple (Claimed part before events outputs) (write changes)
      (fun _ => Claimed part before events outputs) (Stopped part before) := by
  intro trace holds
  change Claimed part before events outputs (trace.writeAll changes)
  have block := writeAll_block trace changes
  refine ⟨?_, ?_, ?_, holds.eventsFree, holds.outputsFree⟩
  · rw [block]
    exact holds.confined.trans (confined_foldl changes each trace.block.registers)
  · rw [block]
    exact holds.claimedEvents
  · rw [block]
    exact holds.claimedOutputs

theorem update_true_iff (claimed : Fin 16 → Bool) (index other : Fin 16) :
    Function.update claimed index true other = true ↔ other = index ∨ claimed other = true := by
  by_cases same : other = index
  · rw [same, Function.update_self]
    exact iff_of_true rfl (Or.inl rfl)
  · rw [Function.update_of_ne same, or_iff_right same]

theorem free_before (claimed before : Fin 16 → Bool) (indices : Set (Fin 16))
    (grown : ∀ index, claimed index = true ↔ index ∈ indices ∨ before index = true)
    (index : Fin 16) (free : claimed index = false) : before index = false := by
  by_contra taken
  have now := (grown index).mpr (Or.inr (Bool.not_eq_false _ ▸ taken))
  rw [free] at now
  cases now

theorem claimed_claimEvent (trace : Trace) (event : Fin 16)
    (holds : Claimed part before events outputs trace)
    (free : trace.block.allocation.events event = false) :
    Claimed part before (insert event events) outputs
      (trace.withAllocation (trace.block.allocation.claimEvent event)) := by
  refine ⟨?_, ?_, holds.claimedOutputs, ?_, holds.outputsFree⟩
  · exact holds.confined.mono
      (area_mono part _ _ _ _ (Set.subset_insert event events) (Set.Subset.refl outputs))
  · intro other
    rw [Set.mem_insert_iff, or_assoc, ← holds.claimedEvents]
    exact update_true_iff trace.block.allocation.events event other
  · intro other member
    rcases Set.mem_insert_iff.mp member with rfl | earlier
    · exact free_before _ _ events holds.claimedEvents other free
    · exact holds.eventsFree other earlier

theorem triple_sctAllocateEvent (halm : Halm) :
    Triple (Claimed part before events outputs) (sctAllocateEvent halm)
      (fun event => Claimed part before (insert event events) outputs) (Stopped part before) := by
  intro trace holds
  unfold sctAllocateEvent
  cases picked : halm.pickEvent trace.block.allocation.events with
  | none => exact ⟨events, outputs, holds⟩
  | some event =>
      exact claimed_claimEvent part before events outputs trace event holds
        (halm.pick_free _ event picked)

theorem triple_sctReserveOutputChannel (output : Fin 16) :
    Triple (Claimed part before events outputs) (sctReserveOutputChannel output)
      (fun _ => Claimed part before events (insert output outputs)) (Stopped part before) := by
  intro trace holds
  by_cases taken : trace.block.allocation.outputs output = true
  · rw [show sctReserveOutputChannel output trace = .error .busy trace from if_pos taken]
    exact ⟨events, outputs, holds⟩
  · rw [show sctReserveOutputChannel output trace = .ok () (trace.withAllocation
        { trace.block.allocation with
          outputs := Function.update trace.block.allocation.outputs output true }) from
      if_neg taken]
    refine ⟨?_, holds.claimedEvents, ?_, holds.eventsFree, ?_⟩
    · exact holds.confined.mono
        (area_mono part _ _ _ _ (Set.Subset.refl events) (Set.subset_insert output outputs))
    · intro other
      rw [Set.mem_insert_iff, or_assoc, ← holds.claimedOutputs]
      exact update_true_iff trace.block.allocation.outputs output other
    · intro other member
      rcases Set.mem_insert_iff.mp member with rfl | earlier
      · exact free_before _ _ outputs holds.claimedOutputs other (Bool.eq_false_iff.mpr taken)
      · exact holds.outputsFree other earlier

theorem triple_sctBaseInit (base : SctPart) :
    Triple (Claimed part before events outputs) (sctBaseInit base)
      (fun _ => Claimed part before events outputs) (Stopped part before) :=
  triple_claim part before events outputs _ _ _ (fun _ => rfl) fun _ => rfl

theorem triple_sctReserveInputChannel (input : Fin 8) :
    Triple (Claimed part before events outputs) (sctReserveInputChannel input)
      (fun _ => Claimed part before events outputs) (Stopped part before) :=
  triple_claim part before events outputs _ _ _ (fun _ => rfl) fun _ => rfl

theorem triple_connectOutput (output : Option (Fin 16)) (clear set : Fin 16) :
    Triple (Claimed part before events outputs) (Adc.connectOutput output clear set)
      (fun _ => Claimed part before events ({index | output = some index} ∪ outputs))
      (Stopped part before) := by
  cases output with
  | none =>
      rw [show ({index : Fin 16 | none = some index} ∪ outputs) = outputs by simp]
      exact fun _ holds => holds
  | some index =>
      rw [show ({other : Fin 16 | some index = some other} ∪ outputs) = insert index outputs by
        ext other
        simp [eq_comm]]
      refine (triple_sctReserveOutputChannel part before events outputs index).bind fun _ => ?_
      exact triple_write part before events _ _ (Adc.outputWrites_touch events _ part index clear
        set (Set.mem_insert index outputs))

theorem triple_routeGimaInput (input : Sof.SctSofInput) :
    Triple (Claimed part before events outputs) (Sof.routeGimaInput input)
      (fun _ => Claimed part before events outputs) (Stopped part before) :=
  triple_other part before events outputs _ fun _ => ⟨_, rfl, rfl, rfl⟩

theorem triple_irqSetPriority (priority : Nat) :
    Triple (Claimed part before events outputs) (Sof.irqSetPriority priority)
      (fun _ => Claimed part before events outputs) (Stopped part before) :=
  triple_other part before events outputs _ fun _ => ⟨_, rfl, rfl, rfl⟩

/-- The two calls of the SOF timer's constructor. -/
theorem triple_allocateEvents (halm : Halm) :
    Triple (Claimed part before events outputs) (Sof.allocateEvents halm)
      (fun own => Claimed part before (insert own.usbEvent (insert own.i2sEvent events)) outputs)
      (Stopped part before) := by
  intro trace holds
  cases result : Sof.allocateEvents halm trace with
  | ok own next =>
      obtain ⟨picked, pickedSecond, rfl⟩ := Sof.allocateEvents_eq_ok halm trace next own result
      exact claimed_claimEvent part before _ outputs _ own.usbEvent
        (claimed_claimEvent part before events outputs trace own.i2sEvent holds
          (halm.pick_free _ _ picked))
        (halm.pick_free _ _ pickedSecond)
  | error failure next =>
      unfold Sof.allocateEvents at result
      split at result
      · cases result
        exact ⟨events, outputs, holds⟩
      · rename_i first picked
        dsimp only at result
        split at result
        · cases result
          exact ⟨_, outputs, claimed_claimEvent part before events outputs trace first holds
            (halm.pick_free _ first picked)⟩
        · cases result

end Construction

/-- The timer owns what its constructor has claimed. -/
def Constructed (part : SctPart) (before : Block) (device : Device) (trace : Trace) : Prop :=
  device.part = part ∧ device.MaskOwn ∧
    Claimed part before device.events device.outputs trace

theorem triple_sofInit (halm : Halm) (config : Sof.SctSofConfig) (before : Block) :
    Triple (Claimed config.part before ∅ ∅) (Sof.tmrInit halm config)
      (fun device => Constructed config.part before (.sof device))
      (Stopped config.part before) := by
  unfold Sof.tmrInit
  refine (triple_sctBaseInit _ before _ _ _).bind fun _ => ?_
  refine (triple_allocateEvents _ before _ _ halm).bind fun own => ?_
  refine (triple_sctReserveInputChannel _ before _ _ _).bind fun _ => ?_
  refine (triple_sctReserveInputChannel _ before _ _ _).bind fun _ => ?_
  refine (triple_routeGimaInput _ before _ _ config.i2s).bind fun _ => ?_
  refine (triple_routeGimaInput _ before _ _ config.usb).bind fun _ => ?_
  refine (triple_write _ before _ _ _ (Sof.initWrites_touch _ _ halm config own (by simp)
    (by simp))).bind fun _ => ?_
  refine (triple_irqSetPriority _ before _ _ config.priority).bind fun _ => ?_
  intro trace holds
  refine ⟨rfl, trivial, ?_⟩
  rw [LawfulSingleton.insert_empty_eq, Set.pair_comm] at holds
  exact holds

theorem triple_adcInit (halm : Halm) (config : Adc.SctAdcConfig) (before : Block) :
    Triple (Claimed config.part before ∅ ∅) (Adc.tmrInit halm config)
      (fun timer => Constructed config.part before (.adc timer))
      (Stopped config.part before) := by
  unfold Adc.tmrInit
  refine (triple_sctBaseInit _ before _ _ _).bind fun _ => ?_
  refine (triple_sctAllocateEvent _ before _ _ halm).bind fun conversion => ?_
  refine (triple_sctAllocateEvent _ before _ _ halm).bind fun memory => ?_
  refine (triple_sctAllocateEvent _ before _ _ halm).bind fun reset => ?_
  refine (triple_write _ before _ _ _ (Adc.baseWrites_touch _ _ halm config)).bind fun _ => ?_
  refine (triple_write _ before _ _ _ (Adc.eventWrites_touch _ _ _ conversion _
    (by simp))).bind fun _ => ?_
  refine (triple_connectOutput _ before _ _ _ _ _).bind fun _ => ?_
  refine (triple_write _ before _ _ _ (Adc.eventWrites_touch _ _ _ memory _
    (by simp))).bind fun _ => ?_
  refine (triple_write _ before _ _ _ (Adc.dmaRequestWrites_touch _ _ _ config.dma memory
    (by simp))).bind fun _ => ?_
  refine (triple_connectOutput _ before _ _ _ _ _).bind fun _ => ?_
  refine (triple_write _ before _ _ _ (Adc.eventWrites_touch _ _ _ reset _
    (by simp))).bind fun _ => ?_
  refine (triple_write _ before _ _ _ (Adc.endWrites_touch _ _ config reset)).bind fun _ => ?_
  intro trace holds
  refine ⟨rfl, ?_, ?_⟩
  · exact ((masks_bit conversion (by simp [Device.events])).or
      (masks_bit memory (by simp [Device.events]))).or (masks_bit reset (by simp [Device.events]))
  · have sameEvents : insert reset (insert memory (insert conversion (∅ : Set (Fin 16)))) =
        {conversion, memory, reset} := by
      ext event
      simp only [Set.mem_insert_iff, Set.mem_singleton_iff, Set.mem_empty_iff_false, or_false]
      tauto
    have sameOutputs : {index | Adc.dmaOutput config.dma = some index} ∪
        ({index | Adc.adcOutput config.adc = some index} ∪ ∅) =
        {output | Adc.adcOutput config.adc = some output ∨
          Adc.dmaOutput config.dma = some output} := by
      ext output
      simp only [Set.mem_union, Set.mem_ofPred_eq, Set.mem_empty_iff_false, or_false]
      exact or_comm
    rw [sameEvents, sameOutputs] at holds
    exact holds

/-! ## Methods -/

/-- A method leaves what the timer owns and writes nothing else. -/
structure Serves (before after : Device) (registers changed : LpcSct) : Prop where
  part : after.part = before.part
  events : after.events = before.events
  outputs : after.outputs = before.outputs
  mask : before.MaskOwn → after.MaskOwn
  confined : Confined readField (area before.part before.events before.outputs) registers changed

section Methods

variable (part : SctPart) (events outputs : Set (Fin 16))

theorem confined_withHalf (registers : LpcSct) (changed : Registers)
    (flags : ∀ event ∉ events,
      changed.evflag.getLsbD event = registers.evflag.getLsbD event) :
    Confined readField (area part events outputs) registers
      (Sof.withHalf registers part changed) :=
  confined_of part events outputs registers _
    (fun other different => by
      simp only [LpcSct.halfFields, Sof.withHalf, Function.update_of_ne different])
    (fun _ _ _ => rfl)
    (fun event outside => by simp only [LpcSct.eventFields, Sof.withHalf, flags event outside])
    (fun _ _ => rfl)

/-- The hardware raises flags and captures the counter of the half. -/
theorem confined_found (registers : LpcSct) (evflag : BitVec 32) (captured : Fin 16 → UInt16)
    (flags : ∀ event ∉ events, evflag.getLsbD event = registers.evflag.getLsbD event) :
    Confined readField (area part events outputs) registers
      { registers with
        evflag := evflag
        matchcap := fun event other =>
          if other = part then captured event else registers.matchcap event other } :=
  confined_of part events outputs registers _ (fun _ _ => rfl)
    (fun event other different => by simp only [LpcSct.cellFields, if_neg different])
    (fun event outside => by simp only [LpcSct.eventFields, flags event outside])
    (fun _ _ => rfl)

theorem confined_setValue (value : UInt16) (registers : LpcSct) :
    Confined readField (area part events outputs) registers
      (Sof.tmrSetValue part value registers) :=
  confined_of part events outputs registers _
    (fun other different => by
      simp only [LpcSct.halfFields, Sof.tmrSetValue, Function.update_of_ne different])
    (fun _ _ _ => rfl) (fun _ _ => rfl) (fun _ _ => rfl)

theorem touches_setStop (stop : Bool) :
    Touches readField (area part events outputs) (Adc.setStop part stop) :=
  touches_ctrl part events outputs fun registers => { registers.ctrl part with stop := stop }

/-- The ADC timer stops its counter around a write. -/
theorem confined_stopped (change : LpcSct → LpcSct)
    (touches : Touches readField (area part events outputs) change) (registers : LpcSct) :
    Confined readField (area part events outputs) registers
      (Adc.setStop part false (change (Adc.setStop part true registers))) :=
  ((touches_setStop part events outputs true registers).trans (touches _)).trans
    (touches_setStop part events outputs false _)

end Methods

theorem sof_mask_own (device : Sof.Device) :
    Masks (Device.sof device).events device.timer.mask :=
  (masks_bit device.timer.events.i2sEvent (Or.inl rfl)).or
    (masks_bit device.timer.events.usbEvent (Or.inr rfl))

theorem Masks.and_left {events : Set (Fin 16)} {mask : BitVec 32} (masks : Masks events mask)
    (word : BitVec 32) : Masks events (word &&& mask) := by
  intro event outside
  rw [BitVec.getLsbD_and, masks event outside, Bool.and_false]

theorem sof_serves (halm : Halm) (device : Sof.Device) (registers : LpcSct) (request : Request)
    (call : Sof.Call)
    (is : request.sofCall device.timer.mask registers.evflag = some call) :
    Serves (.sof device) (.sof (Sof.call halm device registers call).1) registers
      (Sof.call halm device registers call).2 := by
  have masks := sof_mask_own device
  have kept := Sof.call_untouched halm device registers call
  have sameEvents : (Device.sof (Sof.call halm device registers call).1).events =
      (Device.sof device).events := by
    simp only [Device.events, kept.events]
  refine ⟨kept.part, sameEvents, rfl, fun _ => trivial, ?_⟩
  cases request with
  | enable =>
      cases is
      exact confined_withHalf _ _ _ registers _ (masks.clear registers.evflag)
  | disable =>
      cases is
      exact confined_withHalf _ _ _ registers _ fun _ _ => rfl
  | setFrequency frequency =>
      cases is
      exact touches_sctSetFrequency halm _ _ _ frequency registers
  | setOverflow overflow => cases is
  | setValue value =>
      cases is
      exact confined_setValue _ _ _ value.toUInt16 registers
  | interrupt raised captured =>
      cases is
      have flags := (masks.and_left raised).set registers.evflag
      refine (confined_found _ _ _ registers _ captured flags).trans ?_
      exact confined_withHalf _ _ _ _ _ (masks.clear _)

theorem adc_serves (halm : Halm) (timer : Adc.SctAdc) (registers : LpcSct) (call : Adc.Call)
    (masks : Device.MaskOwn (.adc timer)) :
    Serves (.adc timer) (.adc (Adc.call halm timer registers call).1) registers
      (Adc.call halm timer registers call).2 := by
  cases call with
  | enable =>
      refine ⟨rfl, rfl, rfl, id, ?_⟩
      exact (touches_evflag timer.part _ _ (fun registers => registers.evflag &&& ~~~timer.mask)
        (fun registers => masks.clear registers.evflag) registers).trans
        (touches_ctrl timer.part _ _
          (fun registers => { registers.ctrl timer.part with halt := false }) _)
  | disable =>
      refine ⟨rfl, rfl, rfl, id, ?_⟩
      exact touches_ctrl timer.part _ _
        (fun registers => { registers.ctrl timer.part with halt := true }) registers
  | setFrequency frequency =>
      exact ⟨rfl, rfl, rfl, id, touches_sctSetFrequency halm _ _ _ frequency registers⟩
  | setOverflow overflow =>
      refine ⟨rfl, rfl, rfl, id, ?_⟩
      exact confined_stopped timer.part _ _ _ (touches_matchcap timer.part _ _ timer.reset
        fun _ => (overflow - 1).toUInt16) registers
  | setValue value =>
      refine ⟨rfl, rfl, rfl, id, ?_⟩
      exact confined_stopped timer.part _ _ _ (touches_count timer.part _ _
        fun _ => value.toUInt16) registers

theorem request_serves (halm : Halm) (registers changed : LpcSct) (request : Request)
    (device after : Device) (masks : device.MaskOwn)
    (served : device.request halm registers request = some (after, changed)) :
    Serves device after registers changed := by
  cases device with
  | sof device =>
      obtain ⟨call, is, result⟩ := Option.map_eq_some_iff.mp served
      cases result
      exact sof_serves halm device registers request call is
  | adc timer =>
      obtain ⟨call, _, result⟩ := Option.map_eq_some_iff.mp served
      cases result
      exact adc_serves halm timer registers call masks

/-! ## Destruction -/

theorem sof_deinit_confined (device : Sof.Device) (block : Block) :
    Confined readField (area device.part (Device.sof device).events (Device.sof device).outputs)
      block.registers (Sof.tmrDeinit device block).registers :=
  confined_foldl _ (Sof.deinitWrites_touch _ _ device (Or.inl rfl) (Or.inr rfl)) block.registers

theorem adc_deinit_confined (timer : Adc.SctAdc) (masks : Device.MaskOwn (.adc timer))
    (block : Block) :
    Confined readField (area timer.part (Device.adc timer).events (Device.adc timer).outputs)
      block.registers (Adc.tmrDeinit timer block).registers := by
  refine confined_foldl _ ?_ block.registers
  simp only [Adc.deinitWrites, List.forall_mem_append, List.forall_mem_cons]
  have conversion : timer.conversion ∈ (Device.adc timer).events := Or.inl rfl
  have memory : timer.memory ∈ (Device.adc timer).events := Or.inr (Or.inl rfl)
  have reset : timer.reset ∈ (Device.adc timer).events := Or.inr (Or.inr rfl)
  refine ⟨⟨⟨⟨⟨⟨⟨⟨?_, ?_, ?_, List.forall_mem_nil _⟩, ?_⟩, ?_⟩, ?_⟩, ?_⟩, ?_⟩, ?_⟩, ?_,
    List.forall_mem_nil _⟩
  · exact touches_ctrl timer.part _ _ _
  · exact touches_even timer.part _ _ _ fun registers => masks.clear registers.even
  · exact touches_limit timer.part _ _ _
  · exact Adc.dmaRequestClears_touch _ _ timer.part timer.dma timer.memory memory
  · exact Adc.outputClears_touch _ _ timer.part timer.dmaOutput fun _ is => Or.inr is
  · exact Adc.outputClears_touch _ _ timer.part timer.adcOutput fun _ is => Or.inl is
  · exact Adc.eventClears_touch _ _ timer.part timer.reset reset
  · exact Adc.eventClears_touch _ _ timer.part timer.memory memory
  · exact Adc.eventClears_touch _ _ timer.part timer.conversion conversion
  · exact touches_noreload timer.part _ _ _

theorem deinit_confined (base : SctBase) (block : Block) (device : Device)
    (masks : device.MaskOwn) :
    Confined readField (area device.part device.events device.outputs) block.registers
      (device.deinit base block).registers := by
  have last := (base.deinit_touches device.part).mono
    (area_mono device.part _ _ _ _ (Set.empty_subset device.events)
      (Set.empty_subset device.outputs))
  cases device with
  | sof device => exact (sof_deinit_confined device block).trans (last _)
  | adc timer => exact (adc_deinit_confined timer masks block).trans (last _)

theorem releaseOutput_other (output : Option (Fin 16)) (claimed : Fin 16 → Bool) (index : Fin 16)
    (other : output ≠ some index) : Adc.releaseOutput output claimed index = claimed index := by
  cases output with
  | none => rfl
  | some own => exact Function.update_of_ne (fun same => other (congrArg some same.symm)) _ _

theorem deinit_keeps (base : SctBase) (block : Block) (device : Device) :
    (∀ event ∉ device.events,
      (device.deinit base block).allocation.events event = block.allocation.events event) ∧
    ∀ output ∉ device.outputs,
      (device.deinit base block).allocation.outputs output = block.allocation.outputs output := by
  cases device with
  | sof device =>
      refine ⟨?_, fun _ _ => rfl⟩
      intro event outside
      have i2s : event ≠ device.timer.events.i2sEvent := fun same => outside (Or.inl same)
      have usb : event ≠ device.timer.events.usbEvent := fun same => outside (Or.inr same)
      exact (Function.update_of_ne i2s _ _).trans (Function.update_of_ne usb _ _)
  | adc timer =>
      constructor
      · intro event outside
        have conversion : event ≠ timer.conversion := fun same => outside (Or.inl same)
        have memory : event ≠ timer.memory := fun same => outside (Or.inr (Or.inl same))
        have reset : event ≠ timer.reset := fun same => outside (Or.inr (Or.inr same))
        exact (Function.update_of_ne conversion _ _).trans
          ((Function.update_of_ne memory _ _).trans (Function.update_of_ne reset _ _))
      · intro output outside
        have adc : timer.adcOutput ≠ some output := fun same => outside (Or.inl same)
        have dma : timer.dmaOutput ≠ some output := fun same => outside (Or.inr same)
        exact (releaseOutput_other _ _ output adc).trans (releaseOutput_other _ _ output dma)

/-! ## The invariant -/

/-- The timer of a half, with what it owns claimed. -/
structure Device.Holds (device : Device) (part : SctPart) (allocation : Allocation) : Prop where
  part : device.part = part
  mask : device.MaskOwn
  claimedEvents : ∀ event ∈ device.events, allocation.events event = true
  claimedOutputs : ∀ output ∈ device.outputs, allocation.outputs output = true

def Device.Apart (one two : Device) : Prop :=
  (∀ event ∈ one.events, event ∉ two.events) ∧ ∀ output ∈ one.outputs, output ∉ two.outputs

theorem Device.Apart.symm {one two : Device} (apart : one.Apart two) : two.Apart one :=
  ⟨fun event second first => apart.1 event first second,
    fun output second first => apart.2 output first second⟩

structure System.Inv (system : System) : Prop where
  holds : ∀ part device, system.devices part = some device →
    device.Holds part system.block.allocation
  apart : ∀ one two first second, one ≠ two → system.devices one = some first →
    system.devices two = some second → first.Apart second

/-- The other half's timer sees nothing of what is done within an area that is apart. -/
theorem owned_outside (device : Device) (part : SctPart) (events outputs : Set (Fin 16))
    (otherHalf : device.part ≠ part) (apartEvents : ∀ event ∈ device.events, event ∉ events)
    (apartOutputs : ∀ output ∈ device.outputs, output ∉ outputs) :
    ∀ field ∈ device.owned, field ∉ area part events outputs := by
  intro field own
  cases field with
  | half other => exact fun inside => otherHalf (own.symm.trans inside)
  | cell event other => exact fun inside => otherHalf (own.2.symm.trans inside)
  | event event => exact apartEvents event own
  | output output => exact apartOutputs output own

structure Replaced (system next : System) (part : SctPart) : Prop where
  others : ∀ other ≠ part, next.devices other = system.devices other
  kept : ∀ other ≠ part, ∀ device, system.devices other = some device →
    device.Holds other next.block.allocation
  new : ∀ device, next.devices part = some device → device.Holds part next.block.allocation ∧
    ∀ other ≠ part, ∀ neighbour, system.devices other = some neighbour → neighbour.Apart device

theorem inv_replaced (system next : System) (part : SctPart) (inv : system.Inv)
    (replaced : Replaced system next part) : next.Inv := by
  constructor
  · intro other device is
    by_cases same : other = part
    · subst same
      exact (replaced.new device is).1
    · rw [replaced.others other same] at is
      exact replaced.kept other same device is
  · intro one two first second different isFirst isSecond
    by_cases left : one = part
    · subst left
      rw [replaced.others two (Ne.symm different)] at isSecond
      exact ((replaced.new first isFirst).2 two (Ne.symm different) second isSecond).symm
    · rw [replaced.others one left] at isFirst
      by_cases right : two = part
      · subst right
        exact (replaced.new second isSecond).2 one left first isFirst
      · rw [replaced.others two right] at isSecond
        exact inv.apart one two first second different isFirst isSecond

/-- A step of one half: the invariant, and what the other half's timer owns. -/
structure Undisturbed (system next : System) (part : SctPart) : Prop where
  replaced : Replaced system next part
  fields : ∀ other ≠ part, ∀ device, system.devices other = some device →
    ∀ field ∈ device.owned,
      readField field next.block.registers = readField field system.block.registers

/-! ## Steps -/

theorem before_confined (base : SctBase) (part : SctPart) (block : Block) :
    ∃ registers, base.before part block = { block with registers := registers } ∧
      Confined readField (area part ∅ ∅) block.registers registers := by
  unfold SctBase.before
  split
  · exact ⟨block.registers, rfl, confined_refl block.registers⟩
  · exact ⟨_, rfl, base.init_touches part block.registers⟩

theorem Claimed.holds {part : SctPart} {block : Block} {events outputs : Set (Fin 16)}
    {trace : Trace} (claimed : Claimed part block events outputs trace) (other : SctPart)
    (device : Device) (holds : device.Holds other block.allocation) :
    device.Holds other trace.block.allocation := by
  refine ⟨holds.part, holds.mask, ?_, ?_⟩
  · intro event own
    exact (claimed.claimedEvents event).mpr (Or.inr (holds.claimedEvents event own))
  · intro output own
    exact (claimed.claimedOutputs output).mpr (Or.inr (holds.claimedOutputs output own))

theorem Claimed.apart {part : SctPart} {block : Block} {events outputs : Set (Fin 16)}
    {trace : Trace} (claimed : Claimed part block events outputs trace) (other : SctPart)
    (device : Device) (holds : device.Holds other block.allocation) :
    (∀ event ∈ device.events, event ∉ events) ∧ ∀ output ∈ device.outputs, output ∉ outputs := by
  constructor
  · intro event own new
    have free := claimed.eventsFree event new
    rw [holds.claimedEvents event own] at free
    cases free
  · intro output own new
    have free := claimed.outputsFree output new
    rw [holds.claimedOutputs output own] at free
    cases free

theorem Claimed.fields {part : SctPart} {block : Block} {events outputs : Set (Fin 16)}
    {trace : Trace} (claimed : Claimed part block events outputs trace) (other : SctPart)
    (different : other ≠ part) (device : Device) (holds : device.Holds other block.allocation) :
    ∀ field ∈ device.owned,
      readField field trace.block.registers = readField field block.registers := by
  obtain ⟨apartEvents, apartOutputs⟩ := claimed.apart other device holds
  refine claimed.confined.untouched (owned_outside device part events outputs ?_ apartEvents
    apartOutputs)
  exact fun same => different (holds.part.symm.trans same)

theorem install_undisturbed {Value : Type} (base : SctBase) (system : System) (part : SctPart)
    (device : Value → Device) (attempt : Setup Value) (inv : system.Inv)
    (triple : Triple (Claimed part system.block ∅ ∅) attempt
      (fun value => Constructed part system.block (device value)) (Stopped part system.block)) :
    Undisturbed system (system.install part device
      (attempt (Trace.start (base.before part system.block)))) part := by
  obtain ⟨registers, before, touched⟩ := before_confined base part system.block
  have start := claimed_start part system.block registers touched
  rw [before]
  cases result : attempt (Trace.start { system.block with registers := registers }) with
  | ok value trace =>
      obtain ⟨isPart, mask, claimed⟩ := triple.of_ok _ _ _ start result
      refine ⟨⟨?_, ?_, ?_⟩, ?_⟩
      · intro other different
        exact Function.update_of_ne different _ _
      · intro other different neighbour is
        exact claimed.holds other neighbour (inv.holds other neighbour is)
      · intro new is
        cases Option.some.inj ((Function.update_self part _ system.devices).symm.trans is)
        refine ⟨⟨isPart, mask, ?_, ?_⟩, ?_⟩
        · intro event own
          exact (claimed.claimedEvents event).mpr (Or.inl own)
        · intro output own
          exact (claimed.claimedOutputs output).mpr (Or.inl own)
        · intro other different neighbour isNeighbour
          exact claimed.apart other neighbour (inv.holds other neighbour isNeighbour)
      · intro other different neighbour is
        exact claimed.fields other different neighbour (inv.holds other neighbour is)
  | error failure trace =>
      obtain ⟨events, outputs, claimed⟩ := triple.of_error _ _ _ start result
      refine ⟨⟨fun _ _ => rfl, ?_, ?_⟩, ?_⟩
      · intro other different neighbour is
        exact claimed.holds other neighbour (inv.holds other neighbour is)
      · intro old is
        exact ⟨claimed.holds part old (inv.holds part old is), fun other different neighbour =>
          fun isNeighbour => inv.apart other part neighbour old different isNeighbour is⟩
      · intro other different neighbour is
        exact claimed.fields other different neighbour (inv.holds other neighbour is)

theorem fields_of_confined (system : System) (inv : system.Inv) (part : SctPart) (device : Device)
    (is : system.devices part = some device) (registers : LpcSct)
    (confined : Confined readField (area device.part device.events device.outputs)
      system.block.registers registers)
    (other : SctPart) (different : other ≠ part) (neighbour : Device)
    (isNeighbour : system.devices other = some neighbour) :
    ∀ field ∈ neighbour.owned,
      readField field registers = readField field system.block.registers := by
  have holds := inv.holds part device is
  have apart := inv.apart other part neighbour device different isNeighbour is
  refine confined.untouched (owned_outside neighbour _ _ _ ?_ apart.1 apart.2)
  rw [holds.part, (inv.holds other neighbour isNeighbour).part]
  exact different

theorem request_undisturbed (halm : Halm) (base : SctBase) (system next : System) (part : SctPart)
    (request : Request) (inv : system.Inv)
    (taken : halfStep halm base system (.request part request) = some next) :
    Undisturbed system next part := by
  obtain ⟨device, is, taken⟩ := Option.bind_eq_some_iff.mp taken
  obtain ⟨⟨after, registers⟩, served, taken⟩ := Option.bind_eq_some_iff.mp taken
  cases Option.some.inj taken
  have holds := inv.holds part device is
  have serves := request_serves halm _ _ request device after holds.mask served
  refine ⟨⟨?_, ?_, ?_⟩, ?_⟩
  · intro other different
    exact Function.update_of_ne different _ _
  · intro other _ neighbour isNeighbour
    exact inv.holds other neighbour isNeighbour
  · intro new isNew
    cases Option.some.inj ((Function.update_self part _ system.devices).symm.trans isNew)
    refine ⟨⟨serves.part.trans holds.part, serves.mask holds.mask, ?_, ?_⟩, ?_⟩
    · rw [serves.events]
      exact holds.claimedEvents
    · rw [serves.outputs]
      exact holds.claimedOutputs
    · intro other different neighbour isNeighbour
      have apart := inv.apart other part neighbour device different isNeighbour is
      unfold Device.Apart
      rw [serves.events, serves.outputs]
      exact apart
  · exact fields_of_confined system inv part device is registers serves.confined

theorem deinit_undisturbed (halm : Halm) (base : SctBase) (system next : System) (part : SctPart)
    (inv : system.Inv) (taken : halfStep halm base system (.deinit part) = some next) :
    Undisturbed system next part := by
  obtain ⟨device, is, taken⟩ := Option.bind_eq_some_iff.mp taken
  cases Option.some.inj taken
  have holds := inv.holds part device is
  obtain ⟨keepsEvents, keepsOutputs⟩ := deinit_keeps base system.block device
  refine ⟨⟨?_, ?_, ?_⟩, ?_⟩
  · intro other different
    exact Function.update_of_ne different _ _
  · intro other different neighbour isNeighbour
    have kept := inv.holds other neighbour isNeighbour
    have apart := inv.apart other part neighbour device different isNeighbour is
    refine ⟨kept.part, kept.mask, ?_, ?_⟩
    · intro event own
      exact (keepsEvents event (apart.1 event own)).trans (kept.claimedEvents event own)
    · intro output own
      exact (keepsOutputs output (apart.2 output own)).trans (kept.claimedOutputs output own)
  · intro new isNew
    cases (Function.update_self part _ system.devices).symm.trans isNew
  · exact fields_of_confined system inv part device is _
      (deinit_confined base system.block device holds.mask)

theorem step_undisturbed (halm : Halm) (base : SctBase) (system next : System) (label : HalfLabel)
    (inv : system.Inv) (taken : halfStep halm base system label = some next) :
    Undisturbed system next label.part := by
  cases label with
  | initSof config =>
      cases Option.some.inj taken
      exact install_undisturbed base system config.part .sof (Sof.tmrInit halm config) inv
        (triple_sofInit halm config system.block)
  | initAdc config =>
      cases Option.some.inj taken
      exact install_undisturbed base system config.part .adc (Adc.tmrInit halm config) inv
        (triple_adcInit halm config system.block)
  | request part request => exact request_undisturbed halm base system next part request inv taken
  | deinit part => exact deinit_undisturbed halm base system next part inv taken

/-! ## Runs -/

def System.start (block : Block) : System := { block := block, devices := fun _ => none }

theorem System.inv_start (block : Block) : (System.start block).Inv := by
  constructor
  · intro part device is
    cases is
  · intro one two first second _ isFirst
    cases isFirst

theorem System.inv_step (halm : Halm) (base : SctBase) (system : System) (label : HalfLabel)
    (next : System) (inv : system.Inv) (taken : halfStep halm base system label = some next) :
    next.Inv :=
  inv_replaced system next label.part inv
    (step_undisturbed halm base system next label inv taken).replaced

theorem run_fields (halm : Halm) (base : SctBase) (part : SctPart) (device : Device)
    (labels : List HalfLabel) (others : ∀ label ∈ labels, label.part ≠ part)
    (system final : System) (inv : system.Inv) (is : system.devices part = some device)
    (done : Schedule.run (halfStep halm base) labels system = some final) :
    ∀ field ∈ device.owned,
      readField field final.block.registers = readField field system.block.registers := by
  induction labels generalizing system with
  | nil =>
      cases done
      exact fun _ _ => rfl
  | cons label rest ih =>
      simp only [Schedule.run] at done
      cases taken : halfStep halm base system label with
      | none => simp [taken] at done
      | some next =>
          rw [taken] at done
          have other : part ≠ label.part := Ne.symm (others label List.mem_cons_self)
          have step := step_undisturbed halm base system next label inv taken
          have stays : next.devices part = some device := (step.replaced.others part other).trans is
          have later := ih (fun next member => others next (List.mem_cons_of_mem label member))
            next (System.inv_step halm base system label next inv taken) stays done
          intro field own
          exact (later field own).trans (step.fields part other device is field own)

/-- For every order in which HALM hands out events, every history of both halves and every
later sequence of steps of the other half. -/
theorem other_half_undisturbed (halm : Halm) (base : SctBase) (block : Block)
    (history later : List HalfLabel) (system final : System) (part : SctPart) (timer : Device)
    (reached : Schedule.run (halfStep halm base) history (System.start block) = some system)
    (initialised : system.devices part = some timer)
    (others : ∀ label ∈ later, label.part ≠ part)
    (done : Schedule.run (halfStep halm base) later system = some final) :
    ∀ field ∈ timer.owned,
      readField field final.block.registers = readField field system.block.registers :=
  run_fields halm base part timer later others system final
    (Schedule.run_invariant (halfStep halm base) System.Inv (System.inv_step halm base) history
      (System.start block) system (System.inv_start block) reached) initialised done

/-- A base class that halts the counter of its half. -/
def haltingBase : SctBase where
  init part registers :=
    { registers with
      ctrl := Function.update registers.ctrl part { halt := true, stop := false, pre := 0 } }
  deinit _ registers := registers
  init_touches part := touches_ctrl part ∅ ∅ _
  deinit_touches _ := confined_refl

/-- The SOF timer measures in the low half. -/
def lowHistory : List HalfLabel :=
  [.initSof usbTimer, .request .low .enable, .request .low (.interrupt 1 fun _ => 100)]

/-- The ADC timer of the high half comes, works and goes, and a second one fails. -/
def highLife : List HalfLabel :=
  [.initAdc streamTimer, .request .high .enable, .request .high (.setOverflow 500),
    .initAdc streamTimer, .request .high (.setValue 3), .request .high .disable, .deinit .high]

theorem other_half_undisturbed_high :
    ∃ system final timer,
      Schedule.run (halfStep lowestFirst haltingBase) lowHistory
        (System.start (resetBlock fun _ => false)) = some system ∧
      Schedule.run (halfStep lowestFirst haltingBase) highLife system = some final ∧
      system.devices .low = some timer ∧
      ∀ field ∈ timer.owned,
        readField field final.block.registers = readField field system.block.registers :=
  ⟨_, _, _, rfl, rfl, rfl,
    other_half_undisturbed lowestFirst haltingBase (resetBlock fun _ => false) lowHistory highLife
      _ _ .low _ rfl rfl (by decide) rfl⟩

end HalmExamples.Sct
