import HalmExamples.Foundation.Footprint
import HalmExamples.Sct.Drivers

/-!
# The fields of the shared registers

A register of the SCT holds fields of both halves or of all events and outputs.  Here the
registers are taken apart by the half, the event or the output that a field belongs to, and
each write of the two drivers gets the area it touches.
-/

set_option autoImplicit false

namespace HalmExamples.Sct

open Foundation Foundation.Footprint

/-! ## Fields -/

inductive Field where
  | half (part : SctPart)
  /-- `MATCH_PART[event][part]`, which is `CAP_PART[event][part]`, and `CAPCTRL_PART`. -/
  | cell (event : Fin 16) (part : SctPart)
  | event (event : Fin 16)
  | output (output : Fin 16)

structure HalfFields where
  noreload : Bool
  ctrl : Control
  limit : BitVec 16
  count : UInt16
  state : UInt16
  regmode : BitVec 16

structure CellFields where
  matchcap : UInt16
  capctrl : BitVec 16

/-- `EV[event]` and the bits of the event in the registers with a bit for each event. -/
structure EventFields where
  ctrl : EventControl
  state : BitVec 32
  even : Bool
  evflag : Bool
  dmareq0 : Bool
  dmareq1 : Bool

structure OutputFields where
  set : BitVec 32
  clr : BitVec 32
  direction : BitVec 2
  res : BitVec 2

def Field.Value : Field → Type
  | .half _ => HalfFields
  | .cell _ _ => CellFields
  | .event _ => EventFields
  | .output _ => OutputFields

def LpcSct.halfFields (registers : LpcSct) (part : SctPart) : HalfFields :=
  { noreload := registers.noreload part
    ctrl := registers.ctrl part
    limit := registers.limit part
    count := registers.count part
    state := registers.state part
    regmode := registers.regmode part }

def LpcSct.cellFields (registers : LpcSct) (event : Fin 16) (part : SctPart) : CellFields :=
  { matchcap := registers.matchcap event part, capctrl := registers.capctrl event part }

def LpcSct.eventFields (registers : LpcSct) (event : Fin 16) : EventFields :=
  { ctrl := registers.evCtrl event
    state := registers.evState event
    even := registers.even.getLsbD event
    evflag := registers.evflag.getLsbD event
    dmareq0 := registers.dmareq0.getLsbD event
    dmareq1 := registers.dmareq1.getLsbD event }

def LpcSct.outputFields (registers : LpcSct) (output : Fin 16) : OutputFields :=
  { set := registers.outSet output
    clr := registers.outClr output
    direction := registers.outputdirctrl output
    res := registers.res output }

def readField : (field : Field) → LpcSct → field.Value
  | .half part, registers => registers.halfFields part
  | .cell event part, registers => registers.cellFields event part
  | .event event, registers => registers.eventFields event
  | .output output, registers => registers.outputFields output

/-- A half with all its match and capture registers, some events and some outputs. -/
def area (part : SctPart) (events outputs : Set (Fin 16)) : Set Field := fun
  | .half other => other = part
  | .cell _ other => other = part
  | .event event => event ∈ events
  | .output output => output ∈ outputs

theorem area_mono (part : SctPart) (events outputs moreEvents moreOutputs : Set (Fin 16))
    (fewer : events ⊆ moreEvents) (fewerOutputs : outputs ⊆ moreOutputs) :
    area part events outputs ⊆ area part moreEvents moreOutputs := by
  intro field inside
  cases field with
  | half other => exact inside
  | cell event other => exact inside
  | event event => exact fewer inside
  | output output => exact fewerOutputs inside

/-! ## Writes -/

theorem ne_of_outside {index other : Fin 16} {owned : Set (Fin 16)} (own : index ∈ owned)
    (outside : other ∉ owned) : other ≠ index := by
  rintro rfl
  exact outside own

theorem setCell_other {α : Type} (array : Fin 16 → SctPart → α) (event other : Fin 16)
    (part half : SctPart) (value : α) (different : half ≠ part) :
    setCell array event part value other half = array other half := by
  unfold setCell
  by_cases same : other = event
  · rw [same, Function.update_self, Function.update_of_ne different]
  · rw [Function.update_of_ne same]

section Writes

variable (part : SctPart) (events outputs : Set (Fin 16))

theorem confined_of (before after : LpcSct)
    (halves : ∀ other ≠ part, after.halfFields other = before.halfFields other)
    (cells : ∀ event, ∀ other ≠ part, after.cellFields event other = before.cellFields event other)
    (otherEvents : ∀ event ∉ events, after.eventFields event = before.eventFields event)
    (otherOutputs : ∀ output ∉ outputs, after.outputFields output = before.outputFields output) :
    Confined readField (area part events outputs) before after := by
  intro field outside
  cases field with
  | half other => exact halves other outside
  | cell event other => exact cells event other outside
  | event event => exact otherEvents event outside
  | output output => exact otherOutputs output outside

/-! ### Of a half -/

theorem touches_ctrl (value : LpcSct → Control) :
    Touches readField (area part events outputs) fun registers =>
      { registers with ctrl := Function.update registers.ctrl part (value registers) } :=
  fun registers => confined_of part events outputs registers _
    (fun other different => by simp only [LpcSct.halfFields, Function.update_of_ne different])
    (fun _ _ _ => rfl) (fun _ _ => rfl) (fun _ _ => rfl)

theorem touches_noreload (value : LpcSct → Bool) :
    Touches readField (area part events outputs) fun registers =>
      { registers with noreload := Function.update registers.noreload part (value registers) } :=
  fun registers => confined_of part events outputs registers _
    (fun other different => by simp only [LpcSct.halfFields, Function.update_of_ne different])
    (fun _ _ _ => rfl) (fun _ _ => rfl) (fun _ _ => rfl)

theorem touches_limit (value : LpcSct → BitVec 16) :
    Touches readField (area part events outputs) fun registers =>
      { registers with limit := Function.update registers.limit part (value registers) } :=
  fun registers => confined_of part events outputs registers _
    (fun other different => by simp only [LpcSct.halfFields, Function.update_of_ne different])
    (fun _ _ _ => rfl) (fun _ _ => rfl) (fun _ _ => rfl)

theorem touches_count (value : LpcSct → UInt16) :
    Touches readField (area part events outputs) fun registers =>
      { registers with count := Function.update registers.count part (value registers) } :=
  fun registers => confined_of part events outputs registers _
    (fun other different => by simp only [LpcSct.halfFields, Function.update_of_ne different])
    (fun _ _ _ => rfl) (fun _ _ => rfl) (fun _ _ => rfl)

theorem touches_state (value : LpcSct → UInt16) :
    Touches readField (area part events outputs) fun registers =>
      { registers with state := Function.update registers.state part (value registers) } :=
  fun registers => confined_of part events outputs registers _
    (fun other different => by simp only [LpcSct.halfFields, Function.update_of_ne different])
    (fun _ _ _ => rfl) (fun _ _ => rfl) (fun _ _ => rfl)

theorem touches_regmode (value : LpcSct → BitVec 16) :
    Touches readField (area part events outputs) fun registers =>
      { registers with regmode := Function.update registers.regmode part (value registers) } :=
  fun registers => confined_of part events outputs registers _
    (fun other different => by simp only [LpcSct.halfFields, Function.update_of_ne different])
    (fun _ _ _ => rfl) (fun _ _ => rfl) (fun _ _ => rfl)

theorem touches_matchcap (event : Fin 16) (value : LpcSct → UInt16) :
    Touches readField (area part events outputs) fun registers =>
      { registers with matchcap := setCell registers.matchcap event part (value registers) } :=
  fun registers => confined_of part events outputs registers _ (fun _ _ => rfl)
    (fun other half different => by
      simp only [LpcSct.cellFields, setCell_other _ event other part half _ different])
    (fun _ _ => rfl) (fun _ _ => rfl)

theorem touches_capctrl (event : Fin 16) (value : LpcSct → BitVec 16) :
    Touches readField (area part events outputs) fun registers =>
      { registers with capctrl := setCell registers.capctrl event part (value registers) } :=
  fun registers => confined_of part events outputs registers _ (fun _ _ => rfl)
    (fun other half different => by
      simp only [LpcSct.cellFields, setCell_other _ event other part half _ different])
    (fun _ _ => rfl) (fun _ _ => rfl)

/-! ### Of an event -/

theorem touches_evCtrl (event : Fin 16) (own : event ∈ events) (value : EventControl) :
    Touches readField (area part events outputs) fun registers =>
      { registers with evCtrl := Function.update registers.evCtrl event value } :=
  fun registers => confined_of part events outputs registers _ (fun _ _ => rfl)
    (fun _ _ _ => rfl)
    (fun other outside => by
      simp only [LpcSct.eventFields, Function.update_of_ne (ne_of_outside own outside)])
    (fun _ _ => rfl)

theorem touches_evState (event : Fin 16) (own : event ∈ events) (value : BitVec 32) :
    Touches readField (area part events outputs) fun registers =>
      { registers with evState := Function.update registers.evState event value } :=
  fun registers => confined_of part events outputs registers _ (fun _ _ => rfl)
    (fun _ _ _ => rfl)
    (fun other outside => by
      simp only [LpcSct.eventFields, Function.update_of_ne (ne_of_outside own outside)])
    (fun _ _ => rfl)

theorem touches_even (value : LpcSct → BitVec 32)
    (same : ∀ registers, ∀ event ∉ events,
      (value registers).getLsbD event = registers.even.getLsbD event) :
    Touches readField (area part events outputs) fun registers =>
      { registers with even := value registers } :=
  fun registers => confined_of part events outputs registers _ (fun _ _ => rfl)
    (fun _ _ _ => rfl)
    (fun other outside => by simp only [LpcSct.eventFields, same registers other outside])
    (fun _ _ => rfl)

theorem touches_evflag (value : LpcSct → BitVec 32)
    (same : ∀ registers, ∀ event ∉ events,
      (value registers).getLsbD event = registers.evflag.getLsbD event) :
    Touches readField (area part events outputs) fun registers =>
      { registers with evflag := value registers } :=
  fun registers => confined_of part events outputs registers _ (fun _ _ => rfl)
    (fun _ _ _ => rfl)
    (fun other outside => by simp only [LpcSct.eventFields, same registers other outside])
    (fun _ _ => rfl)

theorem touches_dmareq0 (value : LpcSct → BitVec 32)
    (same : ∀ registers, ∀ event ∉ events,
      (value registers).getLsbD event = registers.dmareq0.getLsbD event) :
    Touches readField (area part events outputs) fun registers =>
      { registers with dmareq0 := value registers } :=
  fun registers => confined_of part events outputs registers _ (fun _ _ => rfl)
    (fun _ _ _ => rfl)
    (fun other outside => by simp only [LpcSct.eventFields, same registers other outside])
    (fun _ _ => rfl)

theorem touches_dmareq1 (value : LpcSct → BitVec 32)
    (same : ∀ registers, ∀ event ∉ events,
      (value registers).getLsbD event = registers.dmareq1.getLsbD event) :
    Touches readField (area part events outputs) fun registers =>
      { registers with dmareq1 := value registers } :=
  fun registers => confined_of part events outputs registers _ (fun _ _ => rfl)
    (fun _ _ _ => rfl)
    (fun other outside => by simp only [LpcSct.eventFields, same registers other outside])
    (fun _ _ => rfl)

/-! ### Of an output -/

theorem touches_outSet (output : Fin 16) (own : output ∈ outputs) (value : BitVec 32) :
    Touches readField (area part events outputs) fun registers =>
      { registers with outSet := Function.update registers.outSet output value } :=
  fun registers => confined_of part events outputs registers _ (fun _ _ => rfl)
    (fun _ _ _ => rfl) (fun _ _ => rfl)
    (fun other outside => by
      simp only [LpcSct.outputFields, Function.update_of_ne (ne_of_outside own outside)])

theorem touches_outClr (output : Fin 16) (own : output ∈ outputs) (value : BitVec 32) :
    Touches readField (area part events outputs) fun registers =>
      { registers with outClr := Function.update registers.outClr output value } :=
  fun registers => confined_of part events outputs registers _ (fun _ _ => rfl)
    (fun _ _ _ => rfl) (fun _ _ => rfl)
    (fun other outside => by
      simp only [LpcSct.outputFields, Function.update_of_ne (ne_of_outside own outside)])

theorem touches_outputdirctrl (output : Fin 16) (own : output ∈ outputs) (value : BitVec 2) :
    Touches readField (area part events outputs) fun registers =>
      { registers with outputdirctrl := Function.update registers.outputdirctrl output value } :=
  fun registers => confined_of part events outputs registers _ (fun _ _ => rfl)
    (fun _ _ _ => rfl) (fun _ _ => rfl)
    (fun other outside => by
      simp only [LpcSct.outputFields, Function.update_of_ne (ne_of_outside own outside)])

theorem touches_res (output : Fin 16) (own : output ∈ outputs) (value : BitVec 2) :
    Touches readField (area part events outputs) fun registers =>
      { registers with res := Function.update registers.res output value } :=
  fun registers => confined_of part events outputs registers _ (fun _ _ => rfl)
    (fun _ _ _ => rfl) (fun _ _ => rfl)
    (fun other outside => by
      simp only [LpcSct.outputFields, Function.update_of_ne (ne_of_outside own outside)])

end Writes

/-! ## Masks -/

/-- The mask has bits of these events only. -/
def Masks (events : Set (Fin 16)) (mask : BitVec 32) : Prop :=
  ∀ event ∉ events, mask.getLsbD event = false

section Masks

variable {events : Set (Fin 16)}

theorem masks_bit (event : Fin 16) (own : event ∈ events) : Masks events (bit event) := by
  intro other outside
  rw [bit_getLsbD]
  exact decide_eq_false fun same => ne_of_outside own outside (Fin.val_injective same)

theorem Masks.or {first second : BitVec 32} (one : Masks events first) (two : Masks events second) :
    Masks events (first ||| second) := by
  intro event outside
  rw [BitVec.getLsbD_or, one event outside, two event outside, Bool.or_false]

theorem Masks.set {mask : BitVec 32} (masks : Masks events mask) (word : BitVec 32) :
    ∀ event ∉ events, (word ||| mask).getLsbD event = word.getLsbD event := by
  intro event outside
  rw [BitVec.getLsbD_or, masks event outside, Bool.or_false]

theorem Masks.clear {mask : BitVec 32} (masks : Masks events mask) (word : BitVec 32) :
    ∀ event ∉ events, (word &&& ~~~mask).getLsbD event = word.getLsbD event := by
  intro event outside
  have bound : (event : Nat) < 32 := Nat.lt_trans event.isLt (by decide)
  rw [BitVec.getLsbD_and, BitVec.getLsbD_not, masks event outside, decide_eq_true bound,
    Bool.not_false, Bool.and_true, Bool.and_true]

end Masks

theorem touches_sctSetFrequency (halm : Halm) (part : SctPart) (events outputs : Set (Fin 16))
    (frequency : UInt32) :
    Touches readField (area part events outputs) (sctSetFrequency halm part frequency) :=
  touches_ctrl part events outputs _

/-! ## The SOF timer -/

namespace Sof

section Lists

variable (events outputs : Set (Fin 16))

theorem eventWrites_touch (part : SctPart) (input : Fin 8) (event : Fin 16)
    (own : event ∈ events) :
    ∀ change ∈ eventWrites part input event,
      Touches readField (area part events outputs) change := by
  simp only [eventWrites, List.forall_mem_cons]
  exact ⟨touches_evCtrl part events outputs event own _,
    touches_evState part events outputs event own _, touches_regmode part events outputs _,
    touches_capctrl part events outputs event _, List.forall_mem_nil _⟩

theorem masks_eventsMask (own : Events) (i2s : own.i2sEvent ∈ events)
    (usb : own.usbEvent ∈ events) : Masks events (eventsMask own) :=
  (masks_bit own.i2sEvent i2s).or (masks_bit own.usbEvent usb)

theorem initWrites_touch (halm : Halm) (config : SctSofConfig) (own : Events)
    (i2s : own.i2sEvent ∈ events) (usb : own.usbEvent ∈ events) :
    ∀ change ∈ initWrites halm config own,
      Touches readField (area config.part events outputs) change := by
  have masks := masks_eventsMask events own i2s usb
  simp only [initWrites, List.forall_mem_append, List.forall_mem_cons]
  refine ⟨⟨⟨⟨?_, ?_, ?_, List.forall_mem_nil _⟩, ?_⟩, ?_⟩, ?_, ?_, ?_, List.forall_mem_nil _⟩
  · exact touches_ctrl config.part events outputs _
  · exact touches_sctSetFrequency halm config.part events outputs config.frequency
  · exact touches_noreload config.part events outputs _
  · exact eventWrites_touch events outputs config.part _ own.i2sEvent i2s
  · exact eventWrites_touch events outputs config.part _ own.usbEvent usb
  · exact touches_evflag config.part events outputs _ fun registers => masks.clear registers.evflag
  · exact touches_even config.part events outputs _ fun registers => masks.set registers.even
  · exact touches_state config.part events outputs _

theorem deinitWrites_touch (device : Device) (i2s : device.timer.events.i2sEvent ∈ events)
    (usb : device.timer.events.usbEvent ∈ events) :
    ∀ change ∈ deinitWrites device,
      Touches readField (area device.part events outputs) change := by
  have masks := masks_eventsMask events device.timer.events i2s usb
  simp only [deinitWrites, List.forall_mem_cons]
  refine ⟨?_, ?_, ?_, ?_, ?_, ?_, ?_, ?_, ?_, ?_, ?_, List.forall_mem_nil _⟩
  · exact touches_ctrl device.part events outputs _
  · exact touches_even device.part events outputs _ fun registers => masks.clear registers.even
  · exact touches_limit device.part events outputs _
  · exact touches_even device.part events outputs _ fun registers => masks.clear registers.even
  · exact touches_capctrl device.part events outputs _ _
  · exact touches_capctrl device.part events outputs _ _
  · exact touches_evCtrl device.part events outputs _ usb _
  · exact touches_evState device.part events outputs _ usb _
  · exact touches_evCtrl device.part events outputs _ i2s _
  · exact touches_evState device.part events outputs _ i2s _
  · exact touches_noreload device.part events outputs _

end Lists

end Sof

/-! ## The ADC timer -/

namespace Adc

section Lists

variable (events outputs : Set (Fin 16))

theorem eventWrites_touch (part : SctPart) (event : Fin 16) (value : UInt16)
    (own : event ∈ events) :
    ∀ change ∈ eventWrites part event value,
      Touches readField (area part events outputs) change := by
  simp only [eventWrites, List.forall_mem_cons]
  exact ⟨touches_matchcap part events outputs event _,
    touches_evCtrl part events outputs event own _,
    touches_evState part events outputs event own _, touches_regmode part events outputs _,
    List.forall_mem_nil _⟩

theorem baseWrites_touch (halm : Halm) (config : SctAdcConfig) :
    ∀ change ∈ baseWrites halm config,
      Touches readField (area config.part events outputs) change := by
  simp only [baseWrites, List.forall_mem_cons]
  exact ⟨touches_ctrl config.part events outputs _,
    touches_sctSetFrequency halm config.part events outputs config.frequency,
    touches_noreload config.part events outputs _, List.forall_mem_nil _⟩

theorem outputWrites_touch (part : SctPart) (output clear set : Fin 16) (own : output ∈ outputs) :
    ∀ change ∈ outputWrites output clear set,
      Touches readField (area part events outputs) change := by
  simp only [outputWrites, List.forall_mem_cons]
  exact ⟨touches_outputdirctrl part events outputs output own _,
    touches_res part events outputs output own _, touches_outClr part events outputs output own _,
    touches_outSet part events outputs output own _, List.forall_mem_nil _⟩

theorem dmaRequestWrites_touch (part : SctPart) (dma : SctAdcDmaOutput) (memory : Fin 16)
    (own : memory ∈ events) :
    ∀ change ∈ dmaRequestWrites dma memory,
      Touches readField (area part events outputs) change := by
  have masks := masks_bit memory own
  cases dma with
  | dma0 =>
      simp only [dmaRequestWrites, List.forall_mem_cons]
      exact ⟨touches_dmareq0 part events outputs _ fun registers => masks.set registers.dmareq0,
        List.forall_mem_nil _⟩
  | dma1 =>
      simp only [dmaRequestWrites, List.forall_mem_cons]
      exact ⟨touches_dmareq1 part events outputs _ fun registers => masks.set registers.dmareq1,
        List.forall_mem_nil _⟩
  | output2 => exact List.forall_mem_nil _
  | output3 => exact List.forall_mem_nil _

theorem endWrites_touch (config : SctAdcConfig) (reset : Fin 16) :
    ∀ change ∈ endWrites config reset,
      Touches readField (area config.part events outputs) change := by
  simp only [endWrites, List.forall_mem_cons]
  exact ⟨touches_state config.part events outputs _, touches_limit config.part events outputs _,
    List.forall_mem_nil _⟩

theorem eventClears_touch (part : SctPart) (event : Fin 16) (own : event ∈ events) :
    ∀ change ∈ eventClears event, Touches readField (area part events outputs) change := by
  simp only [eventClears, List.forall_mem_cons]
  exact ⟨touches_evCtrl part events outputs event own _,
    touches_evState part events outputs event own _, List.forall_mem_nil _⟩

theorem outputClears_touch (part : SctPart) (output : Option (Fin 16))
    (own : ∀ index ∈ output, index ∈ outputs) :
    ∀ change ∈ outputClears output, Touches readField (area part events outputs) change := by
  cases output with
  | none => exact List.forall_mem_nil _
  | some index =>
      simp only [outputClears, List.forall_mem_cons]
      exact ⟨touches_outClr part events outputs index (own index rfl) _,
        touches_outSet part events outputs index (own index rfl) _, List.forall_mem_nil _⟩

theorem dmaRequestClears_touch (part : SctPart) (dma : SctAdcDmaOutput) (memory : Fin 16)
    (own : memory ∈ events) :
    ∀ change ∈ dmaRequestClears dma memory,
      Touches readField (area part events outputs) change := by
  have masks := masks_bit memory own
  cases dma with
  | dma0 =>
      simp only [dmaRequestClears, List.forall_mem_cons]
      exact ⟨touches_dmareq0 part events outputs _ fun registers => masks.clear registers.dmareq0,
        List.forall_mem_nil _⟩
  | dma1 =>
      simp only [dmaRequestClears, List.forall_mem_cons]
      exact ⟨touches_dmareq1 part events outputs _ fun registers => masks.clear registers.dmareq1,
        List.forall_mem_nil _⟩
  | output2 => exact List.forall_mem_nil _
  | output3 => exact List.forall_mem_nil _

end Lists

end Adc

end HalmExamples.Sct
