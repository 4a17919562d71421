import HalmExamples.Foundation.CyclicCounter
import HalmExamples.Sct.Teardown

/-!
# When the ADC is triggered

The counter of a timer half as the registers of `sct_adc.c` make it run.  The constructor
writes the cycle itself into the register from which the counter returns, while
`tmrSetOverflow` writes one less and `tmrGetOverflow` adds one.
-/

set_option autoImplicit false

namespace HalmExamples.Sct.Adc

open Foundation Foundation.Attempt
open Sof (setCell_same setCell_of_ne claim_eq_ok)

/-! ## The counter -/

/-- An event that its half has enabled in the current state and whose match register has
been reached. -/
def Raised (registers : LpcSct) (part : SctPart) (event : Fin 16) : Prop :=
  let control := registers.evCtrl event
  let selected : Fin 16 := ⟨control.matchsel % 16, Nat.mod_lt _ (by decide)⟩
  control.combmode = .matching ∧ control.hevent = decide (part = .high) ∧
    (registers.evState event).getLsbD (registers.state part).toNat = true ∧
    (registers.regmode part).getLsbD selected = false ∧
    registers.count part = registers.matchcap selected part

instance (registers : LpcSct) (part : SctPart) (event : Fin 16) :
    Decidable (Raised registers part event) := by
  unfold Raised
  infer_instance

/-- One tick of the clock of a half; an event of `LIMIT` sends the counter back to 0. -/
def tick (part : SctPart) (registers : LpcSct) : LpcSct :=
  if (registers.ctrl part).halt || (registers.ctrl part).stop then registers
  else { registers with
    count := Function.update registers.count part
      (if ∃ event : Fin 16, (registers.limit part).getLsbD event = true ∧
          Raised registers part event then 0
       else registers.count part + 1) }

def tmrGetOverflow (timer : SctAdc) (registers : LpcSct) : UInt32 :=
  (registers.matchcap timer.reset timer.part).toUInt32 + 1

def calls (halm : Halm) : List Call → SctAdc → LpcSct → SctAdc × LpcSct
  | [], timer, registers => (timer, registers)
  | next :: rest, timer, registers =>
      let (after, changed) := call halm timer registers next
      calls halm rest after changed

/-! ## A timer that is set up -/

/-- The registers that make the counter of a half run and its events come. -/
structure Timing where
  ctrl : Control
  limit : BitVec 16
  state : UInt16
  regmode : BitVec 16
  value : Fin 16 → UInt16
  evCtrl : Fin 16 → EventControl
  evState : Fin 16 → BitVec 32

def timing (part : SctPart) (registers : LpcSct) : Timing :=
  { ctrl := registers.ctrl part
    limit := registers.limit part
    state := registers.state part
    regmode := registers.regmode part
    value := fun event => registers.matchcap event part
    evCtrl := registers.evCtrl
    evState := registers.evState }

def Timing.arm (part : SctPart) (event : Fin 16) (value : UInt16) (before : Timing) : Timing :=
  { before with
    regmode := before.regmode &&& ~~~halfBit event
    value := Function.update before.value event value
    evCtrl := Function.update before.evCtrl event (eventControl part event)
    evState := Function.update before.evState event 1 }

/-- The event is set up to be raised at `value`. -/
structure Timing.Arms (half : Timing) (part : SctPart) (event : Fin 16) (value : UInt16) :
    Prop where
  control : half.evCtrl event = eventControl part event
  enabled : half.evState event = 1
  matching : half.regmode.getLsbD event = false
  value_eq : half.value event = value

theorem Timing.arms_arm (before : Timing) (part : SctPart) (event : Fin 16) (value : UInt16) :
    (before.arm part event value).Arms part event value := by
  refine ⟨Function.update_self .., Function.update_self .., ?_, Function.update_self ..⟩
  rw [Timing.arm, BitVec.getLsbD_and, BitVec.getLsbD_not, halfBit_getLsbD]
  simp

theorem Timing.Arms.arm {before : Timing} {part : SctPart} {event : Fin 16} {value : UInt16}
    (arms : before.Arms part event value) (other : Fin 16) (next : UInt16)
    (different : event ≠ other) : (before.arm part other next).Arms part event value := by
  refine ⟨(Function.update_of_ne different ..).trans arms.control,
    (Function.update_of_ne different ..).trans arms.enabled, ?_,
    (Function.update_of_ne different ..).trans arms.value_eq⟩
  rw [Timing.arm, BitVec.getLsbD_and, arms.matching, Bool.false_and]

theorem Timing.Arms.ended {before : Timing} {part : SctPart} {event : Fin 16} {value : UInt16}
    (arms : before.Arms part event value) (state : UInt16) (limit : BitVec 16) :
    Timing.Arms { before with state := state, limit := limit } part event value :=
  ⟨arms.control, arms.enabled, arms.matching, arms.value_eq⟩

/-- The three events of a timer on its half; `last` is the value of the counter from which it
returns to 0. -/
structure Armed (timer : SctAdc) (half : Timing) (delay last : UInt16) : Prop where
  conversion : half.Arms timer.part timer.conversion 1
  memory : half.Arms timer.part timer.memory (1 + delay)
  reset : half.Arms timer.part timer.reset last
  state : half.state = 0
  limit : half.limit = halfBit timer.reset
  running : half.ctrl.stop = false
  conversion_ne : timer.conversion ≠ timer.reset
  memory_ne : timer.memory ≠ timer.reset

theorem Timing.Arms.raised_iff {registers : LpcSct} {part : SctPart} {event : Fin 16}
    {value : UInt16} (arms : (timing part registers).Arms part event value)
    (state : (timing part registers).state = 0) :
    Raised registers part event ↔ registers.count part = value := by
  obtain ⟨control, enabled, matching, isValue⟩ := arms
  simp only [timing] at control enabled matching isValue state
  have selected := Nat.mod_eq_of_lt event.isLt
  simp only [Raised, control, eventControl, selected, enabled, matching, isValue, state]
  simp

theorem Armed.limited_iff {timer : SctAdc} {registers : LpcSct} {delay last : UInt16}
    (armed : Armed timer (timing timer.part registers) delay last) :
    (∃ event : Fin 16, (registers.limit timer.part).getLsbD event = true ∧
      Raised registers timer.part event) ↔ registers.count timer.part = last := by
  have limit : registers.limit timer.part = halfBit timer.reset := armed.limit
  rw [← armed.reset.raised_iff armed.state]
  constructor
  · rintro ⟨event, limits, raised⟩
    rw [limit, halfBit_getLsbD, decide_eq_true_eq, Fin.val_inj] at limits
    exact limits ▸ raised
  · intro raised
    exact ⟨timer.reset, by rw [limit, halfBit_getLsbD, decide_eq_true rfl], raised⟩

/-! ## The constructor -/

section Writes
variable (part : SctPart) (trace : Trace)

theorem timing_eventWrites (event : Fin 16) (value : UInt16) :
    timing part (trace.writeAll (eventWrites part event value)).block.registers =
      (timing part trace.block.registers).arm part event value := by
  rw [writeAll_block]
  simp only [eventWrites, List.foldl_cons, List.foldl_nil, timing, Timing.arm,
    Function.update_self, Timing.mk.injEq, true_and, and_true]
  funext other
  by_cases same : other = event
  · rw [same, setCell_same, Function.update_self]
  · rw [setCell_of_ne _ _ _ _ _ same, Function.update_of_ne same]

theorem timing_baseWrites (halm : Halm) (config : SctAdcConfig) :
    timing config.part (trace.writeAll (baseWrites halm config)).block.registers =
      { timing config.part trace.block.registers with
        ctrl := { halt := true, stop := false, pre := halm.prescaler config.frequency } } := by
  rw [writeAll_block]
  simp only [baseWrites, sctSetFrequency, List.foldl_cons, List.foldl_nil, timing,
    Function.update_self]

theorem timing_endWrites (config : SctAdcConfig) (reset : Fin 16) :
    timing config.part (trace.writeAll (endWrites config reset)).block.registers =
      { timing config.part trace.block.registers with state := 0, limit := halfBit reset } := by
  rw [writeAll_block]
  simp only [endWrites, List.foldl_cons, List.foldl_nil, timing, Function.update_self]

theorem timing_dmaRequestWrites (dma : SctAdcDmaOutput) (memory : Fin 16) :
    timing part (trace.writeAll (dmaRequestWrites dma memory)).block.registers =
      timing part trace.block.registers := by
  cases dma <;> rfl

theorem timing_connectOutput (output : Option (Fin 16)) (clear set : Fin 16) (next : Trace)
    (done : connectOutput output clear set trace = .ok () next) :
    timing part next.block.registers = timing part trace.block.registers := by
  cases output with
  | none =>
      cases done
      rfl
  | some output =>
      obtain ⟨_, claimed, isClaimed, done⟩ := bind_eq_ok _ _ _ _ _ done
      obtain ⟨_, same⟩ := claim_eq_ok _ _ _ _ _ isClaimed
      cases done
      rw [writeAll_block, same]
      rfl

end Writes

theorem sctAllocateEvent_eq_ok (halm : Halm) (trace next : Trace) (event : Fin 16)
    (done : sctAllocateEvent halm trace = .ok event next) :
    trace.block.allocation.events event = false ∧
      next = trace.withAllocation (trace.block.allocation.claimEvent event) := by
  unfold sctAllocateEvent at done
  cases picked : halm.pickEvent trace.block.allocation.events with
  | none => simp [picked] at done
  | some free =>
      simp only [picked] at done
      cases done
      exact ⟨halm.pick_free _ _ picked, rfl⟩

theorem events_distinct (allocation : Allocation) (first second third : Fin 16)
    (secondFree : (allocation.claimEvent first).events second = false)
    (thirdFree : ((allocation.claimEvent first).claimEvent second).events third = false) :
    first ≠ second ∧ first ≠ third ∧ second ≠ third := by
  simp only [Allocation.claimEvent] at secondFree thirdFree
  refine ⟨?_, ?_, ?_⟩
  · rintro rfl
    simp at secondFree
  · rintro rfl
    by_cases same : first = second
    · simp [same] at thirdFree
    · simp [Function.update_of_ne same] at thirdFree
  · rintro rfl
    simp at thirdFree

/-- After the constructor the timer is armed, with the cycle as the last value. -/
theorem tmrInit_armed (halm : Halm) (config : SctAdcConfig) (block : Block) (timer : SctAdc)
    (trace : Trace) (done : tmrInit halm config (Trace.start block) = .ok timer trace) :
    Armed timer (timing timer.part trace.block.registers) config.delay.toUInt16
        config.cycle.toUInt16 := by
  unfold tmrInit at done
  obtain ⟨_, based, isBased, done⟩ := bind_eq_ok _ _ _ _ _ done
  obtain ⟨conversion, first, isFirst, done⟩ := bind_eq_ok _ _ _ _ _ done
  obtain ⟨memory, second, isSecond, done⟩ := bind_eq_ok _ _ _ _ _ done
  obtain ⟨reset, third, isThird, done⟩ := bind_eq_ok _ _ _ _ _ done
  obtain ⟨_, same⟩ := sctAllocateEvent_eq_ok _ _ _ _ isFirst
  subst same
  obtain ⟨secondFree, same⟩ := sctAllocateEvent_eq_ok _ _ _ _ isSecond
  subst same
  obtain ⟨thirdFree, same⟩ := sctAllocateEvent_eq_ok _ _ _ _ isThird
  subst same
  obtain ⟨notMemory, notReset, memoryNotReset⟩ :=
    events_distinct based.block.allocation conversion memory reset secondFree thirdFree
  obtain ⟨_, prepared, isPrepared, done⟩ := bind_eq_ok _ _ _ _ _ done
  cases isPrepared
  obtain ⟨_, converting, isConverting, done⟩ := bind_eq_ok _ _ _ _ _ done
  cases isConverting
  obtain ⟨_, connected, isConnected, done⟩ := bind_eq_ok _ _ _ _ _ done
  obtain ⟨_, remembering, isRemembering, done⟩ := bind_eq_ok _ _ _ _ _ done
  cases isRemembering
  obtain ⟨_, requested, isRequested, done⟩ := bind_eq_ok _ _ _ _ _ done
  cases isRequested
  obtain ⟨_, linked, isLinked, done⟩ := bind_eq_ok _ _ _ _ _ done
  obtain ⟨_, resetting, isResetting, done⟩ := bind_eq_ok _ _ _ _ _ done
  cases isResetting
  obtain ⟨_, ended, isEnded, done⟩ := bind_eq_ok _ _ _ _ _ done
  cases isEnded
  cases done
  rw [timing_endWrites, timing_eventWrites, timing_connectOutput _ _ _ _ _ _ isLinked,
    timing_dmaRequestWrites, timing_eventWrites, timing_connectOutput _ _ _ _ _ _ isConnected,
    timing_eventWrites, timing_baseWrites]
  generalize timing config.part _ = before
  have toConversion := Timing.arms_arm { before with
    ctrl := { halt := true, stop := false, pre := halm.prescaler config.frequency } }
    config.part conversion 1
  have toMemory := Timing.arms_arm (Timing.arm config.part conversion 1 { before with
    ctrl := { halt := true, stop := false, pre := halm.prescaler config.frequency } })
    config.part memory (1 + config.delay).toUInt16
  rw [UInt32.toUInt16_add] at toMemory ⊢
  refine ⟨((toConversion.arm memory _ notMemory).arm reset _ notReset).ended _ _,
    (toMemory.arm reset _ memoryNotReset).ended _ _, (Timing.arms_arm ..).ended _ _, rfl, rfl, rfl,
    notReset, memoryNotReset⟩

/-! ## The other calls -/

def requested (cycle : UInt32) : List Call → UInt32
  | [] => cycle
  | .setOverflow overflow :: rest => requested overflow rest
  | _ :: rest => requested cycle rest

def Call.SetsOverflow : Call → Prop
  | .setOverflow _ => True
  | _ => False

instance (call : Call) : Decidable call.SetsOverflow := by
  cases call <;> unfold Call.SetsOverflow <;> infer_instance

/-- A cycle has room for the conversion and for the transfer after it. -/
def Call.Allowed (delay : UInt32) : Call → Prop
  | .setOverflow overflow => 1 + delay.toNat < overflow.toNat ∧ overflow.toNat < 65536
  | _ => True

def Call.last (last : UInt16) : Call → UInt16
  | .setOverflow overflow => (overflow - 1).toUInt16
  | _ => last

theorem Timing.Arms.withCtrl {before : Timing} {part : SctPart} {event : Fin 16} {value : UInt16}
    (arms : before.Arms part event value) (ctrl : Control) :
    Timing.Arms { before with ctrl := ctrl } part event value :=
  ⟨arms.control, arms.enabled, arms.matching, arms.value_eq⟩

theorem Armed.withCtrl {timer : SctAdc} {half : Timing} {delay last : UInt16}
    (armed : Armed timer half delay last) (ctrl : Control) (running : ctrl.stop = false) :
    Armed timer { half with ctrl := ctrl } delay last :=
  ⟨armed.conversion.withCtrl ctrl, armed.memory.withCtrl ctrl, armed.reset.withCtrl ctrl,
    armed.state, armed.limit, running, armed.conversion_ne, armed.memory_ne⟩

/-- Writing the match register of the reset event moves the end of the cycle only. -/
theorem Armed.withLast {timer : SctAdc} {half : Timing} {delay last : UInt16}
    (armed : Armed timer half delay last) (next : UInt16) :
    Armed timer { half with value := Function.update half.value timer.reset next } delay next := by
  have conversion := armed.conversion
  have memory := armed.memory
  have reset := armed.reset
  exact
    { conversion := ⟨conversion.control, conversion.enabled, conversion.matching,
        (Function.update_of_ne armed.conversion_ne ..).trans conversion.value_eq⟩
      memory := ⟨memory.control, memory.enabled, memory.matching,
        (Function.update_of_ne armed.memory_ne ..).trans memory.value_eq⟩
      reset := ⟨reset.control, reset.enabled, reset.matching, Function.update_self ..⟩
      state := armed.state
      limit := armed.limit
      running := armed.running
      conversion_ne := armed.conversion_ne
      memory_ne := armed.memory_ne }

/-- What a call does to the half: a control word that does not stop the counter, and at most a
new end of the cycle. -/
theorem timing_call (halm : Halm) (timer : SctAdc) (registers : LpcSct) (next : Call)
    (running : (registers.ctrl timer.part).stop = false) :
    ∃ ctrl : Control, ctrl.stop = false ∧
      timing timer.part (call halm timer registers next).2 =
        { timing timer.part registers with
          ctrl := ctrl
          value :=
            match next with
            | .setOverflow overflow =>
                Function.update (timing timer.part registers).value timer.reset
                  (overflow - 1).toUInt16
            | _ => (timing timer.part registers).value } := by
  cases next with
  | enable =>
      refine ⟨{ registers.ctrl timer.part with halt := false }, running, ?_⟩
      simp [call, tmrEnable, timing]
  | disable =>
      refine ⟨{ registers.ctrl timer.part with halt := true }, running, ?_⟩
      simp [call, tmrDisable, timing]
  | setFrequency frequency =>
      refine ⟨{ registers.ctrl timer.part with pre := halm.prescaler frequency }, running, ?_⟩
      simp [call, sctSetFrequency, timing]
  | setOverflow overflow =>
      refine ⟨{ registers.ctrl timer.part with stop := false }, rfl, ?_⟩
      simp only [call, tmrSetOverflow, setStop, timing, Function.update_self, Timing.mk.injEq,
        true_and, and_true]
      funext event
      by_cases same : event = timer.reset
      · rw [same, setCell_same, Function.update_self]
      · rw [setCell_of_ne _ _ _ _ _ same, Function.update_of_ne same]
  | setValue value =>
      refine ⟨{ registers.ctrl timer.part with stop := false }, rfl, ?_⟩
      simp [call, tmrSetValue, setStop, timing]

theorem call_timer (halm : Halm) (timer : SctAdc) (registers : LpcSct) (next : Call) :
    ∃ frequency, (call halm timer registers next).1 = { timer with frequency := frequency } := by
  cases next with
  | setFrequency frequency => exact ⟨frequency, rfl⟩
  | _ => exact ⟨timer.frequency, rfl⟩

theorem call_armed (halm : Halm) (timer : SctAdc) (registers : LpcSct) (delay last : UInt16)
    (next : Call) (armed : Armed timer (timing timer.part registers) delay last) :
    Armed (call halm timer registers next).1
      (timing (call halm timer registers next).1.part (call halm timer registers next).2) delay
      (next.last last) := by
  obtain ⟨ctrl, running, after⟩ := timing_call halm timer registers next armed.running
  obtain ⟨frequency, isTimer⟩ := call_timer halm timer registers next
  have written : Armed timer (timing timer.part (call halm timer registers next).2) delay
      (next.last last) := by
    rw [after]
    cases next with
    | setOverflow overflow => exact (armed.withLast _).withCtrl ctrl running
    | _ => exact armed.withCtrl ctrl running
  rw [isTimer]
  exact ⟨written.conversion, written.memory, written.reset, written.state, written.limit,
    written.running, written.conversion_ne, written.memory_ne⟩

def lastAfter (last : UInt16) : List Call → UInt16
  | [] => last
  | next :: rest => lastAfter (next.last last) rest

theorem calls_armed (halm : Halm) (later : List Call) (timer : SctAdc) (registers : LpcSct)
    (delay last : UInt16) (armed : Armed timer (timing timer.part registers) delay last) :
    Armed (calls halm later timer registers).1
      (timing (calls halm later timer registers).1.part (calls halm later timer registers).2) delay
      (lastAfter last later) := by
  induction later generalizing timer registers last with
  | nil => exact armed
  | cons next rest ih => exact ih _ _ _ (call_armed halm timer registers delay last next armed)

theorem requested_bounds (later : List Call) (cycle delay : UInt32)
    (fits : 1 + delay.toNat < cycle.toNat ∧ cycle.toNat < 65536)
    (allowed : ∀ call ∈ later, call.Allowed delay) :
    1 + delay.toNat < (requested cycle later).toNat ∧ (requested cycle later).toNat < 65536 := by
  induction later generalizing cycle with
  | nil => exact fits
  | cons next rest ih =>
      have here := allowed next List.mem_cons_self
      have others := fun call member => allowed call (List.mem_cons_of_mem next member)
      cases next with
      | setOverflow overflow => exact ih overflow here others
      | _ => exact ih cycle fits others

theorem lastAfter_unset (later : List Call) (last : UInt16) (cycle : UInt32)
    (unset : ∀ call ∈ later, ¬ call.SetsOverflow) :
    lastAfter last later = last ∧ requested cycle later = cycle := by
  induction later with
  | nil => exact ⟨rfl, rfl⟩
  | cons next rest ih =>
      have others := ih fun call member => unset call (List.mem_cons_of_mem next member)
      cases next with
      | setOverflow overflow => exact absurd trivial (unset _ List.mem_cons_self)
      | _ => exact others

/-- From then on the register holds one less than what was asked for last. -/
theorem lastAfter_set (later : List Call) (last : UInt16) (cycle : UInt32)
    (set : ∃ call ∈ later, call.SetsOverflow) :
    lastAfter last later = (requested cycle later - 1).toUInt16 := by
  induction later generalizing last cycle with
  | nil => simp at set
  | cons next rest ih =>
      by_cases again : ∃ call ∈ rest, call.SetsOverflow
      · cases next with
        | setOverflow overflow => exact ih _ overflow again
        | _ => exact ih last cycle again
      · have none : ∀ call ∈ rest, ¬ call.SetsOverflow := fun call member sets =>
          again ⟨call, member, sets⟩
        obtain ⟨call, member, sets⟩ := set
        rcases List.mem_cons.mp member with rfl | later
        · cases call with
          | setOverflow overflow =>
              obtain ⟨lastSame, cycleSame⟩ :=
                lastAfter_unset rest (overflow - 1).toUInt16 overflow none
              rw [lastAfter, Call.last, lastSame, requested, cycleSame]
          | _ => exact absurd sets (by simp [Call.SetsOverflow])
        · exact absurd sets (none call later)

/-! ## The counter at work -/

def registersAt (part : SctPart) (registers : LpcSct) (ticks : Nat) : LpcSct :=
  (tick part)^[ticks] registers

section Running

variable {timer : SctAdc} {registers : LpcSct} {delay last : UInt16}

theorem timing_tick (part : SctPart) (registers : LpcSct) :
    timing part (tick part registers) = timing part registers := by
  unfold tick
  split <;> rfl

theorem timing_registersAt (part : SctPart) (registers : LpcSct) (ticks : Nat) :
    timing part (registersAt part registers ticks) = timing part registers := by
  induction ticks with
  | zero => rfl
  | succ ticks ih =>
      rw [registersAt, Function.iterate_succ_apply', timing_tick]
      exact ih

/-- While it is not halted, the counter of an armed timer returns from its last value, and from
the end of its 16 bits. -/
theorem count_tick_eq (armed : Armed timer (timing timer.part registers) delay last)
    (enabled : (registers.ctrl timer.part).halt = false) :
    (tick timer.part registers).count timer.part =
      if registers.count timer.part = last then 0 else registers.count timer.part + 1 := by
  have running : (registers.ctrl timer.part).stop = false := armed.running
  rw [tick, if_neg (by simp [enabled, running])]
  simp only [armed.limited_iff, Function.update_self]

/-- Up to its last value it is the counter of the library. -/
theorem count_tick (armed : Armed timer (timing timer.part registers) delay last)
    (enabled : (registers.ctrl timer.part).halt = false)
    (inside : registers.count timer.part ≤ last) :
    ((tick timer.part registers).count timer.part).toNat =
      CyclicCounter.tick last.toNat (registers.count timer.part).toNat := by
  rw [count_tick_eq armed enabled, CyclicCounter.tick]
  by_cases atEnd : registers.count timer.part = last
  · rw [if_pos atEnd, if_pos (congrArg UInt16.toNat atEnd)]
    rfl
  · have different := mt UInt16.toNat_inj.mp atEnd
    have below := UInt16.le_iff_toNat_le.mp inside
    have limit := last.toNat_lt
    rw [if_neg atEnd, if_neg different, UInt16.toNat_add, UInt16.toNat_one,
      Nat.mod_eq_of_lt (by omega)]

/-- Wherever it is, also beyond its last value, the counter comes to 0. -/
theorem count_returns (armed : Armed timer (timing timer.part registers) delay last)
    (enabled : (registers.ctrl timer.part).halt = false) :
    ∃ ticks ≤ 2 ^ 16 - (registers.count timer.part).toNat,
      (registersAt timer.part registers ticks).count timer.part = 0 := by
  -- the induction is on the ticks left before the 16 bits overflow
  generalize left : 2 ^ 16 - (registers.count timer.part).toNat = most
  induction most generalizing registers with
  | zero =>
      have limit := (registers.count timer.part).toNat_lt
      omega
  | succ most ih =>
      have next := count_tick_eq armed enabled
      have same := timing_tick timer.part registers
      by_cases returns : (tick timer.part registers).count timer.part = 0
      · exact ⟨1, by omega, returns⟩
      · have notLast : registers.count timer.part ≠ last := fun atEnd =>
          returns (by rw [next, if_pos atEnd])
        rw [if_neg notLast] at next
        have notZero : (registers.count timer.part).toNat + 1 ≠ 2 ^ 16 := by
          intro atEnd
          refine returns (UInt16.toNat_inj.mp ?_)
          rw [next, UInt16.toNat_add, UInt16.toNat_one, atEnd]
          rfl
        have limit := (registers.count timer.part).toNat_lt
        obtain ⟨ticks, few, zero⟩ := ih (by rw [same]; exact armed)
          ((congrArg (fun half => half.ctrl.halt) same).trans enabled) (by
            rw [next, UInt16.toNat_add, UInt16.toNat_one, Nat.mod_eq_of_lt (by omega)]
            omega)
        refine ⟨ticks + 1, by omega, ?_⟩
        rw [registersAt, Function.iterate_succ_apply]
        exact zero

theorem count_registersAt (armed : Armed timer (timing timer.part registers) delay last)
    (enabled : (registers.ctrl timer.part).halt = false)
    (inside : registers.count timer.part ≤ last) (ticks : Nat) :
    ((registersAt timer.part registers ticks).count timer.part).toNat =
      CyclicCounter.advance (last.toNat + 1) (registers.count timer.part).toNat ticks := by
  have start := UInt16.le_iff_toNat_le.mp inside
  rw [← CyclicCounter.iterate_tick _ _ _ start]
  induction ticks with
  | zero => rfl
  | succ ticks ih =>
      have same := timing_registersAt timer.part registers ticks
      have below : (registersAt timer.part registers ticks).count timer.part ≤ last := by
        rw [UInt16.le_iff_toNat_le, ih, CyclicCounter.iterate_tick _ _ _ start]
        exact Nat.lt_succ_iff.mp (CyclicCounter.advance_lt _ _ (Nat.succ_pos _))
      rw [registersAt, Function.iterate_succ_apply', Function.iterate_succ_apply', ← ih]
      refine count_tick (by rw [← registersAt, same]; exact armed) ?_ below
      exact (congrArg (fun half => half.ctrl.halt) same).trans enabled

def RaisedAt (part : SctPart) (event : Fin 16) (registers : LpcSct) (ticks : Nat) : Prop :=
  Raised (registersAt part registers ticks) part event

theorem raisedAt_iff {event : Fin 16} {value : UInt16}
    (arms : (timing timer.part registers).Arms timer.part event value)
    (state : (timing timer.part registers).state = 0) (ticks : Nat) :
    RaisedAt timer.part event registers ticks ↔
      (registersAt timer.part registers ticks).count timer.part = value := by
  have same := timing_registersAt timer.part registers ticks
  exact Timing.Arms.raised_iff (by rw [same]; exact arms) (by rw [same]; exact state)

end Running

/-- One event comes at most a round of the 16-bit counter and a tick from now and then every
`period` ticks, and the other once in between, `delay` ticks behind it. -/
structure Spaced (conversion memory : Nat → Prop) (period delay : Nat) : Prop where
  occurs : ∃ start ≤ 2 ^ 16 + 1, conversion start
  again : ∀ start, conversion start → conversion (start + period)
  alone : ∀ start, conversion start → ∀ ticks, 0 < ticks → ticks < period →
    ¬ conversion (start + ticks)
  transfer : ∀ start, conversion start → ∀ ticks < period,
    (memory (start + ticks) ↔ ticks = delay)

/-- The tick after the return of the counter triggers a conversion. -/
theorem Armed.occurs {timer : SctAdc} {registers : LpcSct} {delay last : UInt16}
    (armed : Armed timer (timing timer.part registers) delay last)
    (enabled : (registers.ctrl timer.part).halt = false) (room : 1 + delay.toNat ≤ last.toNat) :
    ∃ start ≤ 2 ^ 16 + 1, RaisedAt timer.part timer.conversion registers start := by
  obtain ⟨ticks, few, zero⟩ := count_returns armed enabled
  have same := timing_registersAt timer.part registers ticks
  have notLast : (0 : UInt16) ≠ last := by
    rintro rfl
    rw [UInt16.toNat_zero] at room
    omega
  have next := @count_tick_eq timer (registersAt timer.part registers ticks) delay last
    (by rw [same]; exact armed) ((congrArg (fun half => half.ctrl.halt) same).trans enabled)
  rw [zero, if_neg notLast] at next
  refine ⟨ticks + 1, by omega, (raisedAt_iff armed.conversion armed.state _).mpr ?_⟩
  rw [registersAt, Function.iterate_succ_apply']
  exact next

/-- Wherever the counter is when it starts, from the first conversion on it goes round in as many
ticks as its last value has predecessors and itself. -/
theorem Armed.spaced {timer : SctAdc} {registers : LpcSct} {delay last : UInt16}
    (armed : Armed timer (timing timer.part registers) delay last)
    (enabled : (registers.ctrl timer.part).halt = false) (room : 1 + delay.toNat ≤ last.toNat) :
    Spaced (RaisedAt timer.part timer.conversion registers)
      (RaisedAt timer.part timer.memory registers) (last.toNat + 1) delay.toNat := by
  have after (start : Nat) (converted : RaisedAt timer.part timer.conversion registers start)
      (ticks : Nat) : ((registersAt timer.part registers (start + ticks)).count timer.part).toNat =
        CyclicCounter.advance (last.toNat + 1) 1 ticks := by
    have same := timing_registersAt timer.part registers start
    have one := (raisedAt_iff armed.conversion armed.state start).mp converted
    have stillArmed : Armed timer (timing timer.part (registersAt timer.part registers start))
        delay last := by
      rw [same]
      exact armed
    have counted := count_registersAt stillArmed
      ((congrArg (fun half => half.ctrl.halt) same).trans enabled)
      (by rw [one, UInt16.le_iff_toNat_le, UInt16.toNat_one]; omega) ticks
    rw [one] at counted
    rw [Nat.add_comm, registersAt, Function.iterate_add_apply]
    exact counted
  have limit := last.toNat_lt
  have memoryValue : (1 + delay).toNat = 1 + delay.toNat := by
    rw [UInt16.toNat_add, UInt16.toNat_one, Nat.mod_eq_of_lt (by omega)]
  refine ⟨armed.occurs enabled room, ?_, ?_, ?_⟩
  · intro start converted
    rw [raisedAt_iff armed.conversion armed.state, ← UInt16.toNat_inj, after start converted]
    exact CyclicCounter.advance_round 1 (by omega)
  · intro start converted ticks positive short
    rw [raisedAt_iff armed.conversion armed.state, ← UInt16.toNat_inj, after start converted]
    have once : CyclicCounter.advance (last.toNat + 1) 1 ticks = 1 + 0 ↔ ticks = 0 :=
      CyclicCounter.advance_eq_iff 1 0 ticks (by omega) short
    exact fun same => absurd (once.mp same) (by omega)
  · intro start converted ticks short
    rw [raisedAt_iff armed.memory armed.state, ← UInt16.toNat_inj, after start converted,
      memoryValue]
    exact CyclicCounter.advance_eq_iff 1 delay.toNat ticks (by omega) short

/-! ## The cycle that was asked for -/

/-- The timer tells the cycle and keeps it while it runs. -/
structure Follows (timer : SctAdc) (registers : LpcSct) (cycle delay : UInt32) : Prop where
  overflow : tmrGetOverflow timer registers = cycle
  spaced : (registers.ctrl timer.part).halt = false →
    Spaced (RaisedAt timer.part timer.conversion registers)
      (RaisedAt timer.part timer.memory registers) cycle.toNat delay.toNat

theorem Armed.overflow_toNat {timer : SctAdc} {registers : LpcSct} {delay last : UInt16}
    (armed : Armed timer (timing timer.part registers) delay last) :
    (tmrGetOverflow timer registers).toNat = last.toNat + 1 := by
  have value : registers.matchcap timer.reset timer.part = last := armed.reset.value_eq
  have limit := last.toNat_lt
  rw [tmrGetOverflow, value, UInt32.toNat_add, UInt16.toNat_toUInt32, UInt32.toNat_one,
    Nat.mod_eq_of_lt (by omega)]

/-- An armed timer follows a cycle exactly where its last value is one less. -/
theorem Armed.follows_cycle_iff {timer : SctAdc} {registers : LpcSct} {last : UInt16}
    {cycle delay : UInt32} (armed : Armed timer (timing timer.part registers) delay.toUInt16 last)
    (fits : 1 + delay.toNat < cycle.toNat ∧ cycle.toNat < 65536) :
    Follows timer registers cycle delay ↔ last.toNat + 1 = cycle.toNat := by
  have told := armed.overflow_toNat
  constructor
  · intro follows
    rw [← told, follows.overflow]
  · intro same
    have delaySame : delay.toUInt16.toNat = delay.toNat := by
      rw [UInt32.toNat_toUInt16, Nat.mod_eq_of_lt (by omega)]
    refine ⟨UInt32.toNat_inj.mp (told.trans same), fun enabled => ?_⟩
    have spaced := armed.spaced enabled (by rw [delaySame]; omega)
    rwa [same, delaySame] at spaced

theorem follows_iff (halm : Halm) (config : SctAdcConfig) (block : Block) (timer : SctAdc)
    (trace : Trace) (done : tmrInit halm config (Trace.start block) = .ok timer trace)
    (fits : 1 + config.delay.toNat < config.cycle.toNat ∧ config.cycle.toNat ≤ 65535)
    (later : List Call) (allowed : ∀ call ∈ later, call.Allowed config.delay) :
    let final := calls halm later timer trace.block.registers
    Follows final.1 final.2 (requested config.cycle later) config.delay ↔
      ∃ call ∈ later, call.SetsOverflow := by
  have armed := calls_armed halm later timer trace.block.registers _ _
    (tmrInit_armed halm config block timer trace done)
  have bounds := requested_bounds later config.cycle config.delay ⟨fits.1, by omega⟩ allowed
  dsimp only
  rw [armed.follows_cycle_iff bounds]
  by_cases set : ∃ call ∈ later, call.SetsOverflow
  · refine iff_of_true ?_ set
    rw [lastAfter_set later _ config.cycle set, UInt32.toNat_toUInt16, UInt32.toNat_sub_of_le _ _
      (by rw [UInt32.le_iff_toNat_le, UInt32.toNat_one]; omega), UInt32.toNat_one,
      Nat.mod_eq_of_lt (by omega)]
    omega
  · refine iff_of_false ?_ set
    obtain ⟨last, cycle⟩ := lastAfter_unset later config.cycle.toUInt16 config.cycle
      fun call member sets => set ⟨call, member, sets⟩
    rw [last, cycle, UInt32.toNat_toUInt16, Nat.mod_eq_of_lt (by omega)]
    omega

/-- The cycle of the stream examples, after it has been set again: conversions 1 and 1001 ticks
after the start, and the transfer of the first in the 11th. -/
theorem follows_after_setOverflow :
    ∃ timer trace, tmrInit lowestFirst streamTimer (Trace.start (resetBlock fun _ => false)) =
        .ok timer trace ∧
      let final := calls lowestFirst [.setOverflow 1000, .enable] timer trace.block.registers
      Follows final.1 final.2 1000 10 ∧
        RaisedAt final.1.part final.1.conversion final.2 1 ∧
        RaisedAt final.1.part final.1.conversion final.2 1001 ∧
        RaisedAt final.1.part final.1.memory final.2 11 := by
  refine ⟨_, _, rfl, ?_⟩
  have follows := (follows_iff lowestFirst streamTimer (resetBlock fun _ => false) _ _ rfl
    (by decide) [.setOverflow 1000, .enable] (by simp [Call.Allowed, streamTimer])).mpr
      ⟨.setOverflow 1000, by simp, trivial⟩
  have spaced := follows.spaced rfl
  suffices first : Raised _ _ _ from
    ⟨follows, first, spaced.again 1 first, (spaced.transfer 1 first 10 (by decide)).mpr rfl⟩
  exact ⟨rfl, rfl, rfl, rfl, rfl⟩

/-- After the constructor alone the cycle of 1000 ticks takes 1001. -/
theorem overflow_after_init :
    ∃ timer trace, tmrInit lowestFirst streamTimer (Trace.start (resetBlock fun _ => false)) =
        .ok timer trace ∧
      streamTimer.cycle = 1000 ∧ tmrGetOverflow timer trace.block.registers = 1001 :=
  ⟨_, _, rfl, rfl, rfl⟩

end HalmExamples.Sct.Adc
