import HalmExamples.AdcStream.Program
import Mathlib.Tactic.Linarith

/-!
# The two buffers

`&buffers[1]` lies two cells behind `&buffers[0]` while each request holds `count`
samples: a longer request reaches into the other one, and a shorter array has no
second row.  Where the two requests keep apart, the callback formats what was
captured for its request, whatever the DMA stores meanwhile.
-/

set_option autoImplicit false

namespace HalmExamples.AdcStream

open Foundation

/-- The callback formats what was captured and the DMA stays inside the array. -/
structure Separated (config : Config) (machine : Machine) : Prop where
  formatting : ∀ request ∈ machine.callback.running,
    machine.callback.formatted <+: machine.captured request
  reported : ∀ report ∈ machine.reports, report.formatted = report.captured
  inside : ∀ cell ∈ machine.writes, cell < config.bufferCells

structure Apart (config : Config) : Prop where
  disjoint : ∀ request other : RequestId, request ≠ other →
    rowAddress request + config.count ≤ rowAddress other ∨
      rowAddress other + config.count ≤ rowAddress request
  inside : ∀ request : RequestId, rowAddress request + config.count ≤ config.bufferCells

theorem apart_of_count (config : Config) (two : config.count = 2) : Apart config := by
  constructor
  · intro request other differ
    have rows := Fin.val_ne_of_ne differ
    simp only [rowAddress, two]
    omega
  · intro request
    have row : (request : Nat) < 2 := request.isLt
    simp only [rowAddress, Config.bufferCells, two]
    omega

/-! ## The invariant -/

def InLoops (config : Config) : Callback → Prop
  | .idle => True
  | .nextChunk _ chunk formatted =>
      chunk ≤ config.adcRate ∧ formatted.length = chunk * config.pinCount
  | .nextSample _ chunk index formatted =>
      chunk < config.adcRate ∧ index ≤ config.pinCount ∧
        formatted.length = chunk * config.pinCount + index

structure Inv (config : Config) (machine : Machine) : Prop where
  owned : ∀ request : RequestId, machine.pending.count request + machine.completed.count request +
    machine.callback.running.count request = 1
  buffer : ∀ request : RequestId, (machine.requests request).buffer = rowAddress request
  capacity : ∀ request : RequestId, (machine.requests request).capacity = config.count * 2
  filling : ∀ request rest, machine.pending = request :: rest →
    (machine.captured request).length = machine.filled ∧ machine.filled < config.count ∧
      ∀ other ∈ rest, machine.captured other = []
  drained : machine.pending = [] → machine.filled = 0
  full : ∀ request : RequestId, machine.pending.count request = 0 →
    (machine.captured request).length = config.count ∧
      (machine.requests request).length = config.count * 2
  stored : ∀ request : RequestId, cellsFrom machine.memory (rowAddress request)
    (machine.captured request).length = machine.captured request
  loops : InLoops config machine.callback
  separated : Separated config machine

section Inv
variable {config : Config} {machine : Machine}

theorem Inv.elsewhere (inv : Inv config machine) (request : RequestId) (rest : List RequestId)
    (first : machine.pending = request :: rest) :
    rest.count request = 0 ∧ machine.completed.count request = 0 ∧
      machine.callback.running.count request = 0 := by
  have once := inv.owned request
  rw [first, List.count_cons_self] at once
  omega

theorem Inv.captured_le (inv : Inv config machine) (request : RequestId) :
    (machine.captured request).length ≤ config.count := by
  by_cases waits : machine.pending.count request = 0
  · exact le_of_eq (inv.full request waits).1
  · have member : request ∈ machine.pending := List.count_pos_iff.mp (by omega)
    cases first : machine.pending with
    | nil => simp [first] at member
    | cons head rest =>
        obtain ⟨length, bound, empty⟩ := inv.filling head rest first
        rw [first, List.mem_cons] at member
        rcases member with same | later
        · rw [same]
          omega
        · rw [empty request later]
          exact Nat.zero_le _

/-- A stored sample extends its own segment and no other one. -/
theorem Inv.store_stored (inv : Inv config machine) (apart : Apart config)
    (request : RequestId) (rest : List RequestId)
    (first : machine.pending = request :: rest) (value : UInt16) (other : RequestId) :
    cellsFrom (machine.store request value).memory (rowAddress other)
        ((machine.store request value).captured other).length =
      (machine.store request value).captured other := by
  obtain ⟨length, bound, _⟩ := inv.filling request rest first
  simp only [Machine.store, inv.buffer]
  by_cases same : other = request
  · subst same
    rw [Function.update_self, List.length_append, List.length_singleton, ← length,
      cellsFrom_update_end, inv.stored]
  · have short := inv.captured_le other
    rw [Function.update_of_ne same, cellsFrom_update_outside, inv.stored]
    rcases apart.disjoint request other (Ne.symm same) with before | behind
    · exact Or.inl (by omega)
    · exact Or.inr (by omega)

theorem Inv.store_separated (inv : Inv config machine) (apart : Apart config)
    (request : RequestId) (rest : List RequestId)
    (first : machine.pending = request :: rest) (value : UInt16) :
    Separated config (machine.store request value) := by
  obtain ⟨_, _, notRunning⟩ := inv.elsewhere request rest first
  obtain ⟨_, bound, _⟩ := inv.filling request rest first
  refine ⟨?_, inv.separated.reported, ?_⟩
  · intro running member
    have other : running ≠ request := by
      rintro rfl
      exact absurd (List.count_pos_iff.mpr member) (by
        show ¬ 0 < machine.callback.running.count running
        omega)
    simp only [Machine.store, Function.update_of_ne other]
    exact inv.separated.formatting running member
  · intro cell member
    rw [Machine.store, List.mem_append, List.mem_singleton] at member
    rcases member with earlier | stored
    · exact inv.separated.inside cell earlier
    · have room := apart.inside request
      rw [stored, inv.buffer]
      omega

theorem Inv.sample (inv : Inv config machine) (apart : Apart config) (value : UInt16) :
    Inv config (machine.sample value) := by
  unfold Machine.sample
  cases first : machine.pending with
  | nil => exact inv
  | cons request rest =>
      obtain ⟨length, bound, empty⟩ := inv.filling request rest first
      obtain ⟨notLater, notCompleted, _⟩ := inv.elsewhere request rest first
      have stored := inv.store_stored apart request rest first value
      have separated := inv.store_separated apart request rest first value
      have longer : ((machine.store request value).captured request).length =
          machine.filled + 1 := by
        simp only [Machine.store, Function.update_self, List.length_append, List.length_singleton]
        omega
      have kept : ∀ other, other ≠ request →
          (machine.store request value).captured other = machine.captured other :=
        fun other differ => Function.update_of_ne differ _ _
      have laterEmpty : ∀ other ∈ rest, (machine.store request value).captured other = [] := by
        intro other later
        have differ : other ≠ request := by
          rintro rfl
          exact absurd (List.count_pos_iff.mpr later) (by omega)
        rw [kept other differ]
        exact empty other later
      dsimp only
      rw [inv.capacity request]
      by_cases more : (machine.filled + 1) * 2 < config.count * 2
      · rw [if_pos more]
        refine ⟨inv.owned, inv.buffer, inv.capacity, ?_, ?_, ?_, stored, inv.loops,
          ⟨separated.formatting, separated.reported, separated.inside⟩⟩
        · intro head tail same
          cases first.symm.trans same
          exact ⟨longer, by show machine.filled + 1 < config.count; omega, laterEmpty⟩
        · intro none
          exact absurd (first.symm.trans none) (List.cons_ne_nil _ _)
        · intro other absent
          have differ : other ≠ request := by
            rintro rfl
            exact absurd (first ▸ absent) (by rw [List.count_cons_self]; omega)
          show ((machine.store request value).captured other).length = _ ∧ _
          rw [kept other differ]
          exact inv.full other absent
      · rw [if_neg more]
        refine ⟨?_, ?_, ?_, ?_, fun _ => rfl, ?_, stored, inv.loops,
          ⟨separated.formatting, separated.reported, separated.inside⟩⟩
        · intro other
          have once := inv.owned other
          rw [first, count_cons_split] at once
          show rest.count other + (machine.completed ++ [request]).count other + _ = 1
          rw [List.count_append]
          show rest.count other + (machine.completed.count other + [request].count other) +
            machine.callback.running.count other = 1
          omega
        · intro other
          by_cases same : other = request
          · simp [same, inv.buffer]
          · simp [same, inv.buffer]
        · intro other
          by_cases same : other = request
          · simp [same]
          · simp [same, inv.capacity]
        · intro head tail isRest
          replace isRest : rest = head :: tail := isRest
          have nextEmpty := laterEmpty head (by rw [isRest]; exact List.mem_cons_self)
          refine ⟨by rw [nextEmpty]; rfl, Nat.zero_lt_of_lt bound, fun other later => ?_⟩
          exact laterEmpty other (by rw [isRest]; exact List.mem_cons_of_mem head later)
        · intro other absent
          by_cases same : other = request
          · subst same
            refine ⟨by rw [longer]; omega, ?_⟩
            simp only [Function.update_self]
            omega
          · have before := inv.full other (by
              rw [first, count_cons_split, List.count_eq_zero_of_not_mem
                (by simpa using same)]
              simpa using absent)
            simp only [Function.update_of_ne same, kept other same]
            exact before

theorem chunks_full (request : StreamRequest) (pins : 0 < config.pinCount)
    (full : request.length = config.count * 2) : chunks config request = config.adcRate := by
  rw [chunks, full, Nat.shiftRight_eq_div_pow, pow_one, Nat.mul_div_cancel _ (by omega),
    Config.count, Nat.mul_div_cancel _ pins]

/-- The request of the running callback is not in the stream. -/
theorem Inv.running_full (inv : Inv config machine) (request : RequestId)
    (running : machine.callback.running = [request]) :
    machine.pending.count request = 0 ∧ (machine.captured request).length = config.count ∧
      (machine.requests request).length = config.count * 2 := by
  have once := inv.owned request
  rw [running, List.count_singleton_self] at once
  have absent : machine.pending.count request = 0 := by omega
  exact ⟨absent, inv.full request absent⟩

theorem Inv.start (inv : Inv config machine) (request : RequestId) (rest : List RequestId)
    (idle : machine.callback = .idle) (first : machine.completed = request :: rest) :
    Inv config { machine with completed := rest, callback := .nextChunk request 0 [] } := by
  refine ⟨?_, inv.buffer, inv.capacity, inv.filling, inv.drained, inv.full, inv.stored,
    ⟨Nat.zero_le _, by simp⟩, ?_, inv.separated.reported, inv.separated.inside⟩
  · intro other
    have once := inv.owned other
    rw [first, idle, count_cons_split] at once
    simp only [Callback.running, List.count_nil] at once ⊢
    omega
  · intro other _
    exact List.nil_prefix

/-- Steps inside the loops that keep the request. -/
theorem Inv.loop (inv : Inv config machine) (callback : Callback)
    (same : callback.running = machine.callback.running) (loops : InLoops config callback)
    (formatting : ∀ request ∈ callback.running,
      callback.formatted <+: machine.captured request) :
    Inv config { machine with callback := callback } := by
  refine ⟨?_, inv.buffer, inv.capacity, inv.filling, inv.drained, inv.full, inv.stored, loops,
    formatting, inv.separated.reported, inv.separated.inside⟩
  intro request
  rw [same]
  exact inv.owned request

/-- The next sample read is the next one captured. -/
theorem Inv.read (inv : Inv config machine) (request : RequestId)
    (running : machine.callback.running = [request])
    (more : machine.callback.formatted.length < config.count) :
    machine.callback.formatted ++
        [machine.memory (rowAddress request + machine.callback.formatted.length)] <+:
      machine.captured request := by
  obtain ⟨_, full, _⟩ := inv.running_full request running
  have soFar := inv.separated.formatting request (by rw [running]; exact List.mem_singleton_self _)
  have stored := inv.stored request
  have taken := List.prefix_iff_eq_take.mp soFar
  rw [full] at stored
  rw [← stored, cellsFrom_take _ _ _ _ (le_of_lt more)] at taken
  have longer : machine.callback.formatted ++
      [machine.memory (rowAddress request + machine.callback.formatted.length)] =
      cellsFrom machine.memory (rowAddress request) (machine.callback.formatted.length + 1) := by
    rw [cellsFrom_succ, ← taken]
  rw [longer, ← stored, ← cellsFrom_take _ _ _ _ (Nat.succ_le_of_lt more)]
  exact List.take_prefix _ _

theorem Inv.room (inv : Inv config machine) (request : RequestId)
    (running : machine.callback.running = [request]) :
    machine.pending.length < requestCount := by
  have once : ∀ other, (machine.pending ++ machine.completed ++
      machine.callback.running).count other = 1 := by
    intro other
    rw [List.count_append, List.count_append]
    exact inv.owned other
  have total := length_eq_of_count_one _ once
  rw [List.length_append, List.length_append, running, List.length_singleton] at total
  omega

theorem Inv.finish (inv : Inv config machine) (positive : 0 < config.count)
    (request : RequestId) (formatted : List UInt16)
    (running : machine.callback.running = [request])
    (complete : formatted = machine.captured request) :
    Inv config (machine.finish request formatted) := by
  have room := inv.room request running
  obtain ⟨absent, _⟩ := inv.running_full request running
  have kept : ∀ other, other ≠ request →
      (machine.finish request formatted).captured other = machine.captured other :=
    fun other differ => Function.update_of_ne differ _ _
  have cleared : (machine.finish request formatted).captured request = [] :=
    Function.update_self _ _ _
  have queue : (machine.finish request formatted).pending = machine.pending ++ [request] :=
    enqueue_of_room _ _ _ room
  have inStream : ∀ other, other ∈ machine.pending → other ≠ request := by
    rintro other member rfl
    exact absurd (List.count_pos_iff.mpr member) (by omega)
  refine ⟨?_, ?_, ?_, ?_, ?_, ?_, ?_, trivial, nofun, ?_, inv.separated.inside⟩
  · intro other
    have once := inv.owned other
    rw [running] at once
    rw [queue, List.count_append]
    show machine.pending.count other + [request].count other + machine.completed.count other +
      ([] : List RequestId).count other = 1
    rw [List.count_nil]
    omega
  · intro other
    by_cases same : other = request
    · simp [Machine.finish, same, inv.buffer]
    · simp [Machine.finish, same, inv.buffer]
  · intro other
    by_cases same : other = request
    · simp [Machine.finish, same, inv.capacity]
    · simp [Machine.finish, same, inv.capacity]
  · intro head tail first
    rw [queue] at first
    cases pending : machine.pending with
    | nil =>
        rw [pending] at first
        cases first
        rw [cleared]
        exact ⟨(inv.drained pending).symm, (inv.drained pending).symm ▸ positive, nofun⟩
    | cons start rest =>
        rw [pending] at first
        cases first
        obtain ⟨length, bound, empty⟩ := inv.filling head rest pending
        rw [kept head (inStream head (by rw [pending]; exact List.mem_cons_self))]
        refine ⟨length, bound, fun other later => ?_⟩
        rcases List.mem_append.mp later with before | last
        · rw [kept other (inStream other (by
            rw [pending]; exact List.mem_cons_of_mem head before))]
          exact empty other before
        · rw [List.mem_singleton.mp last]
          exact cleared
  · intro none
    rw [queue] at none
    exact absurd none (by simp)
  · intro other notPending
    rw [queue, List.count_append] at notPending
    have differ : other ≠ request := by
      rintro rfl
      rw [List.count_singleton_self] at notPending
      omega
    rw [kept other differ]
    simp only [Machine.finish, Function.update_of_ne differ]
    exact inv.full other (by omega)
  · intro other
    by_cases same : other = request
    · rw [same, cleared]
      rfl
    · rw [kept other same]
      exact inv.stored other
  · intro report member
    rcases List.mem_append.mp member with earlier | last
    · exact inv.separated.reported report earlier
    · rw [List.mem_singleton.mp last]
      exact complete

theorem Inv.onConversionCompleted (inv : Inv config machine) (positive : 0 < config.count)
    (pins : 0 < config.pinCount) (next : Machine)
    (taken : onConversionCompleted config machine = some next) : Inv config next := by
  unfold AdcStream.onConversionCompleted at taken
  cases here : machine.callback with
  | idle =>
      simp only [here] at taken
      cases first : machine.completed with
      | nil => simp [first] at taken
      | cons request rest =>
          simp only [first] at taken
          cases taken
          exact inv.start request rest here first
  | nextChunk request chunk formatted =>
      simp only [here] at taken
      have running : machine.callback.running = [request] := by rw [here]; rfl
      obtain ⟨_, full, length⟩ := inv.running_full request running
      obtain ⟨chunkBound, progress⟩ : chunk ≤ config.adcRate ∧
          formatted.length = chunk * config.pinCount := by simpa [here, InLoops] using inv.loops
      have soFar : formatted <+: machine.captured request := by
        have formatting := inv.separated.formatting request (by rw [running]; simp)
        rwa [here] at formatting
      rw [chunks_full _ pins length] at taken
      by_cases more : chunk < config.adcRate
      · rw [if_pos more] at taken
        cases taken
        exact inv.loop (.nextSample request chunk 0 formatted) running.symm
          ⟨more, Nat.zero_le _, progress⟩ (by
            intro other member
            rw [List.mem_singleton.mp member]
            exact soFar)
      · rw [if_neg more] at taken
        cases taken
        have last : chunk = config.adcRate := by omega
        apply inv.finish positive request formatted running
        exact soFar.eq_of_length (by rw [progress, last, full, Config.count])
  | nextSample request chunk index formatted =>
      simp only [here] at taken
      have running : machine.callback.running = [request] := by rw [here]; rfl
      obtain ⟨more, indexBound, progress⟩ : chunk < config.adcRate ∧ index ≤ config.pinCount ∧
          formatted.length = chunk * config.pinCount + index := by
        simpa [here, InLoops] using inv.loops
      by_cases inside : index < config.pinCount
      · rw [if_pos inside] at taken
        cases taken
        have before : formatted.length < config.count := by
          have line : (chunk + 1) * config.pinCount ≤ config.adcRate * config.pinCount :=
            Nat.mul_le_mul_right _ more
          rw [Nat.succ_mul] at line
          rw [progress, Config.count]
          omega
        have read := inv.read request running (by rw [here]; exact before)
        apply inv.loop (.nextSample request chunk (index + 1) _) running.symm
        · refine ⟨more, inside, ?_⟩
          rw [List.length_append, progress, List.length_singleton]
          omega
        · intro other member
          rw [List.mem_singleton.mp member]
          rw [here] at read
          rw [inv.buffer]
          exact read
      · rw [if_neg inside] at taken
        cases taken
        have soFar := inv.separated.formatting request (by rw [running]; simp)
        rw [here] at soFar
        apply inv.loop (.nextChunk request (chunk + 1) formatted) running.symm
        · refine ⟨more, ?_⟩
          rw [progress, Nat.succ_mul]
          omega
        · intro other member
          rw [List.mem_singleton.mp member]
          exact soFar

end Inv

/-! ## Every run -/

theorem inv_initial (config : Config) (memory : Nat → UInt16) (positive : 0 < config.count) :
    Inv config (initialMachine config memory) := by
  refine ⟨?_, fun _ => rfl, fun _ => rfl, ?_, nofun, ?_, fun _ => rfl, trivial, nofun, nofun,
    nofun⟩
  · exact count_finRange requestCount
  · intro request rest first
    cases first
    exact ⟨rfl, positive, fun _ _ => rfl⟩
  · intro request absent
    have listed := count_finRange requestCount request
    exact absurd (listed.symm.trans absent) Nat.one_ne_zero

theorem step_inv (config : Config) (apart : Apart config) (positive : 0 < config.count)
    (pins : 0 < config.pinCount) (machine : Machine) (label : Label) (next : Machine)
    (inv : Inv config machine) (taken : step config machine label = some next) :
    Inv config next := by
  cases label with
  | sample value =>
      cases taken
      exact inv.sample apart value
  | callback => exact inv.onConversionCompleted positive pins next taken

theorem separated_run (config : Config) (apart : Apart config) (positive : 0 < config.count)
    (pins : 0 < config.pinCount) (memory : Nat → UInt16) (labels : List Label)
    (final : Machine)
    (done : Schedule.run (step config) labels (initialMachine config memory) = some final) :
    Separated config final :=
  (Schedule.run_invariant (step config) (Inv config) (step_inv config apart positive pins)
    labels _ final (inv_initial config memory positive) done).separated

/-! ## Runs in which the requests meet -/

section Overlap
variable (config : Config)

/-- With a single cell for each request, the second one has no row in the array. -/
theorem outside_of_one (one : config.count = 1) (memory : Nat → UInt16) :
    ∃ final, Schedule.run (step config) [.sample 0, .sample 0] (initialMachine config memory) =
        some final ∧ final.writes = [0, 2] := by
  refine ⟨_, rfl, ?_⟩
  simp [Machine.sample, Machine.store, initialMachine, initialRequest, rowAddress, one,
    List.finRange_succ]

theorem run_fill (stored : Nat) (short : stored < config.count) :
    ∃ writes, Schedule.run (step config) (List.replicate stored (.sample 0))
        (initialMachine config fun _ => 0) =
      some { initialMachine config fun _ => 0 with
        filled := stored
        captured := Function.update (fun _ => []) 0 (List.replicate stored 0)
        writes := writes } := by
  induction stored with
  | zero =>
      refine ⟨[], ?_⟩
      rw [List.replicate_zero, List.replicate_zero, Function.update_eq_self]
      rfl
  | succ stored ih =>
      obtain ⟨writes, done⟩ := ih (by omega)
      refine ⟨writes ++ [stored], ?_⟩
      have more : (stored + 1) * 2 < config.count * 2 := by omega
      rw [List.replicate_succ', Schedule.run_append, done, Option.bind_some]
      simp [Schedule.run, step, Machine.sample, Machine.store, initialMachine, initialRequest,
        rowAddress, List.finRange_succ, more, List.replicate_succ']

/-- The first request is complete with zeros and the DMA has begun the second one. -/
theorem run_overtake (long : 2 < config.count) :
    ∃ machine, Schedule.run (step config) (List.replicate config.count (.sample 0) ++ [.sample 1])
        (initialMachine config fun _ => 0) = some machine ∧
      machine.memory = Function.update (fun _ => 0) 2 1 ∧
      machine.completed = [0] ∧ machine.callback = .idle ∧
      machine.captured 0 = List.replicate config.count 0 ∧
      (machine.requests 0).buffer = 0 ∧ (machine.requests 0).length = config.count * 2 := by
  obtain ⟨before, isBefore⟩ : ∃ before, config.count = before + 1 := ⟨config.count - 1, by omega⟩
  obtain ⟨writes, filled⟩ := run_fill config before (by omega)
  have complete : ¬ (before + 1) * 2 < config.count * 2 := by omega
  have more : 2 < config.count * 2 := by omega
  rw [isBefore] at complete more
  rw [isBefore, List.replicate_succ', List.append_assoc, Schedule.run_append, filled,
    Option.bind_some]
  refine ⟨_, rfl, ?_, ?_, ?_, ?_, ?_, ?_⟩ <;>
    simp [Machine.sample, Machine.store, initialMachine, initialRequest, rowAddress,
      List.finRange_succ, isBefore, more, List.replicate_succ']

theorem run_read (pins : 0 < config.pinCount) (request : RequestId) (machine : Machine)
    (chunk index : Nat) (formatted : List UInt16)
    (here : machine.callback = .nextSample request chunk index formatted)
    (full : (machine.requests request).length = config.count * 2)
    (indexBound : index ≤ config.pinCount)
    (progress : formatted.length = chunk * config.pinCount + index)
    (more : formatted.length < config.count) :
    ∃ labels chunk' index', index' ≤ config.pinCount ∧
      formatted.length + 1 = chunk' * config.pinCount + index' ∧
      Schedule.run (step config) labels machine = some { machine with
        callback := .nextSample request chunk' index' (formatted ++
          [machine.memory ((machine.requests request).buffer + formatted.length)]) } := by
  by_cases inside : index < config.pinCount
  · refine ⟨[.callback], chunk, index + 1, inside, by omega, ?_⟩
    simp only [Schedule.run, step, onConversionCompleted, here, if_pos inside]
  · have lineEnd : formatted.length = (chunk + 1) * config.pinCount := by
      rw [progress, Nat.succ_mul]
      omega
    have line : chunk + 1 < config.adcRate := by
      rw [lineEnd, Config.count] at more
      exact Nat.lt_of_mul_lt_mul_right more
    refine ⟨[.callback, .callback, .callback], chunk + 1, 1, pins, by rw [lineEnd], ?_⟩
    simp only [Schedule.run, step, onConversionCompleted, here, if_neg inside,
      chunks_full _ pins full, if_pos line, if_pos pins, Nat.zero_add]

theorem run_reads (pins : 0 < config.pinCount) (request : RequestId) (count : Nat)
    (machine : Machine) (chunk index : Nat) (formatted : List UInt16)
    (here : machine.callback = .nextSample request chunk index formatted)
    (full : (machine.requests request).length = config.count * 2)
    (indexBound : index ≤ config.pinCount)
    (progress : formatted.length = chunk * config.pinCount + index)
    (enough : formatted.length + count ≤ config.count) :
    ∃ labels next, Schedule.run (step config) labels machine = some next ∧
      next.captured = machine.captured ∧ next.callback.running = [request] ∧
      next.callback.formatted = formatted ++ cellsFrom machine.memory
        ((machine.requests request).buffer + formatted.length) count := by
  induction count generalizing machine chunk index formatted with
  | zero =>
      refine ⟨[], machine, rfl, rfl, by rw [here]; rfl, ?_⟩
      rw [here, cellsFrom_zero, List.append_nil]
      rfl
  | succ count ih =>
      obtain ⟨first, chunk', index', bound, progress', read⟩ := run_read config pins request
        machine chunk index formatted here full indexBound progress (by omega)
      have longer : (formatted ++ [machine.memory ((machine.requests request).buffer +
          formatted.length)]).length = formatted.length + 1 := by simp
      obtain ⟨later, next, done, captured, running, texts⟩ := ih
        { machine with callback := .nextSample request chunk' index' _ } chunk' index' _ rfl
        full bound (by rw [longer, progress']) (by rw [longer]; omega)
      refine ⟨first ++ later, next, ?_, captured, running, ?_⟩
      · rw [Schedule.run_append, read, Option.bind_some, done]
      · rw [texts, longer, cellsFrom_cons, List.append_assoc]
        rfl

/-- The third sample formatted is the first one of the other request. -/
theorem overlap_of_long (long : 2 < config.count) (pins : 0 < config.pinCount) :
    ∃ labels final, Schedule.run (step config) labels (initialMachine config fun _ => 0) =
        some final ∧ ¬ Separated config final := by
  obtain ⟨machine, filled, memory, completed, idle, captured, buffer, length⟩ :=
    run_overtake config long
  have rates : 0 < config.adcRate := by
    by_contra none
    rw [Config.count, Nat.eq_zero_of_not_pos none, Nat.zero_mul] at long
    omega
  have start : Schedule.run (step config) [.callback, .callback] machine = some { machine with
      completed := [], callback := .nextSample 0 0 0 [] } := by
    simp only [Schedule.run, step, onConversionCompleted, idle, completed,
      chunks_full _ pins length, if_pos rates]
  obtain ⟨labels, final, done, kept, running, formatted⟩ := run_reads config pins 0 3
    { machine with completed := [], callback := .nextSample 0 0 0 [] } 0 0 [] rfl length
    (Nat.zero_le _) (by simp) (by rw [List.length_nil]; omega)
  refine ⟨(List.replicate config.count (.sample 0) ++ [.sample 1]) ++
    ([.callback, .callback] ++ labels), final, ?_, fun separated => ?_⟩
  · rw [Schedule.run_append, filled, Option.bind_some, Schedule.run_append, start,
      Option.bind_some, done]
  · have soFar := separated.formatting 0 (by rw [running]; exact List.mem_singleton_self 0)
    rw [formatted, kept] at soFar
    have third : (1 : UInt16) ∈ machine.captured 0 :=
      soFar.subset (by simp [buffer, memory, cellsFrom, List.range_succ])
    rw [captured] at third
    exact absurd (List.eq_of_mem_replicate third) (by decide)

end Overlap

/-- For every number of pins and every rate, over all runs. -/
theorem requests_separated_iff (config : Config) (rates : 1 ≤ config.adcRate)
    (pins : 1 ≤ config.pinCount) :
    (∀ memory labels final,
      Schedule.run (step config) labels (initialMachine config memory) = some final →
        Separated config final) ↔ config.count = 2 := by
  have positive : 0 < config.count := Nat.mul_pos rates pins
  constructor
  · intro separated
    by_contra differs
    by_cases one : config.count = 1
    · obtain ⟨final, done, writes⟩ := outside_of_one config one fun _ => 0
      have inside := (separated _ _ final done).inside 2 (by rw [writes]; simp)
      rw [Config.bufferCells, one] at inside
      omega
    · obtain ⟨labels, final, done, overlap⟩ := overlap_of_long config (by omega) pins
      exact overlap (separated _ labels final done)
  · intro two memory labels final done
    exact separated_run config (apart_of_count config two) positive pins memory labels final done

/-- `ADC_RATE` is 2 on two of the boards; with one pin the requests fill the rows. -/
theorem requests_separated_one_pin :
    Config.count ⟨2, 1⟩ = 2 ∧ ∀ memory labels final,
      Schedule.run (step ⟨2, 1⟩) labels (initialMachine ⟨2, 1⟩ memory) = some final →
        Separated ⟨2, 1⟩ final :=
  ⟨rfl, (requests_separated_iff ⟨2, 1⟩ (Nat.le_succ 1) (Nat.le_refl 1)).mpr rfl⟩

/-- Ten zeros for the first request, and a one for the second while the callback of the
first is about to format its third sample. -/
def overtakingLabels : List Label :=
  List.replicate 10 (.sample 0) ++ [.sample 1] ++ List.replicate 9 .callback

theorem third_sample_overwritten :
    ∃ final, Schedule.run (step ⟨10, 1⟩) overtakingLabels
        (initialMachine ⟨10, 1⟩ fun _ => 0) = some final ∧
      final.callback.running = [0] ∧ final.callback.formatted = [0, 0, 1] ∧
      final.captured 0 = List.replicate 10 0 ∧ ¬ Separated ⟨10, 1⟩ final := by
  refine ⟨_, rfl, rfl, ?_, ?_, ?_⟩
  · decide
  · decide
  · intro separated
    exact absurd (separated.formatting 0 (by decide)) (by decide)

end HalmExamples.AdcStream
