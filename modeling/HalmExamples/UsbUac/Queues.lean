import HalmExamples.UsbUac.Ownership

/-!
# The queues between rate changes

While no rate is reported, `main` tests, peeks and pops its queues in separate
statements with completions in between.  Beside the machine an observer numbers the
captures in the order in which they complete, notes which of them each buffer holds,
which of them `ifWrite` got and which request `ifRead` has filled last.
-/

set_option autoImplicit false

namespace HalmExamples.UsbUac

open Foundation

structure Observed where
  machine : Machine
  captures : Nat
  capture : RequestId → Nat
  /-- The captures written to USB, oldest first. -/
  written : List Nat
  filled : Option RequestId

def Observed.noteMain (observed : Observed) (count : Nat) (next : Machine) : Observed :=
  match observed.machine.control with
  | .writeMicRequest request => { observed with
      machine := next
      written :=
        if (observed.machine.micRequests request).length > 0 then
          observed.written ++ [observed.capture request]
        else observed.written }
  | .readSpkRequest request => { observed with
      machine := next
      filled := if count > 0 then some request else observed.filled }
  | _ => { observed with machine := next }

def Observed.noteCapture (observed : Observed) (next : Machine) : Observed :=
  match observed.machine.rx with
  | [] => { observed with machine := next }
  | request :: _ => { observed with
      machine := next
      captures := observed.captures + 1
      capture := Function.update observed.capture request observed.captures }

def Observed.note (observed : Observed) (next : Machine) : Label → Observed
  | .main count => observed.noteMain count next
  | .rxComplete _ _ => observed.noteCapture next
  | .txComplete => { observed with machine := next }
  | .uac _ => { observed with machine := next }

def observedStep (observed : Observed) (label : Label) : Option Observed :=
  (step bothStreams observed.machine label).map fun next => observed.note next label

theorem note_machine (observed : Observed) (next : Machine) (label : Label) :
    (observed.note next label).machine = next := by
  cases label with
  | main count =>
      simp only [Observed.note, Observed.noteMain]
      split
      · rfl
      · rfl
      · rfl
  | rxComplete status length =>
      simp only [Observed.note, Observed.noteCapture]
      split
      · rfl
      · rfl
  | txComplete => rfl
  | uac event => rfl

/-- Observing neither blocks nor changes a run. -/
theorem run_observed (labels : List Label) (observed : Observed) :
    (Schedule.run observedStep labels observed).map Observed.machine =
      Schedule.run (step bothStreams) labels observed.machine := by
  induction labels generalizing observed with
  | nil => rfl
  | cons label rest ih =>
      simp only [Schedule.run, observedStep]
      cases step bothStreams observed.machine label with
      | none => rfl
      | some next =>
          simp only [Option.map_some]
          rw [ih, note_machine]

/-! ## The start -/

def startedMachine (rate : Nat) : Machine :=
  { initialMachine rate with
    rx := List.finRange bufferCount
    spkQueue := List.finRange bufferCount
    micRequests := fun request => { capacity := chunkSize rate, length := 0, buffer := request }
    spkRequests := fun request => { capacity := chunkSize rate, length := 0, buffer := request }
    chunk := chunkSize rate
    audioRate := some rate
    control := .setCallback }

theorem run_setUp (rate : Nat) (caller : Caller) (rest : List RequestId) (machine : Machine)
    (here : machine.control = .changeRate (nextRequest rest) rate caller)
    (room : machine.rx.length + rest.length ≤ bufferCount) :
    Schedule.run (step bothStreams) (List.replicate (4 * rest.length) (.main 0)) machine =
      some { machine with
        rx := machine.rx ++ rest
        spkQueue := machine.spkQueue ++ rest
        micRequests := fun request =>
          if request ∈ rest then preparedRequest machine request
          else machine.micRequests request
        spkRequests := fun request =>
          if request ∈ rest then preparedRequest machine request
          else machine.spkRequests request
        control := .changeRate .setRate rate caller } := by
  induction rest generalizing machine with
  | nil =>
      have settled : machine.control = .changeRate .setRate rate caller := here
      simp only [List.length_nil, Nat.mul_zero, List.replicate_zero, Schedule.run,
        List.append_nil, List.not_mem_nil, if_false]
      cases machine
      cases settled
      rfl
  | cons request rest ih =>
      rw [List.length_cons] at room
      have first : Schedule.run (step bothStreams) (List.replicate 4 (.main 0)) machine =
          some { machine with
            rx := machine.rx ++ [request]
            spkQueue := machine.spkQueue ++ [request]
            micRequests := Function.update machine.micRequests request
              (preparedRequest machine request)
            spkRequests := Function.update machine.spkRequests request
              (preparedRequest machine request)
            control := .changeRate (nextRequest rest) rate caller } := by
        have enqueued : streamEnqueue machine.rx request = machine.rx ++ [request] :=
          if_pos (by omega)
        simp only [List.replicate, Schedule.run, step, mainStep, here, nextRequest, rateEffect,
          rateNext, bothStreams, if_true]
        rw [enqueued]
        rfl
      have split : List.replicate (4 * (request :: rest).length) (Label.main 0) =
          List.replicate 4 (.main 0) ++ List.replicate (4 * rest.length) (.main 0) := by
        rw [List.replicate_append_replicate, List.length_cons]
        congr 1
        omega
      rw [split, Schedule.run_append, first, Option.bind_some, ih _ rfl (by
        show (machine.rx ++ [request]).length + rest.length ≤ bufferCount
        rw [List.length_append, List.length_singleton]
        omega)]
      simp only [List.append_assoc, List.singleton_append]
      congr 2
      · funext other
        by_cases later : other ∈ rest
        · simp [later, preparedRequest]
        · by_cases same : other = request
          · simp [same, preparedRequest]
          · simp [same, later]
      · funext other
        by_cases later : other ∈ rest
        · simp [later, preparedRequest]
        · by_cases same : other = request
          · simp [same, preparedRequest]
          · simp [same, later]

theorem startedMachine_reached (rate : Nat) :
    Schedule.run (step bothStreams) (List.replicate 26 (.main 0)) (initialMachine rate) =
      some (startedMachine rate) := by
  have cleared : Schedule.run (step bothStreams) (List.replicate 5 (.main 0))
      (initialMachine rate) = some { initialMachine rate with
        chunk := chunkSize rate
        control := .changeRate (nextRequest (List.finRange bufferCount)) rate .start } := rfl
  have split : List.replicate 26 (Label.main 0) = List.replicate 5 (.main 0) ++
      (List.replicate (4 * (List.finRange bufferCount).length) (.main 0) ++ [.main 0]) := rfl
  rw [split, Schedule.run_append, cleared, Option.bind_some, Schedule.run_append,
    run_setUp rate .start _ _ rfl (by rw [List.length_finRange]; exact Nat.le_refl _),
    Option.bind_some]
  simp [Schedule.run, step, mainStep, rateEffect, rateNext, startedMachine, preparedRequest,
    List.mem_finRange, initialMachine]

def startObserved (rate : Nat) : Observed :=
  { machine := startedMachine rate
    captures := 0
    capture := fun _ => 0
    written := []
    filled := none }

/-- No rate is reported, and completions are not cancellations. -/
def Steady : Label → Prop
  | .main _ => True
  | .rxComplete status _ => status ≠ .cancelled
  | .txComplete => True
  | .uac event => event.rate = none

instance : (label : Label) → Decidable (Steady label)
  | .main _ => isTrue trivial
  | .rxComplete status _ => inferInstanceAs (Decidable (status ≠ .cancelled))
  | .txComplete => isTrue trivial
  | .uac event => inferInstanceAs (Decidable (event.rate = none))

structure QueuesSafe (observed : Observed) : Prop where
  mic_front : observed.machine.control = .takeMicRequest → observed.machine.micQueue ≠ []
  spk_front : observed.machine.control = .frontSpkRequest → observed.machine.spkQueue ≠ []
  mic_bounded : observed.machine.micQueue.length ≤ bufferCount / 2 + 1
  filled_removed : ∀ request, observed.machine.control = .popSpkRequest request →
    observed.machine.spkQueue.head? = some request ∧ observed.filled = some request
  filled_sent : ∀ request, observed.machine.control = .sendSpkRequest request →
    observed.filled = some request
  /-- What the next completion drops is older than all it leaves in the queue. -/
  oldest_dropped : ∀ status length next, status ≠ .cancelled →
    step bothStreams observed.machine (.rxComplete status length) = some next →
      ∀ dropped ∈ observed.machine.micQueue, dropped ∈ next.rx →
        ∀ kept ∈ observed.machine.micQueue, kept ∉ next.rx →
          observed.capture dropped < observed.capture kept
  in_order : observed.written.Pairwise (· < ·)

/-! ## The invariant -/

def quiet : Control → Bool
  | .changeRate _ _ _ => false
  | .readRate => false
  | .clearRateChanged _ => false
  | _ => true

def unwritten : Control → List RequestId
  | .writeMicRequest request => [request]
  | _ => []

/-- The front of `spkQueue` as `main` has read it. -/
def peeked : Control → Option RequestId
  | .readSpkRequest request => some request
  | .popSpkRequest request => some request
  | _ => none

def loaded : Control → Option RequestId
  | .popSpkRequest request => some request
  | .sendSpkRequest request => some request
  | _ => none

/-- The captures on their way to USB, those that have arrived first. -/
def Observed.sequence (observed : Observed) : List Nat :=
  observed.written ++
    (unwritten observed.machine.control ++ observed.machine.micQueue).map observed.capture

structure QueueInv (observed : Observed) : Prop where
  quiet : quiet observed.machine.control = true
  unchanged : observed.machine.event.rateChanged = false
  accounted : Accounted observed.machine
  mic_front : observed.machine.control = .takeMicRequest → observed.machine.micQueue ≠ []
  mic_bounded : observed.machine.micQueue.length ≤ bufferCount / 2 + 1
  spk_front : observed.machine.control = .frontSpkRequest → observed.machine.spkQueue ≠ []
  spk_head : ∀ request ∈ peeked observed.machine.control,
    observed.machine.spkQueue.head? = some request
  filled : ∀ request ∈ loaded observed.machine.control, observed.filled = some request
  ordered : observed.sequence.Pairwise (· < ·)
  numbered : ∀ number ∈ observed.sequence, number < observed.captures

section Steps

variable {observed : Observed}

/-- A quiet `main` holds at most the request it has taken. -/
theorem QueueInv.account (inv : QueueInv observed) :
    ∃ outside, absent observed.machine.control = some outside ∧
      unwritten observed.machine.control <+: outside := by
  have isQuiet := inv.quiet
  cases here : observed.machine.control with
  | changeRate statement rate caller => simp [here, UsbUac.quiet] at isQuiet
  | writeMicRequest request => exact ⟨[request], rfl, List.prefix_refl _⟩
  | clearMicLength request => exact ⟨[request], rfl, List.nil_prefix⟩
  | returnMicRequest request => exact ⟨[request], rfl, List.nil_prefix⟩
  | _ => exact ⟨[], rfl, List.nil_prefix⟩

/-- The first request of the stream is neither queued nor held by `main`. -/
theorem QueueInv.rx_elsewhere (inv : QueueInv observed) (request : RequestId)
    (member : request ∈ observed.machine.rx) :
    request ∉ unwritten observed.machine.control ++ observed.machine.micQueue := by
  obtain ⟨outside, isAbsent, held⟩ := inv.account
  have once := inv.accounted outside isAbsent request
  have inStream : 0 < observed.machine.rx.count request := List.count_pos_iff.mpr member
  intro elsewhere
  rcases List.mem_append.mp elsewhere with inHand | queued
  · have := List.count_pos_iff.mpr (held.subset inHand)
    omega
  · have := List.count_pos_iff.mpr queued
    omega

theorem QueueInv.still (inv : QueueInv observed) (next : Machine) (accounted : Accounted next)
    (sameMic : next.micQueue = observed.machine.micQueue)
    (sameFlag : next.event.rateChanged = observed.machine.event.rateChanged)
    (isQuiet : UsbUac.quiet next.control = true)
    (nothing : unwritten observed.machine.control = [] ∧ unwritten next.control = [])
    (micFront : next.control = .takeMicRequest → next.micQueue ≠ [])
    (spkFront : next.control = .frontSpkRequest → next.spkQueue ≠ [])
    (head : ∀ request ∈ peeked next.control, next.spkQueue.head? = some request)
    (filled : ∀ request ∈ loaded next.control, observed.filled = some request) :
    QueueInv { observed with machine := next } := by
  have sequence : Observed.sequence { observed with machine := next } = observed.sequence := by
    simp only [Observed.sequence, nothing.1, nothing.2, sameMic]
  refine ⟨isQuiet, sameFlag.trans inv.unchanged, accounted, micFront, ?_, spkFront, head, filled,
    ?_, ?_⟩
  · show next.micQueue.length ≤ _
    rw [sameMic]
    exact inv.mic_bounded
  · rw [sequence]
    exact inv.ordered
  · rw [sequence]
    exact inv.numbered

/-- Where `main` relies on nothing it has found in the queues. -/
def unburdened : Control → Bool
  | .takeMicRequest | .frontSpkRequest | .readSpkRequest _ | .popSpkRequest _
  | .sendSpkRequest _ => false
  | _ => true

theorem QueueInv.passes (inv : QueueInv observed) (next : Machine) (accounted : Accounted next)
    (sameMic : next.micQueue = observed.machine.micQueue)
    (sameFlag : next.event.rateChanged = observed.machine.event.rateChanged)
    (isQuiet : UsbUac.quiet next.control = true)
    (nothing : unwritten observed.machine.control = [] ∧ unwritten next.control = [])
    (bare : unburdened next.control = true) : QueueInv { observed with machine := next } := by
  apply inv.still next accounted sameMic sameFlag isQuiet nothing
  · intro there
    simp [there, unburdened] at bare
  · intro there
    simp [there, unburdened] at bare
  · intro request isPeeked
    cases there : next.control <;> simp [there, peeked, unburdened] at isPeeked bare
  · intro request isLoaded
    cases there : next.control <;> simp [there, loaded, unburdened] at isLoaded bare

/-- A callback that leaves the microphone and extends the speaker queue at most. -/
theorem QueueInv.interrupted (inv : QueueInv observed) (next : Machine)
    (same : SameMicrophone observed.machine next)
    (longer : observed.machine.spkQueue <+: next.spkQueue)
    (sameFlag : next.event.rateChanged = observed.machine.event.rateChanged) :
    QueueInv { observed with machine := next } := by
  have sequence : Observed.sequence { observed with machine := next } = observed.sequence := by
    simp only [Observed.sequence, same.control, same.micQueue]
  refine ⟨?_, sameFlag.trans inv.unchanged, same.accounted inv.accounted, ?_, ?_, ?_, ?_, ?_, ?_,
    ?_⟩
  · show UsbUac.quiet next.control = true
    rw [same.control]
    exact inv.quiet
  · show next.control = _ → next.micQueue ≠ []
    rw [same.control, same.micQueue]
    exact inv.mic_front
  · show next.micQueue.length ≤ _
    rw [same.micQueue]
    exact inv.mic_bounded
  · show next.control = _ → next.spkQueue ≠ []
    rw [same.control]
    intro fronts none
    exact inv.spk_front fronts (List.prefix_nil.mp (none ▸ longer))
  · show ∀ request ∈ peeked next.control, next.spkQueue.head? = some request
    rw [same.control]
    intro request isPeeked
    have head := inv.spk_head request isPeeked
    cases queue : observed.machine.spkQueue with
    | nil => simp [queue] at head
    | cons first rest =>
        rw [queue] at head longer
        obtain ⟨later, extended⟩ := longer
        rw [← extended]
        exact head
  · show ∀ request ∈ loaded next.control, observed.filled = some request
    rw [same.control]
    exact inv.filled
  · rw [sequence]
    exact inv.ordered
  · rw [sequence]
    exact inv.numbered

/-- What a completion does to the queues. -/
theorem QueueInv.completed (inv : QueueInv observed) (request : RequestId)
    (rest : List RequestId) (pending : observed.machine.rx = request :: rest) (length : Nat)
    (status : RequestStatus) (notCancelled : status ≠ .cancelled) :
    ∃ dropped kept micRequests, observed.machine.micQueue = dropped ++ kept ∧
      kept.length ≤ bufferCount / 2 ∧
      onDataReceived ({ observed.machine with rx := rest }.setMicLength request length) request
          status =
        { observed.machine with
          rx := rest ++ dropped, micQueue := kept ++ [request], micRequests := micRequests } := by
  obtain ⟨outside, isAbsent, _⟩ := inv.account
  have total := inv.accounted.length outside isAbsent
  rw [pending, List.length_cons] at total
  obtain ⟨rx, micQueue, micRequests, changed⟩ := onDataReceived_changes
    ({ observed.machine with rx := rest }.setMicLength request length) request status
  obtain ⟨dropped, kept, queue, few, sameRx, sameQueue⟩ := dropOutdated_splits
    observed.machine.micQueue ({ observed.machine with rx := rest }.setMicLength request length)
    (by show rest.length + observed.machine.micQueue.length ≤ bufferCount; omega)
  refine ⟨dropped, kept, micRequests, queue, few, ?_⟩
  have isRx : rx = rest ++ dropped := by
    have read := congrArg Machine.rx changed
    simp only [onDataReceived, if_pos notCancelled] at read
    exact read.symm.trans sameRx
  have isQueue : micQueue = kept ++ [request] := by
    have read := congrArg Machine.micQueue changed
    simp only [onDataReceived, if_pos notCancelled] at read
    rw [← read]
    exact congrArg (· ++ [request]) sameQueue
  rw [changed, isRx, isQueue]
  rfl

theorem QueueInv.rxComplete (inv : QueueInv observed) (status : RequestStatus) (length : Nat)
    (notCancelled : status ≠ .cancelled) (final : Observed)
    (taken : observedStep observed (.rxComplete status length) = some final) :
    QueueInv final := by
  obtain ⟨next, received, noted⟩ := Option.map_eq_some_iff.mp taken
  obtain ⟨request, rest, pending, _, isNext⟩ := step_rxComplete received
  obtain ⟨dropped, kept, micRequests, queue, few, changed⟩ :=
    inv.completed request rest pending length status notCancelled
  have accounted := rxComplete_accounted observed.machine request rest pending length status
    inv.accounted
  rw [changed] at isNext accounted
  subst isNext
  simp only [Observed.note, Observed.noteCapture, pending] at noted
  cases noted
  have elsewhere := inv.rx_elsewhere request (by rw [pending]; exact List.mem_cons_self)
  have ordered := inv.ordered
  have numbered := inv.numbered
  have sequence : Observed.sequence
      { observed with
        machine :=
          { observed.machine with
            rx := rest ++ dropped, micQueue := kept ++ [request], micRequests := micRequests }
        captures := observed.captures + 1
        capture := Function.update observed.capture request observed.captures } =
      (observed.written ++ (unwritten observed.machine.control ++ kept).map
        observed.capture) ++ [observed.captures] := by
    have others : (unwritten observed.machine.control ++ kept).map
        (Function.update observed.capture request observed.captures) =
        (unwritten observed.machine.control ++ kept).map observed.capture := by
      apply List.map_congr_left
      intro other member
      apply Function.update_of_ne
      rintro rfl
      apply elsewhere
      rw [queue, ← List.append_assoc, List.mem_append, List.mem_append]
      rcases List.mem_append.mp member with inHand | queued
      · exact Or.inl (Or.inl inHand)
      · exact Or.inr queued
    simp only [Observed.sequence]
    rw [← List.append_assoc, List.map_append, others, List.append_assoc]
    simp
  have part : (observed.written ++ (unwritten observed.machine.control ++ kept).map
      observed.capture).Sublist observed.sequence := by
    rw [Observed.sequence, queue]
    exact ((((List.sublist_append_right dropped kept).append_left _).map _).append_left _)
  refine ⟨inv.quiet, inv.unchanged, accounted, ?_, ?_, inv.spk_front, inv.spk_head,
    inv.filled, ?_, ?_⟩
  · intro _ none
    exact absurd none (by simp)
  · show (kept ++ [request]).length ≤ _
    rw [List.length_append, List.length_singleton]
    omega
  · rw [sequence, List.pairwise_append]
    refine ⟨ordered.sublist part, List.pairwise_singleton _ _, ?_⟩
    intro number member last isLast
    rw [List.mem_singleton.mp isLast]
    exact numbered number (part.subset member)
  · intro number member
    rw [sequence, List.mem_append] at member
    show number < observed.captures + 1
    rcases member with earlier | last
    · exact Nat.lt_succ_of_lt (numbered number (part.subset earlier))
    · rw [List.mem_singleton.mp last]
      exact Nat.lt_succ_self _

theorem QueueInv.txComplete (inv : QueueInv observed) (final : Observed)
    (taken : observedStep observed .txComplete = some final) : QueueInv final := by
  obtain ⟨next, sent, noted⟩ := Option.map_eq_some_iff.mp taken
  cases noted
  obtain ⟨request, rest, _, rfl⟩ := step_txComplete sent
  have same := onDataSent_sameMicrophone { observed.machine with tx := rest } request
  obtain ⟨spkQueue, playing, changed⟩ :=
    onDataSent_changes { observed.machine with tx := rest } request
  apply inv.interrupted _ ⟨same.rx, same.micQueue, same.control⟩
  · rw [onDataSent_spkQueue]
    exact List.prefix_append _ _
  · rw [changed]

theorem QueueInv.uac (inv : QueueInv observed) (event : UacEvent) (silent : event.rate = none)
    (final : Observed) (taken : observedStep observed (.uac event) = some final) :
    QueueInv final := by
  obtain ⟨next, told, noted⟩ := Option.map_eq_some_iff.mp taken
  cases noted
  obtain ⟨_, rfl⟩ := step_uac told
  obtain ⟨frame, events, suspended, updated, reported, changed, sameFlag⟩ :=
    onUacEvent_changes bothStreams event observed.machine
  apply inv.interrupted _ (onUacEvent_sameMicrophone bothStreams event observed.machine)
  · simp only [changed, List.prefix_refl]
  · rw [changed]
    exact sameFlag silent

/-- `main` takes the front of the microphone queue: the captures stay in line. -/
theorem QueueInv.take (inv : QueueInv observed) (here : observed.machine.control = .takeMicRequest)
    (request : RequestId) (rest : List RequestId)
    (queue : observed.machine.micQueue = request :: rest)
    (accounted : Accounted { observed.machine with
      micQueue := rest, control := .writeMicRequest request }) :
    QueueInv { observed with machine := { observed.machine with
      micQueue := rest, control := .writeMicRequest request } } := by
  have sequence : Observed.sequence { observed with machine := { observed.machine with
      micQueue := rest, control := .writeMicRequest request } } = observed.sequence := by
    simp only [Observed.sequence, here, queue]
    rfl
  have bounded := inv.mic_bounded
  rw [queue, List.length_cons] at bounded
  refine ⟨rfl, inv.unchanged, accounted, nofun, ?_, nofun, nofun, nofun, ?_, ?_⟩
  · show rest.length ≤ _
    omega
  · rw [sequence]
    exact inv.ordered
  · rw [sequence]
    exact inv.numbered

/-- What `ifWrite` gets is next in line; an empty request is left out. -/
theorem QueueInv.write (inv : QueueInv observed) (request : RequestId) (count : Nat)
    (here : observed.machine.control = .writeMicRequest request) (next : Machine)
    (taken : mainStep bothStreams count observed.machine = some next)
    (accounted : Accounted next) : QueueInv (observed.noteMain count next) := by
  have ordered := inv.ordered
  have numbered := inv.numbered
  simp only [Observed.sequence, here, unwritten] at ordered numbered
  simp only [mainStep, here] at taken
  simp only [Observed.noteMain, here]
  by_cases filled : (observed.machine.micRequests request).length > 0
  · rw [if_pos filled] at taken ⊢
    cases taken
    have sequence : observed.written ++ ([request] ++ observed.machine.micQueue).map
        observed.capture = (observed.written ++ [observed.capture request]) ++
          observed.machine.micQueue.map observed.capture := by simp
    refine ⟨rfl, inv.unchanged, accounted, nofun, inv.mic_bounded, nofun, nofun, nofun, ?_, ?_⟩
    · rw [sequence] at ordered
      exact ordered
    · rw [sequence] at numbered
      exact numbered
  · rw [if_neg filled] at taken ⊢
    cases taken
    have part : (observed.written ++ observed.machine.micQueue.map observed.capture).Sublist
        (observed.written ++ ([request] ++ observed.machine.micQueue).map observed.capture) :=
      ((List.sublist_cons_self request observed.machine.micQueue).map _).append_left _
    refine ⟨rfl, inv.unchanged, accounted, nofun, inv.mic_bounded, nofun, nofun, nofun, ?_, ?_⟩
    · exact ordered.sublist part
    · intro number member
      exact numbered number (part.subset member)

theorem QueueInv.read (inv : QueueInv observed) (request : RequestId) (count : Nat)
    (here : observed.machine.control = .readSpkRequest request) (next : Machine)
    (taken : mainStep bothStreams count observed.machine = some next)
    (accounted : Accounted next) : QueueInv (observed.noteMain count next) := by
  have head := inv.spk_head request (by rw [here]; rfl)
  have ordered := inv.ordered
  have numbered := inv.numbered
  simp only [Observed.sequence, here, unwritten] at ordered numbered
  simp only [mainStep, here] at taken
  simp only [Observed.noteMain, here]
  split at taken
  · by_cases some : count > 0
    · rw [if_pos some] at taken ⊢
      cases taken
      refine ⟨rfl, inv.unchanged, accounted, nofun, inv.mic_bounded, nofun, ?_, ?_, ordered,
        numbered⟩
      · intro other isPeeked
        cases isPeeked
        exact head
      · intro other isLoaded
        exact isLoaded
    · rw [if_neg some] at taken ⊢
      cases taken
      exact ⟨rfl, inv.unchanged, accounted, nofun, inv.mic_bounded, nofun, nofun, nofun, ordered,
        numbered⟩
  · simp at taken

theorem QueueInv.main (inv : QueueInv observed) (count : Nat) (final : Observed)
    (taken : observedStep observed (.main count) = some final) : QueueInv final := by
  obtain ⟨next, stepped, noted⟩ := Option.map_eq_some_iff.mp taken
  cases noted
  have accounted : Accounted next := by
    apply mainStep_accounted rfl count _ inv.accounted stepped
    intro rate caller clears
    have isQuiet := inv.quiet
    simp [clears, UsbUac.quiet] at isQuiet
  have unchanged := inv.unchanged
  have statement : mainStep bothStreams count observed.machine = some next := stepped
  simp only [step, mainStep] at stepped
  simp only [Observed.note]
  cases here : observed.machine.control with
  | changeRate _ rate caller | readRate | clearRateChanged rate =>
      have isQuiet := inv.quiet
      simp [here, UsbUac.quiet] at isQuiet
  | takeMicRequest =>
      simp only [here] at stepped
      simp only [Observed.noteMain, here]
      cases queue : observed.machine.micQueue with
      | nil => simp [queue] at stepped
      | cons request rest =>
          simp only [queue] at stepped
          cases stepped
          exact inv.take here request rest queue accounted
  | writeMicRequest request => exact inv.write request count here next statement accounted
  | readSpkRequest request => exact inv.read request count here next statement accounted
  | popSpkRequest request =>
      simp only [here] at stepped
      simp only [Observed.noteMain, here]
      cases stepped
      have filled := inv.filled request (by rw [here]; rfl)
      have ordered := inv.ordered
      have numbered := inv.numbered
      simp only [Observed.sequence, here, unwritten] at ordered numbered
      refine ⟨rfl, inv.unchanged, accounted, by simp, inv.mic_bounded, by simp, by simp [peeked],
        ?_, ordered, numbered⟩
      intro other isLoaded
      cases isLoaded
      exact filled
  | setCallback | clearUpdated | clearMicLength request | returnMicRequest request
  | clearStartOfFrame | sendSpkRequest request | setPlaying | clearDataReceived =>
      simp only [here] at stepped
      simp only [Observed.noteMain, here]
      cases stepped
      exact inv.passes _ accounted rfl rfl rfl ⟨by rw [here]; rfl, rfl⟩ rfl
  | wait | checkStartOfFrame | checkDataReceived =>
      simp only [here] at stepped
      simp only [Observed.noteMain, here]
      split at stepped
      · cases stepped
        exact inv.passes _ accounted rfl rfl rfl ⟨by rw [here]; rfl, rfl⟩ rfl
      · cases stepped
        exact inv.passes _ accounted rfl rfl rfl ⟨by rw [here]; rfl, rfl⟩ rfl
  | checkRateChanged =>
      simp only [here, unchanged] at stepped
      simp only [Observed.noteMain, here]
      cases stepped
      exact inv.passes _ accounted rfl rfl rfl ⟨by rw [here]; rfl, rfl⟩ rfl
  | checkMicQueue =>
      simp only [here] at stepped
      simp only [Observed.noteMain, here]
      split at stepped
      · rename_i waiting
        cases stepped
        refine inv.still _ accounted rfl rfl rfl ⟨by rw [here]; rfl, rfl⟩ ?_ (by simp)
          (by simp [peeked]) (by simp [loaded])
        rintro - empty
        simp only [Bool.and_eq_true, Bool.not_eq_true', List.isEmpty_eq_false_iff] at waiting
        exact waiting.2 empty
      · cases stepped
        exact inv.passes _ accounted rfl rfl rfl ⟨by rw [here]; rfl, rfl⟩ rfl
  | checkSpkQueue =>
      simp only [here] at stepped
      simp only [Observed.noteMain, here]
      split at stepped
      · cases stepped
        exact inv.passes _ accounted rfl rfl rfl ⟨by rw [here]; rfl, rfl⟩ rfl
      · rename_i waiting
        cases stepped
        refine inv.still _ accounted rfl rfl rfl ⟨by rw [here]; rfl, rfl⟩ (by simp) ?_
          (by simp [peeked]) (by simp [loaded])
        rintro - empty
        exact waiting (List.isEmpty_iff.mpr empty)
  | frontSpkRequest =>
      simp only [here] at stepped
      simp only [Observed.noteMain, here]
      obtain ⟨request, front, same⟩ := Option.map_eq_some_iff.mp stepped
      cases same
      refine inv.still _ accounted rfl rfl rfl ⟨by rw [here]; rfl, rfl⟩ (by simp) (by simp) ?_
        (by simp [loaded])
      intro other isPeeked
      cases isPeeked
      exact front

end Steps

/-! ## Every run -/

theorem queueInv_start (rate : Nat) : QueueInv (startObserved rate) := by
  refine ⟨rfl, rfl, ?_, nofun, Nat.zero_le _, nofun, nofun, nofun, List.Pairwise.nil, nofun⟩
  intro outside isAbsent request
  cases isAbsent
  exact count_finRange bufferCount request

theorem observedStep_inv (observed : Observed) (label : Label) (next : Observed)
    (inv : QueueInv observed) (steady : Steady label)
    (taken : observedStep observed label = some next) : QueueInv next := by
  cases label with
  | main count => exact inv.main count next taken
  | rxComplete status length => exact inv.rxComplete status length steady next taken
  | txComplete => exact inv.txComplete next taken
  | uac event => exact inv.uac event steady next taken

/-- Only the front of the queue is dropped, and it is the oldest. -/
theorem QueueInv.oldest_dropped {observed : Observed} (inv : QueueInv observed)
    (status : RequestStatus) (length : Nat) (next : Machine) (notCancelled : status ≠ .cancelled)
    (taken : step bothStreams observed.machine (.rxComplete status length) = some next) :
    ∀ outdated ∈ observed.machine.micQueue, outdated ∈ next.rx →
      ∀ kept ∈ observed.machine.micQueue, kept ∉ next.rx →
        observed.capture outdated < observed.capture kept := by
  obtain ⟨request, rest, pending, _, isNext⟩ := step_rxComplete taken
  obtain ⟨dropped, stays, micRequests, queue, _, changed⟩ :=
    inv.completed request rest pending length status notCancelled
  rw [changed] at isNext
  subst isNext
  intro outdated queued inStream kept alsoQueued notInStream
  have notResting : outdated ∉ rest := fun member =>
    inv.rx_elsewhere outdated (by rw [pending]; exact List.mem_cons_of_mem _ member)
      (List.mem_append_right _ queued)
  have isDropped : outdated ∈ dropped :=
    (List.mem_append.mp inStream).resolve_left notResting
  have isKept : kept ∈ stays := by
    rw [queue] at alsoQueued
    exact (List.mem_append.mp alsoQueued).resolve_left fun member =>
      notInStream (List.mem_append_right _ member)
  have ordered := inv.ordered
  rw [Observed.sequence, queue, ← List.append_assoc, List.map_append, ← List.append_assoc,
    List.pairwise_append] at ordered
  apply ordered.2.2
  · exact List.mem_append_right _
      (List.mem_map_of_mem (List.mem_append_right _ isDropped))
  · exact List.mem_map_of_mem isKept

/-- Four captures complete before the first start of frame. -/
def fourCapturesLabels : List Label :=
  [.main 0] ++ List.replicate 4 (.rxComplete .completed 192) ++
    [.uac { startOfFrame := true, rate := none, suspended := true, available := 0,
            highSpeed := false }] ++ List.replicate 11 (.main 0)

end HalmExamples.UsbUac
