import HalmExamples.Foundation.Playback

/-!
# A transmitter that sends the same buffers over and over

The callback of a sent request sets its length to its capacity and enqueues it again, in
the stream examples that play a fixed pattern.  The stream refuses a request if its queue
is full, which no caller notices.
-/

set_option autoImplicit false

namespace HalmExamples.Playback

open Foundation Foundation.Playback

/-- In bytes. -/
structure StreamRequest where
  capacity : Nat
  length : Nat
  deriving DecidableEq

inductive StreamRequestStatus where
  | completed
  | failed
  deriving DecidableEq

def sampleSize : Nat := 2

def setLength {count : Nat} (requests : Fin count → StreamRequest) (request : Fin count)
    (length : Nat) : Fin count → StreamRequest :=
  Function.update requests request { requests request with length := length }

structure Transmitter (count : Nat) (Word : Type) where
  stream : Player (Fin count) Word
  requests : Fin count → StreamRequest

namespace Transmitter
variable {count : Nat} {Word : Type}

def idle : Transmitter count Word :=
  { stream := emptyPlayer, requests := fun _ => { capacity := 0, length := 0 } }

/-- `request->length = request->capacity; streamEnqueue(stream, request);` -/
def refill (size : Nat) (transmitter : Transmitter count Word) (request : Fin count) :
    Transmitter count Word :=
  { stream := transmitter.stream.enqueue size request
    requests := setLength transmitter.requests request (transmitter.requests request).capacity }

def words (buffers : Fin count → List Word) (transmitter : Transmitter count Word)
    (request : Fin count) : List Word :=
  (buffers request).take ((transmitter.requests request).length / sampleSize)

def sendWord (buffers : Fin count → List Word) (transmitter : Transmitter count Word) :
    Option (Transmitter count Word) :=
  (transmitter.stream.transmit (transmitter.words buffers)).map fun stream =>
    { transmitter with stream := stream }

/-- The callback is called with whatever status, once its request has been sent or later; a
request that failed need not be all sent. -/
def complete (size : Nat) (status : StreamRequestStatus) (transmitter : Transmitter count Word) :
    Option (Transmitter count Word) :=
  (transmitter.stream.finish (status = .failed)).map fun ended =>
    refill size { transmitter with stream := ended.2 } ended.1

/-- A request that fails while it is sent has been sent for a whole number of periods. -/
def CutWhole (period : Nat) (transmitter : Transmitter count Word)
    (status : StreamRequestStatus) : Prop :=
  status = .failed → transmitter.stream.ended = 0 → period ∣ transmitter.stream.position

end Transmitter

open Transmitter

section Requests
variable {count : Nat}

theorem setLength_capacity (requests : Fin count → StreamRequest) (request other : Fin count)
    (length : Nat) :
    (setLength requests request length other).capacity = (requests other).capacity := by
  unfold setLength
  by_cases same : other = request
  · subst same
    rw [Function.update_self]
  · rw [Function.update_of_ne same]

theorem setLength_full (requests : Fin count → StreamRequest) (request other : Fin count)
    (length : Nat) (full : other ≠ request → (requests other).length = length) :
    (setLength requests request length other).length = length := by
  unfold setLength
  by_cases same : other = request
  · subst same
    rw [Function.update_self]
  · rw [Function.update_of_ne same, full same]

end Requests

/-! ## The invariant -/

/-- Each buffer holds a whole number of periods of the wave. -/
structure Looping {count : Nat} {Word : Type} (wave : Nat → Word) (period capacity : Nat)
    (buffers : Fin count → List Word) : Prop where
  holds : ∀ request, buffers request = upTo wave (capacity / sampleSize)
  whole : period ∣ capacity / sampleSize
  periodic : Function.Periodic wave period

/-- So many requests are set up, so many of them were handed to the stream, and what has
been sent is the beginning of the wave. -/
structure Plays {count : Nat} {Word : Type} (wave : Nat → Word) (period size capacity : Nat)
    (prepared handed : Nat) (transmitter : Transmitter count Word) : Prop where
  capacities : ∀ request : Fin count, request.val < prepared →
    (transmitter.requests request).capacity = capacity
  full : ∀ request ∈ transmitter.stream.queue, (transmitter.requests request).length = capacity
  earlier : ∀ request ∈ transmitter.stream.queue, request.val < handed
  ordered : handed ≤ prepared
  rounds : Rounds size handed transmitter.stream.queue
  inPhase : InPhase wave period transmitter.stream

section Plays
variable {count size capacity prepared handed period : Nat} {Word : Type} {wave : Nat → Word}
  {buffers : Fin count → List Word} {transmitter next : Transmitter count Word}

theorem plays_idle : Plays wave period size capacity 0 0 (idle : Transmitter count Word) :=
  ⟨fun _ early => absurd early (Nat.not_lt_zero _),
    fun _ member => absurd member List.not_mem_nil, fun _ member => absurd member List.not_mem_nil,
    Nat.le_refl 0, ⟨List.nodup_nil, (Nat.min_zero size).symm⟩, inPhase_empty wave period⟩

theorem Plays.words_eq (plays : Plays wave period size capacity prepared handed transmitter)
    (looping : Looping wave period capacity buffers) :
    ∀ request ∈ transmitter.stream.queue,
      transmitter.words buffers request = upTo wave (capacity / sampleSize) := by
  intro request member
  rw [Transmitter.words, plays.full request member, looping.holds request,
    List.take_of_length_le (upTo_length wave _).le]

theorem Plays.sendWord (plays : Plays wave period size capacity prepared handed transmitter)
    (looping : Looping wave period capacity buffers)
    (taken : transmitter.sendWord buffers = some next) :
    Plays wave period size capacity prepared handed next := by
  obtain ⟨stream, sent, rfl⟩ := Option.map_eq_some_iff.mp taken
  have inPhase := plays.inPhase.transmit looping.periodic
    (fun request member => ⟨_, plays.words_eq looping request member, looping.whole⟩) sent
  obtain ⟨_, _, _, _, rfl⟩ := transmit_eq_some sent
  refine ⟨plays.capacities, ?_, ?_, plays.ordered, ?_, inPhase⟩
  · rw [advance_queue]
    exact plays.full
  · rw [advance_queue]
    exact plays.earlier
  · rw [advance_queue]
    exact plays.rounds

theorem Plays.complete (plays : Plays wave period size capacity prepared handed transmitter)
    {status : StreamRequestStatus} (cutWhole : transmitter.CutWhole period status)
    (taken : transmitter.complete size status = some next) :
    Plays wave period size capacity prepared handed next := by
  obtain ⟨⟨request, stream⟩, ended, rfl⟩ := Option.map_eq_some_iff.mp taken
  have inPhase := plays.inPhase.finish _ (fun failed => cutWhole (of_decide_eq_true failed)) ended
  obtain ⟨rest, queue, left, _⟩ := finish_eq_some ended
  have member : request ∈ transmitter.stream.queue := queue ▸ List.mem_cons_self
  have rounds := plays.rounds
  rw [queue] at rounds
  have own := plays.capacities request
    (Nat.lt_of_lt_of_le (plays.earlier request member) plays.ordered)
  have within : ∀ other ∈ enqueue size rest request, other ∈ transmitter.stream.queue := by
    intro other inside
    rcases mem_enqueue inside with earlier | same
    · exact queue ▸ List.mem_cons_of_mem request earlier
    · exact same ▸ member
  rw [← left] at rounds within
  refine ⟨fun other early => ?_, fun other inside => ?_,
    fun other inside => plays.earlier other (within other inside), plays.ordered, rounds.requeue,
    inPhase.enqueue size request⟩
  · exact (setLength_capacity _ _ _ _).trans (plays.capacities other early)
  · dsimp only [refill]
    rw [own]
    exact setLength_full _ _ _ _ fun _ => plays.full other (within other inside)

theorem Plays.hand (plays : Plays wave period size capacity prepared handed transmitter)
    (inside : handed < count) (ready : handed < prepared) :
    Plays wave period size capacity prepared (handed + 1)
      (refill size transmitter ⟨handed, inside⟩) := by
  have fresh : (⟨handed, inside⟩ : Fin count) ∉ transmitter.stream.queue :=
    fun member => Nat.lt_irrefl handed (plays.earlier _ member)
  refine ⟨fun other early => ?_, fun other member => ?_, fun other member => ?_, ready,
    plays.rounds.enqueue fresh, plays.inPhase.enqueue size _⟩
  · exact (setLength_capacity _ _ _ _).trans (plays.capacities other early)
  · dsimp only [refill] at member ⊢
    rw [plays.capacities ⟨handed, inside⟩ ready]
    refine setLength_full _ _ _ _ fun different => ?_
    exact plays.full other ((mem_enqueue member).resolve_right different)
  · rcases mem_enqueue member with earlier | same
    · exact Nat.lt_succ_of_lt (plays.earlier other earlier)
    · subst same
      exact Nat.lt_succ_self handed

theorem Plays.prepare (plays : Plays wave period size capacity prepared 0 transmitter)
    (inside : prepared < count) (length : Nat) :
    Plays wave period size capacity (prepared + 1) 0
      { transmitter with
        requests := Function.update transmitter.requests ⟨prepared, inside⟩
          { capacity := capacity, length := length } } := by
  refine ⟨fun other early => ?_, fun other member => ?_, plays.earlier, Nat.zero_le _,
    plays.rounds, plays.inPhase⟩
  · dsimp only
    by_cases same : other = ⟨prepared, inside⟩
    · rw [same, Function.update_self]
    · rw [Function.update_of_ne same]
      exact plays.capacities other (Nat.lt_of_le_of_ne (Nat.le_of_lt_succ early)
        fun equal => same (Fin.ext equal))
  · exact absurd (plays.earlier other member) (Nat.not_lt_zero _)

end Plays

end HalmExamples.Playback
