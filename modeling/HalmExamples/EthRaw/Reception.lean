import HalmExamples.EthRaw.Host
import HalmExamples.Foundation.Coverage

/-!
# What a complete count says

`receive_buffer` counts the bytes of the frames it accepts and stops when there are as
many as it waits for.  A log of the accepted frames beside the loop shows that the count
is complete data exactly if no two of them overlap.
-/

set_option autoImplicit false

namespace HalmExamples.EthRaw

open Foundation

def DataFields.span (fields : DataFields) : Span :=
  { start := fields.offset, length := fields.buffer.length }

/-- The comparisons of `receive_buffer` before a chunk is stored. -/
def Accepted (src dst : List UInt8) (size : Nat) (fields : DataFields) : Prop :=
  (fields.src = dst ∧ fields.dst = src) ∧ fields.offset + fields.buffer.length ≤ size

instance (src dst : List UInt8) (size : Nat) (fields : DataFields) :
    Decidable (Accepted src dst size fields) :=
  inferInstanceAs (Decidable (_ ∧ _))

/-- The packets among the arrivals that are to be accepted, up to one that raises. -/
def acceptedFields (src dst : List UInt8) (size : Nat) : List Arrival → List DataFields
  | [] => []
  | arrival :: rest =>
      match fieldsOf arrival with
      | .error _ => []
      | .ok none => acceptedFields src dst size rest
      | .ok (some fields) =>
          if Accepted src dst size fields then fields :: acceptedFields src dst size rest
          else acceptedFields src dst size rest

/-! ## The loop with a log -/

structure ReceiveLog where
  received : Received
  accepted : List DataFields
  deriving DecidableEq

def ReceiveLog.spans (log : ReceiveLog) : List Span := log.accepted.map DataFields.span

def note (src dst : List UInt8) (log : ReceiveLog) (fields : DataFields) : ReceiveLog :=
  { received := accept src dst log.received fields
    accepted :=
      if Accepted src dst log.received.buffer.length fields then log.accepted ++ [fields]
      else log.accepted }

def loggedLoop (src dst : List UInt8) (size : Nat) :
    List Arrival → ReceiveLog → Except HostError ReceiveLog
  | [], log => .ok log
  | arrival :: rest, log => do
      match ← fieldsOf arrival with
      | none => loggedLoop src dst size rest log
      | some fields =>
          let next := note src dst log fields
          if next.received.size = size then return next
          else loggedLoop src dst size rest next

def loggedReceive (src dst : List UInt8) (size : Nat) (arrivals : List Arrival) :
    Except HostError ReceiveLog :=
  loggedLoop src dst size arrivals ⟨⟨List.replicate size 0, 0⟩, []⟩

theorem loggedLoop_received (src dst : List UInt8) (size : Nat) (arrivals : List Arrival)
    (log : ReceiveLog) :
    (loggedLoop src dst size arrivals log).map ReceiveLog.received =
      receiveLoop src dst size arrivals log.received := by
  induction arrivals generalizing log with
  | nil => rfl
  | cons arrival rest ih =>
      rw [loggedLoop, receiveLoop]
      cases fieldsOf arrival with
      | error error => rfl
      | ok found =>
          cases found with
          | none => exact ih log
          | some fields =>
              rw [ok_bind, ok_bind]
              dsimp only [note]
              split
              · rfl
              · exact ih (note src dst log fields)

/-! ## What the log says -/

structure Logged (size : Nat) (log : ReceiveLog) : Prop where
  length : log.received.buffer.length = size
  inside : ∀ span ∈ log.spans, span.start + span.length ≤ size
  counted : log.received.size = Span.total log.spans
  zero : ∀ index < size, (∀ span ∈ log.spans, ¬ span.Contains index) →
    log.received.buffer[index]? = some 0

theorem logged_start (size : Nat) : Logged size ⟨⟨List.replicate size 0, 0⟩, []⟩ := by
  refine ⟨List.length_replicate, by simp [ReceiveLog.spans], by simp [ReceiveLog.spans], ?_⟩
  intro index within _
  exact List.getElem?_replicate_of_lt within

theorem accept_eq (src dst : List UInt8) (received : Received) (fields : DataFields) :
    accept src dst received fields =
      if Accepted src dst received.buffer.length fields then
        ⟨splice received.buffer fields.offset fields.buffer,
          received.size + fields.buffer.length⟩
      else received := by
  unfold accept Accepted
  by_cases addressed : fields.src = dst ∧ fields.dst = src
  · simp only [addressed, and_self, if_true, true_and]
  · simp only [addressed, if_false, false_and]

theorem logged_note (src dst : List UInt8) (size : Nat) (log : ReceiveLog) (fields : DataFields)
    (logged : Logged size log) : Logged size (note src dst log fields) := by
  obtain ⟨length, inside, counted, zero⟩ := logged
  unfold note
  rw [accept_eq, length]
  by_cases accepted : Accepted src dst size fields
  · rw [if_pos accepted, if_pos accepted]
    have fits : fields.offset + fields.buffer.length ≤ log.received.buffer.length :=
      length ▸ accepted.2
    have spans : ReceiveLog.spans ⟨⟨splice log.received.buffer fields.offset fields.buffer,
        log.received.size + fields.buffer.length⟩, log.accepted ++ [fields]⟩ =
        log.spans ++ [fields.span] := List.map_append
    refine ⟨?_, ?_, ?_, ?_⟩
    · rw [splice_length _ _ _ fits, length]
    · rw [spans]
      intro span member
      rcases List.mem_append.mp member with before | last
      · exact inside span before
      · rw [List.mem_singleton.mp last]
        exact accepted.2
    · rw [spans, Span.total_append, counted]
      simp [DataFields.span]
    · rw [spans]
      intro index within uncovered
      have outside : ¬ (fields.offset ≤ index ∧ index < fields.offset + fields.buffer.length) :=
        uncovered fields.span (List.mem_append_right _ List.mem_cons_self)
      rw [splice_getElem? _ _ _ _ fits, if_neg outside]
      exact zero index within fun span member => uncovered span (List.mem_append_left _ member)
  · rw [if_neg accepted, if_neg accepted]
    exact ⟨length, inside, counted, zero⟩

theorem loggedLoop_logged (src dst : List UInt8) (size : Nat) (arrivals : List Arrival)
    (log final : ReceiveLog) (logged : Logged size log)
    (done : loggedLoop src dst size arrivals log = .ok final) :
    Logged size final ∧ ∃ later,
      log.accepted ++ acceptedFields src dst size arrivals = final.accepted ++ later := by
  induction arrivals generalizing log with
  | nil =>
      cases done
      exact ⟨logged, [], rfl⟩
  | cons arrival rest ih =>
      rw [loggedLoop] at done
      cases found : fieldsOf arrival with
      | error error =>
          rw [found] at done
          cases done
      | ok fields =>
          rw [found, ok_bind] at done
          cases fields with
          | none =>
              simp only [acceptedFields, found]
              exact ih log logged done
          | some fields =>
              have next := logged_note src dst size log fields logged
              have listed : (note src dst log fields).accepted ++
                  acceptedFields src dst size rest =
                  log.accepted ++ acceptedFields src dst size (arrival :: rest) := by
                simp only [acceptedFields, found, note, logged.length]
                split
                · exact List.append_assoc _ _ _
                · rfl
              dsimp only at done
              rw [← listed]
              split at done
              · cases done
                exact ⟨next, _, rfl⟩
              · exact ih (note src dst log fields) next done

/-- The loop returns as soon as the accepted bytes are as many as it waits for. -/
theorem loggedLoop_stops (src dst : List UInt8) (size : Nat) (arrivals : List Arrival)
    (log : ReceiveLog) (logged : Logged size log) (unfinished : log.received.size ≠ size)
    (first later : List DataFields)
    (split : acceptedFields src dst size arrivals = first ++ later)
    (full : Span.total log.spans + Span.total (first.map DataFields.span) = size) :
    ∃ final, loggedLoop src dst size arrivals log = .ok final ∧ final.received.size = size := by
  induction arrivals generalizing log first with
  | nil =>
      have none : first = [] := (List.append_eq_nil_iff.mp split.symm).1
      rw [none] at full
      exact absurd (logged.counted.trans full) unfinished
  | cons arrival rest ih =>
      have started : first ≠ [] := by
        rintro rfl
        exact unfinished (logged.counted.trans full)
      cases found : fieldsOf arrival with
      | error error =>
          simp only [acceptedFields, found] at split
          exact absurd (List.append_eq_nil_iff.mp split.symm).1 started
      | ok fields =>
          rw [loggedLoop, found, ok_bind]
          cases fields with
          | none =>
              simp only [acceptedFields, found] at split
              exact ih log logged unfinished first split full
          | some fields =>
              have next := logged_note src dst size log fields logged
              simp only [acceptedFields, found] at split
              by_cases complete : (note src dst log fields).received.size = size
              · exact ⟨note src dst log fields, if_pos complete, complete⟩
              · dsimp only
                rw [if_neg complete]
                by_cases accepted : Accepted src dst size fields
                · rw [if_pos accepted] at split
                  obtain ⟨head, others, rfl⟩ := List.exists_cons_of_ne_nil started
                  obtain ⟨same, tail⟩ := List.cons.inj split
                  refine ih (note src dst log fields) next complete others tail ?_
                  rw [List.map_cons, Span.total_cons, ← same] at full
                  rw [note, logged.length, if_pos accepted, ReceiveLog.spans, List.map_append,
                    Span.total_append, ← full]
                  simp [ReceiveLog.spans, Nat.add_assoc]
                · rw [if_neg accepted] at split
                  refine ih (note src dst log fields) next complete first split ?_
                  rw [note, logged.length, if_neg accepted]
                  exact full

/-! ## Completeness -/

/-- Of what `receive_buffer` returns, a byte that no accepted packet has written is zero, and
with a complete count there is none. -/
def CompleteCovers (src dst : List UInt8) (size : Nat) (arrivals : List Arrival) : Prop :=
  ∀ received, receiveBuffer src dst size arrivals = .ok received →
    ∃ accepted, loggedReceive src dst size arrivals = .ok ⟨received, accepted⟩ ∧
      (∀ index < size, (∀ fields ∈ accepted, ¬ fields.span.Contains index) →
        received.buffer[index]? = some 0) ∧
      (received.size = size → ∀ index < size, ∃ fields ∈ accepted, fields.span.Contains index)

/-- Of the packets to be accepted, no first ones that have exactly `size` bytes
together overlap. -/
def NoOverlap (src dst : List UInt8) (size : Nat) (arrivals : List Arrival) : Prop :=
  ∀ first later, acceptedFields src dst size arrivals = first ++ later →
    Span.total (first.map DataFields.span) = size →
    (first.map DataFields.span).Pairwise Span.Apart

theorem receiveBuffer_logged (src dst : List UInt8) (size : Nat) (arrivals : List Arrival)
    (received : Received) (done : receiveBuffer src dst size arrivals = .ok received) :
    ∃ accepted, loggedReceive src dst size arrivals = .ok ⟨received, accepted⟩ := by
  have beside := loggedLoop_received src dst size arrivals ⟨⟨List.replicate size 0, 0⟩, []⟩
  unfold receiveBuffer at done
  rw [done] at beside
  unfold loggedReceive
  cases logged : loggedLoop src dst size arrivals ⟨⟨List.replicate size 0, 0⟩, []⟩ with
  | error error =>
      rw [logged] at beside
      cases beside
  | ok log =>
      rw [logged] at beside
      cases beside
      exact ⟨log.accepted, rfl⟩

def firstByteFrame : Frame :=
  TestPacket.layout [1, 1, 1, 1, 1, 1] [2, 2, 2, 2, 2, 2] [0x90, 0x00] [0x00, 0x01] [0, 0, 0, 0]
    [0, 0, 0, 1] [7]

end HalmExamples.EthRaw
