import HalmExamples.EthRaw.Transfer

/-!
# The whole script

`main` of `eth_raw.py` with any `-s`: the buffer is a whole number of words, the packets sent
are whole chunks, the board keeps the chunks that fit its arena and returns all of that, and
the host takes of the replies what fits the size it asked for.
-/

set_option autoImplicit false

namespace HalmExamples.EthRaw

open Foundation Foundation.ByteOrder

/-! ## The script -/

/-- `make_buffer`, from the sequence of random numbers. -/
def makeBuffer (size : Nat) (random : Nat → Nat) : Except HostError (List UInt8) :=
  if size % 4 ≠ 0 then .error .exception
  else .ok ((List.range (size / 4)).flatMap fun i => littleEndian 4 (random i))

inductive Verdict where
  | matched
  | mismatch (index : Nat)
  | nothing
  /-- `buffer[i]` raises `IndexError`. -/
  | indexError (index : Nat)
  deriving DecidableEq

/-- `for i, value in enumerate(received_buffer)`, from some index on. -/
def verifyFrom (buffer : List UInt8) : Nat → List UInt8 → Verdict
  | _, [] => .matched
  | i, value :: rest =>
      match buffer[i]? with
      | none => .indexError i
      | some expected => if value ≠ expected then .mismatch i else verifyFrom buffer (i + 1) rest

def verdict (buffer : List UInt8) (received : Received) : Verdict :=
  if received.size > 0 then verifyFrom buffer 0 received.buffer else .nothing

theorem words_length (count : Nat) (random : Nat → Nat) :
    ((List.range count).flatMap fun i => littleEndian 4 (random i)).length = count * 4 := by
  induction count with
  | zero => rfl
  | succ count ih =>
      rw [List.range_succ, List.flatMap_append, List.length_append, ih]
      simp only [List.flatMap_cons, List.flatMap_nil, List.append_nil, littleEndian_length]
      omega

theorem makeBuffer_ok (size : Nat) (random : Nat → Nat) (words : size % 4 = 0) :
    ∃ buffer, makeBuffer size random = .ok buffer ∧ buffer.length = size := by
  refine ⟨_, if_neg (not_not.mpr words), ?_⟩
  rw [words_length]
  omega

theorem verifyFrom_matched_iff (buffer received : List UInt8) (start : Nat) :
    verifyFrom buffer start received = .matched ↔
      ∀ index, index < received.length → buffer[start + index]? = received[index]? := by
  induction received generalizing start with
  | nil => exact iff_of_true rfl fun index inside => absurd inside (Nat.not_lt_zero index)
  | cons value rest ih =>
      rw [verifyFrom]
      have split : (∀ index, index < (value :: rest).length →
          buffer[start + index]? = (value :: rest)[index]?) ↔
          buffer[start]? = some value ∧
            ∀ index, index < rest.length → buffer[start + 1 + index]? = rest[index]? := by
        constructor
        · intro all
          refine ⟨all 0 (Nat.zero_lt_succ _), fun index inside => ?_⟩
          have later := all (index + 1) (Nat.succ_lt_succ inside)
          rwa [List.getElem?_cons_succ, ← Nat.add_assoc, Nat.add_right_comm] at later
        · rintro ⟨here, later⟩ index inside
          cases index with
          | zero => exact here
          | succ index =>
              rw [List.getElem?_cons_succ, ← Nat.add_assoc, Nat.add_right_comm]
              exact later index (Nat.lt_of_succ_lt_succ inside)
      rw [split]
      cases found : buffer[start]? with
      | none => simp
      | some expected =>
          by_cases same : value = expected
          · simp [same, ih]
          · have differs : ¬ expected = value := fun equal => same equal.symm
            simp [same, differs]

/-- What is compared byte by byte is what came back, and zeros after it. -/
theorem Gathering.matched_iff {board : Board} {size : Nat} {final : Received}
    (gathering : Gathering board size [] final) (buffer : List UInt8)
    (stored : ∀ index, index < returned size → board.arena.cells[index]? = buffer[index]?) :
    verdict buffer final = .matched ↔
      1024 ≤ size ∧ ∀ index, returned size ≤ index → index < size → buffer[index]? = some 0 := by
  have counted := gathering.counted
  have placed := fun index inside => gathering.placed index inside
    (fun _ member => absurd member List.not_mem_nil)
  simp only [List.filter_nil, List.length_nil, Nat.mul_zero, Nat.add_zero] at counted
  have some_iff : final.size > 0 ↔ 1024 ≤ size := by
    rw [counted, returned, chunkSize]
    omega
  rw [verdict]
  by_cases any : final.size > 0
  · rw [if_pos any, verifyFrom_matched_iff, gathering.length]
    simp only [Nat.zero_add]
    constructor
    · intro same
      refine ⟨some_iff.mp any, fun index high inside => ?_⟩
      rw [same index inside, placed index inside, if_neg (Nat.not_lt.mpr high)]
    · rintro ⟨_, zeros⟩ index inside
      rw [placed index inside]
      by_cases low : index < returned size
      · rw [if_pos low, stored index low]
      · rw [if_neg low]
        exact zeros index (Nat.not_lt.mp low) inside
  · rw [if_neg any]
    refine iff_of_false (by simp) fun both => any (some_iff.mpr both.1)

/-- For every size that the offsets have room for: `make_buffer` raises unless it is a whole
number of words, and otherwise the buffers match if and only if at least one chunk was asked
for and what exceeds the chunks that come back is zero anyway. -/
theorem script_matches_iff (size : Nat) (upper : size < 2 ^ 32) (random : Nat → Nat)
    (board : Board) (host : Mac) :
    (size % 4 ≠ 0 → makeBuffer size random = .error .exception) ∧
    (size % 4 = 0 → ∃ buffer packets, makeBuffer size random = .ok buffer ∧
      sendingLoop host.cells (macBytes board.address) buffer size = .ok packets ∧
      ∀ delivery : List Frame, (∀ frame ∈ packets, frame ∈ delivery) →
        (∀ frame ∈ delivery, frame ∈ packets) →
        ∃ stored emitted, deliver delivery board = some stored ∧
          (handleEthFrame stored (makeDataRequest host.cells (macBytes board.address))).board =
            some { stored with sent := stored.sent ++ emitted } ∧
          ∀ others arrivals : List Arrival,
            (∀ arrival ∈ others, FromOthers (macBytes board.address) arrival) →
            arrivals.Perm (emitted.map Arrival.packet ++ others) →
            ∃ received,
              receiveBuffer host.cells (macBytes board.address) size arrivals = .ok received ∧
              (verdict buffer received = .matched ↔
                1024 ≤ size ∧ ∀ index, 1024 * min 16 (size / 1024) ≤ index → index < size →
                  buffer[index]? = some 0)) := by
  refine ⟨fun odd => if_pos odd, fun words => ?_⟩
  obtain ⟨buffer, made, rfl⟩ := makeBuffer_ok size random words
  refine ⟨buffer, _, made, sendingLoop_eq host board.address buffer upper, ?_⟩
  intro delivery each only
  obtain ⟨stored, delivered, kept, answered, rebuilt⟩ :=
    exchange host buffer upper board delivery each only
  refine ⟨stored, replies stored host.cells, delivered, answered, ?_⟩
  intro others arrivals foreign mixed
  obtain ⟨final, run, gathering⟩ := rebuilt others arrivals foreign mixed
  exact ⟨final, run, gathering.matched_iff buffer kept⟩

theorem script_matches_iff_one_chunk :
    makeBuffer 1022 (fun _ => 7) = .error .exception ∧
    ∃ (buffer : List UInt8) (packets emitted : List Frame) (stored : Board) (received : Received),
      makeBuffer 1024 (fun _ => 7) = .ok buffer ∧
      sendingLoop broadcast.cells (macBytes emptyBoard.address) buffer 1024 = .ok packets ∧
      deliver packets emptyBoard = some stored ∧
      (handleEthFrame stored
        (makeDataRequest broadcast.cells (macBytes emptyBoard.address))).board =
          some { stored with sent := stored.sent ++ emitted } ∧
      receiveBuffer broadcast.cells (macBytes emptyBoard.address) 1024
        (.timeout :: emitted.reverse.map Arrival.packet) = .ok received ∧
      verdict buffer received = .matched := by
  refine ⟨(script_matches_iff 1022 (by decide) _ emptyBoard broadcast).1 (by decide), ?_⟩
  obtain ⟨buffer, packets, made, built, delivers⟩ :=
    (script_matches_iff 1024 (by decide) (fun _ => 7) emptyBoard broadcast).2 rfl
  obtain ⟨stored, emitted, delivered, answered, rebuilt⟩ :=
    delivers packets (fun _ member => member) fun _ member => member
  obtain ⟨received, run, matched⟩ := rebuilt [.timeout]
    (.timeout :: emitted.reverse.map Arrival.packet)
    (fun _ member => List.mem_singleton.mp member ▸ trivial)
    ((((List.reverse_perm emitted).map Arrival.packet).cons .timeout).trans
      (List.perm_append_singleton _ _).symm)
  exact ⟨buffer, packets, emitted, stored, received, made, built, delivered, answered, run,
    matched.mpr ⟨Nat.le_refl _, fun index high low => absurd low (Nat.not_lt.mpr high)⟩⟩

end HalmExamples.EthRaw
