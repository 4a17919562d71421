import HalmExamples.EthRaw.RoundTrip

/-!
# The transfer test from end to end

The host cuts its buffer into chunks, the board stores those that fit its arena, and the
board's replies rebuild the buffer on the host.  Both receivers write a chunk to its own
place, so order and repetition do not matter to the board; the host counts bytes and
therefore needs each reply once.
-/

set_option autoImplicit false

namespace HalmExamples.EthRaw

open Foundation Foundation.ByteOrder

/-! ## The two runs -/

/-- The sending loop of `main`. -/
def sendingLoop (src dst buffer : List UInt8) (size : Nat) : Except HostError (List Frame) :=
  (List.range (size / 1024)).mapM fun i =>
    makeDataPacket src dst (slice buffer (i * 1024) ((i + 1) * 1024)) (i * 1024)

def hostPackets (src dst buffer : List UInt8) : Except HostError (List Frame) :=
  sendingLoop src dst buffer buffer.length

def deliver : List Frame → Board → Option Board
  | [], board => some board
  | frame :: rest, board => (handleEthFrame board frame).board.bind (deliver rest)

/-- A receive timeout, or a frame with a whole header from another station. -/
def FromOthers (mac : List UInt8) : Arrival → Prop
  | .packet frame => TestPacket.size ≤ frame.length ∧ EthHeader.src.bytes frame ≠ mac
  | .timeout => True

/-! ## Packets of the host -/

def sentOffsets (size : Nat) : List Nat := (List.range (size / 1024)).map fun i => i * chunkSize

theorem mem_sentOffsets {size offset : Nat} (member : offset ∈ sentOffsets size) :
    chunkSize ∣ offset ∧ offset + chunkSize ≤ size := by
  obtain ⟨i, inside, rfl⟩ := List.mem_map.mp member
  rw [List.mem_range] at inside
  refine ⟨Nat.dvd_mul_left chunkSize i, ?_⟩
  simp only [chunkSize]
  omega

theorem sentOffsets_cover {size index : Nat} (inside : index < chunkSize * (size / 1024)) :
    ∃ offset ∈ sentOffsets size, offset ≤ index ∧ index < offset + chunkSize := by
  simp only [chunkSize] at inside
  refine ⟨index / chunkSize * chunkSize, List.mem_map_of_mem (List.mem_range.mpr ?_),
    Nat.div_mul_le_self index chunkSize, ?_⟩
  · simp only [chunkSize]
    omega
  · simp only [chunkSize]
    omega

theorem mapM_ok {α β : Type} (f : α → Except HostError β) (g : α → β) (items : List α)
    (each : ∀ item ∈ items, f item = .ok (g item)) : items.mapM f = .ok (items.map g) := by
  induction items with
  | nil => rfl
  | cons item rest ih =>
      have restEach : ∀ item ∈ rest, f item = .ok (g item) := fun item member =>
        each item (List.mem_cons_of_mem _ member)
      rw [List.mapM_cons, each item (List.mem_cons_self ..), ok_bind, ih restEach, ok_bind]
      rfl

theorem pack6s_macBytes (address : Nat) : pack6s (macBytes address) = macBytes address := rfl

section Packets
variable (host : Mac) (address : Nat) (buffer : List UInt8)

def chunkFrame (offset : Nat) : Frame :=
  TestPacket.layout (macBytes address) host.cells (bigEndian 2 etherType)
    (bigEndian 2 opcodeBuf) (bigEndian 4 offset) (bigEndian 4 chunkSize)
    (window buffer offset chunkSize)

theorem chunkFrame_widths (offset : Nat) :
    Widths (macBytes address) host.cells (bigEndian 2 etherType) (bigEndian 2 opcodeBuf)
      (bigEndian 4 offset) (bigEndian 4 chunkSize) :=
  ⟨macBytes_length _, host.length_eq, bigEndian_length .., bigEndian_length ..,
    bigEndian_length .., bigEndian_length ..⟩

theorem sendingLoop_eq (upper : buffer.length < 2 ^ 32) :
    sendingLoop host.cells (macBytes address) buffer buffer.length =
      .ok ((sentOffsets buffer.length).map (chunkFrame host address buffer)) := by
  rw [sendingLoop, mapM_ok _ (fun i => chunkFrame host address buffer (i * chunkSize))]
  · rw [sentOffsets, List.map_map]
    rfl
  · intro i member
    rw [List.mem_range] at member
    have chunk : slice buffer (i * 1024) ((i + 1) * 1024) =
        window buffer (i * chunkSize) chunkSize := by
      rw [slice_eq_window, show (i + 1) * 1024 - i * 1024 = chunkSize by
        simp only [chunkSize]; omega]
      rfl
    have chunkLength : (window buffer (i * chunkSize) chunkSize).length = chunkSize :=
      window_length_of_fits _ _ _ (by simp only [chunkSize]; omega)
    rw [chunk, makeDataPacket, chunkLength, packI, packI, if_pos (by omega), if_pos (by decide),
      pack6s_mac, pack6s_macBytes]
    rfl

theorem chunkFrame_fields (offset : Nat) (inside : offset + chunkSize ≤ buffer.length)
    (upper : buffer.length < 2 ^ 32) :
    (chunkFrame host address buffer offset).length = TestPacket.size + chunkSize ∧
      IsDataPacket (chunkFrame host address buffer offset) ∧
      TestPacket.offset.value (chunkFrame host address buffer offset) = offset ∧
      TestPacket.length.value (chunkFrame host address buffer offset) = chunkSize ∧
      window (chunkFrame host address buffer offset) TestPacket.size chunkSize =
        window buffer offset chunkSize := by
  have widths := chunkFrame_widths host address offset
  have dataLength : (window buffer offset chunkSize).length = chunkSize :=
    window_length_of_fits _ _ _ inside
  have frameLength : (chunkFrame host address buffer offset).length =
      TestPacket.size + chunkSize := by
    rw [chunkFrame, layout_length _ widths, dataLength]
  obtain ⟨_, _, type, opcode, offsetField, lengthField⟩ :=
    layout_fields (window buffer offset chunkSize) widths
  refine ⟨frameLength, ⟨by rw [frameLength]; omega, ?_, ?_⟩, ?_, ?_, ?_⟩
  · rw [Field.value, chunkFrame, type, ofBigEndian_bigEndian]
    rfl
  · rw [Field.value, chunkFrame, opcode, ofBigEndian_bigEndian]
    rfl
  · rw [Field.value, chunkFrame, offsetField, ofBigEndian_bigEndian]
    exact Nat.mod_eq_of_lt (by omega)
  · rw [Field.value, chunkFrame, lengthField, ofBigEndian_bigEndian]
    rfl
  · rw [chunkFrame, layout_data _ widths, List.take_of_length_le (by omega)]

/-! ## Storing on the board -/

/-- A chunk past the end of the arena is dropped. -/
theorem handle_chunkFrame (board : Board) (offset : Nat) (aligned : chunkSize ∣ offset)
    (inside : offset + chunkSize ≤ buffer.length) (upper : buffer.length < 2 ^ 32) :
    ∃ next, (handleEthFrame board (chunkFrame host address buffer offset)).board = some next ∧
      next.address = board.address ∧ next.sent = board.sent ∧
      ∀ index, index < arenaSize → next.arena.cells[index]? =
        if offset ≤ index ∧ index < offset + chunkSize then buffer[index]?
        else board.arena.cells[index]? := by
  obtain ⟨frameLength, packet, offsetValue, lengthValue, data⟩ :=
    chunkFrame_fields host address buffer offset inside upper
  by_cases fits : offset + chunkSize ≤ arenaSize
  · obtain ⟨next, result, sameAddress, sameSent, cells⟩ := handleEthFrame_stores board _ packet
      (by rw [lengthValue, frameLength]) (by rw [offsetValue, lengthValue]; exact fits)
      (by rw [frameLength]; decide)
    have dataLength : (window buffer offset chunkSize).length = chunkSize :=
      window_length_of_fits _ _ _ inside
    refine ⟨next, result, sameAddress, sameSent, fun index _ => ?_⟩
    rw [cells, offsetValue, lengthValue, data, splice_getElem? _ _ _ _ (by
      rw [dataLength, board.arena.length_eq]; exact fits), dataLength]
    split
    · rename_i covered
      rw [window_getElem?, if_pos (by omega)]
      congr 1
      omega
    · rfl
  · refine ⟨board, ?_, rfl, rfl, fun index low => ?_⟩
    · refine (handleEthFrame_ignored board _ ?_ ?_ ?_).2.1
      · exact le_trans (by decide) packet.1
      · rintro ⟨_, _, second⟩
        rw [offsetValue, lengthValue] at second
        simp only [wrap32, arenaSize, chunkSize] at second fits inside
        omega
      · intro request
        exact absurd (packet.2.2.symm.trans request.2.2) (by decide)
    · rw [if_neg]
      obtain ⟨i, rfl⟩ := aligned
      simp only [arenaSize, chunkSize] at *
      omega

/-- Whatever order and repetitions the packets come in. -/
theorem deliver_chunkFrames (upper : buffer.length < 2 ^ 32) (delivery : List Frame) (board : Board)
    (only : ∀ frame ∈ delivery,
      frame ∈ (sentOffsets buffer.length).map (chunkFrame host address buffer)) :
    ∃ stored, deliver delivery board = some stored ∧
      stored.address = board.address ∧ stored.sent = board.sent ∧
      (∀ index : Nat, index < arenaSize → board.arena.cells[index]? = buffer[index]? →
        stored.arena.cells[index]? = buffer[index]?) ∧
      ∀ offset ∈ sentOffsets buffer.length, chunkFrame host address buffer offset ∈ delivery →
        ∀ index : Nat, index < arenaSize → offset ≤ index → index < offset + chunkSize →
          stored.arena.cells[index]? = buffer[index]? := by
  induction delivery generalizing board with
  | nil => exact ⟨board, rfl, rfl, rfl, fun _ _ agree => agree, fun _ _ member => by cases member⟩
  | cons frame rest ih =>
      obtain ⟨headOffset, inRange, built⟩ := List.mem_map.mp (only frame (List.mem_cons_self ..))
      have stores (offset : Nat) (member : offset ∈ sentOffsets buffer.length) :=
        handle_chunkFrame host address buffer board offset (mem_sentOffsets member).1
          (mem_sentOffsets member).2 upper
      obtain ⟨next, result, sameAddress, sameSent, cells⟩ := stores headOffset inRange
      rw [built] at result
      obtain ⟨stored, run, restAddress, restSent, kept, covered⟩ := ih next fun other member =>
        only other (List.mem_cons_of_mem _ member)
      refine ⟨stored, ?_, restAddress.trans sameAddress, restSent.trans sameSent, ?_, ?_⟩
      · rw [deliver, result]
        exact run
      · intro index low agree
        apply kept index low
        rw [cells index low]
        split
        · rfl
        · exact agree
      · intro offset member delivered index low start stop
        by_cases later : chunkFrame host address buffer offset ∈ rest
        · exact covered offset member later index low start stop
        · -- the head is this packet, and the rest keeps what it stored
          have headed : chunkFrame host address buffer offset = frame :=
            (List.mem_cons.mp delivered).resolve_right later
          obtain ⟨again, secondResult, _, _, secondCells⟩ := stores offset member
          rw [headed, result] at secondResult
          cases secondResult
          apply kept index low
          rw [secondCells index low, if_pos ⟨start, stop⟩]

end Packets

/-! ## Rebuilding on the host -/

section Replies
variable (board : Board) (host : Mac)

theorem fieldsOf_reply (offset : Nat) (fits : offset + chunkSize ≤ arenaSize) :
    fieldsOf (.packet (memChunkFrame board host.cells offset chunkSize)) =
      .ok (some ⟨macBytes board.address, host.cells, offset,
        window board.arena.cells offset chunkSize⟩) := by
  have frameLength : (memChunkFrame board host.cells offset chunkSize).length ≤ 1536 := by
    have padded := chunk_padded board host offset chunkSize []
    rw [List.append_nil, List.append_nil] at padded
    rw [padded, layout_length _ (chunk_widths board host offset chunkSize),
      window_length_of_fits _ _ _ (by rw [board.arena.length_eq]; exact fits)]
    decide
  have decoded : DecodedExactly board host offset chunkSize [] :=
    (decodedExactly_iff board host offset chunkSize [] fits (by decide)).mpr (Or.inr rfl)
  rw [DecodedExactly, List.append_nil] at decoded
  rw [fieldsOf, List.take_of_length_le frameLength, decoded]

theorem fieldsOf_others (mac : List UInt8) (arrival : Arrival)
    (foreign : FromOthers mac arrival) :
    fieldsOf arrival = .ok none ∨
      ∃ fields, fieldsOf arrival = .ok (some fields) ∧ fields.src ≠ mac := by
  cases arrival with
  | timeout => exact Or.inl rfl
  | packet frame =>
      obtain ⟨size, source⟩ := foreign
      have cut : TestPacket.size ≤ (frame.take 1536).length := by
        rw [List.length_take]
        exact le_min (by decide) size
      rw [fieldsOf, decodeDataPacket_of_header _ cut]
      split
      · right
        refine ⟨_, rfl, ?_⟩
        have bytes : EthHeader.src.bytes (frame.take 1536) = EthHeader.src.bytes frame :=
          window_take frame 1536 6 6 (by omega)
        rw [bytes]
        exact source
      · exact Or.inl rfl

theorem accept_others (host mac : List UInt8) (received : Received) (fields : DataFields)
    (source : fields.src ≠ mac) : accept host mac received fields = received := by
  rw [accept, if_neg fun addressed => source addressed.1]

end Replies

def returned (size : Nat) : Nat := chunkSize * min 16 (size / 1024)

/-- The host takes a reply if it fits what it asked for. -/
def Fitting (size offset : Nat) : Bool := decide (offset + chunkSize ≤ size)

structure Gathering (board : Board) (size : Nat) (missing : List Nat) (received : Received) :
    Prop where
  length : received.buffer.length = size
  counted : received.size + chunkSize * (missing.filter (Fitting size)).length = returned size
  placed : ∀ index, index < size →
    (∀ offset ∈ missing.filter (Fitting size), ¬ (offset ≤ index ∧ index < offset + chunkSize)) →
      received.buffer[index]? =
        if index < returned size then board.arena.cells[index]? else some 0

theorem filter_below (count bound : Nat) :
    (List.range count).filter (fun i => decide (i < bound)) = List.range (min count bound) := by
  induction count with
  | zero => simp
  | succ count ih =>
      rw [List.range_succ, List.filter_append, ih]
      by_cases inside : count < bound
      · rw [Nat.min_eq_left (Nat.le_of_lt inside), Nat.min_eq_left inside, List.range_succ]
        simp [inside]
      · have low : bound ≤ count := Nat.not_lt.mp inside
        rw [Nat.min_eq_right low, Nat.min_eq_right (Nat.le_succ_of_le low)]
        simp [inside]

theorem fitting_chunks (size : Nat) :
    chunkOffsets.filter (Fitting size) =
      (List.range (min 16 (size / 1024))).map fun i => i * chunkSize := by
  have shifted : (Fitting size ∘ fun i => i * chunkSize) = fun i => decide (i < size / 1024) := by
    funext i
    simp only [Fitting, chunkSize, Function.comp_apply]
    exact decide_eq_decide.mpr (by omega)
  rw [chunkOffsets, List.filter_map, shifted, filter_below]
  rfl

section Gathering
variable (board : Board) (host : Mac) (size : Nat)

theorem gathering_start :
    Gathering board size chunkOffsets ⟨List.replicate size 0, 0⟩ := by
  refine ⟨List.length_replicate, ?_, fun index inside uncovered => ?_⟩
  · rw [fitting_chunks, List.length_map, List.length_range, Nat.zero_add, returned]
  · rw [fitting_chunks] at uncovered
    rw [if_neg, List.getElem?_replicate, if_pos inside]
    intro low
    refine uncovered (index / chunkSize * chunkSize)
      (List.mem_map_of_mem (List.mem_range.mpr ?_)) ?_
    · simp only [returned, chunkSize] at low ⊢
      omega
    · simp only [chunkSize]
      omega

variable {board host size}
variable {missing : List Nat} {received : Received}

/-- Once everything asked for is there, no reply is missing that would fit. -/
theorem Gathering.finished (gathering : Gathering board size missing received)
    (complete : received.size = size) : Gathering board size [] received := by
  have counted := gathering.counted
  have none : missing.filter (Fitting size) = [] := by
    apply List.eq_nil_of_length_eq_zero
    simp only [returned, chunkSize] at counted
    omega
  refine ⟨gathering.length, ?_, fun index inside _ => gathering.placed index inside ?_⟩
  · rwa [none] at counted
  · rw [none]
    exact fun offset member => absurd member List.not_mem_nil

theorem accept_chunk (received : Received) (mac : List UInt8) (offset : Nat)
    (fits : offset + chunkSize ≤ arenaSize) :
    accept host.cells mac received
        ⟨mac, host.cells, offset, window board.arena.cells offset chunkSize⟩ =
      if offset + chunkSize ≤ received.buffer.length then
        ⟨splice received.buffer offset (window board.arena.cells offset chunkSize),
          received.size + chunkSize⟩
      else received := by
  have dataLength : (window board.arena.cells offset chunkSize).length = chunkSize :=
    window_length_of_fits _ _ _ (by rw [board.arena.length_eq]; exact fits)
  rw [accept, if_pos ⟨rfl, rfl⟩]
  simp only [dataLength]

theorem Gathering.reply (gathering : Gathering board size missing received) (offset : Nat)
    (inside : offset ∈ missing) (known : offset ∈ chunkOffsets) :
    Gathering board size (missing.erase offset)
      (accept host.cells (macBytes board.address) received
        ⟨macBytes board.address, host.cells, offset,
          window board.arena.cells offset chunkSize⟩) := by
  have fits := chunkOffsets_fit offset known
  have split := ((List.perm_cons_erase inside).filter (Fitting size))
  rw [accept_chunk received (macBytes board.address) offset fits, gathering.length]
  by_cases wanted : offset + chunkSize ≤ size
  · have chosen : Fitting size offset = true := decide_eq_true wanted
    rw [if_pos wanted]
    rw [List.filter_cons_of_pos chosen] at split
    have dataLength : (window board.arena.cells offset chunkSize).length = chunkSize :=
      window_length_of_fits _ _ _ (by rw [board.arena.length_eq]; exact fits)
    have room : offset + (window board.arena.cells offset chunkSize).length ≤
        received.buffer.length := by
      rw [dataLength, gathering.length]
      exact wanted
    have low : offset + chunkSize ≤ returned size := by
      have member : offset ∈ chunkOffsets.filter (Fitting size) :=
        List.mem_filter.mpr ⟨known, chosen⟩
      rw [fitting_chunks] at member
      obtain ⟨i, below, rfl⟩ := List.mem_map.mp member
      rw [List.mem_range] at below
      simp only [returned, chunkSize]
      omega
    refine ⟨?_, ?_, fun index below uncovered => ?_⟩
    · rw [splice_length _ _ _ room, gathering.length]
    · have counted := gathering.counted
      rw [split.length_eq, List.length_cons] at counted
      simp only [chunkSize] at counted ⊢
      omega
    · rw [splice_getElem? _ _ _ _ room, dataLength]
      by_cases covered : offset ≤ index ∧ index < offset + chunkSize
      · rw [if_pos covered, if_pos (by omega), window_getElem?, if_pos (by omega)]
        congr 1
        omega
      · rw [if_neg covered]
        refine gathering.placed index below fun other member covers => ?_
        rcases List.mem_cons.mp (split.subset member) with same | rest
        · exact covered (same ▸ covers)
        · exact uncovered other rest covers
  · have refused : Fitting size offset = false := decide_eq_false wanted
    rw [if_neg wanted]
    rw [List.filter_cons_of_neg (by simp [refused])] at split
    refine ⟨gathering.length, ?_, fun index below uncovered => ?_⟩
    · rw [← split.length_eq]
      exact gathering.counted
    · exact gathering.placed index below fun other member =>
        uncovered other (split.subset member)

theorem gather_reply (gathering : Gathering board size missing received) (offset : Nat)
    (inside : offset ∈ missing) (known : offset ∈ chunkOffsets) (rest : List Arrival)
    (gathered : ∀ next, Gathering board size (missing.erase offset) next →
      ∃ final, receiveLoop host.cells (macBytes board.address) size rest next = .ok final ∧
        Gathering board size [] final) :
    ∃ final, receiveLoop host.cells (macBytes board.address) size
        (.packet (memChunkFrame board host.cells offset chunkSize) :: rest) received = .ok final ∧
      Gathering board size [] final := by
  have after := @Gathering.reply board host size missing received gathering offset inside known
  rw [receiveLoop, fieldsOf_reply board host offset (chunkOffsets_fit offset known), ok_bind]
  dsimp only
  split
  · rename_i complete
    exact ⟨_, rfl, after.finished complete⟩
  · exact gathered _ after

theorem gather_other (gathering : Gathering board size missing received) (arrival : Arrival)
    (foreign : FromOthers (macBytes board.address) arrival) (rest : List Arrival)
    (gathered : ∃ final,
      receiveLoop host.cells (macBytes board.address) size rest received = .ok final ∧
        Gathering board size [] final) :
    ∃ final, receiveLoop host.cells (macBytes board.address) size (arrival :: rest) received =
        .ok final ∧ Gathering board size [] final := by
  rcases fieldsOf_others _ arrival foreign with nothing | ⟨fields, decoded, source⟩
  · rw [receiveLoop, nothing, ok_bind]
    exact gathered
  · rw [receiveLoop, decoded, ok_bind]
    simp only [accept_others host.cells _ received fields source]
    split
    · rename_i complete
      exact ⟨_, rfl, gathering.finished complete⟩
    · exact gathered

/-- To its time limit, or until everything asked for is there. -/
theorem gather_loop (others : List Arrival)
    (foreign : ∀ arrival ∈ others, FromOthers (macBytes board.address) arrival)
    (missing : List Nat) (known : ∀ offset ∈ missing, offset ∈ chunkOffsets)
    (arrivals : List Arrival) (received : Received)
    (mixed : arrivals.Perm (missing.map (fun offset =>
      Arrival.packet (memChunkFrame board host.cells offset chunkSize)) ++ others))
    (gathering : Gathering board size missing received) :
    ∃ final, receiveLoop host.cells (macBytes board.address) size arrivals received = .ok final ∧
      Gathering board size [] final := by
  induction arrivals generalizing others missing received with
  | nil =>
      have nothing := mixed.symm.eq_nil
      rw [List.append_eq_nil_iff, List.map_eq_nil_iff] at nothing
      exact ⟨received, rfl, nothing.1 ▸ gathering⟩
  | cons arrival rest ih =>
      rcases List.mem_append.mp (mixed.subset (List.mem_cons_self ..)) with reply | other
      · obtain ⟨offset, inside, rfl⟩ := List.mem_map.mp reply
        have front := ((List.perm_cons_erase inside).map fun offset =>
          Arrival.packet (memChunkFrame board host.cells offset chunkSize)).append_right others
        exact gather_reply gathering offset inside (known offset inside) rest fun next after =>
          ih others foreign (missing.erase offset)
            (fun other member => known other (List.mem_of_mem_erase member)) next
            (mixed.trans front).cons_inv after
      · have front := (List.perm_cons_erase other).append_left (missing.map fun offset =>
          Arrival.packet (memChunkFrame board host.cells offset chunkSize))
        exact gather_other gathering arrival (foreign arrival other) rest
          (ih (others.erase arrival)
            (fun arrival member => foreign arrival (List.mem_of_mem_erase member)) missing known
            received ((mixed.trans front).trans List.perm_middle).cons_inv gathering)

end Gathering

/-! ## The whole exchange -/

theorem request_recognised (host : Mac) (address : Nat) :
    IsRequest (makeDataRequest host.cells (macBytes address)) ∧
      EthHeader.src.bytes (makeDataRequest host.cells (macBytes address)) = host.cells := by
  have widths : Widths (pack6s (macBytes address)) (pack6s host.cells) (bigEndian 2 etherType)
      (bigEndian 2 opcodeReq) (bigEndian 4 0) (bigEndian 4 0) :=
    ⟨rfl, by rw [pack6s_mac, host.length_eq], bigEndian_length .., bigEndian_length ..,
      bigEndian_length .., bigEndian_length ..⟩
  obtain ⟨_, source, type, opcode, _, _⟩ := layout_fields [] widths
  refine ⟨⟨?_, ?_, ?_⟩, ?_⟩
  · rw [makeDataRequest, layout_length _ widths]
    exact Nat.le_add_right _ _
  · rw [Field.value, makeDataRequest, type, ofBigEndian_bigEndian]
    rfl
  · rw [Field.value, makeDataRequest, opcode, ofBigEndian_bigEndian]
    rfl
  · rw [makeDataRequest, source, pack6s_mac]

theorem reply_length (board : Board) (host : Mac) :
    ∀ frame ∈ replies board host.cells, frame.length = TestPacket.size + chunkSize := by
  intro frame member
  obtain ⟨offset, inside, rfl⟩ := List.mem_map.mp member
  have fits := chunkOffsets_fit offset inside
  rw [memChunkFrame, layout_length _ (chunk_widths board host offset chunkSize),
    window_length_of_fits _ _ _ (by rw [board.arena.length_eq]; exact fits)]

/-- What a delivery of every packet leaves on the board, what the board answers, and what the
host has gathered of the answer in the end. -/
theorem exchange (host : Mac) (buffer : List UInt8) (upper : buffer.length < 2 ^ 32) (board : Board)
    (delivery : List Frame)
    (each : ∀ frame ∈ (sentOffsets buffer.length).map (chunkFrame host board.address buffer),
      frame ∈ delivery)
    (only : ∀ frame ∈ delivery,
      frame ∈ (sentOffsets buffer.length).map (chunkFrame host board.address buffer)) :
    ∃ stored, deliver delivery board = some stored ∧
      (∀ index, index < returned buffer.length →
        stored.arena.cells[index]? = buffer[index]?) ∧
      (handleEthFrame stored (makeDataRequest host.cells (macBytes board.address))).board =
        some { stored with sent := stored.sent ++ replies stored host.cells } ∧
      ∀ others arrivals : List Arrival,
        (∀ arrival ∈ others, FromOthers (macBytes board.address) arrival) →
        arrivals.Perm ((replies stored host.cells).map Arrival.packet ++ others) →
        ∃ final, receiveBuffer host.cells (macBytes board.address) buffer.length arrivals =
            .ok final ∧
          Gathering stored buffer.length [] final := by
  obtain ⟨stored, delivered, sameAddress, _, _, covered⟩ :=
    deliver_chunkFrames host board.address buffer upper delivery board only
  obtain ⟨request, source⟩ := request_recognised host board.address
  refine ⟨stored, delivered, fun index low => ?_, ?_, fun others arrivals foreign mixed => ?_⟩
  · simp only [returned, chunkSize] at low
    have inside : index < chunkSize * (buffer.length / 1024) := by
      simp only [chunkSize]
      omega
    obtain ⟨offset, member, start, stop⟩ := sentOffsets_cover inside
    exact covered offset member (each _ (List.mem_map_of_mem member)) index
      (by simp only [arenaSize]; omega) start stop
  · rw [handleEthFrame_request stored _ request, source, sendArena_eq]
  · rw [← sameAddress] at foreign ⊢
    rw [replies, List.map_map] at mixed
    exact gather_loop others foreign chunkOffsets (fun _ member => member) arrivals _ mixed
      (gathering_start stored buffer.length)

/-- Of a buffer as large as the arena all comes back. -/
theorem Gathering.whole {board : Board} {final : Received}
    (gathering : Gathering board arenaSize [] final) : final = ⟨board.arena.cells, arenaSize⟩ := by
  obtain ⟨length, counted, placed⟩ := gathering
  obtain ⟨buffer, size⟩ := final
  have all : returned arenaSize = arenaSize := rfl
  rw [all] at counted placed
  refine congrArg₂ Received.mk (List.ext_getElem? fun index => ?_) counted
  by_cases inside : index < arenaSize
  · rw [placed index inside (fun _ member => absurd member List.not_mem_nil), if_pos inside]
  · rw [List.getElem?_eq_none (by rw [length]; omega),
      List.getElem?_eq_none (by rw [board.arena.length_eq]; omega)]

/-- Every packet at least once in any order fills the arena, and the replies to
the request rebuild the buffer whatever else arrives between them. -/
theorem transfer_end_to_end (buffer : Region UInt8 arenaSize) (board : Board) (host : Mac)
    (packets delivery : List Frame)
    (built : hostPackets host.cells (macBytes board.address) buffer.cells = .ok packets)
    (each : ∀ frame ∈ packets, frame ∈ delivery)
    (only : ∀ frame ∈ delivery, frame ∈ packets) :
    packets.length = 16 ∧
    ∃ stored, deliver delivery board = some stored ∧ stored.arena = buffer ∧
    ∃ answered emitted,
      (handleEthFrame stored (makeDataRequest host.cells (macBytes board.address))).board =
        some answered ∧
      answered.sent = stored.sent ++ emitted ∧ emitted.length = 16 ∧
      (∀ frame ∈ emitted, frame.length = TestPacket.size + chunkSize) ∧
      ∀ others arrivals : List Arrival,
        (∀ arrival ∈ others, FromOthers (macBytes board.address) arrival) →
        arrivals.Perm (emitted.map Arrival.packet ++ others) →
        receiveBuffer host.cells (macBytes board.address) arenaSize arrivals =
          .ok ⟨buffer.cells, arenaSize⟩ := by
  have upper : buffer.cells.length < 2 ^ 32 := by
    rw [buffer.length_eq]
    decide
  rw [hostPackets, sendingLoop_eq host board.address buffer.cells upper] at built
  cases built
  obtain ⟨stored, delivered, kept, answered, rebuilt⟩ :=
    exchange host buffer.cells upper board delivery each only
  rw [buffer.length_eq] at kept rebuilt
  have filled : stored.arena = buffer := by
    refine Region.ext (List.ext_getElem? fun index => ?_)
    by_cases inside : index < arenaSize
    · exact kept index inside
    · rw [List.getElem?_eq_none (by rw [stored.arena.length_eq]; omega),
        List.getElem?_eq_none (by rw [buffer.length_eq]; omega)]
  refine ⟨by rw [buffer.length_eq]; rfl, stored, delivered, filled, _,
    replies stored host.cells, answered, rfl, rfl, reply_length stored host, ?_⟩
  intro others arrivals foreign mixed
  obtain ⟨final, run, gathering⟩ := rebuilt others arrivals foreign mixed
  rw [run, gathering.whole, filled]

/-- The replies come in the reverse order, behind a packet of another station and a timeout. -/
theorem transfer_sevens :
    ∃ (packets emitted : List Frame) (stored answered : Board),
      hostPackets broadcast.cells (macBytes emptyBoard.address)
        (Region.filled arenaSize 7 : Region UInt8 arenaSize).cells = .ok packets ∧
      deliver packets emptyBoard = some stored ∧ stored.arena = Region.filled arenaSize 7 ∧
      (handleEthFrame stored
        (makeDataRequest broadcast.cells (macBytes emptyBoard.address))).board = some answered ∧
      answered.sent = stored.sent ++ emitted ∧
      receiveBuffer broadcast.cells (macBytes emptyBoard.address) arenaSize
          (.packet storedFrame :: .timeout :: emitted.reverse.map Arrival.packet) =
        .ok ⟨(Region.filled arenaSize 7 : Region UInt8 arenaSize).cells, arenaSize⟩ := by
  obtain ⟨packets, built⟩ : ∃ packets, hostPackets broadcast.cells (macBytes emptyBoard.address)
      (Region.filled arenaSize 7 : Region UInt8 arenaSize).cells = .ok packets :=
    ⟨_, sendingLoop_eq broadcast emptyBoard.address _ (by rw [Region.length_eq]; decide)⟩
  obtain ⟨_, stored, delivered, filled, answered, emitted, answer, sent, _, _, rebuilt⟩ :=
    transfer_end_to_end (Region.filled arenaSize 7) emptyBoard broadcast packets packets built
      (fun _ member => member) (fun _ member => member)
  refine ⟨packets, emitted, stored, answered, built, delivered, filled, answer, sent,
    rebuilt [.packet storedFrame, .timeout] _ ?_ ?_⟩
  · intro arrival member
    rcases List.mem_pair.mp member with rfl | rfl
    · exact ⟨by decide, by decide⟩
    · trivial
  · exact (((List.reverse_perm emitted).map Arrival.packet).append_left
      [.packet storedFrame, .timeout]).trans List.perm_append_comm

end HalmExamples.EthRaw
