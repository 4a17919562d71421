import HalmExamples.EthRaw.Device

/-!
# Memory accesses of the receiver

Both length guards of `handleEthFrame` add two 32-bit fields of the frame in
the wrapping arithmetic of the target.  The accesses stay inside the frame and
the arena exactly when the arena sum does not wrap on a frame that gets past
the guards.
-/

set_option autoImplicit false

namespace HalmExamples.EthRaw

open Foundation

/-- Ranges are taken over the unbounded integers. -/
structure MemorySafe (board : Board) (frame : Frame) : Prop where
  loads_inside : ∀ field ∈ (handleEthFrame board frame).loads,
    field.index + field.width ≤ frame.length
  copies_decoded : ∀ copy ∈ (handleEthFrame board frame).copies, copy = chunkCopy frame
  source_inside : ∀ copy ∈ (handleEthFrame board frame).copies,
    copy.source + copy.count ≤ frame.length
  destination_inside : ∀ copy ∈ (handleEthFrame board frame).copies,
    copy.destination + copy.count ≤ arenaSize
  other_bytes_kept : ∃ next, (handleEthFrame board frame).board = some next ∧
    ∀ index, (∀ copy ∈ (handleEthFrame board frame).copies,
        ¬ (copy.destination ≤ index ∧ index < copy.destination + copy.count)) →
      next.arena.cells[index]? = board.arena.cells[index]?

/-- A data packet whose offset and length add up to at most `ARENA_SIZE` only
because the sum wraps, and whose length either fits the frame or makes the
first guard wrap as well. -/
def WrapsPastGuards (frame : Frame) : Prop :=
  IsDataPacket frame ∧
    2 ^ 32 ≤ TestPacket.offset.value frame + TestPacket.length.value frame ∧
    TestPacket.offset.value frame + TestPacket.length.value frame ≤ 2 ^ 32 + arenaSize ∧
    (TestPacket.size + TestPacket.length.value frame ≤ frame.length ∨
      2 ^ 32 ≤ TestPacket.size + TestPacket.length.value frame)

instance (frame : Frame) : Decidable (WrapsPastGuards frame) :=
  inferInstanceAs (Decidable (_ ∧ _ ∧ _ ∧ _))

theorem dataLoads_inside (frame : Frame) (size : TestPacket.size ≤ frame.length) :
    ∀ field ∈ dataLoads, field.index + field.width ≤ frame.length := by
  have layout : ∀ field ∈ dataLoads, field.index + field.width ≤ TestPacket.size := by decide
  exact fun field member => le_trans (layout field member) size

/-- Past the guards either one of the sums wrapped or both ranges fit. -/
theorem ranges_of_guards (frame : Frame) (packet : IsDataPacket frame)
    (guards : GuardsPass frame) (straight : ¬ WrapsPastGuards frame) :
    TestPacket.size + TestPacket.length.value frame ≤ frame.length ∧
      TestPacket.offset.value frame + TestPacket.length.value frame ≤ arenaSize := by
  have offsetBound := offset_lt frame packet.1
  have lengthBound := length_lt frame packet.1
  have noWrap : ¬ (2 ^ 32 ≤ TestPacket.offset.value frame + TestPacket.length.value frame ∧
      TestPacket.offset.value frame + TestPacket.length.value frame ≤ 2 ^ 32 + arenaSize ∧
      (TestPacket.size + TestPacket.length.value frame ≤ frame.length ∨
        2 ^ 32 ≤ TestPacket.size + TestPacket.length.value frame)) :=
    fun wraps => straight ⟨packet, wraps⟩
  obtain ⟨first, second⟩ := guards
  simp only [wrap32, arenaSize, TestPacket.size] at *
  omega

theorem guards_of_wrap (frame : Frame) (wraps : WrapsPastGuards frame) : GuardsPass frame := by
  obtain ⟨packet, low, high, first⟩ := wraps
  have lengthBound := length_lt frame packet.1
  have size := packet.1
  simp only [GuardsPass, wrap32, arenaSize, TestPacket.size] at *
  omega

theorem memcpyToArena_inside (arena : Region UInt8 arenaSize) (frame : Frame) (copy : Copy)
    (source : copy.source + copy.count ≤ frame.length)
    (destination : copy.destination + copy.count ≤ arenaSize) :
    ∃ written, memcpyToArena arena frame copy = some written ∧
      written.cells =
        splice arena.cells copy.destination (window frame copy.source copy.count) := by
  have exactLength := window_length_of_fits frame copy.source copy.count source
  rw [memcpyToArena, if_pos source]
  exact arena.write?_eq_some _ _ (by rw [exactLength]; exact destination)

/-- A data packet whose two ranges fit is copied into the arena. -/
theorem handleEthFrame_stores (board : Board) (frame : Frame) (packet : IsDataPacket frame)
    (source : TestPacket.size + TestPacket.length.value frame ≤ frame.length)
    (destination : TestPacket.offset.value frame + TestPacket.length.value frame ≤ arenaSize)
    (frameBound : frame.length < 2 ^ 32) :
    ∃ next, (handleEthFrame board frame).board = some next ∧
      next.address = board.address ∧ next.sent = board.sent ∧
      next.arena.cells = splice board.arena.cells (TestPacket.offset.value frame)
        (window frame TestPacket.size (TestPacket.length.value frame)) := by
  have guards : GuardsPass frame := by
    simp only [GuardsPass, wrap32, arenaSize, TestPacket.size] at *
    omega
  obtain ⟨written, copied, cells⟩ :=
    memcpyToArena_inside board.arena frame (chunkCopy frame) source destination
  rw [handleEthFrame_copy board frame packet guards, copied]
  exact ⟨_, rfl, rfl, rfl, cells⟩

theorem memory_safe_of_no_copy (board next : Board) (frame : Frame)
    (loads : ∀ field ∈ (handleEthFrame board frame).loads,
      field.index + field.width ≤ frame.length)
    (copies : (handleEthFrame board frame).copies = [])
    (result : (handleEthFrame board frame).board = some next)
    (same : next.arena = board.arena) : MemorySafe board frame := by
  refine ⟨loads, ?_, ?_, ?_, next, result, ?_⟩
  · simp [copies]
  · simp [copies]
  · simp [copies]
  · intro index _
    rw [same]

theorem memory_safe_of_copy (board : Board) (frame : Frame) (upper : frame.length < 2 ^ 32)
    (packet : IsDataPacket frame) (guards : GuardsPass frame)
    (straight : ¬ WrapsPastGuards frame) : MemorySafe board frame := by
  obtain ⟨source, destination⟩ := ranges_of_guards frame packet guards straight
  obtain ⟨next, result, _, _, cells⟩ :=
    handleEthFrame_stores board frame packet source destination upper
  have call := handleEthFrame_copy board frame packet guards
  refine ⟨?_, ?_, ?_, ?_, next, result, ?_⟩
  · rw [call]
    exact dataLoads_inside frame packet.1
  · simp [call]
  · simpa [call, chunkCopy] using source
  · simpa [call, chunkCopy] using destination
  · intro index outside
    have far : ¬ (TestPacket.offset.value frame ≤ index ∧
        index < TestPacket.offset.value frame + TestPacket.length.value frame) :=
      outside (chunkCopy frame) (by simp [call])
    have exactLength := window_length_of_fits frame TestPacket.size
      (TestPacket.length.value frame) source
    rw [cells, splice_getElem? _ _ _ _ (by
      rw [exactLength, board.arena.length_eq]; exact destination), exactLength, if_neg far]

/-- Where the arena sum does not wrap past the guards, a call is safe, whatever it does. -/
theorem memory_safe_of_straight (board : Board) (frame : Frame)
    (header : EthHeader.size ≤ frame.length) (frameBound : frame.length < 2 ^ 32)
    (straight : ¬ WrapsPastGuards frame) : MemorySafe board frame := by
  by_cases copied : IsDataPacket frame ∧ GuardsPass frame
  · exact memory_safe_of_copy board frame frameBound copied.1 copied.2 straight
  · by_cases request : IsRequest frame
    · have call := handleEthFrame_request board frame request
      have result : (handleEthFrame board frame).board = some { board with
          sent := board.sent ++ replies board (EthHeader.src.bytes frame) } := by
        rw [call, sendArena_eq]
      refine memory_safe_of_no_copy board _ frame ?_ (by rw [call]) result rfl
      have layout : ∀ field ∈ [EthHeader.type, TestPacket.opcode, EthHeader.src],
          field.index + field.width ≤ TestPacket.size := by decide
      rw [call]
      exact fun field member => le_trans (layout field member) request.1
    · obtain ⟨copies, result, loads⟩ :=
        handleEthFrame_ignored board frame header copied request
      refine memory_safe_of_no_copy board board frame ?_ copies result rfl
      intro field member
      rcases loads field member with rfl | ⟨inData, size⟩
      · exact header
      · exact dataLoads_inside frame size field inData

theorem handleEthFrame_memory_safe_iff (board : Board) (frame : Frame)
    (header : EthHeader.size ≤ frame.length) (upper : frame.length ≤ boardEthBuffer) :
    MemorySafe board frame ↔ ¬ WrapsPastGuards frame := by
  have frameBound : frame.length < 2 ^ 32 := lt_of_le_of_lt upper (by decide)
  constructor
  · intro safe wraps
    have call := handleEthFrame_copy board frame wraps.1 (guards_of_wrap frame wraps)
    have inside : TestPacket.offset.value frame + TestPacket.length.value frame ≤ arenaSize :=
      safe.destination_inside (chunkCopy frame) (by simp [call])
    have wrapped := wraps.2.1
    simp only [arenaSize] at inside
    omega
  · exact memory_safe_of_straight board frame header frameBound

def emptyBoard : Board := ⟨0x5E45A26C301E, Region.filled arenaSize 0, []⟩

/-- A data packet of four bytes for position 16 of the arena. -/
def storedFrame : Frame :=
  List.replicate 12 0 ++ [0x90, 0x00, 0x00, 0x01, 0x00, 0x00, 0x00, 0x10,
    0x00, 0x00, 0x00, 0x04, 0xDE, 0xAD, 0xBE, 0xEF]

theorem handleEthFrame_memory_safe_stored :
    (handleEthFrame emptyBoard storedFrame).copies = [⟨16, 24, 4⟩] ∧
      MemorySafe emptyBoard storedFrame :=
  ⟨rfl, (handleEthFrame_memory_safe_iff emptyBoard storedFrame (by decide) (by decide)).mpr
    (by decide)⟩

/-- A packet with payload length `2^32 - 8` and offset `16`: both guard sums
wrap, to `16` and to `8`. -/
def wrappingFrame : Frame :=
  List.replicate 12 0 ++ [0x90, 0x00, 0x00, 0x01, 0x00, 0x00, 0x00, 0x10,
    0xFF, 0xFF, 0xFF, 0xF8]

theorem wrappingFrame_unsafe :
    EthHeader.size ≤ wrappingFrame.length ∧ wrappingFrame.length ≤ boardEthBuffer ∧
      (handleEthFrame emptyBoard wrappingFrame).copies = [⟨16, 24, 4294967288⟩] ∧
      ¬ MemorySafe emptyBoard wrappingFrame := by
  have call : (handleEthFrame emptyBoard wrappingFrame).copies = [⟨16, 24, 4294967288⟩] := by
    have wraps : WrapsPastGuards wrappingFrame := by decide
    rw [handleEthFrame_copy emptyBoard wrappingFrame wraps.1 (guards_of_wrap wrappingFrame wraps)]
    decide
  refine ⟨by decide, by decide, call, fun safe => ?_⟩
  have inside := safe.destination_inside ⟨16, 24, 4294967288⟩ (by rw [call]; simp)
  revert inside
  decide

end HalmExamples.EthRaw
