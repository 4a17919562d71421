import HalmExamples.EthRaw.Host
import HalmExamples.EthRaw.Safety

/-!
# What the board sends, read by both decoders

`sendMemChunk` stores the payload length in the order of the target while both
decoders read it in network order.  Every other field arrives as it was sent.
The swapped length of a nonempty chunk exceeds every frame and the arena, so
the host takes all that follows the header and a second board takes nothing.
-/

set_option autoImplicit false

namespace HalmExamples.EthRaw

open Foundation Foundation.ByteOrder

/-! ## The fields of an emitted frame -/

section Chunk
variable (board : Board) (mac : Mac) (offset length : Nat) (padding : List UInt8)

theorem chunk_widths :
    Widths mac.cells (macBytes board.address) (littleEndian 2 (toBigEndian16 etherType))
      (littleEndian 2 (toBigEndian16 opcodeBuf)) (littleEndian 4 (toBigEndian32 offset))
      (littleEndian 4 length) :=
  ⟨mac.length_eq, macBytes_length _, littleEndian_length .., littleEndian_length ..,
    littleEndian_length .., littleEndian_length ..⟩

theorem chunk_padded :
    memChunkFrame board mac.cells offset length ++ padding =
      TestPacket.layout mac.cells (macBytes board.address)
        (littleEndian 2 (toBigEndian16 etherType)) (littleEndian 2 (toBigEndian16 opcodeBuf))
        (littleEndian 4 (toBigEndian32 offset)) (littleEndian 4 length)
        (window board.arena.cells offset length ++ padding) := by
  rw [memChunkFrame, layout_append]

theorem stored_network_order (width value : Nat) :
    ofBigEndian (littleEndian width (byteSwap width value)) = value % 256 ^ width := by
  rw [littleEndian_byteSwap, ofBigEndian_bigEndian]

theorem chunk_size :
    TestPacket.size ≤ (memChunkFrame board mac.cells offset length ++ padding).length := by
  rw [chunk_padded, layout_length _ (chunk_widths board mac offset length)]
  omega

theorem chunk_src :
    EthHeader.src.bytes (memChunkFrame board mac.cells offset length ++ padding) =
      macBytes board.address := by
  rw [chunk_padded]
  exact (layout_fields _ (chunk_widths board mac offset length)).2.1

theorem chunk_dst :
    EthHeader.dst.bytes (memChunkFrame board mac.cells offset length ++ padding) =
      mac.cells := by
  rw [chunk_padded]
  exact (layout_fields _ (chunk_widths board mac offset length)).1

theorem chunk_packet :
    IsDataPacket (memChunkFrame board mac.cells offset length ++ padding) := by
  obtain ⟨_, _, type, opcode, _, _⟩ := layout_fields
    (window board.arena.cells offset length ++ padding) (chunk_widths board mac offset length)
  rw [← chunk_padded] at type opcode
  refine ⟨chunk_size board mac offset length padding, ?_, ?_⟩
  · rw [Field.value, type]
    exact stored_network_order 2 etherType
  · rw [Field.value, opcode]
    exact stored_network_order 2 opcodeBuf

theorem chunk_offset (bound : offset < 2 ^ 32) :
    TestPacket.offset.value (memChunkFrame board mac.cells offset length ++ padding) =
      offset := by
  have fields := layout_fields
    (window board.arena.cells offset length ++ padding) (chunk_widths board mac offset length)
  rw [Field.value, chunk_padded, fields.2.2.2.2.1]
  exact (stored_network_order 4 offset).trans (Nat.mod_eq_of_lt bound)

theorem chunk_length :
    TestPacket.length.value (memChunkFrame board mac.cells offset length ++ padding) =
      byteSwap 4 length := by
  have fields := layout_fields
    (window board.arena.cells offset length ++ padding) (chunk_widths board mac offset length)
  rw [Field.value, chunk_padded, fields.2.2.2.2.2, ofBigEndian, byteSwap, bigEndian]

theorem chunk_data (count : Nat) :
    window (memChunkFrame board mac.cells offset length ++ padding) TestPacket.size count =
      (window board.arena.cells offset length ++ padding).take count := by
  rw [chunk_padded]
  exact layout_data _ (chunk_widths board mac offset length) count

end Chunk

/-- A swapped 16-bit length is zero or has its two low bytes clear. -/
theorem byteSwap_short (length : Nat) (positive : 0 < length) (short : length < 2 ^ 16) :
    2 ^ 16 ≤ byteSwap 4 length ∧ byteSwap 4 length + 2 ^ 16 ≤ 2 ^ 32 := by
  have expanded : byteSwap 4 length = length / 256 / 256 / 256 % 256 +
      256 * (length / 256 / 256 % 256 + 256 * (length / 256 % 256 + 256 * (length % 256))) := by
    simp [byteSwap, bigEndian, littleEndian, ofLittleEndian, UInt8.toNat_ofNat']
  have high : length / 256 / 256 = 0 := by omega
  rw [high] at expanded
  omega

/-! ## The two receivers -/

section Receivers
variable (board other : Board) (mac : Mac) (offset length : Nat) (padding : List UInt8)

def DecodedExactly : Prop :=
  decodeDataPacket (memChunkFrame board mac.cells offset length ++ padding) =
    .ok (some ⟨macBytes board.address, mac.cells, offset,
      window board.arena.cells offset length⟩)

def StoredExactly : Prop :=
  ∃ next,
    (handleEthFrame other (memChunkFrame board mac.cells offset length ++ padding)).board =
      some next ∧
    ∀ index, next.arena.cells[index]? =
      if offset ≤ index ∧ index < offset + length then board.arena.cells[index]?
      else other.arena.cells[index]?

theorem decode_chunk (bound : offset < 2 ^ 32) :
    decodeDataPacket (memChunkFrame board mac.cells offset length ++ padding) =
      .ok (some ⟨macBytes board.address, mac.cells, offset,
        (window board.arena.cells offset length ++ padding).take (byteSwap 4 length)⟩) := by
  have packet := chunk_packet board mac offset length padding
  rw [decodeDataPacket_of_header _ packet.1, if_pos packet.2, chunk_src, chunk_dst,
    chunk_offset board mac offset length padding bound, chunk_length, chunk_data]

theorem decodedExactly_iff (inArena : offset + length ≤ arenaSize)
    (inFrame : TestPacket.size + length ≤ boardEthBuffer) :
    DecodedExactly board mac offset length padding ↔ length = 0 ∨ padding = [] := by
  simp only [arenaSize, TestPacket.size, boardEthBuffer] at inArena inFrame
  have chunkLength : (window board.arena.cells offset length).length = length :=
    window_length_of_fits _ _ _ (by rw [board.arena.length_eq]; exact inArena)
  rw [DecodedExactly, decode_chunk board mac offset length padding (by omega)]
  simp only [Except.ok.injEq, Option.some.injEq, DataFields.mk.injEq, true_and]
  constructor
  · intro same
    by_cases empty : length = 0
    · exact Or.inl empty
    · right
      have swapped := byteSwap_short length (by omega) (by omega)
      have lengths := congrArg List.length same
      rw [List.length_take, List.length_append, chunkLength] at lengths
      exact List.eq_nil_of_length_eq_zero (by omega)
  · rintro (empty | unpadded)
    · subst length
      simp [byteSwap, bigEndian, littleEndian, ofLittleEndian, window]
    · subst padding
      rw [List.append_nil]
      apply List.take_of_length_le
      rw [chunkLength]
      by_cases empty : length = 0
      · omega
      · have swapped := byteSwap_short length (by omega) (by omega)
        omega

/-- A second board drops every nonempty chunk, however it is padded. -/
theorem handle_chunk_dropped (inArena : offset + length ≤ arenaSize)
    (inFrame : TestPacket.size + length ≤ boardEthBuffer) (nonempty : length ≠ 0) :
    (handleEthFrame other (memChunkFrame board mac.cells offset length ++ padding)).board =
      some other := by
  simp only [arenaSize, TestPacket.size, boardEthBuffer] at inArena inFrame
  have packet := chunk_packet board mac offset length padding
  have header : EthHeader.size ≤
      (memChunkFrame board mac.cells offset length ++ padding).length :=
    le_trans (by decide) packet.1
  have swapped := byteSwap_short length (by omega) (by omega)
  refine (handleEthFrame_ignored other _ header ?_ ?_).2.1
  · rintro ⟨_, _, second⟩
    rw [chunk_offset board mac offset length padding (by omega), chunk_length] at second
    simp only [wrap32, arenaSize] at second
    omega
  · intro request
    exact absurd (packet.2.2.symm.trans request.2.2) (by decide)

theorem handle_chunk_empty (inArena : offset ≤ arenaSize) :
    ∃ next,
      (handleEthFrame other (memChunkFrame board mac.cells offset 0 ++ padding)).board =
        some next ∧ next.arena.cells = other.arena.cells := by
  have packet := chunk_packet board mac offset 0 padding
  have offsetValue := chunk_offset board mac offset 0 padding
    (lt_of_le_of_lt inArena (by decide))
  have lengthValue : TestPacket.length.value
      (memChunkFrame board mac.cells offset 0 ++ padding) = 0 := by
    rw [chunk_length]
    decide
  have guards : GuardsPass (memChunkFrame board mac.cells offset 0 ++ padding) := by
    rw [GuardsPass, offsetValue, lengthValue]
    exact ⟨packet.1, le_trans (Nat.mod_le _ _) inArena⟩
  have straight : ¬ WrapsPastGuards (memChunkFrame board mac.cells offset 0 ++ padding) := by
    rintro ⟨_, wrapped, _, _⟩
    rw [offsetValue, lengthValue] at wrapped
    simp only [arenaSize] at inArena
    omega
  obtain ⟨source, destination⟩ := ranges_of_guards _ packet guards straight
  obtain ⟨written, copied, cells⟩ :=
    memcpyToArena_inside other.arena _ (chunkCopy _) source destination
  rw [handleEthFrame_copy other _ packet guards, copied]
  refine ⟨_, rfl, cells.trans ?_⟩
  simp [chunkCopy, lengthValue, window, splice]

theorem storedExactly_iff (inArena : offset + length ≤ arenaSize)
    (inFrame : TestPacket.size + length ≤ boardEthBuffer) :
    StoredExactly board other mac offset length padding ↔
      length = 0 ∨
        window other.arena.cells offset length = window board.arena.cells offset length := by
  by_cases empty : length = 0
  · subst length
    obtain ⟨next, result, cells⟩ := handle_chunk_empty board other mac offset padding inArena
    have stored : StoredExactly board other mac offset 0 padding := by
      refine ⟨next, result, fun index => ?_⟩
      rw [cells, if_neg (by omega)]
    exact iff_of_true stored (Or.inl rfl)
  · have dropped := handle_chunk_dropped board other mac offset length padding inArena
      inFrame empty
    rw [StoredExactly, dropped, window_eq_iff]
    constructor
    · rintro ⟨next, same, cells⟩
      cases same
      right
      intro index low high
      rw [cells index, if_pos ⟨low, high⟩]
    · intro agree
      refine ⟨other, rfl, fun index => ?_⟩
      split
      · rename_i inside
        exact (agree.resolve_left empty) index inside.1 inside.2
      · rfl

end Receivers

/-- The frame reaches both decoders as sent exactly when it carries no payload,
or when it is not padded and the second board holds the payload already. -/
theorem sendMemChunk_understood_iff (board other : Board) (mac : Mac) (offset length : Nat)
    (padding : List UInt8) (inArena : offset + length ≤ arenaSize)
    (inFrame : TestPacket.size + length ≤ boardEthBuffer) :
    sendMemChunk board mac.cells offset length = some { board with
        sent := board.sent ++ [memChunkFrame board mac.cells offset length] } ∧
      (DecodedExactly board mac offset length padding ∧
          StoredExactly board other mac offset length padding ↔
        length = 0 ∨ padding = [] ∧
          window other.arena.cells offset length = window board.arena.cells offset length) := by
  refine ⟨sendMemChunk_eq board mac.cells offset length inArena inFrame, ?_⟩
  rw [decodedExactly_iff board mac offset length padding inArena inFrame,
    storedExactly_iff board other mac offset length padding inArena inFrame]
  exact ⟨fun ⟨decoded, stored⟩ => by
      rcases decoded with empty | unpadded
      · exact Or.inl empty
      · exact stored.imp_right fun same => ⟨unpadded, same⟩,
    fun understood => ⟨understood.imp_right And.left, understood.imp_right And.right⟩⟩

def broadcast : Mac := Region.filled 6 0xFF

def filledBoard : Board := ⟨0, Region.filled arenaSize 1, []⟩

/-- A chunk of ones, unpadded, for a board whose arena holds ones as well. -/
theorem sendMemChunk_understood_held :
    sendMemChunk filledBoard broadcast.cells 2048 chunkSize = some { filledBoard with
        sent := filledBoard.sent ++ [memChunkFrame filledBoard broadcast.cells 2048 chunkSize] } ∧
      DecodedExactly filledBoard broadcast 2048 chunkSize [] ∧
      StoredExactly filledBoard { emptyBoard with arena := filledBoard.arena } broadcast 2048
        chunkSize [] := by
  obtain ⟨sent, understood⟩ := sendMemChunk_understood_iff filledBoard
    { emptyBoard with arena := filledBoard.arena } broadcast 2048 chunkSize [] (by decide)
    (by decide)
  exact ⟨sent, understood.mpr (Or.inr ⟨rfl, rfl⟩)⟩

/-- The first chunk of a cleared board, unpadded, delivered to a board whose
arena is filled with ones. -/
theorem first_chunk_not_stored :
    0 + chunkSize ≤ arenaSize ∧ TestPacket.size + chunkSize ≤ boardEthBuffer ∧
      ¬ (DecodedExactly emptyBoard broadcast 0 chunkSize [] ∧
        StoredExactly emptyBoard filledBoard broadcast 0 chunkSize []) := by
  refine ⟨by decide, by decide, fun ⟨_, stored⟩ => ?_⟩
  have agree := (storedExactly_iff emptyBoard filledBoard broadcast 0 chunkSize []
    (by decide) (by decide)).mp stored
  have same := (window_eq_iff _ _ _ _).mp (agree.resolve_left (by decide)) 0 (by decide)
    (by decide)
  rw [filledBoard, emptyBoard, Region.filled_getElem? _ _ (by decide),
    Region.filled_getElem? _ _ (by decide)] at same
  exact absurd same (by decide)

end HalmExamples.EthRaw
