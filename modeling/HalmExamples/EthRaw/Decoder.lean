import HalmExamples.EthRaw.Host
import HalmExamples.EthRaw.Safety

/-!
# What the host decoder accepts

`decode_data_packet` looks at the type, the opcode and the fields behind them in
turn and at nothing else: a packet that ends before the next of them makes
`unpack` raise, and a payload cut short is returned as far as it goes.  On every
other packet the decoder and the board apply the same rules, and the encoder
gives the accepted packet back.
-/

set_option autoImplicit false

namespace HalmExamples.EthRaw

open Foundation Foundation.ByteOrder

def IsWholePacket (packet : Frame) : Prop :=
  IsDataPacket packet ∧
    TestPacket.size + TestPacket.length.value packet ≤ packet.length

instance (packet : Frame) : Decidable (IsWholePacket packet) :=
  inferInstanceAs (Decidable (_ ∧ _))

def packetFields (packet : Frame) : DataFields :=
  ⟨EthHeader.src.bytes packet, EthHeader.dst.bytes packet, TestPacket.offset.value packet,
    window packet TestPacket.size (TestPacket.length.value packet)⟩

def Encodes (fields : DataFields) (packet : Frame) : Prop :=
  ∃ encoded padding,
    makeDataPacket fields.src fields.dst fields.buffer fields.offset = .ok encoded ∧
      packet = encoded ++ padding

/-- The decoder accepts the whole packets and no others; so does the board, as far as
its first guard does not wrap and the arena holds the payload. -/
structure DecodesExactly (packet : Frame) : Prop where
  returns : ∃ result, decodeDataPacket packet = .ok result
  accepts_iff : (∃ fields, decodeDataPacket packet = .ok (some fields)) ↔ IsWholePacket packet
  accepted : IsWholePacket packet →
    decodeDataPacket packet = .ok (some (packetFields packet)) ∧
      (packetFields packet).buffer.length = TestPacket.length.value packet ∧
      Encodes (packetFields packet) packet
  rejected : ¬ IsWholePacket packet → decodeDataPacket packet = .ok none
  board_agrees : ∀ board, EthHeader.size ≤ packet.length →
    TestPacket.size + TestPacket.length.value packet < 2 ^ 32 →
    TestPacket.offset.value packet + TestPacket.length.value packet ≤ arenaSize →
    ((handleEthFrame board packet).copies ≠ [] ↔ IsWholePacket packet)

/-- No field that is looked at is cut off, nor is the payload behind them. -/
def NotTruncated (packet : Frame) : Prop :=
  EthHeader.size ≤ packet.length ∧
    (EthHeader.type.value packet = etherType →
      TestPacket.offset.index ≤ packet.length ∧
        (TestPacket.opcode.value packet = opcodeBuf →
          TestPacket.size + TestPacket.length.value packet ≤ packet.length))

instance (packet : Frame) : Decidable (NotTruncated packet) :=
  inferInstanceAs (Decidable (_ ∧ (_ → _ ∧ (_ → _))))

/-! ## The accepted packets -/

/-- Every packet is the layout of its own fields and what follows them. -/
theorem layout_fields_drop (packet : Frame) :
    TestPacket.layout (EthHeader.dst.bytes packet) (EthHeader.src.bytes packet)
      (EthHeader.type.bytes packet) (TestPacket.opcode.bytes packet)
      (TestPacket.offset.bytes packet) (TestPacket.length.bytes packet)
      (packet.drop TestPacket.size) = packet := by
  have length := window_append_drop packet 20 4
  have offset := window_append_drop packet 16 4
  have opcode := window_append_drop packet 14 2
  have type := window_append_drop packet 12 2
  have src := window_append_drop packet 6 6
  have dst := window_append_drop packet 0 6
  simp only [Nat.reduceAdd, List.drop_zero] at length offset opcode type src dst
  simp only [TestPacket.layout, Field.bytes, EthHeader.dst, EthHeader.src, EthHeader.type,
    TestPacket.opcode, TestPacket.offset, TestPacket.length, TestPacket.size]
  rw [length, offset, opcode, type, src, dst]

section Field
variable (field : Field) (packet : Frame)

theorem bigEndian_value (fits : field.index + field.width ≤ packet.length) :
    bigEndian field.width (field.value packet) = field.bytes packet := by
  have back := bigEndian_ofBigEndian (field.bytes packet)
  rwa [field.bytes_length packet fits] at back

theorem packI_value (word : field.width = 4)
    (fits : field.index + field.width ≤ packet.length) :
    packI (field.value packet) = .ok (field.bytes packet) := by
  have bound := field.value_lt packet fits
  have back := bigEndian_value field packet fits
  rw [word] at bound back
  rw [packI, if_pos (lt_of_lt_of_eq bound (by norm_num)), back]

theorem pack6s_bytes (mac : field.width = 6)
    (fits : field.index + field.width ≤ packet.length) :
    pack6s (field.bytes packet) = field.bytes packet :=
  pack6s_mac ⟨field.bytes packet, (field.bytes_length packet fits).trans mac⟩

end Field

theorem packetFields_buffer_length (packet : Frame) (whole : IsWholePacket packet) :
    (packetFields packet).buffer.length = TestPacket.length.value packet :=
  window_length_of_fits packet _ _ whole.2

theorem layout_take (packet : Frame) (count : Nat) :
    TestPacket.layout (EthHeader.dst.bytes packet) (EthHeader.src.bytes packet)
      (EthHeader.type.bytes packet) (TestPacket.opcode.bytes packet)
      (TestPacket.offset.bytes packet) (TestPacket.length.bytes packet)
      (window packet TestPacket.size count) = packet.take (TestPacket.size + count) := by
  have cut := layout_fields_drop (packet.take (TestPacket.size + count))
  have kept : ∀ field : Field, field.index + field.width ≤ TestPacket.size + count →
      field.bytes (packet.take (TestPacket.size + count)) = field.bytes packet :=
    fun field inside => window_take packet _ field.index field.width inside
  have payload : (packet.take (TestPacket.size + count)).drop TestPacket.size =
      window packet TestPacket.size count := by
    rw [List.drop_take, Nat.add_sub_cancel_left, window]
  have header : TestPacket.size ≤ TestPacket.size + count := Nat.le_add_right _ _
  rw [kept EthHeader.dst (le_trans (by decide) header),
    kept EthHeader.src (le_trans (by decide) header),
    kept EthHeader.type (le_trans (by decide) header),
    kept TestPacket.opcode (le_trans (by decide) header),
    kept TestPacket.offset (le_trans (by decide) header),
    kept TestPacket.length (le_trans (by decide) header), payload] at cut
  exact cut

theorem makeDataPacket_packetFields (packet : Frame) (whole : IsWholePacket packet) :
    makeDataPacket (packetFields packet).src (packetFields packet).dst
        (packetFields packet).buffer (packetFields packet).offset =
      .ok (packet.take (TestPacket.size + TestPacket.length.value packet)) := by
  have payload := packetFields_buffer_length packet whole
  obtain ⟨⟨size, type, opcode⟩, _⟩ := whole
  have offsetField := packI_value TestPacket.offset packet rfl (le_trans (by decide) size)
  have lengthField := packI_value TestPacket.length packet rfl size
  have typeField := bigEndian_value EthHeader.type packet (le_trans (by decide) size)
  have opcodeField := bigEndian_value TestPacket.opcode packet (le_trans (by decide) size)
  have dst := pack6s_bytes EthHeader.dst packet rfl (le_trans (by decide) size)
  have src := pack6s_bytes EthHeader.src packet rfl (le_trans (by decide) size)
  rw [type] at typeField
  rw [opcode] at opcodeField
  rw [makeDataPacket, payload]
  simp only [packetFields]
  rw [offsetField, ok_bind, lengthField, ok_bind, dst, src, ← layout_take, ← typeField,
    ← opcodeField]
  rfl

theorem packetFields_encodes (packet : Frame) (whole : IsWholePacket packet) :
    Encodes (packetFields packet) packet :=
  ⟨_, _, makeDataPacket_packetFields packet whole, (List.take_append_drop _ packet).symm⟩

/-! ## The decoder by cases -/

theorem decode_whole (packet : Frame) (whole : IsWholePacket packet) :
    decodeDataPacket packet = .ok (some (packetFields packet)) := by
  obtain ⟨⟨size, type, opcode⟩, _⟩ := whole
  rw [decodeDataPacket_of_header packet size, if_pos ⟨type, opcode⟩]
  rfl

theorem decode_other (packet : Frame) (clear : NotTruncated packet)
    (other : ¬ IsWholePacket packet) : decodeDataPacket packet = .ok none := by
  obtain ⟨header, fields⟩ := clear
  rw [decodeDataPacket_eq, if_neg (not_lt.mpr header)]
  by_cases type : EthHeader.type.value packet = etherType
  · obtain ⟨opcodeWhole, payload⟩ := fields type
    rw [if_pos type, if_neg (not_lt.mpr opcodeWhole)]
    by_cases opcode : TestPacket.opcode.value packet = opcodeBuf
    · have size : TestPacket.size ≤ packet.length :=
        le_trans (Nat.le_add_right _ _) (payload opcode)
      exact absurd ⟨⟨size, type, opcode⟩, payload opcode⟩ other
    · rw [if_neg opcode]
  · rw [if_neg type]

/-- A decoder that is exact looks at no field that is cut off. -/
theorem notTruncated_of_exact (packet : Frame) (decodes : DecodesExactly packet) :
    NotTruncated packet := by
  obtain ⟨result, returned⟩ := decodes.returns
  rw [decodeDataPacket_eq] at returned
  by_cases header : packet.length < EthHeader.size
  · simp [header] at returned
  refine ⟨not_lt.mp header, fun type => ?_⟩
  rw [if_neg header, if_pos type] at returned
  by_cases opcodeCut : packet.length < TestPacket.offset.index
  · simp [opcodeCut] at returned
  refine ⟨not_lt.mp opcodeCut, fun opcode => ?_⟩
  rw [if_neg opcodeCut, if_pos opcode] at returned
  by_cases fieldsCut : packet.length < TestPacket.size
  · simp [fieldsCut] at returned
  have size := not_lt.mp fieldsCut
  have accepted : ∃ fields, decodeDataPacket packet = .ok (some fields) := by
    rw [decodeDataPacket_of_header packet size, if_pos ⟨type, opcode⟩]
    exact ⟨_, rfl⟩
  exact (decodes.accepts_iff.mp accepted).2

/-- The guards of the board, where neither of them wraps. -/
theorem copies_iff_whole (board : Board) (packet : Frame)
    (header : EthHeader.size ≤ packet.length)
    (noWrap : TestPacket.size + TestPacket.length.value packet < 2 ^ 32)
    (inArena : TestPacket.offset.value packet + TestPacket.length.value packet ≤ arenaSize) :
    (handleEthFrame board packet).copies ≠ [] ↔ IsWholePacket packet := by
  have second : wrap32 (TestPacket.offset.value packet + TestPacket.length.value packet) ≤
      arenaSize := le_trans (Nat.mod_le _ _) inArena
  have guards : GuardsPass packet ↔
      TestPacket.size + TestPacket.length.value packet ≤ packet.length := by
    rw [GuardsPass, wrap32_of_lt _ noWrap]
    exact and_iff_left second
  constructor
  · intro copied
    by_contra other
    apply copied
    by_cases request : IsRequest packet
    · rw [handleEthFrame_request board packet request]
    · exact (handleEthFrame_ignored board packet header
        (fun copies => other ⟨copies.1, guards.mp copies.2⟩) request).1
  · intro whole
    rw [handleEthFrame_copy board packet whole.1 (guards.mpr whole.2)]
    exact List.cons_ne_nil _ _

/-- For every byte string. -/
theorem decodeDataPacket_exact_iff (packet : Frame) :
    DecodesExactly packet ↔ NotTruncated packet := by
  constructor
  · exact notTruncated_of_exact packet
  · intro clear
    refine ⟨?_, ⟨?_, ?_⟩, ?_, decode_other packet clear, fun board =>
      copies_iff_whole board packet⟩
    · by_cases whole : IsWholePacket packet
      · exact ⟨_, decode_whole packet whole⟩
      · exact ⟨_, decode_other packet clear whole⟩
    · rintro ⟨fields, accepted⟩
      by_contra other
      rw [decode_other packet clear other] at accepted
      simp at accepted
    · intro whole
      exact ⟨_, decode_whole packet whole⟩
    · intro whole
      exact ⟨decode_whole packet whole, packetFields_buffer_length packet whole,
        packetFields_encodes packet whole⟩

/-- A data packet that announces one byte of payload and ends after its header. -/
def cutPayload : Frame :=
  List.replicate 12 0 ++ [0x90, 0x00, 0x00, 0x01] ++ List.replicate 7 0 ++ [0x01]

/-- The payload is missing and the packet accepted; an empty packet raises. -/
theorem cut_payload_accepted :
    ¬ IsWholePacket cutPayload ∧
      decodeDataPacket cutPayload =
        .ok (some ⟨List.replicate 6 0, List.replicate 6 0, 0, []⟩) ∧
      ¬ DecodesExactly cutPayload ∧
      decodeDataPacket [] = .error (.unpack 14) ∧ ¬ DecodesExactly [] := by
  have accepted : decodeDataPacket cutPayload =
      .ok (some ⟨List.replicate 6 0, List.replicate 6 0, 0, []⟩) := by decide
  have raised : decodeDataPacket [] = .error (.unpack 14) := by decide
  refine ⟨by decide, accepted, fun decodes => ?_, raised, fun decodes => ?_⟩
  · exact absurd (decodes.accepts_iff.mp ⟨_, accepted⟩) (by decide)
  · obtain ⟨result, returned⟩ := decodes.returns
    rw [raised] at returned
    cases returned

end HalmExamples.EthRaw
