import HalmExamples.EthRaw.Device

/-!
# The host script

`decode_data_packet`, `make_data_packet`, `make_data_request` and
`receive_buffer` of `eth_raw.py`.  A slice is clamped silently and an `unpack`
of too few bytes raises, as in Python; integers are unbounded.
-/

set_option autoImplicit false

namespace HalmExamples.EthRaw

open Foundation Foundation.ByteOrder

abbrev Mac := Region UInt8 6

inductive HostError where
  /-- `struct.error`: unpack requires a buffer of that many bytes. -/
  | unpack (required : Nat)
  /-- `struct.error`: an `I` field does not hold the number. -/
  | pack (value : Nat)
  /-- The bare `Exception()` of `make_buffer`. -/
  | exception
  deriving DecidableEq

/-- `packet[start:stop]` -/
def slice (packet : Frame) (start stop : Nat) : List UInt8 := (packet.take stop).drop start

def unpack (required : Nat) (bytes : List UInt8) : Except HostError (List UInt8) :=
  if bytes.length = required then .ok bytes else .error (.unpack required)

/-- The tuple `(src, dst, offset, buffer)`. -/
structure DataFields where
  src : List UInt8
  dst : List UInt8
  offset : Nat
  buffer : List UInt8
  deriving DecidableEq

def decodeDataPacket (packet : Frame) : Except HostError (Option DataFields) := do
  let header ← unpack 14 (slice packet 0 14)
  let dst := window header 0 6
  let src := window header 6 6
  let ethType := ofBigEndian (window header 12 2)
  if ethType = etherType then
    let opCode ← unpack 2 (slice packet 14 16)
    if ofBigEndian opCode = opcodeBuf then
      let fields ← unpack 8 (slice packet 16 24)
      let offset := ofBigEndian (window fields 0 4)
      let length := ofBigEndian (window fields 4 4)
      return some ⟨src, dst, offset, slice packet 24 (24 + length)⟩
    else return none
  else return none

/-- The `6s` format: cut or padded with zeros to six bytes. -/
def pack6s (bytes : List UInt8) : List UInt8 := (bytes ++ List.replicate 6 0).take 6

def packI (value : Nat) : Except HostError (List UInt8) :=
  if value < 2 ^ 32 then .ok (bigEndian 4 value) else .error (.pack value)

def makeDataPacket (src dst buffer : List UInt8) (offset : Nat) : Except HostError Frame := do
  let offsetField ← packI offset
  let lengthField ← packI buffer.length
  return TestPacket.layout (pack6s dst) (pack6s src) (bigEndian 2 etherType)
    (bigEndian 2 opcodeBuf) offsetField lengthField buffer

def makeDataRequest (src dst : List UInt8) : Frame :=
  TestPacket.layout (pack6s dst) (pack6s src) (bigEndian 2 etherType)
    (bigEndian 2 opcodeReq) (bigEndian 4 0) (bigEndian 4 0) []

/-! ## Receiving -/

/-- One `recvfrom` before the time limit. -/
inductive Arrival where
  | packet (frame : Frame)
  | timeout
  deriving DecidableEq

structure Received where
  buffer : List UInt8
  size : Nat
  deriving DecidableEq

def fieldsOf : Arrival → Except HostError (Option DataFields)
  | .packet frame => decodeDataPacket (frame.take 1536)
  | .timeout => .ok none

def accept (src dst : List UInt8) (received : Received) (fields : DataFields) : Received :=
  if fields.src = dst ∧ fields.dst = src then
    if fields.offset + fields.buffer.length ≤ received.buffer.length then
      ⟨splice received.buffer fields.offset fields.buffer,
        received.size + fields.buffer.length⟩
    else received
  else received

/-- The list ends where the time limit is reached. -/
def receiveLoop (src dst : List UInt8) (size : Nat) :
    List Arrival → Received → Except HostError Received
  | [], received => .ok received
  | arrival :: rest, received => do
      match ← fieldsOf arrival with
      | none => receiveLoop src dst size rest received
      | some fields =>
          let next := accept src dst received fields
          if next.size = size then return next
          else receiveLoop src dst size rest next

def receiveBuffer (src dst : List UInt8) (size : Nat) (arrivals : List Arrival) :
    Except HostError Received :=
  receiveLoop src dst size arrivals ⟨List.replicate size 0, 0⟩

/-! ## Layout of a packet -/

section Layout
variable (dst src type opcode offset length data : List UInt8)

structure Widths : Prop where
  dst : dst.length = 6
  src : src.length = 6
  type : type.length = 2
  opcode : opcode.length = 2
  offset : offset.length = 4
  length : length.length = 4

variable {dst src type opcode offset length}

theorem layout_fields (widths : Widths dst src type opcode offset length) :
    EthHeader.dst.bytes (TestPacket.layout dst src type opcode offset length data) = dst ∧
    EthHeader.src.bytes (TestPacket.layout dst src type opcode offset length data) = src ∧
    EthHeader.type.bytes (TestPacket.layout dst src type opcode offset length data) = type ∧
    TestPacket.opcode.bytes (TestPacket.layout dst src type opcode offset length data) =
      opcode ∧
    TestPacket.offset.bytes (TestPacket.layout dst src type opcode offset length data) =
      offset ∧
    TestPacket.length.bytes (TestPacket.layout dst src type opcode offset length data) =
      length := by
  obtain ⟨hdst, hsrc, htype, hopcode, hoffset, hlength⟩ := widths
  refine ⟨?_, ?_, ?_, ?_, ?_, ?_⟩ <;>
    simp [Field.bytes, TestPacket.layout, EthHeader.dst, EthHeader.src, EthHeader.type,
      TestPacket.opcode, TestPacket.offset, TestPacket.length, window_append_right,
      window_append_left, window_whole, hdst, hsrc, htype, hopcode, hoffset, hlength]

theorem layout_data (widths : Widths dst src type opcode offset length) (count : Nat) :
    window (TestPacket.layout dst src type opcode offset length data) TestPacket.size count =
      data.take count := by
  obtain ⟨hdst, hsrc, htype, hopcode, hoffset, hlength⟩ := widths
  have start : window (TestPacket.layout dst src type opcode offset length data)
      TestPacket.size count = window data 0 count := by
    simp [TestPacket.layout, TestPacket.size, window_append_right, hdst, hsrc, htype, hopcode,
      hoffset, hlength]
  rw [start, window, List.drop_zero]

theorem layout_length (widths : Widths dst src type opcode offset length) :
    (TestPacket.layout dst src type opcode offset length data).length =
      TestPacket.size + data.length := by
  obtain ⟨hdst, hsrc, htype, hopcode, hoffset, hlength⟩ := widths
  simp only [TestPacket.layout, TestPacket.size, List.length_append]
  omega

theorem layout_append (padding : List UInt8) :
    TestPacket.layout dst src type opcode offset length data ++ padding =
      TestPacket.layout dst src type opcode offset length (data ++ padding) := by
  simp [TestPacket.layout]

end Layout

theorem pack6s_mac (mac : Mac) : pack6s mac.cells = mac.cells := by
  have six : mac.cells.length = 6 := mac.length_eq
  rw [pack6s, List.take_append_of_le_length (le_of_eq six.symm)]
  exact List.take_of_length_le (le_of_eq six)

@[simp] theorem macBytes_length (address : Nat) : (macBytes address).length = 6 := rfl

/-! ## Decoding -/

theorem slice_eq_window (packet : Frame) (start stop : Nat) :
    slice packet start stop = window packet start (stop - start) := by
  rw [slice, window, List.drop_take]

theorem window_window (packet : Frame) (start count index width : Nat)
    (inside : index + width ≤ count) :
    window (window packet start count) index width = window packet (start + index) width := by
  rw [window, window, window, List.drop_take, List.take_take, List.drop_drop,
    Nat.min_eq_left (by omega)]

theorem unpack_window (packet : Frame) (start count : Nat)
    (fits : start + count ≤ packet.length) :
    unpack count (window packet start count) = .ok (window packet start count) := by
  rw [unpack, if_pos (window_length_of_fits packet start count fits)]

theorem unpack_short (packet : Frame) (start count : Nat)
    (short : packet.length < start + count) (positive : 0 < count) :
    unpack count (window packet start count) = .error (.unpack count) := by
  rw [unpack, if_neg (by rw [window_length]; omega)]

theorem ok_bind {α β : Type} (value : α) (next : α → Except HostError β) :
    (Except.ok value >>= next) = next value := rfl

theorem error_bind {α β : Type} (error : HostError) (next : α → Except HostError β) :
    ((Except.error error : Except HostError α) >>= next) = .error error := rfl

/-- Each `unpack` raises where the packet ends before its fields, and the data branch
is selected by the same two fields as on the board. -/
theorem decodeDataPacket_eq (packet : Frame) :
    decodeDataPacket packet =
      if packet.length < EthHeader.size then .error (.unpack 14)
      else if EthHeader.type.value packet = etherType then
        if packet.length < TestPacket.offset.index then .error (.unpack 2)
        else if TestPacket.opcode.value packet = opcodeBuf then
          if packet.length < TestPacket.size then .error (.unpack 8)
          else .ok (some ⟨EthHeader.src.bytes packet, EthHeader.dst.bytes packet,
            TestPacket.offset.value packet,
            window packet TestPacket.size (TestPacket.length.value packet)⟩)
        else .ok none
      else .ok none := by
  have headerSize : EthHeader.size = 14 := rfl
  have opcodeStop : TestPacket.offset.index = 16 := rfl
  have packetSize : TestPacket.size = 24 := rfl
  have typeValue : ofBigEndian (window (window packet 0 14) 12 2) =
      EthHeader.type.value packet :=
    congrArg ofBigEndian (window_window packet 0 14 12 2 (by omega))
  have dstBytes : window (window packet 0 14) 0 6 = EthHeader.dst.bytes packet :=
    window_window packet 0 14 0 6 (by omega)
  have srcBytes : window (window packet 0 14) 6 6 = EthHeader.src.bytes packet :=
    window_window packet 0 14 6 6 (by omega)
  have opcodeValue : ofBigEndian (window packet 14 2) = TestPacket.opcode.value packet := rfl
  have offsetValue : ofBigEndian (window (window packet 16 8) 0 4) =
      TestPacket.offset.value packet :=
    congrArg ofBigEndian (window_window packet 16 8 0 4 (by omega))
  have lengthValue : ofBigEndian (window (window packet 16 8) 4 4) =
      TestPacket.length.value packet :=
    congrArg ofBigEndian (window_window packet 16 8 4 4 (by omega))
  simp only [decodeDataPacket, slice_eq_window, Nat.sub_zero, Nat.reduceSub,
    Nat.add_sub_cancel_left]
  by_cases header : packet.length < EthHeader.size
  · rw [if_pos header, unpack_short packet 0 14 (by omega) (by omega), error_bind]
  rw [if_neg header, unpack_window packet 0 14 (by omega), ok_bind, typeValue, dstBytes,
    srcBytes]
  by_cases type : EthHeader.type.value packet = etherType
  · rw [if_pos type, if_pos type]
    by_cases opcodeCut : packet.length < TestPacket.offset.index
    · rw [if_pos opcodeCut, unpack_short packet 14 2 (by omega) (by omega), error_bind]
    rw [if_neg opcodeCut, unpack_window packet 14 2 (by omega), ok_bind, opcodeValue]
    by_cases opcode : TestPacket.opcode.value packet = opcodeBuf
    · rw [if_pos opcode, if_pos opcode]
      by_cases fieldsCut : packet.length < TestPacket.size
      · rw [if_pos fieldsCut, unpack_short packet 16 8 (by omega) (by omega), error_bind]
      rw [if_neg fieldsCut, unpack_window packet 16 8 (by omega), ok_bind, offsetValue,
        lengthValue]
      rfl
    · rw [if_neg opcode, if_neg opcode]
      rfl
  · rw [if_neg type, if_neg type]
    rfl

/-- On a frame with a whole header nothing raises. -/
theorem decodeDataPacket_of_header (packet : Frame)
    (size : TestPacket.size ≤ packet.length) :
    decodeDataPacket packet =
      if EthHeader.type.value packet = etherType ∧
          TestPacket.opcode.value packet = opcodeBuf then
        .ok (some ⟨EthHeader.src.bytes packet, EthHeader.dst.bytes packet,
          TestPacket.offset.value packet,
          window packet TestPacket.size (TestPacket.length.value packet)⟩)
      else .ok none := by
  have header : ¬ packet.length < EthHeader.size :=
    not_lt.mpr (le_trans (by decide) size)
  have opcodeWhole : ¬ packet.length < TestPacket.offset.index :=
    not_lt.mpr (le_trans (by decide) size)
  rw [decodeDataPacket_eq, if_neg header, if_neg opcodeWhole, if_neg (not_lt.mpr size)]
  by_cases type : EthHeader.type.value packet = etherType
  · simp only [type, if_true, true_and]
  · simp only [type, if_false, false_and]

end HalmExamples.EthRaw
