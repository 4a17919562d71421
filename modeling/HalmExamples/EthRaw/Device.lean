import HalmExamples.Foundation.ByteOrder
import HalmExamples.Foundation.Region
import HalmExamples.Foundation.Word

/-!
# The raw Ethernet receiver of the board

`handleEthFrame` and `sendMemChunk` of `eth_raw/main.c` on the 32-bit
little-endian target.  A packed field is loaded in the target's own order and
converted afterwards, as the source does.  One call of the handler is recorded
as the fields it loads, the `memcpy` it makes into the arena and the board it
leaves; a `memcpy` that leaves its objects is undefined and leaves no board.
-/

set_option autoImplicit false

namespace HalmExamples.EthRaw

open Foundation Foundation.ByteOrder

abbrev Frame := List UInt8

def etherType : Nat := 0x9000
def opcodeBuf : Nat := 0x0001
def opcodeReq : Nat := 0x0002

def arenaSize : Nat := 16384
def chunkSize : Nat := 1024

/-- `BOARD_ETH_BUFFER` of the board header. -/
def boardEthBuffer : Nat := 1056

/-! ## Packed layout -/

structure Field where
  index : Nat
  width : Nat
  deriving DecidableEq

namespace EthHeader
def dst : Field := ⟨0, 6⟩
def src : Field := ⟨6, 6⟩
def type : Field := ⟨12, 2⟩
/-- `sizeof(struct EthHeader)` -/
def size : Nat := 14
end EthHeader

namespace TestPacket
def opcode : Field := ⟨14, 2⟩
def offset : Field := ⟨16, 4⟩
def length : Field := ⟨20, 4⟩
/-- `sizeof(struct TestPacket)`, where the flexible member `data` starts. -/
def size : Nat := 24
end TestPacket

def TestPacket.layout (dst src type opcode offset length data : List UInt8) : Frame :=
  dst ++ (src ++ (type ++ (opcode ++ (offset ++ (length ++ data)))))

def Field.bytes (field : Field) (frame : Frame) : List UInt8 :=
  window frame field.index field.width

/-- The value of a field as the little-endian target loads it. -/
def Field.load (field : Field) (frame : Frame) : Nat :=
  ofLittleEndian (field.bytes frame)

def Field.value (field : Field) (frame : Frame) : Nat :=
  ofBigEndian (field.bytes frame)

def fromBigEndian16 (value : Nat) : Nat := byteSwap 2 value
def fromBigEndian32 (value : Nat) : Nat := byteSwap 4 value
def toBigEndian16 (value : Nat) : Nat := byteSwap 2 value
def toBigEndian32 (value : Nat) : Nat := byteSwap 4 value

/-! ## Board state and one handler call -/

structure Board where
  /-- What `IF_ADDRESS_64` of the interface reports. -/
  address : Nat
  arena : Region UInt8 arenaSize
  sent : List Frame
  deriving DecidableEq

/-- `memcpy(arena + destination, frame + source, count)` -/
structure Copy where
  destination : Nat
  source : Nat
  count : Nat
  deriving DecidableEq

structure Handling where
  loads : List Field
  copies : List Copy
  board : Option Board

def Handling.returned (board : Board) : Handling := ⟨[], [], some board⟩

def loading (frame : Frame) (field : Field) (next : Nat → Handling) : Handling :=
  let rest := next (field.load frame)
  { rest with loads := field :: rest.loads }

def memcpyToArena (arena : Region UInt8 arenaSize) (frame : Frame) (copy : Copy) :
    Option (Region UInt8 arenaSize) :=
  if copy.source + copy.count ≤ frame.length then
    arena.write? copy.destination (window frame copy.source copy.count)
  else none

def macBytes (address : Nat) : List UInt8 :=
  [0, 8, 16, 24, 32, 40].map fun shift => UInt8.ofNat (address >>> shift)

def memChunkFrame (board : Board) (mac : List UInt8) (offset length : Nat) : Frame :=
  TestPacket.layout mac (macBytes board.address) (littleEndian 2 (toBigEndian16 etherType))
    (littleEndian 2 (toBigEndian16 opcodeBuf)) (littleEndian 4 (toBigEndian32 offset))
    -- stored in the order of the target, unlike the fields before it
    (littleEndian 4 length) (window board.arena.cells offset length)

/-- `ifWrite` is repeated until the interface accepts the frame, so exactly one
copy is queued. -/
def sendMemChunk (board : Board) (mac : List UInt8) (offset length : Nat) : Option Board :=
  if offset + length ≤ arenaSize ∧ TestPacket.size + length ≤ boardEthBuffer then
    some { board with sent := board.sent ++ [memChunkFrame board mac offset length] }
  else none

/-- The offsets of `for (offset = 0; offset < ARENA_SIZE; offset += CHUNK_SIZE)`. -/
def chunkOffsets : List Nat := (List.range (arenaSize / chunkSize)).map (· * chunkSize)

def sendArena (board : Board) (mac : List UInt8) : Option Board :=
  chunkOffsets.foldlM (fun current offset => sendMemChunk current mac offset chunkSize) board

def handleEthFrame (board : Board) (frame : Frame) : Handling :=
  loading frame EthHeader.type fun type =>
  if fromBigEndian16 type = etherType then
    if frame.length < TestPacket.size then .returned board
    else
      loading frame TestPacket.opcode fun opcode =>
      if fromBigEndian16 opcode = opcodeBuf then
        loading frame TestPacket.offset fun offset =>
        loading frame TestPacket.length fun length =>
        let chunkOffset := fromBigEndian32 offset
        let chunkLength := fromBigEndian32 length
        if frame.length < wrap32 (TestPacket.size + chunkLength) then .returned board
        else if wrap32 (chunkOffset + chunkLength) > arenaSize then .returned board
        else
          let copy : Copy := ⟨chunkOffset, TestPacket.size, chunkLength⟩
          ⟨[], [copy], (memcpyToArena board.arena frame copy).map
            fun arena => { board with arena := arena }⟩
      else if fromBigEndian16 opcode = opcodeReq then
        loading frame EthHeader.src fun _ =>
        ⟨[], [], sendArena board (EthHeader.src.bytes frame)⟩
      else .returned board
  else .returned board

/-! ## Field values -/

theorem Field.bytes_length (field : Field) (frame : Frame)
    (fits : field.index + field.width ≤ frame.length) :
    (field.bytes frame).length = field.width :=
  window_length_of_fits frame field.index field.width fits

theorem Field.swap_load (field : Field) (frame : Frame)
    (fits : field.index + field.width ≤ frame.length) :
    byteSwap field.width (field.load frame) = field.value frame := by
  have exactLength := field.bytes_length frame fits
  have swapped := byteSwap_ofLittleEndian (field.bytes frame)
  rwa [exactLength] at swapped

theorem Field.value_lt (field : Field) (frame : Frame)
    (fits : field.index + field.width ≤ frame.length) :
    field.value frame < 256 ^ field.width := by
  have bound := ofBigEndian_lt (field.bytes frame)
  rwa [field.bytes_length frame fits] at bound

theorem type_value (frame : Frame) (header : EthHeader.size ≤ frame.length) :
    fromBigEndian16 (EthHeader.type.load frame) = EthHeader.type.value frame :=
  EthHeader.type.swap_load frame header

theorem opcode_value (frame : Frame) (packet : TestPacket.size ≤ frame.length) :
    fromBigEndian16 (TestPacket.opcode.load frame) = TestPacket.opcode.value frame :=
  TestPacket.opcode.swap_load frame (le_trans (by decide) packet)

theorem offset_value (frame : Frame) (packet : TestPacket.size ≤ frame.length) :
    fromBigEndian32 (TestPacket.offset.load frame) = TestPacket.offset.value frame :=
  TestPacket.offset.swap_load frame (le_trans (by decide) packet)

theorem length_value (frame : Frame) (packet : TestPacket.size ≤ frame.length) :
    fromBigEndian32 (TestPacket.length.load frame) = TestPacket.length.value frame :=
  TestPacket.length.swap_load frame packet

theorem offset_lt (frame : Frame) (packet : TestPacket.size ≤ frame.length) :
    TestPacket.offset.value frame < 2 ^ 32 :=
  TestPacket.offset.value_lt frame (le_trans (by decide) packet)

theorem length_lt (frame : Frame) (packet : TestPacket.size ≤ frame.length) :
    TestPacket.length.value frame < 2 ^ 32 :=
  TestPacket.length.value_lt frame packet

/-! ## What one call does -/

def IsDataPacket (frame : Frame) : Prop :=
  TestPacket.size ≤ frame.length ∧ EthHeader.type.value frame = etherType ∧
    TestPacket.opcode.value frame = opcodeBuf

def IsRequest (frame : Frame) : Prop :=
  TestPacket.size ≤ frame.length ∧ EthHeader.type.value frame = etherType ∧
    TestPacket.opcode.value frame = opcodeReq

/-- Both guards of the data branch, in the wrapping arithmetic of the target. -/
def GuardsPass (frame : Frame) : Prop :=
  wrap32 (TestPacket.size + TestPacket.length.value frame) ≤ frame.length ∧
    wrap32 (TestPacket.offset.value frame + TestPacket.length.value frame) ≤ arenaSize

instance (frame : Frame) : Decidable (IsDataPacket frame) :=
  inferInstanceAs (Decidable (_ ∧ _ ∧ _))

instance (frame : Frame) : Decidable (IsRequest frame) :=
  inferInstanceAs (Decidable (_ ∧ _ ∧ _))

instance (frame : Frame) : Decidable (GuardsPass frame) :=
  inferInstanceAs (Decidable (_ ∧ _))

def chunkCopy (frame : Frame) : Copy :=
  ⟨TestPacket.offset.value frame, TestPacket.size, TestPacket.length.value frame⟩

def dataLoads : List Field :=
  [EthHeader.type, TestPacket.opcode, TestPacket.offset, TestPacket.length]

theorem handleEthFrame_copy (board : Board) (frame : Frame)
    (packet : IsDataPacket frame) (guards : GuardsPass frame) :
    handleEthFrame board frame =
      ⟨dataLoads, [chunkCopy frame],
        (memcpyToArena board.arena frame (chunkCopy frame)).map
          fun arena => { board with arena := arena }⟩ := by
  obtain ⟨size, type, opcode⟩ := packet
  have header : EthHeader.size ≤ frame.length := le_trans (by decide) size
  simp only [handleEthFrame, loading, type_value frame header, opcode_value frame size,
    offset_value frame size, length_value frame size, type, opcode, if_true,
    if_neg (not_lt.mpr size), if_neg (not_lt.mpr guards.1), if_neg (not_lt.mpr guards.2)]
  rfl

theorem handleEthFrame_request (board : Board) (frame : Frame) (request : IsRequest frame) :
    handleEthFrame board frame =
      ⟨[EthHeader.type, TestPacket.opcode, EthHeader.src], [],
        sendArena board (EthHeader.src.bytes frame)⟩ := by
  obtain ⟨size, type, opcode⟩ := request
  have header : EthHeader.size ≤ frame.length := le_trans (by decide) size
  have differ : opcodeReq ≠ opcodeBuf := by decide
  simp only [handleEthFrame, loading, type_value frame header, opcode_value frame size,
    type, opcode, if_true, if_neg (not_lt.mpr size), if_neg differ]

/-- Every other frame leaves the board alone, and only a frame long enough for
the whole header has more than its type loaded. -/
theorem handleEthFrame_ignored (board : Board) (frame : Frame)
    (header : EthHeader.size ≤ frame.length)
    (noCopy : ¬ (IsDataPacket frame ∧ GuardsPass frame)) (noRequest : ¬ IsRequest frame) :
    (handleEthFrame board frame).copies = [] ∧
      (handleEthFrame board frame).board = some board ∧
      ∀ field ∈ (handleEthFrame board frame).loads,
        field = EthHeader.type ∨ field ∈ dataLoads ∧ TestPacket.size ≤ frame.length := by
  simp only [handleEthFrame, loading, type_value frame header]
  by_cases type : EthHeader.type.value frame = etherType
  · by_cases short : frame.length < TestPacket.size
    · simp [type, short, Handling.returned]
    · have size : TestPacket.size ≤ frame.length := not_lt.mp short
      simp only [opcode_value frame size, offset_value frame size, length_value frame size]
      by_cases data : TestPacket.opcode.value frame = opcodeBuf
      · have failed : ¬ GuardsPass frame := fun guards => noCopy ⟨⟨size, type, data⟩, guards⟩
        by_cases first : frame.length < wrap32 (TestPacket.size + TestPacket.length.value frame)
        · simp [type, short, data, first, Handling.returned, dataLoads, size]
        · have second : wrap32 (TestPacket.offset.value frame +
              TestPacket.length.value frame) > arenaSize := by
            by_contra fits
            exact failed ⟨not_lt.mp first, not_lt.mp fits⟩
          simp [type, short, data, first, second, Handling.returned, dataLoads, size]
      · have other : TestPacket.opcode.value frame ≠ opcodeReq := fun opcode =>
          noRequest ⟨size, type, opcode⟩
        simp [type, short, data, other, Handling.returned, dataLoads, size]
  · simp [type, Handling.returned]

/-! ## Answering a request -/

theorem sendMemChunk_eq (board : Board) (mac : List UInt8) (offset length : Nat)
    (inArena : offset + length ≤ arenaSize)
    (inFrame : TestPacket.size + length ≤ boardEthBuffer) :
    sendMemChunk board mac offset length =
      some { board with sent := board.sent ++ [memChunkFrame board mac offset length] } :=
  if_pos ⟨inArena, inFrame⟩

theorem foldlM_sendMemChunk (mac : List UInt8) (offsets : List Nat)
    (fits : ∀ offset ∈ offsets, offset + chunkSize ≤ arenaSize) (board : Board) :
    offsets.foldlM (fun current offset => sendMemChunk current mac offset chunkSize) board =
      some { board with
        sent := board.sent ++ offsets.map fun offset =>
          memChunkFrame board mac offset chunkSize } := by
  induction offsets generalizing board with
  | nil => simp
  | cons offset rest ih =>
      have headFits : offset + chunkSize ≤ arenaSize := fits offset (List.mem_cons_self ..)
      have restFits : ∀ offset ∈ rest, offset + chunkSize ≤ arenaSize := fun offset member =>
        fits offset (List.mem_cons_of_mem _ member)
      have room : TestPacket.size + chunkSize ≤ boardEthBuffer := by decide
      rw [List.foldlM_cons, sendMemChunk_eq board mac offset chunkSize headFits room,
        Option.bind_eq_bind, Option.bind_some, ih restFits]
      -- the frames depend on the address and the arena only, which sending keeps
      simp only [List.map_cons, List.append_assoc, List.singleton_append]
      rfl

theorem chunkOffsets_fit : ∀ offset ∈ chunkOffsets, offset + chunkSize ≤ arenaSize := by
  decide

def replies (board : Board) (mac : List UInt8) : List Frame :=
  chunkOffsets.map fun offset => memChunkFrame board mac offset chunkSize

theorem sendArena_eq (board : Board) (mac : List UInt8) :
    sendArena board mac = some { board with sent := board.sent ++ replies board mac } :=
  foldlM_sendMemChunk mac chunkOffsets chunkOffsets_fit board

end HalmExamples.EthRaw
