import HalmExamples.Foundation.Numeral
import HalmExamples.Foundation.TextBuffer

/-!
# The hex dump of received bytes

`onSerialEvent` of `generic_default/serial/main.c`.  Plain `char` is signed on the host,
so a byte is extended to `int` before it is shifted, and from 0x80 on the bits that come
in are ones: the high digit then falls outside of the hexadecimal digits.
-/

set_option autoImplicit false

namespace HalmExamples.Serial

open Foundation Foundation.Numeral

abbrev bufferSize : Nat := 64

/-- `value + (value < 10 ? 0x30 : 0x37)`, narrowed back to a byte. -/
def binToHex (value : UInt8) : UInt8 := value + if value < 10 then 0x30 else 0x37

def highNibble (character : Int8) : UInt8 := (character.toInt32 >>> 4).toInt8.toUInt8

def lowNibble (character : Int8) : UInt8 := (character.toInt32 &&& 0x0F).toInt8.toUInt8

/-- `char serialized[BUFFER_SIZE * 4]` and `position`. -/
abbrev Serialized := TextBuffer UInt8 (bufferSize * 4)

/-- The loop over `i`; a store outside of the array has no result. -/
def putBytes (length : Nat) : Nat → List Int8 → Serialized → Option Serialized
  | _, [], position => some position
  | i, character :: rest, position =>
      (position.put [binToHex (highNibble character)]).bind fun position =>
        (position.put [binToHex (lowNibble character)]).bind fun position =>
          (if i ≠ length - 1 then position.put [0x20] else some position).bind fun position =>
            putBytes length (i + 1) rest position

def opening : List UInt8 := [0x52, 0x58, 0x3A, 0x20, 0x5B]

def closing : List UInt8 := [0x5D, 0x0D, 0x0A]

def serialize (array : Region UInt8 (bufferSize * 4)) (buffer : List Int8) : Option Serialized :=
  ((TextBuffer.start array).putTerminated 0 opening).bind fun position =>
    (putBytes buffer.length 0 buffer position).bind fun position =>
      position.putTerminated 0 closing

structure Handled where
  counter : UInt64
  /-- The string that `printf` gets, if it is called. -/
  format : Option (List UInt8)
  deriving DecidableEq

/-- `onSerialEvent`; `received` is what `ifRead` has put into `buffer`. -/
def onSerialEvent (array : Region UInt8 (bufferSize * 4)) (counter : UInt64)
    (received : List UInt8) : Option Handled :=
  if 0 < received.length then
    (serialize array (received.map UInt8.toInt8)).map fun serialized =>
      { counter := counter + UInt64.ofNat received.length, format := some (serialized.upTo 0) }
  else some { counter := counter + UInt64.ofNat received.length, format := none }

/-! ## What is written -/

def digits (byte : UInt8) : List UInt8 :=
  [binToHex (highNibble byte.toInt8), binToHex (lowNibble byte.toInt8)]

def between (pieces : List (List UInt8)) : List UInt8 :=
  opening ++ [0x20].intercalate pieces ++ closing

/-- The dump as it should be. -/
def rendering (bytes : List UInt8) : List UInt8 :=
  between (bytes.map fun byte => hexText 2 byte.toNat)

/-- Read a dump: cut off its ends and split the rest at the spaces. -/
def recover (text : List UInt8) : Option (List UInt8) :=
  ((((text.drop 5).take (text.length - 8)).splitOn 0x20).mapM (read? 16 hexDigit?)).map fun bytes =>
    bytes.map UInt8.ofNat

theorem byte_all (property : UInt8 → Prop) (all : ∀ value : Fin 256, property (UInt8.ofNat value))
    (byte : UInt8) : property byte := by
  have here := all ⟨byte.toNat, byte.toNat_lt⟩
  rwa [UInt8.ofNat_toNat] at here

theorem digits_eq_hexText_iff (byte : UInt8) : digits byte = hexText 2 byte.toNat ↔ byte < 0x80 :=
  byte_all (fun byte => digits byte = hexText 2 byte.toNat ↔ byte < 0x80) (by decide +kernel) byte

/-- No character of a byte ends the string, separates two bytes or starts a conversion. -/
theorem digits_clean (byte : UInt8) :
    ∀ character ∈ digits byte, character ≠ 0 ∧ character ≠ 0x20 ∧ character ≠ 0x25 := by
  have all := byte_all (fun byte => (digits byte).all (fun character =>
    character ≠ 0 ∧ character ≠ 0x20 ∧ character ≠ 0x25) = true) (by decide +kernel) byte
  exact fun character member => of_decide_eq_true (List.all_eq_true.mp all character member)

theorem hexText_clean (byte : UInt8) :
    ∀ character ∈ hexText 2 byte.toNat, character ≠ 0x20 ∧ character ≠ 0x25 := by
  have all := byte_all (fun byte => (hexText 2 byte.toNat).all (fun character =>
    character ≠ 0x20 ∧ character ≠ 0x25) = true) (by decide +kernel) byte
  exact fun character member => of_decide_eq_true (List.all_eq_true.mp all character member)

/-- What the loop leaves in the array, from its first byte on or in the middle. -/
theorem putBytes_holds (length : Nat) (rest : List UInt8) (i : Nat) (text : List UInt8)
    (position : Serialized) (holds : position.Holds text) (counted : i + rest.length = length)
    (fits : text.length + 3 * rest.length ≤ bufferSize * 4) :
    ∃ next, putBytes length i (rest.map UInt8.toInt8) position = some next ∧
      next.Holds (text ++ [0x20].intercalate (rest.map digits)) := by
  induction rest generalizing i text position with
  | nil => exact ⟨position, rfl, by simpa using holds⟩
  | cons byte rest ih =>
      rw [List.length_cons] at counted fits
      obtain ⟨first, putHigh, holdsHigh⟩ := TextBuffer.put_holds text
        [binToHex (highNibble byte.toInt8)] position holds (by rw [List.length_singleton]; omega)
      obtain ⟨second, putLow, holdsLow⟩ := TextBuffer.put_holds _
        [binToHex (lowNibble byte.toInt8)] first holdsHigh (by simp; omega)
      rw [List.append_assoc] at holdsLow
      change second.Holds (text ++ digits byte) at holdsLow
      have both : (text ++ digits byte).length = text.length + 2 := List.length_append
      simp only [List.map_cons, putBytes, putHigh, putLow, Option.bind_some]
      by_cases last : i = length - 1
      · have none : rest = [] := List.length_eq_zero_iff.mp (by omega)
        subst none
        refine ⟨second, by simp [last, putBytes], ?_⟩
        simpa using holdsLow
      · obtain ⟨third, putSpace, holdsSpace⟩ := TextBuffer.put_holds _ [0x20] second holdsLow
          (by rw [both, List.length_singleton]; omega)
        obtain ⟨final, done, holdsFinal⟩ := ih (i + 1) _ third holdsSpace (by omega)
          (by rw [List.length_append, both, List.length_singleton]; omega)
        refine ⟨final, by simp [last, putSpace, done], ?_⟩
        have more : rest.map digits ≠ [] := by
          intro none
          have := List.length_eq_zero_iff.mpr none
          rw [List.length_map] at this
          omega
        rw [List.intercalate_cons_of_ne_nil more]
        simpa [List.append_assoc] using holdsFinal

theorem intercalate_length (pieces : List (List UInt8)) (two : ∀ piece ∈ pieces, piece.length = 2)
    (some : pieces ≠ []) : ([0x20].intercalate pieces).length + 1 = 3 * pieces.length := by
  induction pieces with
  | nil => exact absurd rfl some
  | cons piece rest ih =>
      have here := two piece List.mem_cons_self
      cases rest with
      | nil => simp [here]
      | cons next rest =>
          have later := ih (fun other member => two other (List.mem_cons_of_mem piece member))
            (List.cons_ne_nil next rest)
          rw [List.intercalate_cons_cons, List.length_append, List.length_append, here,
            List.length_singleton, List.length_cons]
          omega

theorem between_length (pieces : List (List UInt8)) (two : ∀ piece ∈ pieces, piece.length = 2)
    (some : pieces ≠ []) : (between pieces).length = 3 * pieces.length + 7 := by
  have middle := intercalate_length pieces two some
  rw [between, List.length_append, List.length_append]
  simp only [opening, closing, List.length_cons, List.length_nil]
  omega

/-- A character between the ends is that of a piece, or a space. -/
theorem mem_between (pieces : List (List UInt8)) (character : UInt8)
    (member : character ∈ between pieces) :
    character ∈ opening ∨ character ∈ closing ∨ character = 0x20 ∨
      ∃ piece ∈ pieces, character ∈ piece := by
  rw [between, List.mem_append, List.mem_append] at member
  rcases member with (first | middle) | last
  · exact Or.inl first
  · refine Or.inr (Or.inr ?_)
    induction pieces with
    | nil => simp at middle
    | cons piece rest ih =>
        by_cases none : rest = []
        · subst none
          rw [List.intercalate_singleton] at middle
          exact Or.inr ⟨piece, List.mem_cons_self, middle⟩
        · rw [List.intercalate_cons_of_ne_nil none, List.mem_append, List.mem_append,
            List.mem_singleton] at middle
          rcases middle with (here | space) | later
          · exact Or.inr ⟨piece, List.mem_cons_self, here⟩
          · exact Or.inl space
          · refine (ih later).imp_right ?_
            rintro ⟨other, inside, found⟩
            exact ⟨other, List.mem_cons_of_mem piece inside, found⟩
  · exact Or.inr (Or.inl last)

/-- The ends are cut off, and what is between them is split where it was joined. -/
theorem splitOn_between (pieces : List (List UInt8)) (clean : ∀ piece ∈ pieces, 0x20 ∉ piece)
    (some : pieces ≠ []) :
    (((between pieces).drop 5).take ((between pieces).length - 8)).splitOn 0x20 = pieces := by
  have length : (between pieces).length - 8 = ([0x20].intercalate pieces).length := by
    rw [between, List.length_append, List.length_append]
    simp only [opening, closing, List.length_cons, List.length_nil]
    omega
  have dropped : (between pieces).drop 5 = [0x20].intercalate pieces ++ closing := by
    rw [between, List.append_assoc]
    exact List.drop_left' rfl
  rw [length, dropped, List.take_left, List.splitOn_intercalate 0x20 clean some]

theorem onSerialEvent_eq (array : Region UInt8 (bufferSize * 4)) (counter : UInt64)
    (received : List UInt8) (some : 0 < received.length) (fits : received.length ≤ bufferSize) :
    onSerialEvent array counter received = .some
      { counter := counter + UInt64.ofNat received.length
        format := .some (between (received.map digits)) } := by
  have pieces : received.map digits ≠ [] := by
    simpa using List.length_pos_iff.mp some
  have two : ∀ piece ∈ received.map digits, piece.length = 2 := by
    intro piece member
    obtain ⟨byte, _, rfl⟩ := List.mem_map.mp member
    rfl
  have length := intercalate_length (received.map digits) two pieces
  have size : bufferSize = 64 := rfl
  rw [List.length_map] at length
  obtain ⟨first, putOpening, holdsOpening, _⟩ := TextBuffer.putTerminated_holds 0 [] opening
    (TextBuffer.start array) (TextBuffer.holds_start array) (by decide)
  rw [List.nil_append] at holdsOpening
  obtain ⟨second, putMiddle, holdsMiddle⟩ := putBytes_holds received.length received 0 opening first
    holdsOpening (Nat.zero_add _) (by simp only [opening, List.length_cons, List.length_nil]; omega)
  obtain ⟨third, putClosing, holdsClosing, ended⟩ := TextBuffer.putTerminated_holds 0 _ closing
    second holdsMiddle (by
      rw [List.length_append]
      simp only [opening, closing, List.length_cons, List.length_nil]
      omega)
  have serialized : serialize array (received.map UInt8.toInt8) = .some third := by
    rw [serialize, putOpening, Option.bind_some, List.length_map, putMiddle, Option.bind_some,
      putClosing]
  have clean : 0 ∉ between (received.map digits) := by
    intro member
    rcases mem_between _ _ member with first | last | space | ⟨piece, inside, found⟩
    · exact absurd first (by decide)
    · exact absurd last (by decide)
    · exact absurd space (by decide)
    · obtain ⟨byte, _, rfl⟩ := List.mem_map.mp inside
      exact (digits_clean byte 0 found).1 rfl
  rw [onSerialEvent, if_pos some, serialized, Option.map_some,
    TextBuffer.upTo_eq 0 _ third holdsClosing clean ended]
  rfl

theorem between_injective (pieces others : List (List UInt8))
    (clean : ∀ piece ∈ pieces, 0x20 ∉ piece) (othersClean : ∀ piece ∈ others, 0x20 ∉ piece)
    (some : pieces ≠ []) (othersSome : others ≠ []) (same : between pieces = between others) :
    pieces = others := by
  rw [← splitOn_between pieces clean some, ← splitOn_between others othersClean othersSome, same]

section Rendering
variable (bytes : List UInt8)

theorem rendering_pieces_clean :
    ∀ piece ∈ bytes.map (fun byte => hexText 2 byte.toNat), 0x20 ∉ piece := by
  intro piece member space
  obtain ⟨byte, _, rfl⟩ := List.mem_map.mp member
  exact (hexText_clean byte _ space).1 rfl

theorem rendering_length (some : 0 < bytes.length) :
    (rendering bytes).length = 3 * bytes.length + 7 := by
  rw [rendering, between_length, List.length_map]
  · intro piece member
    obtain ⟨byte, _, rfl⟩ := List.mem_map.mp member
    exact hexText_length 2 byte.toNat
  · simpa using List.length_pos_iff.mp some

/-- The text is its own format: it contains no percent sign. -/
theorem rendering_verbatim : 0x25 ∉ rendering bytes := by
  intro member
  rcases mem_between _ _ member with first | last | space | ⟨piece, inside, found⟩
  · exact absurd first (by decide)
  · exact absurd last (by decide)
  · exact absurd space (by decide)
  · obtain ⟨byte, _, rfl⟩ := List.mem_map.mp inside
    exact (hexText_clean byte _ found).2 rfl

theorem recover_rendering (some : 0 < bytes.length) :
    recover (rendering bytes) = .some bytes := by
  rw [recover, rendering, splitOn_between _ (rendering_pieces_clean bytes)
    (by simpa using List.length_pos_iff.mp some)]
  have read : (bytes.map fun byte => hexText 2 byte.toNat).mapM (read? 16 hexDigit?) =
      .some (bytes.map UInt8.toNat) := by
    clear some
    induction bytes with
    | nil => rfl
    | cons byte rest ih =>
        have here := read?_hexText 2 byte.toNat byte.toNat_lt
        rw [List.map_cons, List.mapM_cons, here, ih]
        rfl
  rw [read, Option.map_some, List.map_map]
  congr 1
  exact (List.map_congr_left fun byte _ => UInt8.ofNat_toNat).trans (List.map_id bytes)

end Rendering

/-- The string handed to `printf` is the dump, fits into the array with its terminator, has
no conversion in it and can be read back. -/
structure Dumped (array : Region UInt8 (bufferSize * 4)) (counter : UInt64)
    (received : List UInt8) : Prop where
  text : ∃ handled, onSerialEvent array counter received = some handled ∧
    handled.format = some (rendering received)
  fits : (rendering received).length + 1 ≤ bufferSize * 4
  verbatim : 0x25 ∉ rendering received
  recovered : recover (rendering received) = some received

theorem dumped_iff (array : Region UInt8 (bufferSize * 4)) (counter : UInt64)
    (received : List UInt8) (some : 0 < received.length) (fits : received.length ≤ bufferSize) :
    Dumped array counter received ↔ ∀ byte ∈ received, byte < 0x80 := by
  have pieces : received.map digits ≠ [] := by
    simpa using List.length_pos_iff.mp some
  have clean : ∀ piece ∈ received.map digits, 0x20 ∉ piece := by
    intro piece member space
    obtain ⟨byte, _, rfl⟩ := List.mem_map.mp member
    exact (digits_clean byte _ space).2.1 rfl
  have same : between (received.map digits) = rendering received ↔
      ∀ byte ∈ received, byte < 0x80 := by
    constructor
    · intro text byte member
      have equal := between_injective _ _ clean (rendering_pieces_clean received) pieces
        (by simpa using List.length_pos_iff.mp some) text
      exact (digits_eq_hexText_iff byte).mp (List.map_inj_left.mp equal byte member)
    · intro lower
      rw [rendering, List.map_congr_left fun byte member =>
        (digits_eq_hexText_iff byte).mpr (lower byte member)]
  have handled := onSerialEvent_eq array counter received some fits
  rw [← same]
  constructor
  · intro dumped
    obtain ⟨result, returned, text⟩ := dumped.text
    rw [handled, Option.some.injEq] at returned
    rw [← returned] at text
    exact Option.some.inj text
  · intro text
    refine ⟨⟨_, handled, by rw [text]⟩, ?_, rendering_verbatim received,
      recover_rendering received some⟩
    rw [rendering_length received some]
    have size : bufferSize = 64 := rfl
    omega

theorem dumped_of_ascii : Dumped (Region.filled _ 0) 7 [0x4F, 0x4B, 0x0D] :=
  (dumped_iff (Region.filled _ 0) 7 [0x4F, 0x4B, 0x0D] (by decide) (by decide)).mpr (by simp)

/-- `0xA5` is shown as `15`. -/
theorem high_byte_misprinted :
    ∃ handled, onSerialEvent (Region.filled _ 0) 0 [0xA5] = some handled ∧
      handled.format = some (opening ++ [0x31, 0x35] ++ closing) ∧
      handled.format ≠ some (rendering [0xA5]) := by
  refine ⟨_, onSerialEvent_eq (Region.filled _ 0) 0 [0xA5] (by decide) (by decide), ?_, ?_⟩ <;>
    decide

end HalmExamples.Serial
