import HalmExamples.Foundation.Numeral
import HalmExamples.Foundation.Region

/-!
# The marker of a written block

`markBuffer` of the templates `mmcsd.jinja2` and `mmcsd_spi.jinja2`, which is the same in
both.  The shifted number is narrowed to a byte and not to a digit, so each character but
the first is computed from two digits.
-/

set_option autoImplicit false

namespace HalmExamples.MmcSd

open Foundation Foundation.Numeral

def beginMark : List UInt8 := [0x00, 0x11, 0x22, 0x33]

def endMark : List UInt8 := [0xCC, 0xDD, 0xEE, 0xFF]

/-- `nibble < 10 ? nibble + '0' : nibble + 'A' - 10`, stored in a byte. -/
def nibbleChar (nibble : UInt8) : UInt8 := if nibble < 10 then nibble + 0x30 else nibble + 0x41 - 10

/-- The loop over `i`, which is one less than the count of digits that are left. -/
def hexLoop (iteration : UInt32) : Nat → List UInt8
  | 0 => []
  | i + 1 => nibbleChar (iteration >>> UInt32.ofNat (i * 4)).toUInt8 :: hexLoop iteration i

def markBuffer {size : Nat} (buffer : Region UInt8 size) (iteration : UInt32) :
    Option (Region UInt8 size) :=
  let hex := hexLoop iteration 8
  if 24 ≤ size then
    (buffer.write? (4 + 8) (List.replicate (size - 24) 0)).bind fun buffer =>
      (buffer.write? 0 beginMark).bind fun buffer =>
        (buffer.write? 4 hex).bind fun buffer =>
          (buffer.write? (size - 8 - 4) endMark).bind fun buffer =>
            buffer.write? (size - 8) hex
  else none

def layout (size : Nat) (hex : List UInt8) : List UInt8 :=
  beginMark ++ hex ++ List.replicate (size - 24) 0 ++ endMark ++ hex

theorem hexLoop_length (iteration : UInt32) (count : Nat) :
    (hexLoop iteration count).length = count := by
  induction count with
  | zero => rfl
  | succ count ih => rw [hexLoop, List.length_cons, ih]

/-! ## The five writes -/

theorem write?_middle {size : Nat} (buffer : Region UInt8 size) (front old data back : List UInt8)
    (cells : buffer.cells = front ++ old ++ back) (same : old.length = data.length) :
    ∃ written, buffer.write? front.length data = some written ∧
      written.cells = front ++ data ++ back := by
  have length := buffer.length_eq
  rw [cells, List.length_append, List.length_append] at length
  obtain ⟨written, wrote, is⟩ := buffer.write?_eq_some front.length data (by omega)
  exact ⟨written, wrote, by rw [is, cells, splice_middle _ _ _ _ same]⟩

theorem exists_parts (cells : List UInt8) (count : Nat) (fits : count ≤ cells.length) :
    ∃ front back, cells = front ++ back ∧ front.length = count ∧
      back.length = cells.length - count :=
  ⟨cells.take count, cells.drop count, (List.take_append_drop count cells).symm,
    by rw [List.length_take, Nat.min_eq_left fits], List.length_drop⟩

theorem markBuffer_eq {size : Nat} (buffer : Region UInt8 size) (iteration : UInt32)
    (fits : 24 ≤ size) :
    ∃ marked, markBuffer buffer iteration = some marked ∧
      marked.cells = layout size (hexLoop iteration 8) := by
  obtain ⟨hex, isHex⟩ : ∃ hex, hex = hexLoop iteration 8 := ⟨_, rfl⟩
  have digits : hex.length = 8 := by rw [isHex, hexLoop_length]
  have length := buffer.length_eq
  rw [← isHex]
  -- The old contents, in the places of the five new parts.
  obtain ⟨first, rest, split, firstLength, restLength⟩ := exists_parts buffer.cells 4 (by omega)
  obtain ⟨second, rest, rfl, secondLength, restLength⟩ := exists_parts rest 8 (by omega)
  obtain ⟨third, rest, rfl, thirdLength, restLength⟩ := exists_parts rest (size - 24) (by omega)
  obtain ⟨fourth, fifth, rfl, fourthLength, fifthLength⟩ := exists_parts rest 4 (by omega)
  have zeros : (List.replicate (size - 24) (0 : UInt8)).length = size - 24 := List.length_replicate
  obtain ⟨cleared, clear, cells⟩ := write?_middle buffer (first ++ second) third
    (List.replicate (size - 24) 0) (fourth ++ fifth) (by rw [split]; simp) (by omega)
  obtain ⟨begun, begins, cells⟩ := write?_middle cleared [] first beginMark
    (second ++ List.replicate (size - 24) 0 ++ fourth ++ fifth) (by rw [cells]; simp)
    (by rw [firstLength]; rfl)
  obtain ⟨numbered, numbers, cells⟩ := write?_middle begun beginMark second hex
    (List.replicate (size - 24) 0 ++ fourth ++ fifth) (by rw [cells]; simp) (by omega)
  obtain ⟨ended, ends, cells⟩ := write?_middle numbered
    (beginMark ++ hex ++ List.replicate (size - 24) 0) fourth endMark fifth
    (by rw [cells]; simp) (by rw [fourthLength]; rfl)
  obtain ⟨marked, marks, cells⟩ := write?_middle ended
    (beginMark ++ hex ++ List.replicate (size - 24) 0 ++ endMark) fifth hex []
    (by rw [cells]; simp) (by omega)
  have ofTwo : (first ++ second).length = 4 + 8 := by rw [List.length_append]; omega
  have ofThree : (beginMark ++ hex ++ List.replicate (size - 24) 0).length = size - 8 - 4 := by
    rw [List.length_append, List.length_append, zeros, digits]
    simp only [beginMark, List.length_cons, List.length_nil]
    omega
  have ofFour : (beginMark ++ hex ++ List.replicate (size - 24) 0 ++ endMark).length =
      size - 8 := by
    rw [List.length_append, ofThree]
    simp only [endMark, List.length_cons, List.length_nil]
    omega
  rw [ofTwo] at clear
  rw [ofThree] at ends
  rw [ofFour] at marks
  refine ⟨marked, ?_, by rw [cells, List.append_nil]; rfl⟩
  change cleared.write? 0 beginMark = some begun at begins
  change begun.write? 4 hex = some numbered at numbers
  simp only [markBuffer, if_pos fits, ← isHex, clear, begins, numbers, ends, Option.bind_some]
  exact marks

/-! ## The digits -/

theorem nibbleChar_eq_iff (nibble : UInt8) :
    nibbleChar nibble = hexSymbol (nibble.toNat % 16) ↔ nibble < 16 := by
  have all : ∀ value : Fin 256, nibbleChar (UInt8.ofNat value) =
      hexSymbol ((UInt8.ofNat value).toNat % 16) ↔ UInt8.ofNat value < 16 := by decide +kernel
  have here := all ⟨nibble.toNat, nibble.toNat_lt⟩
  rwa [UInt8.ofNat_toNat] at here

/-- With the digits above it known, a character still tells the digit. -/
theorem nibbleChar_injective (above left right : Nat) (leftFits : left < 16)
    (rightFits : right < 16) (same : nibbleChar (UInt8.ofNat (16 * above + left)) =
      nibbleChar (UInt8.ofNat (16 * above + right))) : left = right := by
  have all : ∀ above left right : Fin 16, nibbleChar (UInt8.ofNat (16 * above + left)) =
      nibbleChar (UInt8.ofNat (16 * above + right)) → left = right := by decide +kernel
  have lowest (digit : Nat) : UInt8.ofNat (16 * above + digit) =
      UInt8.ofNat (16 * (above % 16) + digit) := by
    apply UInt8.toNat_inj.mp
    rw [UInt8.toNat_ofNat', UInt8.toNat_ofNat']
    omega
  rw [lowest left, lowest right] at same
  exact congrArg Fin.val
    (all ⟨above % 16, Nat.mod_lt _ (by decide)⟩ ⟨left, leftFits⟩ ⟨right, rightFits⟩ same)

theorem shifted_toUInt8 (iteration : UInt32) (i : Nat) (inside : i < 8) :
    (iteration >>> UInt32.ofNat (i * 4)).toUInt8 = UInt8.ofNat (iteration.toNat / 16 ^ i) := by
  have amount : (UInt32.ofNat (i * 4)).toNat = i * 4 :=
    UInt32.toNat_ofNat_of_lt' (by rw [UInt32.size]; omega)
  apply UInt8.toNat_inj.mp
  rw [UInt32.toNat_toUInt8, UInt32.toNat_shiftRight, amount,
    Nat.mod_eq_of_lt (show i * 4 < 32 by omega), Nat.shiftRight_eq_div_pow, UInt8.toNat_ofNat',
    Nat.mul_comm, pow_mul]
  rfl

/-- Each digit is right where nothing above it is left in the byte. -/
theorem hexLoop_eq_iff (iteration : UInt32) (count : Nat) (inside : count ≤ 8) :
    hexLoop iteration count = hexText count iteration.toNat ↔
      ∀ i < count, iteration.toNat / 16 ^ i % 256 < 16 := by
  induction count with
  | zero => simp [hexLoop, hexText, digitsOf]
  | succ count ih =>
      have char := nibbleChar_eq_iff (UInt8.ofNat (iteration.toNat / 16 ^ count))
      rw [UInt8.lt_iff_toNat_lt, UInt8.toNat_ofNat', Nat.mod_mod_of_dvd _ (by decide)] at char
      rw [hexLoop, shifted_toUInt8 iteration count (by omega), hexText, digitsOf, List.map_cons,
        List.cons.injEq, char, ← hexText, ih (by omega)]
      constructor
      · rintro ⟨here, lower⟩ i below
        rcases Nat.lt_succ_iff_lt_or_eq.mp below with less | rfl
        · exact lower i less
        · exact here
      · exact fun all => ⟨all count (Nat.lt_succ_self count), fun i below => all i (by omega)⟩

/-- From the top down: a digit above the lowest would be left in the byte below it. -/
theorem lt_of_digits (number count : Nat) (fits : number < 16 ^ (count + 1))
    (digits : ∀ i < count, number / 16 ^ i % 256 < 16) : number < 16 := by
  induction count with
  | zero => simpa using fits
  | succ count ih =>
      refine ih ?_ fun i below => digits i (by omega)
      have here := digits count (Nat.lt_succ_self count)
      have positive : 0 < 16 ^ count := Nat.pow_pos (by decide)
      have small : number / 16 ^ count < 256 := by
        rw [Nat.div_lt_iff_lt_mul positive]
        calc number < 16 ^ (count + 1 + 1) := fits
          _ = 256 * 16 ^ count := by ring
      rw [Nat.mod_eq_of_lt small, Nat.div_lt_iff_lt_mul positive] at here
      rwa [pow_succ, Nat.mul_comm]

theorem hexLoop_eq_hexText_iff (iteration : UInt32) :
    hexLoop iteration 8 = hexText 8 iteration.toNat ↔ iteration < 16 := by
  rw [hexLoop_eq_iff iteration 8 (Nat.le_refl 8), UInt32.lt_iff_toNat_lt]
  constructor
  · intro digits
    exact lt_of_digits iteration.toNat 7 iteration.toNat_lt fun i below => digits i (by omega)
  · intro small i _
    have quotient : iteration.toNat / 16 ^ i ≤ iteration.toNat := Nat.div_le_self _ _
    have limit : (16 : UInt32).toNat = 16 := rfl
    rw [Nat.mod_eq_of_lt] <;> omega

/-- Misprinted or not, the digits differ where the numbers do. -/
theorem eq_of_hexLoop_eq (left right : UInt32) (count : Nat) (inside : count ≤ 8)
    (top : left.toNat / 16 ^ count = right.toNat / 16 ^ count)
    (same : hexLoop left count = hexLoop right count) : left = right := by
  induction count with
  | zero => exact UInt32.toNat_inj.mp (by simpa using top)
  | succ count ih =>
      simp only [hexLoop, List.cons.injEq] at same
      rw [shifted_toUInt8 left count (by omega), shifted_toUInt8 right count (by omega)] at same
      refine ih (by omega) ?_ same.2
      rw [pow_succ, ← Nat.div_div_eq_div_mul, ← Nat.div_div_eq_div_mul] at top
      generalize left.toNat / 16 ^ count = leftDigits at top same ⊢
      generalize right.toNat / 16 ^ count = rightDigits at top same ⊢
      have leftSplit := Nat.div_add_mod leftDigits 16
      have rightSplit := Nat.div_add_mod rightDigits 16
      have lowest := nibbleChar_injective (leftDigits / 16) (leftDigits % 16) (rightDigits % 16)
        (Nat.mod_lt _ (by decide)) (Nat.mod_lt _ (by decide))
        (by rw [leftSplit, top, rightSplit]; exact same.1)
      omega

theorem hexLoop_injective (left right : UInt32) (same : hexLoop left 8 = hexLoop right 8) :
    left = right := by
  refine eq_of_hexLoop_eq left right 8 (Nat.le_refl 8) ?_ same
  have limit : (16 : Nat) ^ 8 = 2 ^ 32 := rfl
  rw [limit, Nat.div_eq_of_lt left.toNat_lt, Nat.div_eq_of_lt right.toNat_lt]

/-! ## The marker -/

def readFront (block : List UInt8) : Option Nat := read? 16 hexDigit? (window block 4 8)

def readBack (block : List UInt8) : Option Nat :=
  read? 16 hexDigit? (window block (block.length - 8) 8)

section Layout
variable (size : Nat) (hex : List UInt8) (eight : hex.length = 8)
include eight

theorem layout_front : window (layout size hex) 4 8 = hex := by
  have split : layout size hex =
      beginMark ++ (hex ++ (List.replicate (size - 24) 0 ++ endMark ++ hex)) := by
    simp [layout]
  have four : beginMark.length = 4 := rfl
  rw [window, split, List.drop_left' four]
  exact List.take_left' eight

theorem layout_length (fits : 24 ≤ size) : (layout size hex).length = size := by
  simp only [layout, List.length_append, List.length_replicate, eight, beginMark, endMark,
    List.length_cons, List.length_nil]
  omega

theorem layout_back (fits : 24 ≤ size) :
    window (layout size hex) ((layout size hex).length - 8) 8 = hex := by
  have front : (beginMark ++ hex ++ List.replicate (size - 24) 0 ++ endMark).length = size - 8 := by
    simp only [List.length_append, List.length_replicate, eight, beginMark, endMark,
      List.length_cons, List.length_nil]
    omega
  rw [layout_length size hex eight fits, window, layout, List.drop_left' front]
  exact List.take_of_length_le (by rw [eight])

end Layout

/-- A block marked with `iteration`: it has the layout with the eight digits, they can be
read at either end, and no other number gives the same block from any buffer. -/
structure Marked {size : Nat} (buffer : Region UInt8 size) (iteration : UInt32)
    (block : Region UInt8 size) : Prop where
  returned : markBuffer buffer iteration = some block
  cells : block.cells = layout size (hexText 8 iteration.toNat)
  front : readFront block.cells = some iteration.toNat
  back : readBack block.cells = some iteration.toNat
  unique : ∀ previous other, markBuffer previous other = some block → other = iteration

theorem markBuffer_injective {size : Nat} (buffer previous block : Region UInt8 size)
    (left right : UInt32) (fits : 24 ≤ size) (first : markBuffer buffer left = some block)
    (second : markBuffer previous right = some block) : left = right := by
  obtain ⟨marked, marks, cells⟩ := markBuffer_eq buffer left fits
  obtain ⟨other, marksOther, otherCells⟩ := markBuffer_eq previous right fits
  cases first.symm.trans marks
  cases second.symm.trans marksOther
  have same := congrArg (window · 4 8) (cells.symm.trans otherCells)
  rw [layout_front size _ (hexLoop_length left 8), layout_front size _ (hexLoop_length right 8)]
    at same
  exact hexLoop_injective left right same

theorem marked_iff {size : Nat} (buffer : Region UInt8 size) (iteration : UInt32)
    (fits : 24 ≤ size) : (∃ block, Marked buffer iteration block) ↔ iteration < 16 := by
  obtain ⟨block, marks, cells⟩ := markBuffer_eq buffer iteration fits
  rw [← hexLoop_eq_hexText_iff]
  constructor
  · rintro ⟨marked, returned, layouts, -⟩
    cases marks.symm.trans returned
    have same := congrArg (window · 4 8) (cells.symm.trans layouts)
    rwa [layout_front size _ (hexLoop_length iteration 8),
      layout_front size _ (hexText_length 8 iteration.toNat)] at same
  · intro digits
    rw [digits] at cells
    have eight := hexText_length 8 iteration.toNat
    have read := read?_hexText 8 iteration.toNat iteration.toNat_lt
    refine ⟨block, marks, cells, ?_, ?_, ?_⟩
    · rw [readFront, cells, layout_front size _ eight, read]
    · rw [readBack, cells, layout_back size _ eight fits, read]
    · exact fun previous other same =>
        markBuffer_injective previous buffer block other iteration fits same marks

theorem marked_of_small : ∃ block, Marked (Region.filled 512 0xFF) 11 block :=
  (marked_iff (Region.filled 512 0xFF) 11 (by decide)).mpr (by decide)

/-- The eighth digit of 16 is printed as `G`. -/
theorem sixteen_misprinted :
    ∃ block, markBuffer (Region.filled 24 0) 16 = some block ∧
      block.cells ≠ layout 24 (hexText 8 16) := by
  obtain ⟨block, marks, cells⟩ := markBuffer_eq (Region.filled 24 0) 16 (by decide)
  refine ⟨block, marks, ?_⟩
  rw [cells]
  decide

end HalmExamples.MmcSd
