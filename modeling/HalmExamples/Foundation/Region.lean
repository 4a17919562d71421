import Mathlib.Data.List.Basic

/-!
# Fixed-size regions

A region is a list of cells that carries its own size.  `window` and `splice`
are the reading and the writing of a contiguous range of a list; on a region
a write exists only where its range fits.
-/

set_option autoImplicit false

namespace Foundation

section Window
variable {α : Type}

/-- The `count` cells from `start` on, as far as there are that many. -/
def window (cells : List α) (start count : Nat) : List α :=
  (cells.drop start).take count

/-- The cells of `data` put in place of those from `start` on. -/
def splice (cells : List α) (start : Nat) (data : List α) : List α :=
  cells.take start ++ data ++ cells.drop (start + data.length)

theorem window_length (cells : List α) (start count : Nat) :
    (window cells start count).length = min count (cells.length - start) := by
  simp [window]

theorem window_length_of_fits (cells : List α) (start count : Nat)
    (fits : start + count ≤ cells.length) : (window cells start count).length = count := by
  rw [window_length]
  omega

theorem window_getElem? (cells : List α) (start count index : Nat) :
    (window cells start count)[index]? =
      if index < count then cells[start + index]? else none := by
  simp [window, List.getElem?_take, List.getElem?_drop]

theorem window_append_drop (cells : List α) (start count : Nat) :
    window cells start count ++ cells.drop (start + count) = cells.drop start := by
  rw [window, ← List.drop_drop]
  exact List.take_append_drop count (cells.drop start)

theorem window_eq_iff (left right : List α) (start count : Nat) :
    window left start count = window right start count ↔
      ∀ index, start ≤ index → index < start + count → left[index]? = right[index]? := by
  constructor
  · intro same index low high
    have read := congrArg (fun cells => cells[index - start]?) same
    simp only [window_getElem?, if_pos (show index - start < count by omega)] at read
    rwa [show start + (index - start) = index by omega] at read
  · intro agree
    apply List.ext_getElem?
    intro index
    rw [window_getElem?, window_getElem?]
    split
    · exact agree (start + index) (by omega) (by omega)
    · rfl

theorem window_append_left (cells rest : List α) (start count : Nat)
    (fits : start + count ≤ cells.length) :
    window (cells ++ rest) start count = window cells start count := by
  rw [window, window, List.drop_append_of_le_length (by omega)]
  exact List.take_append_of_le_length (by rw [List.length_drop]; omega)

theorem window_append_right (cells rest : List α) (start count : Nat)
    (past : cells.length ≤ start) :
    window (cells ++ rest) start count = window rest (start - cells.length) count := by
  rw [window, window, List.drop_append, List.drop_eq_nil_of_le past, List.nil_append]

theorem window_take (cells : List α) (limit start count : Nat)
    (inside : start + count ≤ limit) :
    window (cells.take limit) start count = window cells start count := by
  rw [window, window, List.drop_take, List.take_take, Nat.min_eq_left (by omega)]

theorem window_whole (cells : List α) (count : Nat) (all : cells.length ≤ count) :
    window cells 0 count = cells := by
  rw [window, List.drop_zero]
  exact List.take_of_length_le all

theorem splice_length (cells data : List α) (start : Nat)
    (fits : start + data.length ≤ cells.length) :
    (splice cells start data).length = cells.length := by
  simp only [splice, List.length_append, List.length_take, List.length_drop]
  omega

theorem splice_getElem? (cells data : List α) (start index : Nat)
    (fits : start + data.length ≤ cells.length) :
    (splice cells start data)[index]? =
      if start ≤ index ∧ index < start + data.length then data[index - start]?
      else cells[index]? := by
  have takeLength : (cells.take start).length = start := by
    rw [List.length_take]
    omega
  rw [splice, List.append_assoc]
  by_cases before : index < start
  · rw [List.getElem?_append_left (by omega), List.getElem?_take, if_pos before,
      if_neg (by omega)]
  · rw [List.getElem?_append_right (by omega), takeLength]
    by_cases inside : index < start + data.length
    · rw [List.getElem?_append_left (by omega), if_pos ⟨by omega, inside⟩]
    · rw [List.getElem?_append_right (by omega), List.getElem?_drop, if_neg (by omega)]
      congr 1
      omega

theorem splice_middle (front old data back : List α) (same : old.length = data.length) :
    splice (front ++ old ++ back) front.length data = front ++ data ++ back := by
  have before : (front ++ old ++ back).take front.length = front := by
    rw [List.append_assoc]
    exact List.take_left
  have behind : (front ++ old ++ back).drop (front.length + data.length) = back :=
    List.drop_left' (by rw [List.length_append, same])
  rw [splice, before, behind]

theorem window_split (cells : List α) (start count part : Nat) (inside : part ≤ count) :
    window cells start count =
      window cells start part ++ window cells (start + part) (count - part) := by
  rw [window, window, window, ← List.drop_drop, ← List.take_add, Nat.add_sub_cancel' inside]

theorem window_splice (cells data : List α) (start : Nat) (inside : start ≤ cells.length) :
    window (splice cells start data) start data.length = data := by
  have before : (cells.take start).length = start := by
    rw [List.length_take]
    omega
  rw [window, splice, List.append_assoc, List.drop_append_of_le_length (by omega),
    List.drop_eq_nil_of_le (by omega), List.nil_append]
  exact List.take_left

/-- Writing a window of `source` to its own place copies it. -/
theorem splice_window_getElem? (cells source : List α) (start count index : Nat)
    (same : source.length = cells.length) (fits : start + count ≤ cells.length) :
    (splice cells start (window source start count))[index]? =
      if start ≤ index ∧ index < start + count then source[index]? else cells[index]? := by
  have exactLength : (window source start count).length = count :=
    window_length_of_fits source start count (by omega)
  rw [splice_getElem? _ _ _ _ (by rw [exactLength]; exact fits), exactLength]
  split
  · rename_i inside
    rw [window_getElem?, if_pos (by omega), show start + (index - start) = index by omega]
  · rfl

end Window

@[ext] structure Region (α : Type) (size : Nat) where
  cells : List α
  length_eq : cells.length = size

namespace Region
variable {α : Type} {size : Nat}

instance [DecidableEq α] : DecidableEq (Region α size) := fun left right =>
  decidable_of_iff (left.cells = right.cells) Region.ext_iff.symm

def filled (size : Nat) (cell : α) : Region α size :=
  ⟨List.replicate size cell, List.length_replicate⟩

theorem filled_getElem? (cell : α) (index : Nat) (inside : index < size) :
    (filled size cell).cells[index]? = some cell := by
  rw [filled, List.getElem?_replicate, if_pos inside]

/-- Overwriting the cells from `start` on; there is no result where the data
would leave the region. -/
def write? (region : Region α size) (start : Nat) (data : List α) :
    Option (Region α size) :=
  if fits : start + data.length ≤ size then
    some ⟨splice region.cells start data, by
      rw [splice_length _ _ _ (by rw [region.length_eq]; exact fits), region.length_eq]⟩
  else none

theorem write?_eq_some (region : Region α size) (start : Nat) (data : List α)
    (fits : start + data.length ≤ size) :
    ∃ written, region.write? start data = some written ∧
      written.cells = splice region.cells start data := by
  simp only [write?, dif_pos fits]
  exact ⟨_, rfl, rfl⟩

end Region

end Foundation
