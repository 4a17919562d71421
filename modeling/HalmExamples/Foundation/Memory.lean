import Mathlib.Data.List.Basic
import Mathlib.Logic.Function.Basic

/-!
# Segments of a memory

A memory gives every cell a value, and a segment lists the cells from a base
on.  A store outside a segment leaves it, and a store right behind it extends
it.
-/

set_option autoImplicit false

namespace Foundation

section Cells
variable {α : Type}

def cellsFrom (memory : Nat → α) (base count : Nat) : List α :=
  (List.range count).map fun index => memory (base + index)

@[simp] theorem cellsFrom_length (memory : Nat → α) (base count : Nat) :
    (cellsFrom memory base count).length = count := by
  simp [cellsFrom]

@[simp] theorem cellsFrom_zero (memory : Nat → α) (base : Nat) : cellsFrom memory base 0 = [] := rfl

theorem cellsFrom_succ (memory : Nat → α) (base count : Nat) :
    cellsFrom memory base (count + 1) = cellsFrom memory base count ++ [memory (base + count)] := by
  simp [cellsFrom, List.range_succ]

theorem cellsFrom_cons (memory : Nat → α) (base count : Nat) :
    cellsFrom memory base (count + 1) = memory base :: cellsFrom memory (base + 1) count := by
  simp [cellsFrom, List.range_succ_eq_map, Nat.add_assoc, Nat.add_comm 1]

theorem cellsFrom_take (memory : Nat → α) (base count limit : Nat) (inside : limit ≤ count) :
    (cellsFrom memory base count).take limit = cellsFrom memory base limit := by
  rw [cellsFrom, ← List.map_take, List.take_range, Nat.min_eq_left inside, cellsFrom]

theorem cellsFrom_update_outside (memory : Nat → α) (base count cell : Nat) (value : α)
    (outside : cell < base ∨ base + count ≤ cell) :
    cellsFrom (Function.update memory cell value) base count = cellsFrom memory base count := by
  apply List.map_congr_left
  intro index member
  have inside := List.mem_range.mp member
  have other : base + index ≠ cell := by omega
  rw [Function.update_of_ne other]

theorem cellsFrom_update_end (memory : Nat → α) (base count : Nat) (value : α) :
    cellsFrom (Function.update memory (base + count) value) base (count + 1) =
      cellsFrom memory base count ++ [value] := by
  rw [cellsFrom_succ, cellsFrom_update_outside _ _ _ _ _ (Or.inr (Nat.le_refl _)),
    Function.update_self]

theorem cellsFrom_congr (left right : Nat → α) (base count : Nat)
    (agree : ∀ cell, base ≤ cell → cell < base + count → left cell = right cell) :
    cellsFrom left base count = cellsFrom right base count := by
  apply List.map_congr_left
  intro index member
  have inside := List.mem_range.mp member
  exact agree (base + index) (by omega) (by omega)

def overwrite (memory : Nat → α) (base : Nat) (data : List α) (cell : Nat) : α :=
  if base ≤ cell then data[cell - base]?.getD (memory cell) else memory cell

theorem overwrite_outside (memory : Nat → α) (base cell : Nat) (data : List α)
    (outside : cell < base ∨ base + data.length ≤ cell) :
    overwrite memory base data cell = memory cell := by
  unfold overwrite
  split
  · rw [List.getElem?_eq_none (by omega), Option.getD_none]
  · rfl

theorem cellsFrom_overwrite (memory : Nat → α) (base : Nat) (data : List α) :
    cellsFrom (overwrite memory base data) base data.length = data := by
  apply List.ext_getElem
  · rw [cellsFrom_length]
  · intro index _ inside
    simp [cellsFrom, overwrite, inside]

end Cells

end Foundation
