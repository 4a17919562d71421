import Mathlib.Data.List.Basic
import Mathlib.Logic.Function.Basic

/-!
# Memories with faults

An address is wired to some cell, possibly to one that other addresses are wired to as well, and
a cell reads back some function of what was stored in it last.  A pattern survives a store and a
load exactly if it does not tell apart the addresses of a cell and each cell reads its values
right.
-/

set_option autoImplicit false

namespace Foundation

structure Wiring (Cell α : Type) where
  cell : Nat → Cell
  reads : Cell → α → α

namespace Wiring
variable {Cell α : Type} (wiring : Wiring Cell α)

def load (content : Cell → α) (address : Nat) : α :=
  wiring.reads (wiring.cell address) (content (wiring.cell address))

def loadFrom (content : Cell → α) (base count : Nat) : List α :=
  (List.range count).map fun index => wiring.load content (base + index)

@[simp] theorem loadFrom_length (content : Cell → α) (base count : Nat) :
    (wiring.loadFrom content base count).length = count := by
  simp [loadFrom]

theorem loadFrom_getElem? (content : Cell → α) (base count index : Nat) (inside : index < count) :
    (wiring.loadFrom content base count)[index]? = some (wiring.load content (base + index)) := by
  simp [loadFrom, inside]

variable [DecidableEq Cell]

def storeFrom (content : Cell → α) (base : Nat) : List α → Cell → α
  | [] => content
  | value :: rest =>
      storeFrom (Function.update content (wiring.cell base) value) (base + 1) rest

theorem storeFrom_outside (content : Cell → α) (base : Nat) (data : List α) (cell : Cell)
    (apart : ∀ index < data.length, wiring.cell (base + index) ≠ cell) :
    wiring.storeFrom content base data cell = content cell := by
  induction data generalizing content base with
  | nil => rfl
  | cons value rest ih =>
      have first : wiring.cell base ≠ cell := apart 0 (Nat.succ_pos _)
      rw [storeFrom, ih, Function.update_of_ne (Ne.symm first)]
      intro index inside
      rw [Nat.add_assoc, Nat.add_comm 1]
      exact apart (index + 1) (Nat.succ_lt_succ inside)

theorem storeFrom_last (content : Cell → α) (base : Nat) (data : List α) (index : Nat)
    (inside : index < data.length) :
    ∃ last, ∃ within : last < data.length,
      wiring.cell (base + last) = wiring.cell (base + index) ∧
        wiring.storeFrom content base data (wiring.cell (base + index)) = data[last] := by
  induction data generalizing content base index with
  | nil => exact absurd inside (Nat.not_lt_zero _)
  | cons value rest ih =>
      rw [storeFrom]
      by_cases later : ∃ other < rest.length,
          wiring.cell (base + 1 + other) = wiring.cell (base + index)
      · obtain ⟨other, within, wired⟩ := later
        obtain ⟨last, lastWithin, sameCell, stored⟩ :=
          ih (Function.update content (wiring.cell base) value) (base + 1) other within
        rw [wired] at sameCell stored
        refine ⟨last + 1, Nat.succ_lt_succ lastWithin, ?_, stored⟩
        rw [← sameCell, Nat.add_assoc, Nat.add_comm 1]
      · have apart : ∀ other < rest.length,
            wiring.cell (base + 1 + other) ≠ wiring.cell (base + index) :=
          fun other within wired => later ⟨other, within, wired⟩
        have first : index = 0 := by
          cases index with
          | zero => rfl
          | succ before =>
              refine absurd ?_ (apart before (Nat.lt_of_succ_lt_succ inside))
              rw [Nat.add_assoc, Nat.add_comm 1]
        subst first
        refine ⟨0, inside, rfl, ?_⟩
        rw [wiring.storeFrom_outside _ _ _ _ apart]
        exact Function.update_self ..

theorem loadFrom_storeFrom_iff (content : Cell → α) (base : Nat) (data : List α) :
    wiring.loadFrom (wiring.storeFrom content base data) base data.length = data ↔
      (∀ one (_ : one < data.length) two (_ : two < data.length),
        wiring.cell (base + one) = wiring.cell (base + two) → data[one] = data[two]) ∧
      ∀ index (_ : index < data.length),
        wiring.reads (wiring.cell (base + index)) data[index] = data[index] := by
  constructor
  · intro same
    have back : ∀ index (inside : index < data.length),
        wiring.load (wiring.storeFrom content base data) (base + index) = data[index] := by
      intro index inside
      have read := wiring.loadFrom_getElem? (wiring.storeFrom content base data) base _ index inside
      rw [same, List.getElem?_eq_getElem inside] at read
      exact (Option.some.inj read).symm
    have tells : ∀ one (oneInside : one < data.length) two (twoInside : two < data.length),
        wiring.cell (base + one) = wiring.cell (base + two) → data[one] = data[two] := by
      intro one oneInside two twoInside wired
      rw [← back one oneInside, ← back two twoInside, load, load, wired]
    refine ⟨tells, fun index inside => ?_⟩
    obtain ⟨last, within, wired, stored⟩ := wiring.storeFrom_last content base data index inside
    have read := back index inside
    rw [load, stored, tells last within index inside wired] at read
    exact read
  · rintro ⟨tells, right⟩
    apply List.ext_getElem?
    intro index
    by_cases inside : index < data.length
    · obtain ⟨last, within, wired, stored⟩ := wiring.storeFrom_last content base data index inside
      rw [loadFrom_getElem? _ _ _ _ _ inside, List.getElem?_eq_getElem inside, load, stored,
        tells last within index inside wired, right index inside]
    · rw [List.getElem?_eq_none (Nat.le_of_not_lt inside), List.getElem?_eq_none]
      rw [loadFrom_length]
      exact Nat.le_of_not_lt inside

theorem loadFrom_storeFrom_map_iff (content : Cell → α) (base : Nat) (source : Nat → α)
    (count : Nat) :
    wiring.loadFrom (wiring.storeFrom content base ((List.range count).map source)) base count =
        (List.range count).map source ↔
      (∀ one < count, ∀ two < count,
        wiring.cell (base + one) = wiring.cell (base + two) → source one = source two) ∧
      ∀ index < count,
        wiring.reads (wiring.cell (base + index)) (source index) = source index := by
  have general := wiring.loadFrom_storeFrom_iff content base ((List.range count).map source)
  simpa only [List.length_map, List.length_range, List.getElem_map, List.getElem_range]
    using general

end Wiring

end Foundation
