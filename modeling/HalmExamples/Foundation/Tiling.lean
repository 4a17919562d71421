import Mathlib.Data.List.Basic
import Mathlib.Tactic.Ring

/-!
# Tilings of an address range

Consecutive runs of equal units tile the addresses from a base on.  Where every
run starts at a multiple of its own unit, rounding an offset down to the unit of
its run and adding one unit gives the next start of a unit, or the end.
-/

set_option autoImplicit false

namespace Foundation.Tiling

structure Run where
  count : Nat
  size : Nat
  deriving DecidableEq

def Run.extent (run : Run) : Nat := run.count * run.size

def extent (runs : List Run) : Nat := (runs.map Run.extent).sum

@[simp] theorem extent_nil : extent [] = 0 := rfl

@[simp] theorem extent_cons (run : Run) (rest : List Run) :
    extent (run :: rest) = run.extent + extent rest := by
  simp [extent]

/-- Runs that are not empty, each aligned to its unit. -/
def Aligned : Nat → List Run → Prop
  | _, [] => True
  | base, run :: rest =>
      0 < run.count ∧ 0 < run.size ∧ run.size ∣ base ∧ Aligned (base + run.extent) rest

instance decidableAligned : (base : Nat) → (runs : List Run) → Decidable (Aligned base runs)
  | _, [] => isTrue trivial
  | base, run :: rest =>
      have := decidableAligned (base + run.extent) rest
      inferInstanceAs (Decidable (0 < run.count ∧ 0 < run.size ∧ run.size ∣ base ∧
        Aligned (base + run.extent) rest))

def Start : Nat → List Run → Nat → Prop
  | _, [], _ => False
  | base, run :: rest, offset =>
      (∃ index < run.count, offset = base + index * run.size) ∨
        Start (base + run.extent) rest offset

/-- The offset lies in this run. -/
def Within : Nat → List Run → Nat → Run → Prop
  | _, [], _, _ => False
  | base, first :: rest, offset, run =>
      (base ≤ offset ∧ offset < base + first.extent ∧ run = first) ∨
        Within (base + first.extent) rest offset run

def find : Nat → List Run → Nat → Option Run
  | _, [], _ => none
  | base, run :: rest, offset =>
      if base ≤ offset ∧ offset < base + run.extent then some run
      else find (base + run.extent) rest offset

theorem within_ge {base offset : Nat} {runs : List Run} {run : Run}
    (within : Within base runs offset run) : base ≤ offset := by
  induction runs generalizing base with
  | nil => exact within.elim
  | cons first rest ih =>
      rcases within with ⟨low, _, _⟩ | later
      · exact low
      · have := ih later
        omega

theorem find_eq_some_iff (base offset : Nat) (runs : List Run) (run : Run) :
    find base runs offset = some run ↔ Within base runs offset run := by
  induction runs generalizing base with
  | nil => simp [find, Within]
  | cons first rest ih =>
      by_cases inside : base ≤ offset ∧ offset < base + first.extent
      · have notLater : ¬ Within (base + first.extent) rest offset run := by
          intro later
          have := within_ge later
          omega
        simp only [find, Within, notLater, or_false, inside, true_and]
        simp [eq_comm]
      · simp only [find, if_neg inside, Within, ih]
        constructor
        · exact Or.inr
        · intro either
          rcases either with ⟨low, high, _⟩ | later
          · exact absurd ⟨low, high⟩ inside
          · exact later

theorem exists_within_iff (base offset : Nat) (runs : List Run) :
    (∃ run, Within base runs offset run) ↔ base ≤ offset ∧ offset < base + extent runs := by
  induction runs generalizing base with
  | nil =>
      simp [Within]
  | cons first rest ih =>
      have later := ih (base + first.extent)
      rw [extent_cons]
      constructor
      · intro found
        obtain ⟨run, ⟨low, high, _⟩ | within⟩ := found
        · omega
        · have := later.mp ⟨run, within⟩
          omega
      · intro range
        by_cases here : offset < base + first.extent
        · exact ⟨first, Or.inl ⟨range.1, here, rfl⟩⟩
        · obtain ⟨run, within⟩ := later.mpr (by omega)
          exact ⟨run, Or.inr within⟩

theorem within_of_take {base offset : Nat} {runs : List Run} {run : Run} {limit : Nat}
    (within : Within base (runs.take limit) offset run) : Within base runs offset run := by
  induction runs generalizing base limit with
  | nil =>
      rw [List.take_nil] at within
      exact within
  | cons first rest ih =>
      cases limit with
      | zero => exact within.elim
      | succ limit =>
          rcases within with here | later
          · exact Or.inl here
          · exact Or.inr (ih later)

theorem within_mem {base offset : Nat} {runs : List Run} {run : Run}
    (within : Within base runs offset run) : run ∈ runs := by
  induction runs generalizing base with
  | nil => exact within.elim
  | cons first rest ih =>
      rcases within with ⟨_, _, same⟩ | later
      · exact same ▸ List.mem_cons_self
      · exact List.mem_cons_of_mem first (ih later)

theorem within_size_pos {base offset : Nat} {runs : List Run} {run : Run}
    (aligned : Aligned base runs) (within : Within base runs offset run) : 0 < run.size := by
  induction runs generalizing base with
  | nil => exact within.elim
  | cons first rest ih =>
      obtain ⟨_, positive, _, restAligned⟩ := aligned
      rcases within with ⟨_, _, same⟩ | later
      · exact same ▸ positive
      · exact ih restAligned later

theorem start_ge {base offset : Nat} {runs : List Run} (start : Start base runs offset) :
    base ≤ offset := by
  induction runs generalizing base with
  | nil => exact start.elim
  | cons run rest ih =>
      rcases start with ⟨index, _, same⟩ | later
      · omega
      · have := ih later
        omega

theorem start_lt_extent {base offset : Nat} {runs : List Run} (aligned : Aligned base runs)
    (start : Start base runs offset) : offset < base + extent runs := by
  induction runs generalizing base with
  | nil => exact start.elim
  | cons run rest ih =>
      obtain ⟨_, positive, _, restAligned⟩ := aligned
      rw [extent_cons]
      rcases start with ⟨index, inRun, same⟩ | later
      · have unit : index * run.size < run.extent := Nat.mul_lt_mul_of_pos_right inRun positive
        omega
      · have := ih restAligned later
        omega

/-! ## The next unit -/

/-- One unit above the start of the unit that contains the offset. -/
def next (run : Run) (offset : Nat) : Nat := offset / run.size * run.size + run.size

theorem lt_next (run : Run) (offset : Nat) (positive : 0 < run.size) :
    offset < next run offset := by
  have split := Nat.div_add_mod' offset run.size
  have below := Nat.mod_lt offset positive
  unfold next
  omega

/-- Two multiples of a unit are a unit apart. -/
theorem next_le_of_dvd (run : Run) (offset later : Nat) (aligned : run.size ∣ later)
    (above : offset < later) : next run offset ≤ later := by
  obtain ⟨index, same⟩ := aligned
  rw [Nat.mul_comm] at same
  subst same
  have quotient : offset / run.size < index := Nat.div_lt_of_lt_mul (by rwa [Nat.mul_comm] at above)
  unfold next
  calc offset / run.size * run.size + run.size = (offset / run.size + 1) * run.size := by ring
    _ ≤ index * run.size := Nat.mul_le_mul_right run.size quotient

theorem next_least {base offset later : Nat} {runs : List Run} {run : Run}
    (aligned : Aligned base runs) (within : Within base runs offset run)
    (start : Start base runs later) (above : offset < later) : next run offset ≤ later := by
  induction runs generalizing base with
  | nil => exact start.elim
  | cons first rest ih =>
      obtain ⟨_, positive, unit, restAligned⟩ := aligned
      rcases within with ⟨low, high, same⟩ | restWithin
      · subst same
        rcases start with ⟨index, _, position⟩ | restStart
        · apply next_le_of_dvd run offset later _ above
          rw [position]
          exact Nat.dvd_add unit (Nat.dvd_mul_left _ _)
        · have beyond := start_ge restStart
          have atEnd : next run offset ≤ base + run.extent :=
            next_le_of_dvd run offset _ (Nat.dvd_add unit (Nat.dvd_mul_left _ _)) high
          omega
      · have low := within_ge restWithin
        rcases start with ⟨index, inRun, position⟩ | restStart
        · have before : index * first.size < first.extent :=
            Nat.mul_lt_mul_of_pos_right inRun positive
          omega
        · exact ih restAligned restWithin restStart

theorem next_start {base offset : Nat} {runs : List Run} {run : Run}
    (aligned : Aligned base runs) (within : Within base runs offset run) :
    Start base runs (next run offset) ∨ next run offset = base + extent runs := by
  induction runs generalizing base with
  | nil => exact within.elim
  | cons first rest ih =>
      obtain ⟨_, positive, unit, restAligned⟩ := aligned
      rw [extent_cons]
      rcases within with ⟨low, high, same⟩ | restWithin
      · subst same
        have atEnd : next run offset ≤ base + run.extent :=
          next_le_of_dvd run offset _ (Nat.dvd_add unit (Nat.dvd_mul_left _ _)) high
        rcases Nat.lt_or_eq_of_le atEnd with before | exact'
        · have above := lt_next run offset positive
          obtain ⟨index, same⟩ : run.size ∣ next run offset - base :=
            Nat.dvd_sub (Nat.dvd_add (Nat.dvd_mul_left _ _) (Nat.dvd_refl _)) unit
          refine Or.inl (Or.inl ⟨index, ?_, ?_⟩)
          · have product : run.size * index < run.size * run.count := by
              rw [← same, Nat.mul_comm run.size run.count]
              unfold Run.extent at before
              omega
            exact Nat.lt_of_mul_lt_mul_left product
          · rw [Nat.mul_comm, ← same]
            omega
        · cases rest with
          | nil =>
              right
              rw [exact', extent_nil]
              omega
          | cons second others =>
              obtain ⟨nonempty, _, _, _⟩ := restAligned
              exact Or.inl (Or.inr (Or.inl ⟨0, nonempty, by omega⟩))
      · rcases ih restAligned restWithin with starts | ends
        · exact Or.inl (Or.inr starts)
        · right
          omega

theorem next_le_extent {base offset : Nat} {runs : List Run} {run : Run}
    (aligned : Aligned base runs) (within : Within base runs offset run) :
    next run offset ≤ base + extent runs := by
  rcases next_start aligned within with starts | ends
  · exact Nat.le_of_lt (start_lt_extent aligned starts)
  · exact Nat.le_of_eq ends

end Foundation.Tiling
