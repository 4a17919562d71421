import Mathlib.Algebra.BigOperators.Group.Finset.Piecewise
import Mathlib.Algebra.Order.BigOperators.Group.Finset
import Mathlib.Data.Finset.Card
import Mathlib.Order.Interval.Finset.Nat

/-!
# Spans that cover a range

Spans of cells inside a range of which the lengths add up to the length of the range:
they cover every cell exactly if no two of them overlap.
-/

set_option autoImplicit false

namespace Foundation

structure Span where
  start : Nat
  length : Nat
  deriving DecidableEq

namespace Span

def Contains (span : Span) (index : Nat) : Prop :=
  span.start ≤ index ∧ index < span.start + span.length

instance (span : Span) (index : Nat) : Decidable (span.Contains index) :=
  inferInstanceAs (Decidable (_ ∧ _))

def Apart (one two : Span) : Prop := ∀ index, ¬ (one.Contains index ∧ two.Contains index)

def Inside (inner outer : Span) : Prop := ∀ index, inner.Contains index → outer.Contains index

theorem Apart.mono {one two larger other : Span} (apart : larger.Apart other)
    (first : one.Inside larger) (second : two.Inside other) : one.Apart two :=
  fun index both => apart index ⟨first index both.1, second index both.2⟩

theorem inside_iff_of_start (start length size : Nat) :
    Inside ⟨start, length⟩ ⟨start, size⟩ ↔ length ≤ size := by
  constructor
  · intro inside
    by_contra longer
    have behind := inside (start + size) ⟨by simp, by simp; omega⟩
    exact Nat.lt_irrefl _ behind.2
  · rintro shorter index ⟨low, high⟩
    exact ⟨low, by simp only at high ⊢; omega⟩

theorem apart_of_empty (one two : Span) (empty : two.length = 0) : one.Apart two := by
  rintro index ⟨_, low, high⟩
  omega

def total : List Span → Nat
  | [] => 0
  | span :: rest => span.length + total rest

@[simp] theorem total_nil : total [] = 0 := rfl

@[simp] theorem total_cons (span : Span) (rest : List Span) :
    total (span :: rest) = span.length + total rest := rfl

@[simp] theorem total_append (first second : List Span) :
    total (first ++ second) = total first + total second := by
  induction first with
  | nil => rw [List.nil_append, total_nil, Nat.zero_add]
  | cons span rest ih => rw [List.cons_append, total_cons, total_cons, ih, Nat.add_assoc]

theorem length_le_total (spans : List Span) (span : Span) (member : span ∈ spans) :
    span.length ≤ total spans := by
  induction spans with
  | nil => cases member
  | cons first rest ih =>
      rw [total_cons]
      rcases List.mem_cons.mp member with same | later
      · rw [same]
        exact Nat.le_add_right _ _
      · exact Nat.le_trans (ih later) (Nat.le_add_left _ _)

/-- Spans without cells overlap nothing. -/
theorem pairwise_apart_append (spans rest : List Span) (empty : total rest = 0)
    (apart : spans.Pairwise Apart) : (spans ++ rest).Pairwise Apart := by
  have zero : ∀ span ∈ rest, span.length = 0 := by
    intro span member
    exact Nat.le_zero.mp (empty ▸ length_le_total rest span member)
  rw [List.pairwise_append]
  refine ⟨apart, ?_, fun span _ other member => apart_of_empty span other (zero other member)⟩
  exact List.pairwise_of_forall_mem_list fun span _ other member =>
    apart_of_empty span other (zero other member)

def multiplicity (spans : List Span) (index : Nat) : Nat :=
  spans.countP fun span => decide (span.Contains index)

theorem multiplicity_cons (span : Span) (rest : List Span) (index : Nat) :
    multiplicity (span :: rest) index =
      multiplicity rest index + if span.Contains index then 1 else 0 := by
  rw [multiplicity, List.countP_cons, multiplicity]
  simp only [decide_eq_true_eq]

theorem multiplicity_pos_iff (spans : List Span) (index : Nat) :
    0 < multiplicity spans index ↔ ∃ span ∈ spans, span.Contains index := by
  rw [multiplicity, List.countP_pos_iff]
  simp only [decide_eq_true_eq]

theorem sum_contains (span : Span) (size : Nat) (inside : span.start + span.length ≤ size) :
    ∑ index ∈ Finset.range size, (if span.Contains index then 1 else 0) = span.length := by
  have cells : (Finset.range size).filter (fun index => span.Contains index) =
      Finset.Ico span.start (span.start + span.length) := by
    ext index
    rw [Finset.mem_filter, Finset.mem_range, Finset.mem_Ico, Contains]
    omega
  rw [← Finset.card_filter, cells, Nat.card_Ico, Nat.add_sub_cancel_left]

theorem sum_multiplicity (spans : List Span) (size : Nat)
    (inside : ∀ span ∈ spans, span.start + span.length ≤ size) :
    ∑ index ∈ Finset.range size, multiplicity spans index = total spans := by
  induction spans with
  | nil => simp [multiplicity]
  | cons span rest ih =>
      have later := ih fun other member => inside other (List.mem_cons_of_mem span member)
      simp only [multiplicity_cons, Finset.sum_add_distrib, later,
        sum_contains span size (inside span List.mem_cons_self), total_cons]
      exact Nat.add_comm _ _

theorem pairwise_apart_iff (spans : List Span) :
    spans.Pairwise Apart ↔ ∀ index, multiplicity spans index ≤ 1 := by
  induction spans with
  | nil => simp [multiplicity]
  | cons span rest ih =>
      rw [List.pairwise_cons, ih]
      simp only [multiplicity_cons]
      constructor
      · rintro ⟨apart, once⟩ index
        by_cases here : span.Contains index
        · rw [if_pos here]
          have none : ¬ 0 < multiplicity rest index := by
            rw [multiplicity_pos_iff]
            rintro ⟨other, member, contains⟩
            exact apart other member index ⟨here, contains⟩
          omega
        · rw [if_neg here]
          exact once index
      · intro once
        constructor
        · rintro other member index ⟨here, contains⟩
          have both := once index
          have positive := (multiplicity_pos_iff rest index).mpr ⟨other, member, contains⟩
          rw [if_pos here] at both
          omega
        · intro index
          exact Nat.le_trans (Nat.le_add_right _ _) (once index)

theorem multiplicity_outside (spans : List Span) (size index : Nat)
    (inside : ∀ span ∈ spans, span.start + span.length ≤ size) (outside : size ≤ index) :
    multiplicity spans index = 0 := by
  by_contra nonzero
  obtain ⟨span, member, _, high⟩ :=
    (multiplicity_pos_iff spans index).mp (Nat.pos_of_ne_zero nonzero)
  have := inside span member
  omega

/-- As many cells as the range has, counted with multiplicity, are all cells exactly if
none is counted twice. -/
theorem covers_iff_apart (spans : List Span) (size : Nat)
    (inside : ∀ span ∈ spans, span.start + span.length ≤ size) (full : total spans = size) :
    (∀ index < size, ∃ span ∈ spans, span.Contains index) ↔ spans.Pairwise Apart := by
  have counted : ∑ index ∈ Finset.range size, multiplicity spans index =
      ∑ _index ∈ Finset.range size, 1 := by
    rw [sum_multiplicity spans size inside, full, ← Finset.card_eq_sum_ones, Finset.card_range]
  rw [pairwise_apart_iff]
  constructor
  · intro covered index
    by_cases within : index < size
    · have least : ∀ cell ∈ Finset.range size, 1 ≤ multiplicity spans cell := fun cell member =>
        (multiplicity_pos_iff spans cell).mpr (covered cell (Finset.mem_range.mp member))
      have once := (Finset.sum_eq_sum_iff_of_le least).mp counted.symm
      exact Nat.le_of_eq (once index (Finset.mem_range.mpr within)).symm
    · rw [multiplicity_outside spans size index inside (Nat.not_lt.mp within)]
      exact Nat.zero_le 1
  · intro once index within
    have exactly := (Finset.sum_eq_sum_iff_of_le fun cell _ => once cell).mp counted
    rw [← multiplicity_pos_iff, exactly index (Finset.mem_range.mpr within)]
    exact Nat.zero_lt_one

end Span

end Foundation
