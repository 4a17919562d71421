import Mathlib.Data.List.Basic

/-!
# The first minimum of a list

A search that keeps the best candidate so far and replaces it only by a strictly
better one ends with the first of the candidates of least error.
-/

set_option autoImplicit false

namespace Foundation

variable {α : Type}

def improve (error : α → Nat) (best : Option α) (candidate : α) : Option α :=
  match best with
  | none => some candidate
  | some kept => if error candidate < error kept then some candidate else some kept

def firstMinimum (error : α → Nat) (candidates : List α) : Option α :=
  candidates.foldl (improve error) none

/-- Nothing before `best` is as good and nothing after it is better. -/
def IsFirstMinimum (error : α → Nat) (candidates : List α) (best : α) : Prop :=
  ∃ before after, candidates = before ++ best :: after ∧
    (∀ candidate ∈ before, error best < error candidate) ∧
    ∀ candidate ∈ after, error best ≤ error candidate

theorem IsFirstMinimum.mem {error : α → Nat} {candidates : List α} {best : α}
    (first : IsFirstMinimum error candidates best) : best ∈ candidates := by
  obtain ⟨before, after, split, _, _⟩ := first
  rw [split]
  exact List.mem_append_right before List.mem_cons_self

theorem IsFirstMinimum.le {error : α → Nat} {candidates : List α} {best : α}
    (first : IsFirstMinimum error candidates best) (candidate : α)
    (member : candidate ∈ candidates) : error best ≤ error candidate := by
  obtain ⟨before, after, split, earlier, later⟩ := first
  rw [split] at member
  rcases List.mem_append.mp member with inBefore | rest
  · exact Nat.le_of_lt (earlier candidate inBefore)
  · rcases List.mem_cons.mp rest with same | inAfter
    · exact Nat.le_of_eq (congrArg error same.symm)
    · exact later candidate inAfter

/-- In a list ordered by a rank, what ranks below the first minimum is worse. -/
theorem IsFirstMinimum.lt_of_rank {error : α → Nat} {candidates : List α} {best : α}
    (first : IsFirstMinimum error candidates best) (rank : α → Nat)
    (ordered : candidates.Pairwise fun one two => rank one ≤ rank two) (candidate : α)
    (member : candidate ∈ candidates) (below : rank candidate < rank best) :
    error best < error candidate := by
  obtain ⟨before, after, split, earlier, _⟩ := first
  rw [split] at member ordered
  rcases List.mem_append.mp member with inBefore | rest
  · exact earlier candidate inBefore
  · rcases List.mem_cons.mp rest with same | inAfter
    · rw [same] at below
      exact absurd below (Nat.lt_irrefl _)
    · have afterBest := (List.pairwise_append.mp ordered).2.1
      have := List.rel_of_pairwise_cons afterBest inAfter
      omega

theorem foldl_improve_some (error : α → Nat) (candidates : List α) (kept : α) :
    ∃ best, candidates.foldl (improve error) (some kept) = some best ∧
      IsFirstMinimum error (kept :: candidates) best := by
  induction candidates generalizing kept with
  | nil => exact ⟨kept, rfl, [], [], rfl, by simp, by simp⟩
  | cons candidate rest ih =>
      by_cases better : error candidate < error kept
      · obtain ⟨best, folded, first⟩ := ih candidate
        have least := first.le candidate List.mem_cons_self
        obtain ⟨before, after, split, earlier, later⟩ := first
        refine ⟨best, by simpa [improve, better] using folded, kept :: before, after, ?_, ?_, later⟩
        · rw [split]
          rfl
        · intro other member
          rcases List.mem_cons.mp member with same | inBefore
          · rw [same]
            omega
          · exact earlier other inBefore
      · obtain ⟨best, folded, before, after, split, earlier, later⟩ := ih kept
        refine ⟨best, by simpa [improve, better] using folded, ?_⟩
        cases before with
        | nil =>
            obtain ⟨same, restAfter⟩ := List.cons.inj split
            subst same
            refine ⟨[], candidate :: rest, rfl, by simp, ?_⟩
            intro other member
            rcases List.mem_cons.mp member with isCandidate | inRest
            · rw [isCandidate]
              omega
            · exact later other (restAfter ▸ inRest)
        | cons first others =>
            obtain ⟨same, restSplit⟩ := List.cons.inj split
            subst same
            have keptWorse := earlier kept List.mem_cons_self
            refine ⟨kept :: candidate :: others, after, ?_, ?_, later⟩
            · rw [restSplit]
              rfl
            · intro other member
              simp only [List.mem_cons] at member
              rcases member with isKept | isCandidate | inOthers
              · rw [isKept]
                exact keptWorse
              · rw [isCandidate]
                omega
              · exact earlier other (List.mem_cons_of_mem _ inOthers)

theorem foldl_improve_zero (error : α → Nat) (candidates : List α) (kept : α)
    (exactHit : error kept = 0) :
    candidates.foldl (improve error) (some kept) = some kept := by
  induction candidates with
  | nil => rfl
  | cons candidate rest ih =>
      simpa [improve, exactHit] using ih

theorem firstMinimum_eq_none_iff (error : α → Nat) (candidates : List α) :
    firstMinimum error candidates = none ↔ candidates = [] := by
  cases candidates with
  | nil => simp [firstMinimum]
  | cons candidate rest =>
      obtain ⟨best, folded, _⟩ := foldl_improve_some error rest candidate
      simp [firstMinimum, improve, folded]

theorem firstMinimum_isFirst (error : α → Nat) (candidates : List α) (best : α)
    (found : firstMinimum error candidates = some best) :
    IsFirstMinimum error candidates best := by
  cases candidates with
  | nil => simp [firstMinimum] at found
  | cons candidate rest =>
      obtain ⟨least, folded, first⟩ := foldl_improve_some error rest candidate
      have same : least = best := by
        simpa [firstMinimum, improve, folded] using found
      exact same ▸ first

end Foundation
