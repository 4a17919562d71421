import Mathlib.Data.List.Basic

/-!
# Words of a text

The pieces of a text between its blanks, those without symbols left out.
-/

set_option autoImplicit false

namespace Foundation

variable {α : Type}

def words (blank : α → Bool) (text : List α) : List (List α) :=
  (text.splitOnP blank).filter (· ≠ [])

section Words
variable {blank : α → Bool}

theorem words_nil : words blank [] = [] := by simp [words, List.splitOnP_nil]

/-- The words of a text are those on the two sides of a blank. -/
theorem words_append_cons {symbol : α} (is : blank symbol = true) (before behind : List α) :
    words blank (before ++ symbol :: behind) = words blank before ++ words blank behind := by
  rw [words, List.splitOnP_append_cons before behind is, List.filter_append]
  rfl

theorem words_cons {symbol : α} (is : blank symbol = true) (text : List α) :
    words blank (symbol :: text) = words blank text := by
  have split := words_append_cons is [] text
  rwa [List.nil_append, words_nil, List.nil_append] at split

theorem words_replicate_append {symbol : α} (is : blank symbol = true) (count : Nat)
    (text : List α) : words blank (List.replicate count symbol ++ text) = words blank text := by
  induction count with
  | zero => rfl
  | succ count ih => rw [List.replicate_succ, List.cons_append, words_cons is, ih]

theorem words_of_solid {word : List α} (some : word ≠ [])
    (solid : ∀ symbol ∈ word, blank symbol = false) : words blank word = [word] := by
  rw [words, List.splitOnP_eq_singleton solid]
  simp [some]

end Words

end Foundation
