/-!
# The last one of its kind

Where in a history the latest element with a property stands.
-/

set_option autoImplicit false

namespace Foundation

section LastIndex
variable {α : Type} (accept : α → Bool)

def lastIndex : List α → Option Nat
  | [] => none
  | first :: rest =>
      match lastIndex rest with
      | some index => some (index + 1)
      | none => if accept first then some 0 else none

theorem lastIndex_concat (items : List α) (item : α) :
    lastIndex accept (items ++ [item]) =
      if accept item then some items.length else lastIndex accept items := by
  induction items with
  | nil => rfl
  | cons first rest ih =>
      rw [List.cons_append, lastIndex, ih, lastIndex]
      by_cases here : accept item = true
      · rw [if_pos here, if_pos here, List.length_cons]
      · rw [if_neg here, if_neg here]

theorem lastIndex_lt (items : List α) (index : Nat) (found : lastIndex accept items = some index) :
    index < items.length := by
  induction items generalizing index with
  | nil => cases found
  | cons first rest ih =>
      rw [lastIndex] at found
      rw [List.length_cons]
      split at found
      · rename_i previous earlier
        cases found
        exact Nat.succ_lt_succ (ih previous earlier)
      · split at found
        · cases found
          omega
        · cases found

end LastIndex

end Foundation
