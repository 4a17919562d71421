import Mathlib.Data.List.FinRange

/-!
# Custody of queued items

Items that move between queues are accounted for by counting each of them over
all the places it may be in.  An item counted once over all places is in one of
them only, and no queue holds more than there are items.
-/

set_option autoImplicit false

namespace Foundation

section Queue
variable {α : Type} [DecidableEq α]

theorem count_cons_split (first : α) (rest : List α) (item : α) :
    (first :: rest).count item = [first].count item + rest.count item := by
  rw [← List.singleton_append, List.count_append]

/-- A queue with room for `capacity` items; a full one refuses. -/
def enqueue (capacity : Nat) (queue : List α) (item : α) : List α :=
  if queue.length < capacity then queue ++ [item] else queue

omit [DecidableEq α] in
theorem enqueue_of_room (capacity : Nat) (queue : List α) (item : α)
    (room : queue.length < capacity) : enqueue capacity queue item = queue ++ [item] :=
  if_pos room

theorem enqueue_count (capacity : Nat) (queue : List α) (item other : α)
    (room : queue.length < capacity) :
    (enqueue capacity queue item).count other = queue.count other + [item].count other := by
  rw [enqueue_of_room _ _ _ room, List.count_append]

end Queue

/-- When each of `size` items is listed once, that is all there is in the list. -/
theorem length_eq_of_count_one {size : Nat} (items : List (Fin size))
    (once : ∀ item, items.count item = 1) : items.length = size := by
  have same : items.Perm (List.finRange size) := by
    rw [List.perm_iff_count]
    intro item
    rw [once item, List.count_eq_one_of_mem (List.nodup_finRange _) (List.mem_finRange item)]
  rw [same.length_eq, List.length_finRange]

theorem count_finRange (size : Nat) (item : Fin size) : (List.finRange size).count item = 1 :=
  List.count_eq_one_of_mem (List.nodup_finRange _) (List.mem_finRange item)

end Foundation
