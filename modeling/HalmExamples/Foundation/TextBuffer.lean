import HalmExamples.Foundation.Region

/-!
# Text written into a fixed array

An array with a write pointer.  Each operation stores some cells at the pointer and
advances it, and has no result where they would not fit; a terminated one leaves one more
cell behind the text, which the pointer does not pass.
-/

set_option autoImplicit false

namespace Foundation

structure TextBuffer (α : Type) (size : Nat) where
  array : Region α size
  position : Nat

namespace TextBuffer
variable {α : Type} {size : Nat}

def start (array : Region α size) : TextBuffer α size := { array := array, position := 0 }

/-- Store `text` and leave the pointer behind it. -/
def put (text : List α) (buffer : TextBuffer α size) : Option (TextBuffer α size) :=
  (buffer.array.write? buffer.position text).map fun array =>
    { array := array, position := buffer.position + text.length }

/-- Store `text` and `terminator`, and leave the pointer at the terminator. -/
def putTerminated (terminator : α) (text : List α) (buffer : TextBuffer α size) :
    Option (TextBuffer α size) :=
  (buffer.array.write? buffer.position (text ++ [terminator])).map fun array =>
    { array := array, position := buffer.position + text.length }

def written (buffer : TextBuffer α size) : List α := buffer.array.cells.take buffer.position

structure Holds (buffer : TextBuffer α size) (text : List α) : Prop where
  written_eq : buffer.written = text
  position_eq : buffer.position = text.length

theorem holds_start (array : Region α size) : (start array).Holds [] := ⟨rfl, rfl⟩

/-- What is in front of the pointer stays, and the new text follows it. -/
theorem splice_take (cells data : List α) (position : Nat) (inside : position ≤ cells.length) :
    (splice cells position data).take (position + data.length) = cells.take position ++ data := by
  have before : (cells.take position).length = position := by
    rw [List.length_take]
    omega
  rw [splice]
  exact List.take_left' (by rw [List.length_append, before])

theorem put_holds (text more : List α) (buffer : TextBuffer α size) (holds : buffer.Holds text)
    (fits : text.length + more.length ≤ size) :
    ∃ next, buffer.put more = some next ∧ next.Holds (text ++ more) := by
  obtain ⟨array, wrote, cells⟩ := buffer.array.write?_eq_some buffer.position more
    (by rw [holds.position_eq]; exact fits)
  refine ⟨_, by rw [put, wrote]; rfl, ?_, ?_⟩
  · have inside : buffer.position ≤ buffer.array.cells.length := by
      rw [buffer.array.length_eq, holds.position_eq]
      omega
    change array.cells.take (buffer.position + more.length) = _
    rw [cells, splice_take _ _ _ inside]
    exact congrArg (· ++ more) holds.written_eq
  · rw [List.length_append, ← holds.position_eq]

theorem putTerminated_holds (terminator : α) (text more : List α) (buffer : TextBuffer α size)
    (holds : buffer.Holds text) (fits : text.length + more.length < size) :
    ∃ next, buffer.putTerminated terminator more = some next ∧ next.Holds (text ++ more) ∧
      next.array.cells[next.position]? = some terminator := by
  have length : (more ++ [terminator]).length = more.length + 1 := List.length_append
  obtain ⟨array, wrote, cells⟩ := buffer.array.write?_eq_some buffer.position
    (more ++ [terminator]) (by rw [holds.position_eq, length]; omega)
  have inside : buffer.position ≤ buffer.array.cells.length := by
    rw [buffer.array.length_eq, holds.position_eq]
    omega
  have whole := splice_take buffer.array.cells (more ++ [terminator]) buffer.position inside
  rw [← cells, length, ← Nat.add_assoc, ← List.append_assoc] at whole
  refine ⟨_, by rw [putTerminated, wrote]; rfl, ⟨?_, ?_⟩, ?_⟩
  · have shorter := congrArg (List.take (buffer.position + more.length)) whole
    rw [List.take_take, Nat.min_eq_left (Nat.le_succ _)] at shorter
    change array.cells.take (buffer.position + more.length) = _
    rw [shorter, ← holds.written_eq]
    refine List.take_left' ?_
    rw [List.length_append, List.length_take]
    omega
  · rw [List.length_append, ← holds.position_eq]
  · have last := congrArg (fun cells => cells[buffer.position + more.length]?) whole
    simp only [List.getElem?_take, if_pos (Nat.lt_succ_self _)] at last
    change array.cells[buffer.position + more.length]? = _
    have behind : (buffer.array.cells.take buffer.position ++ more).length ≤
        buffer.position + more.length := by
      rw [List.length_append, List.length_take]
      omega
    rw [last, List.getElem?_append_right behind]
    simp [List.length_take, Nat.min_eq_left inside]

theorem putTerminated_eq_none (terminator : α) (text more : List α) (buffer : TextBuffer α size)
    (holds : buffer.Holds text) (short : size ≤ text.length + more.length) :
    buffer.putTerminated terminator more = none := by
  rw [putTerminated, Region.write?, dif_neg]
  · rfl
  · rw [holds.position_eq, List.length_append, List.length_singleton]
    omega

/-- The text that a reader finds who stops at the first terminator. -/
def upTo [DecidableEq α] (terminator : α) (buffer : TextBuffer α size) : List α :=
  buffer.array.cells.takeWhile (· ≠ terminator)

theorem upTo_eq [DecidableEq α] (terminator : α) (text : List α) (buffer : TextBuffer α size)
    (holds : buffer.Holds text) (clean : terminator ∉ text)
    (ended : buffer.array.cells[buffer.position]? = some terminator) :
    buffer.upTo terminator = text := by
  have split := List.take_append_drop buffer.position buffer.array.cells
  obtain ⟨inside, last⟩ := List.getElem?_eq_some_iff.mp ended
  have front : buffer.array.cells.take buffer.position = text := holds.written_eq
  rw [front, List.drop_eq_getElem_cons inside, last] at split
  rw [upTo, ← split, List.takeWhile_append_of_pos, List.takeWhile_cons_of_neg (by simp),
    List.append_nil]
  intro cell member
  simpa using fun same : cell = terminator => clean (same ▸ member)

end TextBuffer

end Foundation
