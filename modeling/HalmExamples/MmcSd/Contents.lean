import HalmExamples.Foundation.Memory
import HalmExamples.MmcSd.Marker
import HalmExamples.MmcSd.Range

/-!
# What the write mode leaves on the card

The loop of module `Program` with its arena and the contents of the card.  `dataWrite` marks the
front of the arena with the number of the transfer; a transfer that has not completed may leave
anything in its place.
-/

set_option autoImplicit false

namespace HalmExamples.MmcSd

open Foundation

/-! ## The arena -/

theorem Access.length_le (access : Access) : access.length ≤ arenaSize := by
  unfold Access.length
  split <;> decide

def front (arena : Region UInt8 arenaSize) (access : Access) : Region UInt8 access.length :=
  ⟨window arena.cells 0 access.length,
    window_length_of_fits _ _ _ (by rw [arena.length_eq, Nat.zero_add]; exact access.length_le)⟩

def fill (arena : Region UInt8 arenaSize) (data : List UInt8) : Region UInt8 arenaSize :=
  (arena.write? 0 data).getD arena

/-- `markBuffer(buffer, length, position / length);` -/
def markFront (arena : Region UInt8 arenaSize) (access : Access) (position : UInt64) :
    Region UInt8 arenaSize :=
  match markBuffer (front arena access) (position / UInt64.ofNat access.length).toUInt32 with
  | none => arena
  | some block => fill arena block.cells

/-! ## The loop with its data -/

structure Medium where
  state : State
  arena : Region UInt8 arenaSize
  cells : Nat → UInt8
  place : Nat
  /-- The position has returned to the start of this card. -/
  passed : Bool

/-- A step of the loop, with the contents of a card that is initialised, or what an unfinished
transfer leaves. -/
structure Event where
  label : Label
  noise : Nat → UInt8

def Medium.issue (medium : Medium) (access : Access) (positioning : Positioning)
    (noise : Nat → UInt8) : Medium :=
  let place := (positioning.start medium.state.position).toNat
  let unknown := cellsFrom noise place access.length
  match access.direction with
  | .write =>
      { medium with
        arena := markFront medium.arena access medium.state.position
        cells := overwrite medium.cells place unknown
        place := place }
  | .read => { medium with arena := fill medium.arena unknown, place := place }

def Medium.complete (medium : Medium) (access : Access) (status : Bool)
    (noise : Nat → UInt8) : Medium :=
  let unknown := cellsFrom noise medium.place access.length
  match access.direction with
  | .write =>
      { medium with
        cells := overwrite medium.cells medium.place
          (if status then (front medium.arena access).cells else unknown) }
  | .read =>
      { medium with
        arena := fill medium.arena
          (if status then cellsFrom medium.cells medium.place access.length else unknown) }

def Medium.data (medium : Medium) (event : Event) : Medium :=
  match event.label, medium.state.control with
  | .init _ _ _, _ => { medium with cells := event.noise, passed := false }
  | .issue positioning _, .issuing access => medium.issue access positioning event.noise
  | .complete status, .pending access => medium.complete access status event.noise
  | _, _ => medium

def Medium.settle (medium : Medium) (next : State) : Medium :=
  { medium with
    state := next
    passed := medium.passed ||
      decide (next.control = .waiting ∧ next.card.isSome = true ∧ next.position = 0) }

def mediumStep (medium : Medium) (event : Event) : Option Medium :=
  match step true medium.state event.label with
  | none => none
  | some next => some ((medium.data event).settle next)

def startMedium (arena : Region UInt8 arenaSize) (cells : Nat → UInt8) : Medium :=
  { state := start, arena := arena, cells := cells, place := 0, passed := false }

def slotMark (number : Nat) : List UInt8 := layout arenaSize (hexLoop (UInt32.ofNat number) 8)

def Holds (cells : Nat → UInt8) (number : Nat) : Prop :=
  cellsFrom cells (arenaSize * number) arenaSize = slotMark number

/-! ## Marks and transfers -/

theorem slotMark_length (number : Nat) : (slotMark number).length = arenaSize :=
  layout_length arenaSize _ (hexLoop_length _ 8) (by decide)

theorem fill_whole (arena : Region UInt8 arenaSize) (data : List UInt8)
    (whole : data.length = arenaSize) : (fill arena data).cells = data := by
  obtain ⟨written, wrote, cells⟩ := arena.write?_eq_some 0 data (by omega)
  rw [fill, wrote, Option.getD_some, cells, splice, List.take_zero, List.nil_append,
    List.drop_eq_nil_of_le (by rw [arena.length_eq]; omega), List.append_nil]

/-- The number of the arena, cut to 32 bits. -/
theorem markFront_whole (arena : Region UInt8 arenaSize) (direction : Direction)
    (position : UInt64) :
    (markFront arena ⟨direction, true⟩ position).cells = slotMark (position.toNat / arenaSize) := by
  obtain ⟨block, marks, cells⟩ := markBuffer_eq (front arena ⟨direction, true⟩)
    (position / UInt64.ofNat arenaSize).toUInt32 (show 24 ≤ arenaSize by decide)
  have number : (position / UInt64.ofNat arenaSize).toUInt32 =
      UInt32.ofNat (position.toNat / arenaSize) := by
    apply UInt32.toNat_inj.mp
    rw [UInt64.toNat_toUInt32, UInt64.toNat_div, UInt32.toNat_ofNat']
    rfl
  have wanted : block.cells = slotMark (position.toNat / arenaSize) := by
    rw [cells, number]
    rfl
  have marked : markFront arena ⟨direction, true⟩ position = fill arena block.cells := by
    unfold markFront
    rw [show markBuffer (front arena ⟨direction, true⟩)
      (position / UInt64.ofNat (Access.length ⟨direction, true⟩)).toUInt32 = some block from marks]
  rw [marked, fill_whole _ _ (by rw [wanted, slotMark_length]), wanted]

theorem Holds.overwrite {cells : Nat → UInt8} {number : Nat} (holds : Holds cells number)
    (current : Nat) (data : List UInt8) (fits : data.length ≤ arenaSize)
    (other : number ≠ current) : Holds (overwrite cells (arenaSize * current) data) number := by
  refine Eq.trans (cellsFrom_congr _ _ _ _ fun cell low high => ?_) holds
  apply overwrite_outside
  rcases Nat.lt_or_gt_of_ne other with less | more
  · left
    have below : arenaSize * (number + 1) ≤ arenaSize * current := Nat.mul_le_mul_left _ less
    rw [Nat.mul_succ] at below
    omega
  · right
    have above : arenaSize * (current + 1) ≤ arenaSize * number := Nat.mul_le_mul_left _ more
    rw [Nat.mul_succ] at above
    omega

section Data

variable {medium : Medium} {current : Nat}

@[simp] theorem Medium.issue_state (access : Access) (positioning : Positioning)
    (noise : Nat → UInt8) : (medium.issue access positioning noise).state = medium.state := by
  unfold issue
  split <;> rfl

@[simp] theorem Medium.issue_passed (access : Access) (positioning : Positioning)
    (noise : Nat → UInt8) : (medium.issue access positioning noise).passed = medium.passed := by
  unfold issue
  split <;> rfl

@[simp] theorem Medium.complete_state (access : Access) (status : Bool) (noise : Nat → UInt8) :
    (medium.complete access status noise).state = medium.state := by
  unfold complete
  split <;> rfl

@[simp] theorem Medium.complete_passed (access : Access) (status : Bool) (noise : Nat → UInt8) :
    (medium.complete access status noise).passed = medium.passed := by
  unfold complete
  split <;> rfl

theorem Medium.issue_holds (here : medium.state.position.toNat = arenaSize * current)
    (access : Access) (noise : Nat → UInt8) {number : Nat} (holds : Holds medium.cells number)
    (other : number ≠ current) : Holds (medium.issue access .done noise).cells number := by
  unfold Medium.issue Positioning.start
  dsimp only
  split
  · dsimp only
    rw [here]
    exact holds.overwrite current _ (by rw [cellsFrom_length]; exact access.length_le) other
  · exact holds

theorem Medium.complete_holds (here : medium.place = arenaSize * current) (access : Access)
    (status : Bool) (noise : Nat → UInt8) {number : Nat} (holds : Holds medium.cells number)
    (other : number ≠ current) : Holds (medium.complete access status noise).cells number := by
  unfold Medium.complete
  dsimp only
  split
  · dsimp only
    rw [here]
    refine holds.overwrite current _ ?_ other
    split
    · rw [(front medium.arena access).length_eq]
      exact access.length_le
    · rw [cellsFrom_length]
      exact access.length_le
  · exact holds

end Data

/-! ## The invariant -/

/-- The arena of this number has been passed since the card was initialised, and is not the one
of the current position. -/
def Due (medium : Medium) (number : Nat) : Prop :=
  arenaSize * (number + 1) ≤ medium.state.position.toNat ∨
    medium.passed = true ∧ arenaSize * (number + 1) ≤ medium.state.capacity.toNat ∧
      arenaSize * number ≠ medium.state.position.toNat

/-- The number of the arena before the position, which is the last of the card at its start. -/
def previous (state : State) : Nat :=
  if state.position = 0 then (state.capacity.toNat - 1) / arenaSize
  else state.position.toNat / arenaSize - 1

def Stage (medium : Medium) : Prop :=
  let current := medium.state.position.toNat / arenaSize
  match medium.state.control with
  | .waiting =>
      medium.state.card.isSome = true →
        (medium.passed = true →
          arenaSize * (current + 1) ≤ medium.state.capacity.toNat → Holds medium.cells current) ∧
        medium.arena.cells = slotMark (previous medium.state) ∧
        (medium.state.position = 0 → medium.passed = true)
  | .mounting => True
  | .issuing ⟨.write, _⟩ => True
  | .issuing ⟨.read, _⟩ => medium.state.unmount = false → Holds medium.cells current
  | .pending ⟨.write, multiBlock⟩ =>
      medium.place = medium.state.position.toNat ∧
        (multiBlock = true → medium.arena.cells = slotMark current)
  | .pending ⟨.read, _⟩ =>
      medium.place = medium.state.position.toNat ∧
        (medium.state.unmount = false → Holds medium.cells current)

structure Stored (medium : Medium) : Prop where
  due : medium.state.card.isSome = true → ∀ number, Due medium number → Holds medium.cells number
  stage : Stage medium

theorem advance_cases (state : State) (aligned : arenaSize ∣ state.position.toNat) :
    state.advance.position.toNat = state.position.toNat + arenaSize ∧
        state.position.toNat + arenaSize < state.capacity.toNat ∨
      state.advance.position = 0 ∧
        state.capacity.toNat ≤ state.position.toNat + arenaSize := by
  have small := state.position.toNat_lt
  have limit := state.capacity.toNat_lt
  have sum : (state.position + UInt64.ofNat arenaSize).toNat =
      (state.position.toNat + arenaSize) % 2 ^ 64 := UInt64.toNat_add ..
  unfold State.advance
  dsimp only
  by_cases wraps : state.position.toNat + arenaSize < 2 ^ 64
  · rw [Nat.mod_eq_of_lt wraps] at sum
    split
    · rename_i behind
      rw [ge_iff_le, UInt64.le_iff_toNat_le, sum] at behind
      exact .inr ⟨rfl, behind⟩
    · rename_i inside
      rw [ge_iff_le, UInt64.le_iff_toNat_le, sum] at inside
      exact .inl ⟨sum, Nat.lt_of_not_le inside⟩
  · have zero : state.position + UInt64.ofNat arenaSize = 0 := by
      apply UInt64.toNat_inj.mp
      rw [sum]
      have exactly : state.position.toNat + arenaSize = 2 ^ 64 := by
        simp only [arenaSize, blockSize] at aligned wraps ⊢
        omega
      rw [exactly]
      rfl
    refine .inr ⟨?_, by omega⟩
    rw [zero, ite_self]

theorem Medium.settle_busy (medium : Medium) (next : State)
    (busy : next.control ≠ .waiting ∨ next.card.isSome = false) :
    medium.settle next = { medium with state := next } := by
  have never : ¬ (next.control = .waiting ∧ next.card.isSome = true ∧ next.position = 0) := by
    rcases busy with runs | empty
    · exact fun both => runs both.1
    · exact fun both => Bool.false_ne_true (empty.symm.trans both.2.1)
  rw [settle, decide_eq_false never, Bool.or_false]

theorem stored_empty (medium : Medium) (empty : medium.state.card = none)
    (waits : medium.state.control = .waiting ∨ medium.state.control = .mounting) :
    Stored medium := by
  refine ⟨fun inserted => ?_, ?_⟩
  · rw [empty] at inserted
    exact absurd inserted Bool.false_ne_true
  · unfold Stage
    rcases waits with waiting | mounting
    · rw [waiting, empty]
      exact fun inserted => absurd inserted Bool.false_ne_true
    · rw [mounting]
      trivial

section Iteration

variable (medium : Medium) (current : Nat) (inserted : medium.state.card.isSome = true)
  (here : medium.state.position.toNat = arenaSize * current)
  (inside : medium.state.position.toNat < medium.state.capacity.toNat)
  (due : ∀ number, Due medium number → Holds medium.cells number)
include inserted here inside due

theorem stored_finish (keeps : medium.state.unmount = false) (holds : Holds medium.cells current)
    (back : medium.arena.cells = slotMark current) :
    Stored (medium.settle medium.state.finish) := by
  have finished : medium.state.finish = { medium.state.advance with control := .waiting } := by
    simp [State.finish, keeps, inserted]
  have positive : 0 < arenaSize := by decide
  -- An arena below the new position is the current one or has been below the old one.
  have behind : ∀ number ≤ current, Holds medium.cells number := by
    intro number low
    rcases Nat.lt_or_eq_of_le low with less | rfl
    · exact due number (.inl (here ▸ Nat.mul_le_mul_left _ less))
    · exact holds
  have number_le : ∀ number, arenaSize * (number + 1) ≤ arenaSize * current + arenaSize →
      number ≤ current := fun number fits =>
    Nat.le_of_lt_succ (Nat.lt_of_mul_lt_mul_left
      (Nat.lt_of_lt_of_le (Nat.mul_lt_mul_of_pos_left (Nat.lt_succ_self number) positive) fits))
  rw [finished]
  rcases advance_cases medium.state (here ▸ Nat.dvd_mul_right _ _) with
    ⟨moved, _⟩ | ⟨zero, last⟩
  · have nonzero : medium.state.advance.position ≠ 0 := fun zero => by
      rw [zero] at moved
      exact absurd moved (Nat.ne_of_lt (Nat.add_pos_right _ positive))
    have same : medium.settle { medium.state.advance with control := .waiting } =
        { medium with state := { medium.state.advance with control := .waiting } } := by
      rw [Medium.settle, decide_eq_false fun both => nonzero both.2.2, Bool.or_false]
    have place : medium.state.advance.position.toNat / arenaSize = current + 1 := by
      rw [moved, here, ← Nat.mul_succ]
      exact Nat.mul_div_cancel_left _ positive
    have ahead : medium.passed = true → ∀ number,
        arenaSize * (number + 1) ≤ medium.state.capacity.toNat → Holds medium.cells number := by
      intro passed number fits
      by_cases isCurrent : number = current
      · rw [isCurrent]
        exact holds
      · refine due number (.inr ⟨passed, fits, fun equal => isCurrent ?_⟩)
        exact Nat.eq_of_mul_eq_mul_left positive (equal.trans here)
    rw [same]
    refine ⟨fun _ number isDue => ?_, fun _ => ⟨fun passed fits => ?_, ?_,
      fun zero => absurd zero nonzero⟩⟩
    · rcases isDue with passedBy | ⟨passed, fits, _⟩
      · refine behind number (number_le number ?_)
        rw [← here, ← moved]
        exact passedBy
      · exact ahead passed number fits
    · exact ahead passed _ fits
    · rw [back, previous, if_neg nonzero]
      exact congrArg slotMark (by rw [place]; rfl)
  · have all : ∀ number, arenaSize * (number + 1) ≤ medium.state.capacity.toNat →
        Holds medium.cells number := fun number fits =>
      behind number (number_le number (here ▸ Nat.le_trans fits last))
    refine ⟨fun _ number isDue => ?_, fun _ => ⟨fun _ fits => all _ fits, ?_,
      fun _ => ?_⟩⟩
    · rcases isDue with passedBy | ⟨_, fits, _⟩
      · have none : arenaSize * (number + 1) ≤ 0 := by
          rw [← UInt64.toNat_zero, ← zero]
          exact passedBy
        exact absurd none (Nat.not_le.mpr (Nat.mul_pos positive (Nat.succ_pos number)))
      · exact all number fits
    · have final : (medium.state.capacity.toNat - 1) / arenaSize = current := by
        simp only [arenaSize, blockSize] at here last ⊢
        omega
      have number : previous { medium.state.advance with control := .waiting } = current :=
        (if_pos zero).trans final
      exact back.trans (congrArg slotMark number.symm)
    · rw [Medium.settle, decide_eq_true ⟨rfl, inserted, zero⟩, Bool.or_true]

theorem stored_transferred (access : Access) (completed : Bool)
    (written : access = ⟨.write, true⟩ → completed = true → Holds medium.cells current)
    (holds : access.direction = .read → medium.state.unmount = false → Holds medium.cells current)
    (back : access = ⟨.read, true⟩ → completed = true → Holds medium.cells current →
      medium.arena.cells = slotMark current) :
    Stored (medium.settle (medium.state.transferred access completed)) := by
  have place : medium.state.position.toNat / arenaSize = current := by
    rw [here]
    exact Nat.mul_div_cancel_left _ (by decide)
  obtain ⟨direction, multiBlock⟩ := access
  cases multiBlock with
  | false =>
      have single : medium.state.transferred ⟨direction, false⟩ completed =
          { medium.state with
            ok := medium.state.ok && completed, control := .issuing ⟨direction, true⟩ } := rfl
      rw [single, Medium.settle_busy _ _ (.inl Control.noConfusion)]
      refine ⟨fun _ => due, ?_⟩
      cases direction with
      | write => trivial
      | read =>
          intro keeps
          rw [place]
          exact holds rfl keeps
  | true =>
      cases direction with
      | write =>
          have reading : medium.state.transferred ⟨.write, true⟩ completed =
              { medium.state with
                ok := true
                unmount := medium.state.unmount || !(medium.state.ok && completed)
                control := .issuing ⟨.read, false⟩ } := by
            simp [State.transferred, State.readTest, inserted]
          rw [reading, Medium.settle_busy _ _ (.inl Control.noConfusion)]
          refine ⟨fun _ => due, fun keeps => ?_⟩
          simp only [Bool.or_eq_false_iff, Bool.not_eq_false', Bool.and_eq_true] at keeps
          rw [place]
          exact written rfl keeps.2.2
      | read =>
          have ended : medium.state.transferred ⟨.read, true⟩ completed =
              State.finish { medium.state with
                ok := medium.state.ok && completed
                unmount := medium.state.unmount || !(medium.state.ok && completed) } := rfl
          rw [ended]
          cases fails : medium.state.unmount || !(medium.state.ok && completed) with
          | true => exact stored_empty _ rfl (.inl rfl)
          | false =>
              simp only [Bool.or_eq_false_iff, Bool.not_eq_false', Bool.and_eq_true] at fails
              have now := holds rfl fails.1
              let tested : Medium :=
                { medium with
                  state :=
                    { medium.state with ok := medium.state.ok && completed, unmount := false } }
              exact stored_finish tested current inserted here inside due rfl now
                (back rfl fails.2.2 now)

end Iteration

/-! ## One step -/

section Step

variable {medium next : Medium} {event : Event}

theorem stored_writeTest (medium : Medium) (state : State)
    (due : state.card.isSome = true → ∀ number,
      Due { medium with state := state } number → Holds medium.cells number) :
    Stored (medium.settle (state.writeTest true)) := by
  cases card : state.card with
  | none =>
      have empty : (state.writeTest true).card = none ∧
          (state.writeTest true).control = .waiting := by
        cases unmount : state.unmount <;>
          simp [State.writeTest, State.readTest, State.finish, card, unmount]
      exact stored_empty _ empty.1 (.inl empty.2)
  | some inserted =>
      have writing : state.writeTest true =
          { state with ok := true, control := .issuing ⟨.write, false⟩ } := by
        simp [State.writeTest, card]
      rw [writing, Medium.settle_busy _ _ (.inl Control.noConfusion)]
      exact ⟨fun _ => due (by rw [card]; rfl), trivial⟩

theorem Due.ne {medium : Medium} {number current : Nat} (due : Due medium number)
    (here : medium.state.position.toNat = arenaSize * current) : number ≠ current := by
  rintro rfl
  rcases due with behind | ⟨_, _, apart⟩
  · rw [here, Nat.mul_succ] at behind
    exact absurd behind (Nat.not_le.mpr (Nat.lt_add_of_pos_right (by decide)))
  · exact apart here.symm

theorem stored_issue (stored : Stored medium) (access : Access) (noise : Nat → UInt8)
    (queued : Bool) (control : medium.state.control = .issuing access) (current : Nat)
    (inserted : medium.state.card.isSome = true)
    (here : medium.state.position.toNat = arenaSize * current)
    (inside : medium.state.position.toNat < medium.state.capacity.toNat) :
    Stored ((medium.issue access .done noise).settle
      (if queued then { medium.state with control := .pending access }
        else medium.state.transferred access false)) := by
  have place : medium.state.position.toNat / arenaSize = current := by
    rw [here]
    exact Nat.mul_div_cancel_left _ (by decide)
  have due : ∀ number, Due medium number → Holds (medium.issue access .done noise).cells number :=
    fun number isDue => Medium.issue_holds here access noise (stored.due inserted number isDue)
      (isDue.ne here)
  have kept : access.direction = .read → medium.state.unmount = false →
      Holds (medium.issue access .done noise).cells current := by
    intro reads keeps
    have stage := stored.stage
    obtain ⟨direction, multiBlock⟩ := access
    cases reads
    rw [Stage, control, place] at stage
    exact stage keeps
  cases queued with
  | true =>
      rw [if_pos rfl, Medium.settle_busy _ _ (.inl Control.noConfusion)]
      refine ⟨fun _ number isDue => due number ?_, ?_⟩
      · simpa [Due] using isDue
      · obtain ⟨direction, multiBlock⟩ := access
        cases direction with
        | write =>
            refine ⟨rfl, ?_⟩
            rintro rfl
            exact markFront_whole medium.arena .write medium.state.position
        | read => exact ⟨rfl, fun keeps => place.symm ▸ kept rfl keeps⟩
  | false =>
      rw [if_neg Bool.false_ne_true]
      have returned := stored_transferred (medium.issue access .done noise) current
        (by simpa using inserted) (by simpa using here) (by simpa using inside)
        (fun number isDue => due number (by simpa [Due] using isDue)) access false
        (fun _ never => absurd never Bool.false_ne_true)
        (fun reads keeps => kept reads (by simpa using keeps))
        (fun _ never => absurd never Bool.false_ne_true)
      rwa [Medium.issue_state] at returned

theorem stored_complete (stored : Stored medium) (access : Access) (status : Bool)
    (noise : Nat → UInt8) (control : medium.state.control = .pending access) (current : Nat)
    (inserted : medium.state.card.isSome = true)
    (here : medium.state.position.toNat = arenaSize * current)
    (inside : medium.state.position.toNat < medium.state.capacity.toNat) :
    Stored ((medium.complete access status noise).settle
      (medium.state.transferred access status)) := by
  have place : medium.state.position.toNat / arenaSize = current := by
    rw [here]
    exact Nat.mul_div_cancel_left _ (by decide)
  have stage := stored.stage
  obtain ⟨direction, multiBlock⟩ := access
  have started : medium.place = arenaSize * current := by
    rw [Stage, control] at stage
    cases direction with
    | write => exact stage.1.trans here
    | read => exact stage.1.trans here
  have due : ∀ number, Due medium number →
      Holds (medium.complete ⟨direction, multiBlock⟩ status noise).cells number :=
    fun number isDue => Medium.complete_holds started _ status noise
      (stored.due inserted number isDue) (isDue.ne here)
  have returned := stored_transferred (medium.complete ⟨direction, multiBlock⟩ status noise) current
    (by simpa using inserted) (by simpa using here) (by simpa using inside)
    (fun number isDue => due number (by simpa [Due] using isDue)) ⟨direction, multiBlock⟩ status
    ?_ ?_ ?_
  · rwa [Medium.complete_state] at returned
  · intro isWrite good
    cases isWrite
    subst good
    rw [Stage, control, place] at stage
    have whole : (front medium.arena ⟨.write, true⟩).cells = slotMark current :=
      (window_whole medium.arena.cells arenaSize (Nat.le_of_eq medium.arena.length_eq)).trans
        (stage.2 rfl)
    change cellsFrom (overwrite medium.cells medium.place (front medium.arena ⟨.write, true⟩).cells)
      (arenaSize * current) arenaSize = slotMark current
    have read := cellsFrom_overwrite medium.cells (arenaSize * current) (slotMark current)
    rw [slotMark_length] at read
    rw [whole, started, read]
  · intro reads keeps
    cases reads
    rw [Stage, control, place] at stage
    exact stage.2 (by simpa using keeps)
  · intro isRead good holds
    cases isRead
    subst good
    change (fill medium.arena (cellsFrom medium.cells medium.place arenaSize)).cells = _
    simp only [Medium.complete, Holds] at holds
    rw [fill_whole _ _ (cellsFrom_length ..), started, holds]

theorem stored_step (bounded : Bounded medium.state) (stored : Stored medium)
    (positioned : ∀ positioning queued, event.label = .issue positioning queued →
      positioning = .done)
    (taken : mediumStep medium event = some next) : Stored next := by
  obtain ⟨label, noise⟩ := event
  have current : medium.state.card.isSome = true →
      medium.state.position.toNat = arenaSize * (medium.state.position.toNat / arenaSize) := by
    intro inserted
    obtain ⟨card, is⟩ := Option.isSome_iff_exists.mp inserted
    exact (Nat.mul_div_cancel' (bounded.positioned card is).2.2).symm
  have inside (inserted : medium.state.card.isSome = true) :
      medium.state.position.toNat < medium.state.capacity.toNat := by
    obtain ⟨card, is⟩ := Option.isSome_iff_exists.mp inserted
    exact (bounded.positioned card is).2.1
  unfold mediumStep at taken
  cases moved : step true medium.state label with
  | none => simp [moved] at taken
  | some after =>
      simp only [moved, Option.some.injEq] at taken
      subst taken
      cases label with
      | overflow =>
          cases moved
          have same : medium.settle { medium.state with event := true } =
              { medium with state := { medium.state with event := true } } := by
            rw [Medium.settle]
            congr 1
            rw [Bool.or_eq_left_iff_imp, decide_eq_true_eq]
            rintro ⟨waiting, inserted, zero⟩
            have stage := stored.stage
            rw [Stage, waiting] at stage
            exact (stage inserted).2.2 zero
          change Stored (medium.settle { medium.state with event := true })
          rw [same]
          exact ⟨stored.due, stored.stage⟩
      | wake =>
          simp only [step, Option.ite_none_right_eq_some, Option.some.injEq] at moved
          obtain ⟨⟨waiting, -⟩, rfl⟩ := moved
          split
          · exact stored_writeTest _ _ stored.due
          · rename_i empty
            have absent := Option.not_isSome_iff_eq_none.mp empty
            rw [Medium.settle_busy _ _ (.inl Control.noConfusion)]
            exact stored_empty _ absent (.inr rfl)
      | initFailed =>
          simp only [step, Option.ite_none_right_eq_some, Option.some.injEq] at moved
          obtain ⟨-, rfl⟩ := moved
          exact stored_writeTest _ _ fun inserted => absurd inserted Bool.false_ne_true
      | init card zeroCopy sizeRead =>
          simp only [step, Option.ite_none_right_eq_some, Option.some.injEq] at moved
          obtain ⟨-, rfl⟩ := moved
          refine stored_writeTest _ _ fun _ number isDue => ?_
          rcases isDue with behind | ⟨passed, -⟩
          · have none : arenaSize * (number + 1) ≤ 0 := by
              rw [← UInt64.toNat_zero]
              exact behind
            exact absurd none (Nat.not_le.mpr (Nat.mul_pos (by decide) (Nat.succ_pos number)))
          · exact absurd passed Bool.false_ne_true
      | issue positioning queued =>
          cases positioned positioning queued rfl
          simp only [step] at moved
          split at moved
          · rename_i access control
            cases Option.some.inj moved
            have inserted := bounded.issuing access control
            have data : medium.data ⟨.issue .done queued, noise⟩ =
                medium.issue access .done noise := by
              simp only [Medium.data, control]
            rw [data]
            exact stored_issue stored access noise queued control _ inserted (current inserted)
              (inside inserted)
          · cases moved
      | complete status =>
          simp only [step] at moved
          split at moved
          · rename_i access control
            cases Option.some.inj moved
            have inserted := bounded.pending access control
            have data : medium.data ⟨.complete status, noise⟩ =
                medium.complete access status noise := by
              simp only [Medium.data, control]
            rw [data]
            exact stored_complete stored access status noise control _ inserted (current inserted)
              (inside inserted)
          · cases moved

end Step

/-! ## Whole runs -/

theorem stored_run (arena : Region UInt8 arenaSize) (cells : Nat → UInt8) (events : List Event)
    (final : Medium)
    (positioned : ∀ event ∈ events, ∀ positioning queued,
      event.label = .issue positioning queued → positioning = .done)
    (done : Schedule.run mediumStep events (startMedium arena cells) = some final) :
    Bounded final.state ∧ Stored final :=
  Schedule.run_preserves mediumStep
    (fun _ event => ∀ positioning queued, event.label = .issue positioning queued →
      positioning = .done)
    (fun medium => Bounded medium.state ∧ Stored medium)
    (fun medium event next before allowed taken => by
      refine ⟨?_, stored_step before.1 before.2 allowed taken⟩
      unfold mediumStep at taken
      cases moved : step true medium.state event.label with
      | none => simp [moved] at taken
      | some after =>
          simp only [moved, Option.some.injEq] at taken
          subst taken
          exact bounded_step true _ _ _ before.1 moved)
    events (startMedium arena cells) final ⟨bounded_start, stored_empty _ rfl (.inl rfl)⟩
    (Schedule.along_of_forall mediumStep (fun _ event => ∀ positioning queued,
      event.label = .issue positioning queued → positioning = .done) events
      (fun event member _ => positioned event member) _) done

/-- In every run of the write mode with the card positioned: the arenas that the position has
passed hold the marks of their numbers, all arenas of the card do once it has returned to the
start, and what the last iteration has read back is the mark it has written. -/
theorem passed_arenas_marked (arena : Region UInt8 arenaSize) (cells : Nat → UInt8)
    (events : List Event) (final : Medium)
    (positioned : ∀ event ∈ events, ∀ positioning queued,
      event.label = .issue positioning queued → positioning = .done)
    (done : Schedule.run mediumStep events (startMedium arena cells) = some final) :
    ∀ card ∈ final.state.card,
      (∀ number, arenaSize * (number + 1) ≤ final.state.position.toNat →
        Holds final.cells number) ∧
      (final.passed = true → ∀ number, arenaSize * (number + 1) ≤ card.capacity.toNat →
        final.state.control = .waiting ∨ arenaSize * number ≠ final.state.position.toNat →
          Holds final.cells number) ∧
      (final.state.control = .waiting →
        final.arena.cells = slotMark (previous final.state)) := by
  intro card is
  obtain ⟨bounded, stored⟩ := stored_run arena cells events final positioned done
  have inserted : final.state.card.isSome = true := Option.isSome_iff_exists.mpr ⟨card, is⟩
  have capacity := (bounded.positioned card is).1
  have stage := stored.stage
  refine ⟨fun number behind => stored.due inserted number (.inl behind), ?_, ?_⟩
  · intro passed number fits place
    by_cases apart : arenaSize * number ≠ final.state.position.toNat
    · exact stored.due inserted number (.inr ⟨passed, capacity ▸ fits, apart⟩)
    · have waiting := place.resolve_right apart
      have here : final.state.position.toNat / arenaSize = number := by
        rw [← of_not_not apart]
        exact Nat.mul_div_cancel_left _ (by decide)
      rw [Stage, waiting, here] at stage
      exact (stage inserted).1 passed (capacity ▸ fits)
  · intro waiting
    rw [Stage, waiting] at stage
    exact (stage inserted).2.1

/-- A card of two arenas, from its first iteration to the return of the position. -/
def firstRound : List Event :=
  (Label.wake :: .init ⟨4096, by decide⟩ true true ::
    (transfers ++ transfers ++ [.overflow, .wake] ++ (transfers ++ transfers))).map fun label =>
      { label := label, noise := fun _ => 0xA5 }

theorem passed_arenas_marked_round :
    ∃ final, Schedule.run mediumStep firstRound
        (startMedium (Region.filled arenaSize 0) fun _ => 0xFF) = some final ∧
      final.state.position = 0 ∧ Holds final.cells 0 ∧ Holds final.cells 1 ∧
      final.arena.cells = slotMark 1 := by
  have ends : (Schedule.run mediumStep firstRound
      (startMedium (Region.filled arenaSize 0) fun _ => 0xFF)).map
        (fun final => (final.state, final.passed)) =
        some (⟨.waiting, false, some ⟨4096, by decide⟩, 4096, 0, false, true⟩, true) := by rfl
  obtain ⟨final, done, same⟩ := Option.map_eq_some_iff.mp ends
  obtain ⟨is, passed⟩ := Prod.mk.inj same
  have positioned : ∀ event ∈ firstRound, ∀ positioning queued,
      event.label = .issue positioning queued → positioning = .done := by
    intro event member positioning queued issued
    obtain ⟨label, among, rfl⟩ := List.mem_map.mp member
    have known : ∀ label ∈ Label.wake :: .init ⟨4096, by decide⟩ true true ::
        (transfers ++ transfers ++ [.overflow, .wake] ++ (transfers ++ transfers)),
        label ∈ [Label.issue .done true, .wake, .init ⟨4096, by decide⟩ true true,
          .complete true, .overflow] := by decide
    have member := known label among
    simp only [List.mem_cons, List.not_mem_nil, or_false] at member
    rcases member with rfl | rfl | rfl | rfl | rfl
    · cases issued
      rfl
    all_goals cases issued
  obtain ⟨_, whole, back⟩ := passed_arenas_marked _ _ firstRound final positioned done
    ⟨4096, by decide⟩ (by rw [is]; rfl)
  have waiting : final.state.control = .waiting := by rw [is]
  refine ⟨final, done, by rw [is], whole passed 0 (by decide) (.inl waiting),
    whole passed 1 (by decide) (.inl waiting), ?_⟩
  rw [back waiting, is]
  rfl

end HalmExamples.MmcSd
