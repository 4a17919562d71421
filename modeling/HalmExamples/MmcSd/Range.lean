import HalmExamples.Foundation.Schedule
import HalmExamples.MmcSd.Program

/-!
# Where the SD card test transfers

The position advances in steps of the arena and is compared with the capacity alone, so
every position is inside the card but the last arena need not be.
-/

set_option autoImplicit false

namespace HalmExamples.MmcSd

open Foundation Foundation.Schedule

/-! ## Positions -/

def Positioned (state : State) : Prop :=
  ∀ card ∈ state.card, state.capacity = card.capacity ∧
    state.position.toNat < state.capacity.toNat ∧ arenaSize ∣ state.position.toNat

/-- Between transfers the card is never removed. -/
structure Bounded (state : State) : Prop where
  positioned : Positioned state
  issuing : ∀ access, state.control = .issuing access → state.card.isSome
  pending : ∀ access, state.control = .pending access → state.card.isSome

theorem positioned_none (state : State) (empty : state.card = none) : Positioned state := by
  intro card member
  rw [empty] at member
  exact absurd member (by simp)

theorem Positioned.congr (state next : State) (positioned : Positioned state)
    (card : next.card = state.card) (capacity : next.capacity = state.capacity)
    (position : next.position = state.position) : Positioned next := by
  unfold Positioned
  rw [card, capacity, position]
  exact positioned

theorem bounded_of_quiet (state : State) (positioned : Positioned state)
    (issuing : ∀ access, state.control ≠ .issuing access)
    (pending : ∀ access, state.control ≠ .pending access) : Bounded state :=
  ⟨positioned, fun access is => absurd is (issuing access),
    fun access is => absurd is (pending access)⟩

theorem bounded_of_card (state : State) (positioned : Positioned state)
    (inserted : state.card.isSome) : Bounded state :=
  ⟨positioned, fun _ _ => inserted, fun _ _ => inserted⟩

/-- A wrapped sum is a position, too: `2 ^ 64` is a multiple of the arena. -/
theorem positioned_advance (state : State) (positioned : Positioned state) :
    Positioned state.advance := by
  intro card member
  obtain ⟨capacity, below, aligned⟩ := positioned card member
  refine ⟨capacity, ?_⟩
  unfold State.advance
  dsimp only
  split
  · exact ⟨Nat.lt_of_le_of_lt (Nat.zero_le _) below, Nat.dvd_zero _⟩
  · rename_i inside
    refine ⟨UInt64.lt_iff_toNat_lt.mp (UInt64.not_le.mp inside), ?_⟩
    rw [UInt64.toNat_add]
    exact (Nat.dvd_mod_iff (by decide)).mpr (Nat.dvd_add aligned (by decide))

theorem bounded_finish (state : State) (positioned : Positioned state) :
    Bounded state.finish := by
  refine bounded_of_quiet _ ?_ (fun _ is => by cases is) (fun _ is => by cases is)
  unfold State.finish
  by_cases unmount : state.unmount = true
  · exact positioned_none _ (by simp [unmount])
  · by_cases inserted : state.card.isSome = true
    · refine Positioned.congr state.advance _ (positioned_advance state positioned) ?_ ?_ ?_ <;>
        simp [unmount, inserted]
    · have absent : state.card = none := Option.not_isSome_iff_eq_none.mp inserted
      exact positioned_none _ (by simp [unmount, absent])

theorem bounded_readTest (state : State) (positioned : Positioned state) :
    Bounded state.readTest := by
  unfold State.readTest
  split
  · rename_i inserted
    exact bounded_of_card _ (Positioned.congr state _ positioned rfl rfl rfl) inserted
  · exact bounded_finish state positioned

theorem bounded_writeTest (testWriteMode : Bool) (state : State) (positioned : Positioned state) :
    Bounded (state.writeTest testWriteMode) := by
  unfold State.writeTest
  split
  · rename_i writes
    exact bounded_of_card _ (Positioned.congr state _ positioned rfl rfl rfl)
      (Bool.and_eq_true_iff.mp writes).2
  · exact bounded_readTest state positioned

/-- A card whose size is not known, or is zero, is not kept. -/
theorem positioned_mounted (card : Card) (zeroCopy sizeRead : Bool) (state : State) :
    Positioned (state.mounted card zeroCopy sizeRead) := by
  unfold State.mounted
  dsimp only
  by_cases ok : (zeroCopy && sizeRead && (if sizeRead then card.capacity else 0) ≠ 0) = true
  · simp only [Bool.and_eq_true, decide_eq_true_eq] at ok
    obtain ⟨⟨zeroCopied, size⟩, nonzero⟩ := ok
    rw [if_pos size] at nonzero
    intro inserted member
    simp only [zeroCopied, size, if_true, Bool.and_self, nonzero, ne_eq,
      not_false_eq_true, decide_true, Option.mem_some] at member
    subst member
    simp only [size, if_true]
    refine ⟨trivial, ?_, Nat.dvd_zero _⟩
    exact Nat.pos_of_ne_zero fun zero => nonzero (UInt64.toNat_inj.mp zero)
  · exact positioned_none _ (if_neg ok)

theorem bounded_transferred (access : Access) (completed : Bool) (state : State)
    (positioned : Positioned state) (inserted : state.card.isSome) :
    Bounded (state.transferred access completed) := by
  unfold State.transferred
  dsimp only
  split
  · cases access.direction with
    | write => exact bounded_readTest _ (Positioned.congr state _ positioned rfl rfl rfl)
    | read => exact bounded_finish _ (Positioned.congr state _ positioned rfl rfl rfl)
  · exact bounded_of_card _ (Positioned.congr state _ positioned rfl rfl rfl) inserted

theorem step_cases (testWriteMode : Bool) (state next : State) (label : Label)
    (taken : step testWriteMode state label = some next) :
    next = { state with event := true } ∨
    next = State.writeTest testWriteMode { state with event := false, unmount := false } ∨
    next = { state with event := false, unmount := false, control := .mounting } ∨
    next = State.writeTest testWriteMode { state with card := none } ∨
    (∃ card zeroCopy sizeRead, label = .init card zeroCopy sizeRead ∧
      next = (state.mounted card zeroCopy sizeRead).writeTest testWriteMode) ∨
    (∃ access, state.control = .issuing access ∧
      next = { state with control := .pending access }) ∨
    ∃ access completed, (state.control = .issuing access ∨ state.control = .pending access) ∧
      next = state.transferred access completed := by
  cases label with
  | overflow =>
      cases taken
      exact Or.inl rfl
  | wake =>
      simp only [step, Option.ite_none_right_eq_some, Option.some.injEq] at taken
      obtain ⟨_, rfl⟩ := taken
      split
      · exact Or.inr (Or.inl rfl)
      · exact Or.inr (Or.inr (Or.inl rfl))
  | initFailed =>
      simp only [step, Option.ite_none_right_eq_some, Option.some.injEq] at taken
      obtain ⟨_, rfl⟩ := taken
      exact Or.inr (Or.inr (Or.inr (Or.inl rfl)))
  | init card zeroCopy sizeRead =>
      simp only [step, Option.ite_none_right_eq_some, Option.some.injEq] at taken
      obtain ⟨_, rfl⟩ := taken
      exact Or.inr (Or.inr (Or.inr (Or.inr (Or.inl ⟨card, zeroCopy, sizeRead, rfl, rfl⟩))))
  | issue positioning queued =>
      simp only [step] at taken
      split at taken
      · rename_i access control
        cases Option.some.inj taken
        split
        · exact Or.inr (Or.inr (Or.inr (Or.inr (Or.inr (Or.inl ⟨access, control, rfl⟩)))))
        · exact Or.inr (Or.inr (Or.inr (Or.inr (Or.inr (Or.inr
            ⟨access, false, Or.inl control, rfl⟩)))))
      · cases taken
  | complete status =>
      simp only [step] at taken
      split at taken
      · rename_i access control
        cases Option.some.inj taken
        exact Or.inr (Or.inr (Or.inr (Or.inr (Or.inr (Or.inr
          ⟨access, status, Or.inr control, rfl⟩)))))
      · cases taken

theorem bounded_step (testWriteMode : Bool) (state next : State) (label : Label)
    (bounded : Bounded state) (taken : step testWriteMode state label = some next) :
    Bounded next := by
  obtain ⟨positioned, issuing, pending⟩ := bounded
  rcases step_cases testWriteMode state next label taken with
    rfl | rfl | rfl | rfl | ⟨card, zeroCopy, sizeRead, _, rfl⟩ | ⟨access, control, rfl⟩ |
      ⟨access, completed, control, rfl⟩
  · exact ⟨positioned, issuing, pending⟩
  · exact bounded_writeTest testWriteMode _ (Positioned.congr state _ positioned rfl rfl rfl)
  · exact bounded_of_quiet _ (Positioned.congr state _ positioned rfl rfl rfl)
      (fun _ is => by cases is) (fun _ is => by cases is)
  · exact bounded_writeTest testWriteMode _ (positioned_none _ rfl)
  · exact bounded_writeTest testWriteMode _ (positioned_mounted card zeroCopy sizeRead state)
  · exact bounded_of_card _ (Positioned.congr state _ positioned rfl rfl rfl)
      (issuing access control)
  · have inserted : state.card.isSome := control.elim (issuing access) (pending access)
    exact bounded_transferred access completed state positioned inserted

theorem bounded_start : Bounded start :=
  bounded_of_quiet start (positioned_none start rfl) (fun _ is => by cases is)
    (fun _ is => by cases is)

/-! ## Transfers -/

/-- Where a card ends in less than an arena: the capacity if there is no such rest. -/
def restStart (capacity : UInt64) : Nat := arenaSize * (capacity.toNat / arenaSize)

/-- A transfer of several blocks does not start at the rest of the card, and one before which
the card could not be positioned has room where the card is. -/
def Room (state : State) : Label → Prop
  | .issue positioning _ =>
      match state.control, positioning with
      | .issuing access, .done =>
          access.multiBlock = true → state.position.toNat ≠ restStart state.capacity
      | .issuing access, .kept place =>
          place.toNat + access.length ≤ state.capacity.toNat
      | _, _ => True
  | _ => True

theorem arena_fits_iff (position capacity : Nat) (below : position < capacity)
    (aligned : arenaSize ∣ position) :
    position + arenaSize ≤ capacity ↔ position ≠ arenaSize * (capacity / arenaSize) := by
  simp only [arenaSize, blockSize] at aligned ⊢
  omega

theorem block_fits (position capacity : Nat) (below : position < capacity)
    (aligned : arenaSize ∣ position) (whole : blockSize ∣ capacity) :
    position + blockSize ≤ capacity := by
  simp only [arenaSize, blockSize] at aligned whole ⊢
  omega

theorem transfer_cases (state : State) (label : Label) :
    (transferOf state label = none ∧ Room state label) ∨
      ∃ positioning queued access,
        label = .issue positioning queued ∧ state.control = .issuing access := by
  cases label with
  | issue positioning queued =>
      cases control : state.control with
      | issuing access => exact Or.inr ⟨positioning, queued, access, rfl, rfl⟩
      | waiting => exact Or.inl ⟨by simp [transferOf, control], by simp [Room, control]⟩
      | mounting => exact Or.inl ⟨by simp [transferOf, control], by simp [Room, control]⟩
      | pending access => exact Or.inl ⟨by simp [transferOf, control], by simp [Room, control]⟩
  | overflow => exact Or.inl ⟨rfl, trivial⟩
  | wake => exact Or.inl ⟨rfl, trivial⟩
  | initFailed => exact Or.inl ⟨rfl, trivial⟩
  | init card zeroCopy sizeRead => exact Or.inl ⟨rfl, trivial⟩
  | complete status => exact Or.inl ⟨rfl, trivial⟩

theorem inside_iff_room (state : State) (label : Label) (bounded : Bounded state) :
    Inside state label ↔ Room state label := by
  rcases transfer_cases state label with
    ⟨none, room⟩ | ⟨positioning, queued, access, rfl, control⟩
  · refine iff_of_true ?_ room
    simp [Inside, none]
  · obtain ⟨card, inserted⟩ := Option.isSome_iff_exists.mp (bounded.issuing access control)
    obtain ⟨capacity, below, aligned⟩ := bounded.positioned card inserted
    simp only [Inside, Room, transferOf, control, inserted, Option.mem_def,
      Option.some.injEq, forall_eq', exists_eq_left']
    rw [← capacity]
    cases positioning with
    | kept place => exact Iff.rfl
    | done =>
        simp only [Positioning.start, Access.length]
        cases access.multiBlock with
        | true =>
            simp only [if_true, forall_const]
            exact arena_fits_iff _ _ below aligned
        | false =>
            simp only [Bool.false_eq_true, if_false, false_imp_iff, iff_true]
            exact block_fits _ _ below aligned (capacity ▸ card.aligned)

/-- For every run of the loop, with any cards, failures and timer events. -/
theorem transfers_inside_iff (testWriteMode : Bool) (labels : List Label) :
    Along (step testWriteMode) Inside labels start ↔
      Along (step testWriteMode) Room labels start :=
  along_congr (step testWriteMode) Bounded (fun _ => True) Inside Room
    (fun state label next bounded _ taken =>
      bounded_step testWriteMode state next label bounded taken)
    (fun state label bounded _ => inside_iff_room state label bounded)
    labels (fun _ _ => trivial) start bounded_start

/-- The second iteration on a card of five blocks. -/
theorem rest_overrun :
    ¬ Along (step false) Inside
      [.wake, .init ⟨2560, by decide⟩ true true, .issue .done true, .complete true,
        .issue .done true, .complete true, .overflow, .wake, .issue .done true, .complete true,
        .issue .done true] start := by
  decide

/-! ## Cards -/

/-- Only these cards are inserted, and they can always be positioned. -/
def Label.From (cards : Set Card) : Label → Prop
  | .init card _ _ => card ∈ cards
  | .issue positioning _ => positioning = .done
  | _ => True

def testing (testWriteMode : Bool) (card : Card) (position : UInt64) : State where
  control := .issuing ⟨if testWriteMode then .write else .read, false⟩
  event := false
  card := some card
  capacity := card.capacity
  position := position
  unmount := false
  ok := true

def transfers : List Label := [.issue .done true, .complete true, .issue .done true, .complete true]

def lap (testWriteMode : Bool) : List Label :=
  (if testWriteMode then transfers ++ transfers else transfers) ++ [.overflow, .wake]

theorem run_lap (testWriteMode : Bool) (card : Card) (position : UInt64)
    (inside : ¬ position + UInt64.ofNat arenaSize ≥ card.capacity) :
    run (step testWriteMode) (lap testWriteMode) (testing testWriteMode card position) =
      some (testing testWriteMode card (position + UInt64.ofNat arenaSize)) := by
  cases testWriteMode <;>
    simp [run, lap, transfers, step, testing, State.transferred, State.readTest, State.writeTest,
      State.finish, State.advance, inside]

theorem insertedlap (testWriteMode : Bool) (cards : Set Card) :
    ∀ label ∈ lap testWriteMode, label.From cards := by
  cases testWriteMode <;> simp [lap, transfers, Label.From]

/-- As long as nothing fails, every arena that begins inside the card is reached. -/
theorem testing_reached (testWriteMode : Bool) (cards : Set Card) (card : Card)
    (inserted : card ∈ cards) (count : Nat) (inside : arenaSize * count < card.capacity.toNat) :
    ∃ labels : List Label, (∀ label ∈ labels, label.From cards) ∧
      run (step testWriteMode) labels start =
        some (testing testWriteMode card (UInt64.ofNat (arenaSize * count))) := by
  induction count with
  | zero =>
      have nonzero : card.capacity ≠ 0 := fun zero => by simp [zero] at inside
      refine ⟨[.wake, .init card true true], by simp [Label.From, inserted], ?_⟩
      cases testWriteMode <;>
        simp [run, step, start, testing, State.mounted, State.readTest, State.writeTest, nonzero]
  | succ count ih =>
      obtain ⟨labels, all, reached⟩ := ih (by rw [Nat.mul_succ] at inside; omega)
      have sum : UInt64.ofNat (arenaSize * (count + 1)) =
          UInt64.ofNat (arenaSize * count) + UInt64.ofNat arenaSize := by
        rw [Nat.mul_succ, UInt64.ofNat_add]
      have below : (UInt64.ofNat (arenaSize * (count + 1))).toNat = arenaSize * (count + 1) :=
        UInt64.toNat_ofNat_of_lt' (Nat.lt_trans inside card.capacity.toNat_lt)
      refine ⟨labels ++ lap testWriteMode, ?_, ?_⟩
      · intro label member
        rcases List.mem_append.mp member with earlier | later
        · exact all label earlier
        · exact insertedlap testWriteMode cards label later
      · rw [run_append, reached, Option.bind_some, sum]
        refine run_lap testWriteMode card _ ?_
        rw [← sum, ge_iff_le, UInt64.le_iff_toNat_le, below]
        exact Nat.not_le.mpr inside

theorem testing_overruns (testWriteMode : Bool) (card : Card) (position : UInt64)
    (short : card.capacity.toNat < position.toNat + arenaSize) :
    ¬ Along (step testWriteMode) Inside [.issue .done true, .complete true, .issue .done true]
      (testing testWriteMode card position) := by
  rintro ⟨_, _, inside, _⟩
  simp only [Inside, transferOf, testing, State.transferred, Bool.false_eq_true, if_false,
    Option.mem_def, Option.some.injEq, forall_eq', exists_eq_left', Positioning.start,
    Access.length, if_true] at inside
  exact Nat.not_lt.mpr inside short

section Inserted

def InsertedFrom (cards : Set Card) (state : State) : Prop := ∀ card ∈ state.card, card ∈ cards

variable (cards : Set Card)

theorem insertedFrom_finish (state : State) (inserted : InsertedFrom cards state) :
    InsertedFrom cards state.finish := by
  unfold State.finish
  by_cases unmount : state.unmount = true
  · simp [unmount, InsertedFrom]
  · by_cases present : state.card.isSome = true
    · simpa [unmount, present, State.advance, InsertedFrom] using inserted
    · simpa [unmount, present, InsertedFrom] using inserted

theorem insertedFrom_readTest (state : State) (inserted : InsertedFrom cards state) :
    InsertedFrom cards state.readTest := by
  unfold State.readTest
  split
  · exact inserted
  · exact insertedFrom_finish cards state inserted

theorem insertedFrom_writeTest (testWriteMode : Bool) (state : State)
    (inserted : InsertedFrom cards state) : InsertedFrom cards (state.writeTest testWriteMode) := by
  unfold State.writeTest
  split
  · exact inserted
  · exact insertedFrom_readTest cards state inserted

theorem insertedFrom_transferred (access : Access) (completed : Bool) (state : State)
    (inserted : InsertedFrom cards state) :
    InsertedFrom cards (state.transferred access completed) := by
  unfold State.transferred
  dsimp only
  split
  · cases access.direction with
    | write => exact insertedFrom_readTest cards _ inserted
    | read => exact insertedFrom_finish cards _ inserted
  · exact inserted

theorem insertedFrom_step (testWriteMode : Bool) (state next : State) (label : Label)
    (inserted : InsertedFrom cards state) (labelFrom : label.From cards)
    (taken : step testWriteMode state label = some next) : InsertedFrom cards next := by
  rcases step_cases testWriteMode state next label taken with
    rfl | rfl | rfl | rfl | ⟨card, zeroCopy, sizeRead, rfl, rfl⟩ | ⟨access, _, rfl⟩ |
      ⟨access, completed, _, rfl⟩
  · exact inserted
  · exact insertedFrom_writeTest cards testWriteMode _ inserted
  · exact inserted
  · exact insertedFrom_writeTest cards testWriteMode _ (by simp [InsertedFrom])
  · refine insertedFrom_writeTest cards testWriteMode _ ?_
    intro kept member
    simp only [State.mounted, Option.mem_def, Option.ite_none_right_eq_some,
      Option.some.injEq] at member
    exact member.2 ▸ labelFrom
  · exact inserted
  · exact insertedFrom_transferred cards access completed state inserted

theorem room_of_divided (divided : ∀ card ∈ cards, arenaSize ∣ card.capacity.toNat)
    (state : State) (label : Label) (bounded : Bounded state)
    (inserted : InsertedFrom cards state) (labelFrom : label.From cards) : Room state label := by
  rcases transfer_cases state label with ⟨_, room⟩ | ⟨positioning, queued, access, rfl, control⟩
  · exact room
  · cases labelFrom
    obtain ⟨card, is⟩ := Option.isSome_iff_exists.mp (bounded.issuing access control)
    obtain ⟨capacity, below, _⟩ := bounded.positioned card is
    simp only [Room, control]
    intro _ atRest
    rw [restStart, Nat.mul_div_cancel' (capacity ▸ divided card (inserted card is))] at atRest
    omega

end Inserted

/-- Without failing calls to position the card, the test stays on exactly the cards that the
arena divides. -/
theorem cards_kept_iff (testWriteMode : Bool) (cards : Set Card) :
    (∀ labels : List Label, (∀ label ∈ labels, label.From cards) →
      Along (step testWriteMode) Inside labels start) ↔
      ∀ card ∈ cards, arenaSize ∣ card.capacity.toNat := by
  constructor
  · intro kept card inserted
    by_contra rest
    have split := Nat.div_add_mod card.capacity.toNat arenaSize
    have positive : 0 < card.capacity.toNat % arenaSize :=
      Nat.pos_of_ne_zero fun zero => rest (Nat.dvd_of_mod_eq_zero zero)
    have short : card.capacity.toNat % arenaSize < arenaSize := Nat.mod_lt _ (by decide)
    have inside : arenaSize * (card.capacity.toNat / arenaSize) < card.capacity.toNat := by omega
    obtain ⟨labels, all, reached⟩ := testing_reached testWriteMode cards card inserted _ inside
    have along := kept (labels ++ [.issue .done true, .complete true, .issue .done true]) (by
      intro label member
      rcases List.mem_append.mp member with earlier | later
      · exact all label earlier
      · simp only [List.mem_cons, List.not_mem_nil, or_false] at later
        rcases later with rfl | rfl | rfl
        · rfl
        · trivial
        · rfl)
    refine testing_overruns testWriteMode card _ ?_
      ((along_append (step testWriteMode) Inside labels _ start _ reached).mp along).2
    rw [UInt64.toNat_ofNat_of_lt' (Nat.lt_trans inside card.capacity.toNat_lt)]
    omega
  · intro divided labels all
    refine (along_congr (step testWriteMode)
      (fun state => Bounded state ∧ InsertedFrom cards state) (Label.From cards) Inside
      (fun _ _ => True) ?_ ?_ labels all start ⟨bounded_start, by simp [InsertedFrom, start]⟩).mpr
      (along_true (step testWriteMode) labels start)
    · rintro state label next ⟨bounded, inserted⟩ labelFrom taken
      exact ⟨bounded_step testWriteMode state next label bounded taken,
        insertedFrom_step cards testWriteMode state next label inserted labelFrom taken⟩
    · rintro state label ⟨bounded, inserted⟩ labelFrom
      exact iff_of_true ((inside_iff_room state label bounded).mpr
        (room_of_divided cards divided state label bounded inserted labelFrom)) trivial

end HalmExamples.MmcSd
