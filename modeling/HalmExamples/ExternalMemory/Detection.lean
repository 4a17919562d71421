import HalmExamples.ExternalMemory.Program

/-!
# What the memory test detects

After the write loop a cell holds the pattern of its last address.  The constant patterns
find the stuck bits, and without those the sequential pattern finds two addresses of one
cell.
-/

set_option autoImplicit false

namespace HalmExamples.ExternalMemory

section Loops

variable {Cell : Type} (memory : Memory Cell)

/-! ## Single accesses -/

theorem load_getLsbD (content : Content Cell) (position : Nat) (bit : Fin 32) :
    (memory.load content position).getLsbD bit =
      (memory.bits (memory.cell position) bit).read
        ((content (memory.cell position)).getLsbD bit) := by
  have bound : (bit : Nat) < (List.finRange 32).length := by
    rw [List.length_finRange]
    exact bit.isLt
  rw [Memory.load, BitVec.getLsbD_cast, BitVec.getLsbD_ofBoolListLE, List.getD_eq_getElem?_getD,
    List.getElem?_map, List.getElem?_eq_getElem bound, List.getElem_finRange]
  rfl

theorem load_of_normal (content : Content Cell) (position : Nat)
    (normal : ∀ bit, memory.bits (memory.cell position) bit = .normal) :
    memory.load content position = content (memory.cell position) := by
  apply BitVec.eq_of_getLsbD_eq
  intro bit inside
  rw [load_getLsbD memory content position ⟨bit, inside⟩, normal]
  rfl

theorem readLoop_eq_true_iff (pattern : Nat → TestWord) (content : Content Cell)
    (remaining start : Nat) (passed : Bool) :
    readLoop memory pattern content remaining start passed = true ↔
      passed = true ∧ ∀ position, start ≤ position → position < start + remaining →
        memory.load content position = pattern position := by
  induction remaining generalizing start passed with
  | zero =>
      refine (and_iff_left ?_).symm
      intro position low high
      omega
  | succ remaining ih =>
      rw [readLoop, ih]
      by_cases same : memory.load content start = pattern start
      · rw [if_neg (not_not.mpr same)]
        refine and_congr_right fun _ => ⟨?_, ?_⟩
        · intro later position low high
          rcases Nat.eq_or_lt_of_le low with here | above
          · rw [← here]
            exact same
          · exact later position above (by omega)
        · intro all position low high
          exact all position (by omega) (by omega)
      · rw [if_pos same]
        refine iff_of_false (fun both => Bool.false_ne_true both.1) ?_
        rintro ⟨_, all⟩
        exact same (all start (Nat.le_refl _) (by omega))

variable [DecidableEq Cell]

theorem writeLoop_succ_last (pattern : Nat → TestWord) (remaining start : Nat)
    (content : Content Cell) :
    writeLoop memory pattern (remaining + 1) start content =
      memory.store (writeLoop memory pattern remaining start content) (start + remaining)
        (pattern (start + remaining)) := by
  induction remaining generalizing start content with
  | zero => rfl
  | succ remaining ih =>
      rw [writeLoop, ih, writeLoop, Nat.add_right_comm start 1 remaining, Nat.add_assoc]

theorem writeLoop_last (pattern : Nat → TestWord) (count : Nat) (content : Content Cell)
    (position : Nat) (inside : position < count) :
    ∃ last < count, memory.cell last = memory.cell position ∧
      writeLoop memory pattern count 0 content (memory.cell position) = pattern last ∧
      ∀ other < count, memory.cell other = memory.cell position → other ≤ last := by
  induction count with
  | zero => omega
  | succ count ih =>
      rw [writeLoop_succ_last, Nat.zero_add, Memory.store]
      by_cases wired : memory.cell position = memory.cell count
      · refine ⟨count, Nat.lt_succ_self count, wired.symm, ?_, ?_⟩
        · rw [wired, Function.update_self]
        · intro other within _
          exact Nat.le_of_lt_succ within
      · have earlier : position < count := by
          rcases Nat.eq_or_lt_of_le (Nat.le_of_lt_succ inside) with same | before
          · exact absurd (congrArg memory.cell same) wired
          · exact before
        obtain ⟨last, within, sameCell, value, latest⟩ := ih earlier
        refine ⟨last, Nat.lt_succ_of_lt within, sameCell, ?_, ?_⟩
        · rw [Function.update_of_ne wired]
          exact value
        · intro other otherWithin otherWired
          rcases Nat.eq_or_lt_of_le (Nat.le_of_lt_succ otherWithin) with same | before
          · exact absurd (same ▸ otherWired.symm) wired
          · exact latest other before otherWired

/-! ## One test -/

theorem test_passed_iff (size : Nat) (pattern : Nat → TestWord) (content : Content Cell) :
    (test memory size pattern content).1 = true ↔ ∀ position < size / wordSize,
      memory.load (test memory size pattern content).2 position = pattern position := by
  unfold test
  dsimp only
  rw [readLoop_eq_true_iff]
  constructor
  · rintro ⟨_, all⟩ position inside
    exact all position (Nat.zero_le _) (by rwa [Nat.zero_add])
  · intro all
    refine ⟨rfl, ?_⟩
    intro position _ inside
    exact all position (by rwa [Nat.zero_add] at inside)

/-- Every address has a cell of its own, of which all bits work. -/
structure Sound (count : Nat) : Prop where
  injective : ∀ one < count, ∀ two < count, memory.cell one = memory.cell two → one = two
  normal : ∀ position < count, ∀ bit, memory.bits (memory.cell position) bit = .normal

theorem test_passed_of_sound (size : Nat) (sound : Sound memory (size / wordSize))
    (pattern : Nat → TestWord) (content : Content Cell) :
    (test memory size pattern content).1 = true := by
  rw [test_passed_iff]
  intro position inside
  obtain ⟨last, within, sameCell, value, _⟩ :=
    writeLoop_last memory pattern (size / wordSize) content position inside
  rw [load_of_normal memory _ position (sound.normal position inside)]
  exact value.trans (congrArg pattern (sound.injective last within position inside sameCell))

/-- Whatever is tested, and whatever a test finds in the memory. -/
theorem results_of_sound (size : Nat) (sound : Sound memory (size / wordSize))
    (tests : List (Nat → TestWord)) (content : Content Cell) :
    ∀ passed ∈ results memory size tests content, passed = true := by
  induction tests generalizing content with
  | nil => simp [results]
  | cons pattern rest ih =>
      intro passed member
      rcases List.mem_cons.mp member with first | later
      · rw [first]
        exact test_passed_of_sound memory size sound pattern content
      · exact ih _ passed later

theorem not_stuck_of_passed (size : Nat) (word : TestWord) (content : Content Cell)
    (passed : (test memory size (fun _ => word) content).1 = true) (position : Nat)
    (inside : position < size / wordSize) (bit : Fin 32) (value : Bool)
    (stuck : memory.bits (memory.cell position) bit = .stuck value) :
    value = word.getLsbD bit := by
  have read := (test_passed_iff memory size _ content).mp passed position inside
  have bitRead := load_getLsbD memory (test memory size (fun _ => word) content).2 position bit
  rw [read, stuck] at bitRead
  exact bitRead.symm

theorem ones_ne_zeros : ∀ bit : Fin 32,
    (0xFFFFFFFF : TestWord).getLsbD bit ≠ (0x00000000 : TestWord).getLsbD bit := by
  decide

theorem normal_of_passed (size : Nat) (first second : Content Cell)
    (ones : (test memory size patternOnes first).1 = true)
    (zeros : (test memory size patternZeros second).1 = true) (position : Nat)
    (inside : position < size / wordSize) (bit : Fin 32) :
    memory.bits (memory.cell position) bit = .normal := by
  cases state : memory.bits (memory.cell position) bit with
  | normal => rfl
  | stuck value =>
      have high : value = (0xFFFFFFFF : TestWord).getLsbD bit :=
        not_stuck_of_passed memory size _ first ones position inside bit value state
      have low : value = (0x00000000 : TestWord).getLsbD bit :=
        not_stuck_of_passed memory size _ second zeros position inside bit value state
      exact absurd (high.symm.trans low) (ones_ne_zeros bit)

theorem injective_of_passed (size : Nat) (bound : size / wordSize < 2 ^ 32)
    (content : Content Cell)
    (normal : ∀ position < size / wordSize, ∀ bit,
      memory.bits (memory.cell position) bit = .normal)
    (sequential : (test memory size patternSequential content).1 = true)
    (one two : Nat) (oneInside : one < size / wordSize) (twoInside : two < size / wordSize)
    (sameCell : memory.cell one = memory.cell two) : one = two := by
  have isLast : ∀ position < size / wordSize, ∀ other < size / wordSize,
      memory.cell other = memory.cell position → other ≤ position := by
    intro position inside other otherInside wired
    obtain ⟨last, within, _, value, latest⟩ :=
      writeLoop_last memory patternSequential (size / wordSize) content position inside
    have read := (test_passed_iff memory size _ content).mp sequential position inside
    rw [load_of_normal memory _ position (normal position inside)] at read
    have same : patternSequential last = patternSequential position := value.symm.trans read
    have numbers := congrArg BitVec.toNat same
    simp only [patternSequential, BitVec.toNat_ofNat] at numbers
    rw [Nat.mod_eq_of_lt (by omega), Nat.mod_eq_of_lt (by omega)] at numbers
    exact numbers ▸ latest other otherInside wired
  exact Nat.le_antisymm (isLast two twoInside one oneInside sameCell)
    (isLast one oneInside two twoInside sameCell.symm)

end Loops

/-! ## All tests -/

theorem all_tests_pass_iff {Cell : Type} [DecidableEq Cell] (memory : Memory Cell) (size : Nat)
    (bound : size / wordSize < 2 ^ 32) (content : Content Cell) :
    (∀ passed ∈ results memory size patterns content, passed = true) ↔
      Sound memory (size / wordSize) := by
  constructor
  · intro all
    simp only [patterns, results, List.mem_cons, List.not_mem_nil, or_false, forall_eq_or_imp,
      forall_eq] at all
    obtain ⟨ones, zeros, _, _, sequential⟩ := all
    have normal := normal_of_passed memory size _ _ ones zeros
    exact ⟨fun one oneInside two twoInside =>
      injective_of_passed memory size bound _ normal sequential one two oneInside twoInside, normal⟩
  · intro sound
    exact results_of_sound memory size sound patterns content

/-- Sixteen words of which the last address line is not connected. -/
def halfMemory : Memory (Fin 8) :=
  { cell := fun position => ⟨position % 8, Nat.mod_lt _ (by omega)⟩, bits := fun _ _ => .normal }

/-- The first word and the ninth share a cell. -/
theorem all_tests_pass_iff_half :
    ¬ ∀ passed ∈ results halfMemory 64 patterns (fun _ => 0), passed = true := by
  intro passed
  have sound := (all_tests_pass_iff halfMemory 64 (by decide) fun _ => 0).mp passed
  exact absurd (sound.injective 0 (by decide) 8 (by decide) rfl) (by decide)

end HalmExamples.ExternalMemory
