import HalmExamples.Clock.PllReach
import HalmExamples.Clock.Tree

/-!
# What the PLL search promises

The bounds of the loop over `d` decide three properties of the pair that is stored:
whether it is legal, whether no legal pair comes closer, and that a target which a legal
pair meets exactly is met with the least multiplier.
-/

set_option autoImplicit false

namespace HalmExamples.Clock

open Foundation

/-! ## Comparing pairs of one multiplier -/

section Compare

variable (input target m : Nat)

theorem pairError_le_of_above (less more : Nat) (order : less ≤ more) (positive : 0 < less)
    (above : target ≤ m * input / more) :
    pairError input target (m, more) ≤ pairError input target (m, less) := by
  have quotients : m * input / more ≤ m * input / less := Nat.div_le_div_left order positive
  unfold pairError pairDifference
  dsimp only
  omega

theorem pairError_le_of_below (less more : Nat) (order : less ≤ more) (positive : 0 < less)
    (below : m * input / less ≤ target) :
    pairError input target (m, less) ≤ pairError input target (m, more) := by
  have quotients : m * input / more ≤ m * input / less := Nat.div_le_div_left order positive
  unfold pairError pairDifference
  dsimp only
  omega

theorem LegalDivisor.pos {d : Nat} (legal : LegalDivisor d) : 0 < d := by
  obtain ⟨power, _, isPower⟩ := legal
  rw [isPower]
  exact Nat.two_pow_pos power

theorem LegalDivisor.le_sixteen {d : Nat} (legal : LegalDivisor d) : d ≤ 16 := by
  obtain ⟨power, small, isPower⟩ := legal
  rw [isPower]
  exact Nat.pow_le_pow_right (by omega) small

theorem legalDivisor_sixteen : LegalDivisor 16 := ⟨4, by omega, rfl⟩

theorem Reached.divisor_cases {pair : PllPair} (reached : Reached input target pair) :
    LegalDivisor pair.2 ∨ pair.2 = 32 := by
  obtain ⟨power, small, isPower⟩ := reached.divisor
  by_cases legal : power ≤ 4
  · exact Or.inl ⟨power, legal, isPower⟩
  · have five : power = 5 := by omega
    exact Or.inr (isPower.trans (congrArg (2 ^ ·) five))

/-- Where the ratio exceeds 15, no legal divisor is closer than 16. -/
theorem pairError_sixteen_le (d : Nat) (legal : LegalDivisor d) (cco : ccoMin ≤ m * input)
    (ratio : 15 * target < m * input) :
    pairError input target (m, 16) ≤ pairError input target (m, d) := by
  have bound := legal.le_sixteen
  have low : 156000000 ≤ m * input := cco
  by_cases above : 16 * target ≤ m * input
  · exact pairError_le_of_above input target m d 16 bound legal.pos (by omega)
  · obtain ⟨power, small, isPower⟩ := legal
    by_cases sixteen : power = 4
    · have same : d = 2 ^ 4 := sixteen ▸ isPower
      exact Nat.le_of_eq (congrArg (fun d => pairError input target (m, d)) same.symm)
    · have eight : d ≤ 8 := by
        rw [isPower]
        exact Nat.pow_le_pow_right (by omega) (show power ≤ 3 by omega)
      have closer := pairError_le_of_above input target m d 8 eight
        (isPower ▸ Nat.two_pow_pos power) (by omega)
      refine Nat.le_trans ?_ closer
      unfold pairError pairDifference
      dsimp only
      omega

end Compare

/-! ## Legality -/

/-- The search gives up, or it stores a legal pair and returns the error of that pair. -/
def StoresLegal (input target div mul : Nat) : Prop :=
  ∃ choice, findPllConfig input target div mul = some choice ∧
    (choice = { result := longMax, div := div, mul := mul } ∨
      LegalPair input (choice.mul, choice.div) ∧
        choice.result = ((choice.mul * input / choice.div : Nat) : Int) - target)

/-- A multiplier whose divisor 32 is reached and comes closer than 16 does with any legal
multiplier. -/
structure IllegalCloser (input target m : Nat) : Prop where
  multiplier : LegalMultiplier input m
  below : 31 * target < m * input
  above : m * input < 64 * target
  closer : ∀ other, LegalMultiplier input other →
    pairError input target (m, 32) < pairError input target (other, 16)

theorem reached_thirtyTwo_iff (input target m : Nat) :
    Reached input target (m, 32) ↔
      LegalMultiplier input m ∧ 31 * target < m * input ∧ m * input < 64 * target := by
  constructor
  · intro reached
    exact ⟨reached.multiplier, reached.below, reached.above⟩
  · rintro ⟨legal, below, above⟩
    exact ⟨legal, ⟨5, Nat.le_refl 5, rfl⟩, below, above⟩

/-- All CCO frequencies lie within a factor of 320 / 156. -/
theorem ratio_of_thirtyTwo (input target m other : Nat) (legal : LegalMultiplier input m)
    (below : 31 * target < m * input) (otherLegal : LegalMultiplier input other) :
    15 * target < other * input := by
  have high := legal.ccoMax
  have low := otherLegal.ccoMin
  unfold ccoMax at high
  unfold ccoMin at low
  omega

/-- If 32 is chosen, then 16 is nowhere as close. -/
theorem illegalCloser_of_chosen (input target m : Nat)
    (chosen : Chosen input target (m, 32)) : IllegalCloser input target m := by
  obtain ⟨legal, below, above⟩ := (reached_thirtyTwo_iff input target m).mp chosen.reached
  have cco := legal.ccoMin
  unfold ccoMin at cco
  refine ⟨legal, below, above, ?_⟩
  intro other otherLegal
  have ratio := ratio_of_thirtyTwo input target m other legal below otherLegal
  by_cases reachable : other * input < 32 * target
  · have reached : Reached input target (other, 16) :=
      ⟨otherLegal, ⟨4, by omega, rfl⟩, ratio, reachable⟩
    by_cases earlier : other < m
    · exact chosen.first (other, 16) reached earlier
    · have later : m * input ≤ other * input := Nat.mul_le_mul_right input (by omega)
      unfold pairError pairDifference
      dsimp only
      omega
  · unfold pairError pairDifference
    dsimp only
    omega

/-- For every request and whatever the arguments hold. -/
theorem stored_pair_legal_iff (input target div mul : Nat) (request : Request input target) :
    StoresLegal input target div mul ↔ ∀ m, ¬ IllegalCloser input target m := by
  rcases findPllConfig_cases div mul request with ⟨none, result⟩ | ⟨pair, chosen, result⟩
  · refine iff_of_true ⟨_, result, Or.inl rfl⟩ ?_
    intro m closer
    exact none _ ((reached_thirtyTwo_iff input target m).mpr
      ⟨closer.multiplier, closer.below, closer.above⟩)
  · constructor
    · rintro ⟨choice, stored, outcome⟩ m closer
      rw [result] at stored
      cases stored
      have different : pairDifference input target pair ≠ longMax :=
        ne_of_lt (pairDifference_lt request pair chosen.reached.multiplier.ccoMax)
      rcases outcome with gaveUp | ⟨legal, _⟩
      · exact different (congrArg PllChoice.result gaveUp)
      · have ratio := ratio_of_thirtyTwo input target m pair.1 closer.multiplier closer.below
          legal.multiplier
        have least := chosen.least (m, 32) ((reached_thirtyTwo_iff input target m).mpr
          ⟨closer.multiplier, closer.below, closer.above⟩)
        have sixteen := pairError_sixteen_le input target pair.1 pair.2 legal.divisor
          legal.multiplier.ccoMin ratio
        have worse := closer.closer pair.1 legal.multiplier
        exact absurd (Nat.le_trans sixteen least) (Nat.not_le.mpr worse)
    · intro noneCloser
      refine ⟨_, result, Or.inr ?_⟩
      rcases chosen.reached.divisor_cases with legal | thirtyTwo
      · exact ⟨⟨chosen.reached.multiplier, legal⟩, rfl⟩
      · obtain ⟨m, d⟩ := pair
        cases thirtyTwo
        exact absurd (illegalCloser_of_chosen input target m chosen) (noneCloser m)

theorem request_crystal (target : Nat) (positive : 0 < target) (bound : target ≤ ccoMax) :
    Request extOscFrequency target :=
  ⟨by decide, by decide, positive, bound⟩

theorem findPllConfig_102MHz :
    findPllConfig extOscFrequency 102000000 2 17 = some ⟨0, 2, 17⟩ := by
  decide +kernel

/-- A request of 102 MHz is met with a legal pair, so the divisor 32 is nowhere closer. -/
theorem stored_pair_legal_iff_102MHz :
    StoresLegal extOscFrequency 102000000 2 17 ∧
      ∀ m, ¬ IllegalCloser extOscFrequency 102000000 m := by
  have legal : StoresLegal extOscFrequency 102000000 2 17 :=
    ⟨_, findPllConfig_102MHz, Or.inr ⟨⟨⟨by decide, by decide, by decide, by decide⟩,
      1, by decide, rfl⟩, rfl⟩⟩
  exact ⟨legal, (stored_pair_legal_iff extOscFrequency 102000000 2 17
    (request_crystal _ (by decide) (by decide))).mp legal⟩

/-- For 5 MHz the search stores the divisor 32. -/
theorem illegal_divisor_stored :
    Request extOscFrequency 5000000 ∧ ¬ StoresLegal extOscFrequency 5000000 2 17 := by
  refine ⟨request_crystal _ (by decide) (by decide), ?_⟩
  have searched : findPllConfig extOscFrequency 5000000 2 17 = some ⟨-125000, 32, 13⟩ := by
    decide +kernel
  rintro ⟨choice, stored, outcome⟩
  rw [searched] at stored
  cases stored
  rcases outcome with gaveUp | ⟨legal, _⟩
  · exact absurd gaveUp (by decide)
  · exact absurd legal.divisor.le_sixteen (by decide)

/-! ## Optimality -/

def StoresClosest (input target div mul : Nat) : Prop :=
  ∃ choice, findPllConfig input target div mul = some choice ∧ choice.result ≠ longMax ∧
    ∀ pair, LegalPair input pair → choice.result.natAbs ≤ pairError input target pair

/-- A legal pair that the bounds of the divisor loop cut off: the divisor is the power of
two above the ratio, and at least one more than it. -/
structure CutOff (input target : Nat) (pair : PllPair) : Prop where
  multiplier : LegalMultiplier input pair.1
  divisor : ∃ power, 2 ≤ power ∧ power ≤ 4 ∧ pair.2 = 2 ^ power
  above : pair.2 * target ≤ 2 * (pair.1 * input)
  below : pair.1 * input ≤ (pair.2 - 1) * target

/-- Some ratio is below 64, and what is cut off is no closer than something reached. -/
structure ReachesClosest (input target : Nat) : Prop where
  visited : ∃ m, LegalMultiplier input m ∧ m * input < 64 * target
  covered : ∀ pair, CutOff input target pair → ∃ other, Reached input target other ∧
    pairError input target other ≤ pairError input target pair

/-- A ratio below 64 has its first divisor reached: the largest one that is not above the
ratio, or else 1. -/
theorem exists_reached (input target m : Nat) (request : Request input target)
    (legal : LegalMultiplier input m) (low : m * input < 64 * target) :
    ∃ power, Reached input target (m, 2 ^ power) ∧
      (power = 0 ∨ 2 ^ power * target ≤ m * input) := by
  have first := fun power => log2_lowerDiv_le_iff (m * input) target power request.positive
  have small : (lowerDiv (m * input) target).log2 ≤ 5 := (first 5).mpr low
  have above := (first _).mp (Nat.le_refl (lowerDiv (m * input) target).log2)
  refine ⟨(lowerDiv (m * input) target).log2, ?_⟩
  cases power : (lowerDiv (m * input) target).log2 with
  | zero =>
      rw [power] at above
      have cco : 0 < m * input := Nat.lt_of_lt_of_le (by decide) legal.ccoMin
      exact ⟨⟨legal, ⟨0, by omega, rfl⟩, by simpa using cco, above⟩, Or.inl rfl⟩
  | succ previous =>
      rw [power] at above small
      have notBelow : ¬ m * input < 2 * 2 ^ previous * target := by
        rw [← first, power]
        omega
      have doubled : 2 ^ (previous + 1) = 2 * 2 ^ previous := by rw [Nat.pow_succ, Nat.mul_comm]
      have reachesDown : 2 ^ (previous + 1) * target ≤ m * input := by
        rw [doubled]
        exact Nat.not_lt.mp notBelow
      have positivePower := Nat.two_pow_pos (previous + 1)
      have smaller : (2 ^ (previous + 1) - 1) * target < 2 ^ (previous + 1) * target :=
        Nat.mul_lt_mul_of_pos_right (by omega) request.positive
      exact ⟨⟨legal, ⟨previous + 1, small, rfl⟩, Nat.lt_of_lt_of_le smaller reachesDown, above⟩,
        Or.inr reachesDown⟩

/-- The error of a reached pair is at most the target. -/
theorem Reached.error_le {input target : Nat} {pair : PllPair}
    (reached : Reached input target pair) : pairError input target pair ≤ target := by
  have quotient : pair.1 * input / pair.2 < 2 * target := by
    obtain ⟨power, _, isPower⟩ := reached.divisor
    have positive : 0 < pair.2 := isPower ▸ Nat.two_pow_pos power
    rw [Nat.div_lt_iff_lt_mul positive]
    have above := reached.above
    rwa [Nat.mul_assoc, Nat.mul_comm pair.2, ← Nat.mul_assoc] at above
  unfold pairError pairDifference
  generalize pair.1 * input / pair.2 = frequency at quotient ⊢
  omega

/-- What is not reached is worse than something reached, unless it is cut off. -/
theorem legal_cases (input target : Nat) (request : Request input target) (pair : PllPair)
    (legal : LegalPair input pair) :
    3 * target ≤ pairError input target pair ∨
      (∃ other, Reached input target other ∧
        pairError input target other ≤ pairError input target pair) ∨
      ∃ cut, CutOff input target cut ∧
        pairError input target cut ≤ pairError input target pair := by
  obtain ⟨m, d⟩ := pair
  obtain ⟨multiplier, ⟨exponent, small, isPower⟩⟩ := legal
  dsimp only at multiplier isPower
  have sixteen := LegalDivisor.le_sixteen ⟨exponent, small, isPower⟩
  have positive : 0 < d := isPower ▸ Nat.two_pow_pos exponent
  by_cases low : m * input < 64 * target
  · right
    obtain ⟨power, reached, lower⟩ := exists_reached input target m request multiplier low
    have upper : m * input < 2 * 2 ^ power * target := reached.above
    rcases Nat.lt_or_ge power exponent with larger | smaller
    · -- the divisor is above the ratio, and the next power of two is the closest such one
      have next : 2 ^ (power + 1) = 2 * 2 ^ power := by rw [Nat.pow_succ, Nat.mul_comm]
      have order : 2 ^ (power + 1) ≤ d := isPower ▸ Nat.pow_le_pow_right (by omega) larger
      have nextPositive := Nat.two_pow_pos (power + 1)
      have quotient : m * input / 2 ^ (power + 1) < target := by
        rw [Nat.div_lt_iff_lt_mul nextPositive, next, Nat.mul_comm target]
        exact upper
      have closer := pairError_le_of_below input target m (2 ^ (power + 1)) d order nextPositive
        (Nat.le_of_lt quotient)
      by_cases within : (2 ^ (power + 1) - 1) * target < m * input
      · left
        refine ⟨(m, 2 ^ (power + 1)), ⟨multiplier, ⟨power + 1, by omega, rfl⟩, within, ?_⟩, closer⟩
        dsimp only
        rw [next, Nat.mul_assoc]
        omega
      · by_cases zero : power = 0
        · left
          subst zero
          have below : m * input ≤ target := by simpa using within
          exact ⟨(m, 2 ^ 0), reached, pairError_le_of_below input target m (2 ^ 0) d positive
            (Nat.two_pow_pos 0) (Nat.le_trans (Nat.div_le_self _ _) below)⟩
        · right
          refine ⟨(m, 2 ^ (power + 1)), ⟨multiplier, ⟨power + 1, by omega, by omega, rfl⟩, ?_,
            Nat.not_lt.mp within⟩, closer⟩
          dsimp only
          rw [next, Nat.mul_assoc]
          exact Nat.mul_le_mul_left 2 (lower.resolve_left zero)
    · left
      refine ⟨(m, 2 ^ power), reached, ?_⟩
      have order : d ≤ 2 ^ power := isPower ▸ Nat.pow_le_pow_right (by omega) smaller
      rcases lower with zero | above
      · subst zero
        have same : d = 2 ^ 0 := Nat.le_antisymm order positive
        exact Nat.le_of_eq (congrArg (fun d => pairError input target (m, d)) same.symm)
      · exact pairError_le_of_above input target m d (2 ^ power) order positive
          ((Nat.le_div_iff_mul_le (Nat.two_pow_pos power)).mpr (by rwa [Nat.mul_comm]))
  · left
    have quotient : 4 * target ≤ m * input / d := by
      rw [Nat.le_div_iff_mul_le positive]
      have product : 4 * target * d ≤ 4 * target * 16 := Nat.mul_le_mul_left _ sixteen
      omega
    unfold pairError pairDifference
    dsimp only
    omega

/-- For every request; both sides fail where no pair is legal. -/
theorem stored_pair_closest_iff (input target div mul : Nat) (request : Request input target) :
    StoresClosest input target div mul ↔ ReachesClosest input target := by
  constructor
  · rintro ⟨choice, stored, found, closest⟩
    rcases findPllConfig_cases div mul request with ⟨_, result⟩ | ⟨pair, chosen, result⟩
    · rw [result] at stored
      cases stored
      exact absurd rfl found
    · rw [result] at stored
      cases stored
      refine ⟨⟨pair.1, chosen.reached.multiplier, ?_⟩, ?_⟩
      · obtain ⟨power, small, isPower⟩ := chosen.reached.divisor
        have divisor : pair.2 ≤ 32 := isPower ▸ Nat.pow_le_pow_right (by omega) small
        have product : 2 * pair.2 * target ≤ 2 * 32 * target :=
          Nat.mul_le_mul_right target (Nat.mul_le_mul_left 2 divisor)
        exact Nat.lt_of_lt_of_le chosen.reached.above product
      · intro cut cutOff
        obtain ⟨power, _, small, isPower⟩ := cutOff.divisor
        exact ⟨pair, chosen.reached, closest cut ⟨cutOff.multiplier, power, small, isPower⟩⟩
  · rintro ⟨⟨m, legal, low⟩, covered⟩
    obtain ⟨_, visited, _⟩ := exists_reached input target m request legal low
    rcases findPllConfig_cases div mul request with ⟨none, _⟩ | ⟨pair, chosen, result⟩
    · exact absurd visited (none _)
    · refine ⟨_, result, ne_of_lt (pairDifference_lt request pair
        chosen.reached.multiplier.ccoMax), ?_⟩
      intro other otherLegal
      show pairError input target pair ≤ pairError input target other
      rcases legal_cases input target request other otherLegal with
        far | ⟨better, reached, closer⟩ | ⟨cut, cutOff, closer⟩
      · exact Nat.le_trans chosen.reached.error_le (by omega)
      · exact Nat.le_trans (chosen.least better reached) closer
      · obtain ⟨better, reached, same⟩ := covered cut cutOff
        exact Nat.le_trans (chosen.least better reached) (Nat.le_trans same closer)

theorem stored_pair_closest_iff_102MHz :
    StoresClosest extOscFrequency 102000000 2 17 ∧ ReachesClosest extOscFrequency 102000000 := by
  have closest : StoresClosest extOscFrequency 102000000 2 17 :=
    ⟨_, findPllConfig_102MHz, by decide, fun _ _ => Nat.zero_le _⟩
  exact ⟨closest, (stored_pair_closest_iff extOscFrequency 102000000 2 17
    (request_crystal _ (by decide) (by decide))).mp closest⟩

theorem legalMultiplier_crystal : LegalMultiplier extOscFrequency 13 :=
  ⟨by decide, by decide, by decide, by decide⟩

/-- For 1 MHz from the crystal nothing is found.  From 200 MHz the divisor 4 is the
closest for 70 MHz, but 2 is stored. -/
theorem closest_pair_missed :
    (Request extOscFrequency 1000000 ∧ (∃ pair, LegalPair extOscFrequency pair) ∧
        ¬ StoresClosest extOscFrequency 1000000 2 17) ∧
      Request 200000000 70000000 ∧ (∃ pair, LegalPair 200000000 pair) ∧
        ¬ StoresClosest 200000000 70000000 2 17 := by
  have nothing : findPllConfig extOscFrequency 1000000 2 17 = some ⟨longMax, 2, 17⟩ := by
    decide +kernel
  have two : findPllConfig 200000000 70000000 2 17 = some ⟨30000000, 2, 1⟩ := by decide +kernel
  have single : LegalMultiplier 200000000 1 := ⟨by decide, by decide, by decide, by decide⟩
  have four : LegalPair 200000000 (1, 4) := ⟨single, 2, by omega, rfl⟩
  refine ⟨⟨request_crystal _ (by decide) (by decide),
      ⟨(13, 16), legalMultiplier_crystal, legalDivisor_sixteen⟩, ?_⟩,
    ⟨by decide, by decide, by decide, by decide⟩, ⟨(1, 4), four⟩, ?_⟩
  · rintro ⟨choice, stored, found, _⟩
    rw [nothing] at stored
    cases stored
    exact found rfl
  · rintro ⟨choice, stored, _, closest⟩
    rw [two] at stored
    cases stored
    exact absurd (closest (1, 4) four) (by decide)

/-! ## Exact hits -/

def Hits (input target : Nat) (pair : PllPair) : Prop := pair.1 * input / pair.2 = target

instance (input target : Nat) (pair : PllPair) : Decidable (Hits input target pair) :=
  inferInstanceAs (Decidable (_ = _))

theorem pairError_eq_zero_iff (input target : Nat) (pair : PllPair) :
    pairError input target pair = 0 ↔ Hits input target pair := by
  unfold pairError pairDifference Hits
  generalize pair.1 * input / pair.2 = frequency
  omega

theorem Hits.bounds {input target : Nat} {pair : PllPair} (hits : Hits input target pair)
    (positive : 0 < pair.2) :
    target * pair.2 ≤ pair.1 * input ∧ pair.1 * input < (target + 1) * pair.2 :=
  ⟨(Nat.le_div_iff_mul_le positive).mp (Nat.le_of_eq hits.symm),
    (Nat.div_lt_iff_lt_mul positive).mp (hits ▸ Nat.lt_succ_self _)⟩

theorem LegalPair.reached {input target : Nat} {pair : PllPair} (legal : LegalPair input pair)
    (positive : 0 < target) (hits : Hits input target pair) : Reached input target pair := by
  have divPositive := legal.divisor.pos
  obtain ⟨power, small, isPower⟩ := legal.divisor
  obtain ⟨low, high⟩ := hits.bounds divPositive
  refine ⟨legal.multiplier, ⟨power, by omega, isPower⟩, ?_, ?_⟩
  · have smaller : (pair.2 - 1) * target < pair.2 * target :=
      Nat.mul_lt_mul_of_pos_right (by omega) positive
    rw [Nat.mul_comm] at low
    omega
  · have doubled : (target + 1) * pair.2 ≤ 2 * target * pair.2 :=
      Nat.mul_le_mul_right pair.2 (by omega)
    rw [Nat.mul_assoc, Nat.mul_comm pair.2, ← Nat.mul_assoc]
    omega

theorem Hits.divisor_unique {input target m one two : Nat} (positive : 0 < target)
    (first : Hits input target (m, one)) (second : Hits input target (m, two))
    (firstLegal : LegalDivisor one) (secondLegal : LegalDivisor two) : one = two := by
  have double : ∀ less more : Nat, LegalDivisor less → LegalDivisor more → less < more →
      2 * less ≤ more := by
    rintro _ _ ⟨power, _, rfl⟩ ⟨other, _, rfl⟩ smaller
    rw [Nat.mul_comm, ← Nat.pow_succ]
    exact Nat.pow_le_pow_right (by omega) ((Nat.pow_lt_pow_iff_right (by omega)).mp smaller)
  have apart : ∀ less more : Nat, LegalDivisor less → LegalDivisor more → less < more →
      Hits input target (m, less) → Hits input target (m, more) → False := by
    intro less more lessLegal moreLegal smaller hitsLess hitsMore
    have high := (hitsLess.bounds lessLegal.pos).2
    have low := (hitsMore.bounds moreLegal.pos).1
    have twice : target * (2 * less) ≤ target * more :=
      Nat.mul_le_mul_left target (double less more lessLegal moreLegal smaller)
    have spread : (target + 1) * less ≤ target * (2 * less) := by
      rw [← Nat.mul_assoc]
      exact Nat.mul_le_mul_right less (by omega)
    dsimp only at high low
    omega
  rcases Nat.lt_trichotomy one two with smaller | same | larger
  · exact (apart one two firstLegal secondLegal smaller first second).elim
  · exact same
  · exact (apart two one secondLegal firstLegal larger second first).elim

/-- The illegal divisor hits no target before a legal pair does. -/
theorem chosen_legal_of_hit (input target : Nat) (request : Request input target)
    (pair legal : PllPair) (chosen : Chosen input target pair) (isLegal : LegalPair input legal)
    (hits : Hits input target legal) : LegalDivisor pair.2 := by
  have visited := isLegal.reached request.positive hits
  have zero := (pairError_eq_zero_iff input target legal).mpr hits
  have chosenHits : Hits input target pair :=
    (pairError_eq_zero_iff input target pair).mp
      (Nat.le_zero.mp (zero ▸ chosen.least legal visited))
  rcases chosen.reached.divisor_cases with divisor | thirtyTwo
  · exact divisor
  · have low := (chosenHits.bounds (by omega)).1
    have high := (hits.bounds isLegal.divisor.pos).2
    have positive := request.positive
    have sixteen := isLegal.divisor.le_sixteen
    have product : (target + 1) * legal.2 ≤ (target + 1) * 16 := Nat.mul_le_mul_left _ sixteen
    rw [thirtyTwo] at low
    have earlier : legal.1 < pair.1 := Nat.lt_of_mul_lt_mul_right (a := input) (by omega)
    have worse := chosen.first legal visited earlier
    omega

/-- `boardSetupClockPllCustom` with its assertion compiled in; nothing where it fails. -/
def boardSetupClockPllCustomAsserting (settingsStored : Bool) (clocks : Clocks)
    (frequency : Nat) : Option (List ClockStep) :=
  (findPllConfig extOscFrequency frequency 2 (maxCoreFrequency / extOscFrequency)).bind
    fun choice =>
      if choice.result = 0 then
        some (boardSetupClockPllGeneric settingsStored clocks choice.div choice.mul)
      else none

structure LeastHit (input target : Nat) (pair : PllPair) : Prop where
  legal : LegalPair input pair
  hits : Hits input target pair
  least : ∀ other, LegalPair input other → Hits input target other →
    pair.1 ≤ other.1 ∧ (other.1 = pair.1 → other = pair)

theorem findPllConfig_hit (input target div mul : Nat) (request : Request input target)
    (legal : PllPair) (isLegal : LegalPair input legal) (hits : Hits input target legal) :
    ∃ pair, LeastHit input target pair ∧
      findPllConfig input target div mul = some { result := 0, div := pair.2, mul := pair.1 } := by
  have visited := isLegal.reached request.positive hits
  rcases findPllConfig_cases div mul request with ⟨none, _⟩ | ⟨pair, chosen, result⟩
  · exact absurd visited (none legal)
  · have divisor := chosen_legal_of_hit input target request pair legal chosen isLegal hits
    have errorZero : pairError input target pair = 0 :=
      Nat.le_zero.mp ((pairError_eq_zero_iff input target legal).mpr hits ▸
        chosen.least legal visited)
    have chosenHits := (pairError_eq_zero_iff input target pair).mp errorZero
    refine ⟨pair, ⟨⟨chosen.reached.multiplier, divisor⟩, chosenHits, ?_⟩, ?_⟩
    · intro other otherLegal otherHits
      have otherReached := otherLegal.reached request.positive otherHits
      have otherZero := (pairError_eq_zero_iff input target other).mpr otherHits
      constructor
      · by_contra earlier
        have worse := chosen.first other otherReached (by omega)
        omega
      · intro same
        obtain ⟨m, d⟩ := other
        obtain ⟨chosenM, chosenD⟩ := pair
        dsimp only at same
        subst same
        rw [otherHits.divisor_unique request.positive chosenHits otherLegal.divisor divisor]
    · rw [result, Int.natAbs_eq_zero.mp errorZero]

/-- Every frequency that a legal pair produces is met exactly, and
`boardSetupClockPllCustom` passes its assertion for those of the 12 MHz crystal. -/
theorem exact_hits_found :
    (∀ (input target div mul : Nat) (legal : PllPair), Request input target →
      LegalPair input legal → Hits input target legal →
      ∃ pair, LeastHit input target pair ∧ findPllConfig input target div mul =
        some { result := 0, div := pair.2, mul := pair.1 }) ∧
    ∀ (settingsStored : Bool) (clocks : Clocks) (target : Nat) (legal : PllPair),
      LegalPair extOscFrequency legal → Hits extOscFrequency target legal →
      ∃ steps, boardSetupClockPllCustomAsserting settingsStored clocks target = some steps := by
  refine ⟨fun input target div mul legal request isLegal hits =>
    findPllConfig_hit input target div mul request legal isLegal hits, ?_⟩
  intro settingsStored clocks target legal isLegal hits
  have least := isLegal.multiplier.ccoMin
  have most := isLegal.multiplier.ccoMax
  unfold ccoMin at least
  have positive : 0 < target := by
    have sixteen := isLegal.divisor.le_sixteen
    rw [← hits, Nat.div_pos_iff]
    exact ⟨isLegal.divisor.pos, by omega⟩
  have bound : target ≤ ccoMax := by
    rw [← hits]
    exact Nat.le_trans (Nat.div_le_self _ _) most
  obtain ⟨pair, _, result⟩ := findPllConfig_hit extOscFrequency target 2
    (maxCoreFrequency / extOscFrequency) (request_crystal target positive bound) legal isLegal hits
  refine ⟨boardSetupClockPllGeneric settingsStored clocks pair.2 pair.1, ?_⟩
  unfold boardSetupClockPllCustomAsserting
  rw [result]
  rfl

theorem exact_hits_found_96MHz :
    ∃ pair, LeastHit extOscFrequency 96000000 pair ∧ findPllConfig extOscFrequency 96000000 2 17 =
      some { result := 0, div := pair.2, mul := pair.1 } :=
  exact_hits_found.1 extOscFrequency 96000000 2 17 (16, 2)
    (request_crystal _ (by decide) (by decide))
    ⟨⟨by decide, by decide, by decide, by decide⟩, 1, by omega, rfl⟩ (by decide)

end HalmExamples.Clock
