import HalmExamples.Clock.PllSearch

/-!
# The pairs the PLL search reaches

Of each multiplier the loop over `d` visits the powers of two from the one at or
below the ratio `cco / target` up to the ratio rounded up.  A divisor above the
ratio is therefore reached only if it is less than one above it, and the divisor
32 is reached although the hardware has none.
-/

set_option autoImplicit false

namespace HalmExamples.Clock

open Foundation

/-- The multipliers that the comment of `findPllConfig` allows. -/
structure LegalMultiplier (input m : Nat) : Prop where
  positive : 1 ≤ m
  bound : m ≤ 256
  ccoMin : ccoMin ≤ m * input
  ccoMax : m * input ≤ ccoMax

def LegalDivisor (d : Nat) : Prop := ∃ power ≤ 4, d = 2 ^ power

structure LegalPair (input : Nat) (pair : PllPair) : Prop where
  multiplier : LegalMultiplier input pair.1
  divisor : LegalDivisor pair.2

structure Reached (input target : Nat) (pair : PllPair) : Prop where
  multiplier : LegalMultiplier input pair.1
  divisor : ∃ power ≤ 5, pair.2 = 2 ^ power
  below : (pair.2 - 1) * target < pair.1 * input
  above : pair.1 * input < 2 * pair.2 * target

/-! ## Bounds of the loops -/

theorem legalMultiplier_iff (input m : Nat) (positive : 0 < input) (small : input ≤ ccoMax) :
    lowerMul input ≤ m ∧ m ≤ upperMul input ↔ LegalMultiplier input m := by
  unfold ccoMax at small
  have sum : wrap32 (ccoMin + input - 1) = ccoMin + input - 1 :=
    wrap32_of_lt _ (by unfold ccoMin; omega)
  have lower : (ccoMin + input - 1) / input ≤ m ↔ ccoMin ≤ m * input := by
    rw [← Nat.lt_succ_iff, Nat.div_lt_iff_lt_mul positive, Nat.succ_mul]
    omega
  have upper : m ≤ ccoMax / input ↔ m * input ≤ ccoMax := Nat.le_div_iff_mul_le positive
  unfold lowerMul upperMul
  rw [sum, Nat.max_le, Nat.le_min, lower, upper]
  constructor
  · rintro ⟨⟨one, least⟩, ⟨largest, most⟩⟩
    exact ⟨one, largest, least, most⟩
  · intro legal
    exact ⟨⟨legal.positive, legal.ccoMin⟩, legal.bound, legal.ccoMax⟩

theorem le_upperDiv_iff (ccoFrequency target d : Nat) (positive : 0 < target)
    (targetBound : target < 2 ^ 31) (ccoPositive : 0 < ccoFrequency)
    (ccoBound : ccoFrequency ≤ ccoMax) (divPositive : 0 < d) :
    d ≤ upperDiv ccoFrequency target ↔ d ≤ 32 ∧ (d - 1) * target < ccoFrequency := by
  unfold ccoMax at ccoBound
  have previous : (d - 1) * target + target = d * target := by
    rw [← Nat.succ_mul, Nat.succ_eq_add_one, Nat.sub_add_cancel divPositive]
  unfold upperDiv
  rw [wrap32_of_lt _ (by omega), Nat.le_min, Nat.le_div_iff_mul_le positive]
  omega

/-- The first divisor is the power of two at or below the ratio. -/
theorem log2_lowerDiv_le_iff (ccoFrequency target power : Nat) (positive : 0 < target) :
    (lowerDiv ccoFrequency target).log2 ≤ power ↔
      ccoFrequency < 2 * 2 ^ power * target := by
  have nonzero : lowerDiv ccoFrequency target ≠ 0 := by
    unfold lowerDiv
    omega
  have one : 1 < 2 ^ (power + 1) := Nat.one_lt_two_pow (Nat.succ_ne_zero power)
  have doubled : 2 ^ (power + 1) = 2 * 2 ^ power := by rw [Nat.pow_succ, Nat.mul_comm]
  rw [← Nat.lt_succ_iff, Nat.log2_lt nonzero, lowerDiv, Nat.max_lt, and_iff_right one,
    Nat.div_lt_iff_lt_mul positive, Nat.succ_eq_add_one, doubled]

theorem mem_divisorPairs_iff (input target m d : Nat) (positive : 0 < target)
    (targetBound : target < 2 ^ 31) (ccoPositive : 0 < m * input) (ccoBound : m * input ≤ ccoMax) :
    (m, d) ∈ divisorPairs input target m ↔
      (∃ power ≤ 5, d = 2 ^ power) ∧ (d - 1) * target < m * input ∧
        m * input < 2 * d * target := by
  have first := fun power => log2_lowerDiv_le_iff (m * input) target power positive
  have last := fun divPositive => le_upperDiv_iff (m * input) target d positive targetBound
    ccoPositive ccoBound divPositive
  have listed : (m, d) ∈ divisorPairs input target m ↔
      d ∈ divisors (upperDiv (m * input) target) divisorSteps (firstDiv (m * input) target) := by
    unfold divisorPairs
    simp
  rw [listed, mem_divisors_iff]
  constructor
  · rintro ⟨power, _, isPower, inside⟩
    rw [firstDiv, ← Nat.pow_add] at isPower
    have divPositive : 0 < d := isPower ▸ Nat.two_pow_pos _
    obtain ⟨small, below⟩ := (last divPositive).mp inside
    have exponent : (lowerDiv (m * input) target).log2 + power ≤ 5 := by
      by_contra large
      have : 2 ^ 6 ≤ 2 ^ ((lowerDiv (m * input) target).log2 + power) :=
        Nat.pow_le_pow_right (by omega) (by omega)
      omega
    refine ⟨⟨_, exponent, isPower⟩, below, ?_⟩
    rw [isPower]
    exact (first _).mp (Nat.le_add_right _ _)
  · rintro ⟨⟨power, small, isPower⟩, below, above⟩
    have start : (lowerDiv (m * input) target).log2 ≤ power := by
      rw [first, ← isPower]
      exact above
    have divBound : d ≤ 32 := by
      rw [isPower]
      exact Nat.pow_le_pow_right (by omega) small
    refine ⟨power - (lowerDiv (m * input) target).log2, ?_, ?_, ?_⟩
    · unfold divisorSteps
      omega
    · rw [firstDiv, ← Nat.pow_add, Nat.add_sub_cancel' start, isPower]
    · exact (last (isPower ▸ Nat.two_pow_pos power)).mpr ⟨divBound, below⟩

/-- The search compares exactly the pairs that are reached. -/
theorem mem_pllPairs_iff (input target : Nat) (pair : PllPair) (inputPositive : 0 < input)
    (inputBound : input ≤ ccoMax) (positive : 0 < target) (targetBound : target ≤ ccoMax) :
    pair ∈ pllPairs input target ↔ Reached input target pair := by
  have multipliers : lowerMul input ≤ pair.1 ∧
      pair.1 < lowerMul input + (upperMul input + 1 - lowerMul input) ↔
      LegalMultiplier input pair.1 := by
    rw [← legalMultiplier_iff input pair.1 inputPositive inputBound]
    omega
  have small : target < 2 ^ 31 := by
    unfold ccoMax at targetBound
    omega
  have divisors := fun legal : LegalMultiplier input pair.1 =>
    mem_divisorPairs_iff input target pair.1 pair.2 positive small
      (Nat.lt_of_lt_of_le (by decide) legal.ccoMin) legal.ccoMax
  unfold pllPairs
  rw [mem_pairsFrom_iff, ← and_assoc, multipliers]
  constructor
  · rintro ⟨legal, member⟩
    obtain ⟨divisor, below, above⟩ := (divisors legal).mp member
    exact ⟨legal, divisor, below, above⟩
  · rintro ⟨legal, divisor, below, above⟩
    exact ⟨legal, (divisors legal).mpr ⟨divisor, below, above⟩⟩

/-! ## The pair that is chosen -/

section Search

variable (input target div mul : Nat)

/-- The requests that the search is asked about: frequencies from 1 Hz to 320 MHz. -/
structure Request : Prop where
  inputPositive : 0 < input
  inputBound : input ≤ ccoMax
  positive : 0 < target
  targetBound : target ≤ ccoMax

structure Chosen (pair : PllPair) : Prop where
  reached : Reached input target pair
  least : ∀ other, Reached input target other →
    pairError input target pair ≤ pairError input target other
  first : ∀ other, Reached input target other → other.1 < pair.1 →
    pairError input target pair < pairError input target other

variable {input target}

theorem pairDifference_lt (request : Request input target) (pair : PllPair)
    (ccoBound : pair.1 * input ≤ ccoMax) : pairDifference input target pair < longMax := by
  have quotient : pair.1 * input / pair.2 ≤ ccoMax :=
    Nat.le_trans (Nat.div_le_self _ _) ccoBound
  have positive := request.positive
  unfold ccoMax at quotient
  unfold pairDifference longMax
  generalize pair.1 * input / pair.2 = frequency at quotient ⊢
  omega

/-- Either nothing is reached and the arguments are left, or the chosen pair is stored
and its signed error returned. -/
theorem findPllConfig_cases (request : Request input target) :
    ((∀ pair, ¬ Reached input target pair) ∧
        findPllConfig input target div mul =
          some { result := longMax, div := div, mul := mul }) ∨
      ∃ pair, Chosen input target pair ∧
        findPllConfig input target div mul =
          some { result := pairDifference input target pair, div := pair.2, mul := pair.1 } := by
  obtain ⟨inputPositive, inputBound, positive, targetBound⟩ := request
  have member := fun pair => mem_pllPairs_iff input target pair inputPositive inputBound positive
    targetBound
  have result := findPllConfig_eq input target div mul inputPositive positive
    (by unfold ccoMax at targetBound; omega)
  cases found : firstMinimum (pairError input target) (pllPairs input target) with
  | none =>
      rw [found] at result
      refine Or.inl ⟨?_, result⟩
      intro pair reached
      have listed := (member pair).mpr reached
      rw [(firstMinimum_eq_none_iff _ _).mp found] at listed
      exact List.not_mem_nil listed
  | some pair =>
      rw [found] at result
      have first := firstMinimum_isFirst _ _ _ found
      refine Or.inr ⟨pair, ⟨(member pair).mp first.mem, ?_, ?_⟩, result⟩
      · intro other reached
        exact first.le other ((member other).mpr reached)
      · intro other reached earlier
        exact first.lt_of_rank Prod.fst (pllPairs_ordered input target) other
          ((member other).mpr reached) earlier

end Search

end HalmExamples.Clock
