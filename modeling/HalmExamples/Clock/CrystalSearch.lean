import Mathlib.Tactic.Linarith
import Mathlib.Tactic.NormNum
import HalmExamples.Clock.PllReach
import HalmExamples.Clock.Tree

/-!
# The search for the 12 MHz crystal

Multipliers 13 to 26 are visited, and the divisor 1 for those whose product is
below twice the target.  The pair found, or the fail-safe one, keeps the PLL
within the core limit exactly up to a target of 210 MHz, and its divisor divides
the crystal frequency whatever the target is.
-/

set_option autoImplicit false

namespace HalmExamples.Clock

open Foundation

/-! ## Pairs for the crystal -/

/-- The divisor 1 is visited for the multipliers below twice the target. -/
theorem one_mem_divisorPairs_iff (input target m : Nat) (positive : 0 < target)
    (targetBound : target < 2 ^ 31) (ccoPositive : 0 < m * input)
    (ccoBound : m * input ≤ ccoMax) :
    (m, 1) ∈ divisorPairs input target m ↔ m * input < 2 * target := by
  rw [mem_divisorPairs_iff input target m 1 positive targetBound ccoPositive ccoBound]
  constructor
  · rintro ⟨_, _, above⟩
    exact above
  · intro above
    refine ⟨⟨0, Nat.zero_le 5, rfl⟩, ?_, above⟩
    rwa [Nat.sub_self, Nat.zero_mul]

theorem mem_pllPairs_crystal_iff (target : Nat) (pair : PllPair) :
    pair ∈ pllPairs extOscFrequency target ↔
      13 ≤ pair.1 ∧ pair.1 ≤ 26 ∧ pair ∈ divisorPairs extOscFrequency target pair.1 := by
  have lower : lowerMul extOscFrequency = 13 := by decide
  have upper : upperMul extOscFrequency = 26 := by decide
  unfold pllPairs
  rw [mem_pairsFrom_iff, lower, upper]
  constructor
  · intro listed
    exact ⟨listed.1, by omega, listed.2.2⟩
  · intro listed
    exact ⟨listed.1, by omega, listed.2.2⟩

theorem divisorPairs_pos (input target : Nat) (pair : PllPair)
    (member : pair ∈ divisorPairs input target pair.1) : 0 < pair.2 := by
  obtain ⟨d, listed, same⟩ := List.mem_map.mp member
  obtain ⟨power, _, value, _⟩ := (mem_divisors_iff _ _ _ _).mp listed
  rw [← same, value]
  exact Nat.mul_pos (Nat.two_pow_pos _) (Nat.two_pow_pos _)

theorem pairError_one (target m : Nat) :
    (pairError extOscFrequency target (m, 1) : Int) = |(m * 12000000 : Int) - target| := by
  unfold pairError pairDifference extOscFrequency
  rw [Nat.div_one]
  push_cast
  rfl

/-- Up to 210 MHz the first pair of least error keeps the core within its limit;
at 210 MHz itself because 204 MHz is visited before 216 MHz. -/
theorem chosen_within_core (target : Nat) (positive : 0 < target) (low : target ≤ 210000000)
    (pair : PllPair)
    (first : IsFirstMinimum (pairError extOscFrequency target) (pllPairs extOscFrequency target)
      pair) :
    pair.1 * extOscFrequency ≤ maxCoreFrequency * pair.2 := by
  obtain ⟨_, high, member⟩ := (mem_pllPairs_crystal_iff target pair).mp first.mem
  have divPositive := divisorPairs_pos _ _ pair member
  obtain ⟨m, d⟩ := pair
  unfold extOscFrequency maxCoreFrequency
  dsimp only at high member divPositive ⊢
  by_cases single : d = 1
  · subst single
    by_contra above
    have visited := (one_mem_divisorPairs_iff extOscFrequency target m positive (by omega)
      (by unfold extOscFrequency; omega) (by unfold extOscFrequency ccoMax; omega)).mp member
    unfold extOscFrequency at visited
    have eighteen : 18 ≤ m := by omega
    have twice : 204000000 < 2 * target := by omega
    have coreVisited : ((17, 1) : PllPair) ∈ divisorPairs extOscFrequency target 17 :=
      (one_mem_divisorPairs_iff extOscFrequency target 17 positive (by omega) (by decide)
        (by unfold extOscFrequency ccoMax; omega)).mpr twice
    have core : ((17, 1) : PllPair) ∈ pllPairs extOscFrequency target :=
      (mem_pllPairs_crystal_iff target (17, 1)).mpr ⟨by decide, by decide, coreVisited⟩
    have worse := first.lt_of_rank Prod.fst (pllPairs_ordered extOscFrequency target) (17, 1)
      core (by dsimp only; omega)
    have chosenError := pairError_one target m
    have coreError := pairError_one target 17
    have sign := abs_le.mp (le_of_eq coreError.symm)
    rw [abs_of_pos (by omega)] at chosenError
    rcases abs_cases ((17 : Nat) * 12000000 - (target : Int)) with ⟨value, _⟩ | ⟨value, _⟩
    · omega
    · omega
  · omega

/-- Above 210 MHz the pair for 216 MHz is visited and beats all within the limit. -/
theorem chosen_above_core (target : Nat) (high : 210000000 < target)
    (targetBound : target < 2 ^ 31) :
    ∃ pair, firstMinimum (pairError extOscFrequency target) (pllPairs extOscFrequency target) =
        some pair ∧ 0 < pair.1 ∧ maxCoreFrequency * pair.2 < pair.1 * extOscFrequency := by
  have visited : ((18, 1) : PllPair) ∈ divisorPairs extOscFrequency target 18 :=
    (one_mem_divisorPairs_iff extOscFrequency target 18 (by omega) targetBound (by decide)
      (by unfold extOscFrequency ccoMax; omega)).mpr (by unfold extOscFrequency; omega)
  have listed := (mem_pllPairs_crystal_iff target (18, 1)).mpr ⟨by decide, by decide, visited⟩
  cases found : firstMinimum (pairError extOscFrequency target)
      (pllPairs extOscFrequency target) with
  | none =>
      rw [(firstMinimum_eq_none_iff _ _).mp found] at listed
      exact absurd listed List.not_mem_nil
  | some pair =>
      have first := firstMinimum_isFirst _ _ _ found
      obtain ⟨low, _, member⟩ := (mem_pllPairs_crystal_iff target pair).mp first.mem
      have divPositive := divisorPairs_pos _ _ pair member
      refine ⟨pair, rfl, by omega, ?_⟩
      by_contra within
      have least := first.le (18, 1) listed
      have quotient : pair.1 * extOscFrequency / pair.2 ≤ maxCoreFrequency :=
        Nat.div_le_of_le_mul (by rw [Nat.mul_comm pair.2]; omega)
      have nearError := pairError_one target 18
      have pairErrorLow : (target : Int) - maxCoreFrequency ≤
          pairError extOscFrequency target pair := by
        unfold pairError pairDifference
        generalize pair.1 * extOscFrequency / pair.2 = frequency at quotient ⊢
        omega
      unfold maxCoreFrequency at pairErrorLow
      rcases abs_cases ((18 : Nat) * 12000000 - (target : Int)) with ⟨value, _⟩ | ⟨value, _⟩
      · omega
      · omega

/-! ## Divisors and multipliers of every search -/

/-- The divisor is one of 1, 2, 4, 8, 16, 32 and the multiplier fits the PLL. -/
def PllLegal (div mul : Nat) : Prop := (∃ power ≤ 5, div = 2 ^ power) ∧ 0 < mul ∧ mul ≤ 256

theorem divisorLoop_legal (ccoFrequency target m upper fuel d power : Nat)
    (isPower : d = 2 ^ power) (mPositive : 0 < m) (mBound : m ≤ 256) (small : upper ≤ 32)
    (search final : PllSearch) (legal : PllLegal search.div search.mul)
    (done : divisorLoop ccoFrequency target m upper fuel d search = some final) :
    PllLegal final.div final.mul := by
  induction fuel generalizing d power search with
  | zero =>
      cases done
      exact legal
  | succ fuel ih =>
      have doubled : 2 * d = 2 ^ (power + 1) := by rw [isPower, Nat.pow_succ, Nat.mul_comm]
      unfold divisorLoop at done
      by_cases inside : d ≤ upper
      · have bound : power ≤ 5 := by
          by_contra large
          have : 2 ^ 6 ≤ 2 ^ power := Nat.pow_le_pow_right (by omega) (by omega)
          omega
        have here : PllLegal d m := ⟨⟨power, bound, isPower⟩, mPositive, mBound⟩
        rw [if_pos inside] at done
        cases difference : longDifference (ccoFrequency / d) target with
        | none => simp [difference] at done
        | some error =>
            simp only [difference] at done
            split at done
            · split at done
              · cases done
                exact here
              · exact ih (2 * d) (power + 1) doubled _ here done
            · exact ih (2 * d) (power + 1) doubled search legal done
      · rw [if_neg inside] at done
        cases done
        exact legal

theorem multiplierLoop_legal (input target remaining m : Nat) (mPositive : 0 < m)
    (mBound : m + remaining ≤ 257) (search final : PllSearch)
    (legal : PllLegal search.div search.mul)
    (done : multiplierLoop input target remaining m search = some final) :
    PllLegal final.div final.mul := by
  induction remaining generalizing m search with
  | zero =>
      cases done
      exact legal
  | succ remaining ih =>
      unfold multiplierLoop at done
      by_cases zero : target = 0
      · simp [zero] at done
      · rw [if_neg zero] at done
        dsimp only at done
        cases inner : divisorLoop (wrap32 (m * input)) target m
            (upperDiv (wrap32 (m * input)) target) divisorSteps
            (firstDiv (wrap32 (m * input)) target) search with
        | none => simp [inner] at done
        | some next =>
            have nextLegal := divisorLoop_legal _ _ m _ _ _ _ rfl mPositive (by omega)
              (Nat.min_le_left _ _) search next legal inner
            simp only [inner] at done
            split at done
            · cases done
              exact nextLegal
            · exact ih (m + 1) (by omega) (by omega) next nextLegal done

theorem findPllConfig_legal (input target div mul : Nat) (choice : PllChoice)
    (legal : PllLegal div mul) (done : findPllConfig input target div mul = some choice) :
    PllLegal choice.div choice.mul := by
  unfold findPllConfig at done
  by_cases zero : input = 0
  · simp [zero] at done
  · rw [if_neg zero] at done
    dsimp only at done
    have first : 0 < lowerMul input := Nat.lt_of_lt_of_le Nat.zero_lt_one (Nat.le_max_left _ _)
    have last : upperMul input ≤ 256 := Nat.min_le_left _ _
    cases loops : multiplierLoop input target (upperMul input + 1 - lowerMul input)
        (lowerMul input)
        { frequencyError := 2 ^ 32 - 1, div := div, mul := mul, found := false } with
    | none =>
        rw [loops] at done
        exact absurd done (by simp)
    | some search =>
        rw [loops] at done
        dsimp only at done
        by_cases visited : upperMul input + 1 - lowerMul input = 0
        · rw [visited] at loops
          cases loops
          cases done
          exact legal
        · have searchLegal : PllLegal search.div search.mul :=
            multiplierLoop_legal input target _ _ first (by omega) _ search legal loops
          split at done
          · obtain ⟨difference, _, same⟩ := Option.map_eq_some_iff.mp done
            rw [← same]
            exact searchLegal
          · cases done
            exact searchLegal

/-- The pair found, or the fail-safe one that is left, keeps the PLL within the core
limit exactly up to 210 MHz. -/
theorem findPllConfig_within_core_iff (target : Nat) (positive : 0 < target)
    (targetBound : target < 2 ^ 31) :
    ∃ choice, findPllConfig extOscFrequency target 2 (maxCoreFrequency / extOscFrequency) =
        some choice ∧
      (choice.mul * extOscFrequency ≤ maxCoreFrequency * choice.div ↔ target ≤ 210000000) := by
  refine ⟨_, findPllConfig_eq _ target _ _ (by decide) positive targetBound, ?_⟩
  by_cases low : target ≤ 210000000
  · cases found : firstMinimum (pairError extOscFrequency target)
        (pllPairs extOscFrequency target) with
    | none =>
        refine iff_of_true ?_ low
        dsimp only
        unfold maxCoreFrequency extOscFrequency
        omega
    | some pair =>
        have first := firstMinimum_isFirst _ _ _ found
        exact iff_of_true (chosen_within_core target positive low pair first) low
  · obtain ⟨pair, found, _, above⟩ := chosen_above_core target (by omega) targetBound
    rw [found]
    exact iff_of_false (Nat.not_le.mpr above) low

end HalmExamples.Clock
