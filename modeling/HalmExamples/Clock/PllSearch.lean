import Mathlib.Tactic.Ring
import HalmExamples.Foundation.FirstMinimum
import HalmExamples.Foundation.Word

/-!
# The search for PLL settings

`findPllConfig` of the LPC43xx board, with `long` and `int` of 32 bits.  A
division by zero and a signed difference that leaves `long` are undefined and
give nothing.  The two loops with their early exits keep the first minimum of
the error over the pairs they visit.
-/

set_option autoImplicit false

namespace HalmExamples.Clock

open Foundation

def ccoMin : Nat := 156000000
def ccoMax : Nat := 320000000
def longMax : Int := 2147483647

/-- Conversion of `unsigned long` to `long`. -/
def toLong (value : Nat) : Int := if value < 2 ^ 31 then value else (value : Int) - 2 ^ 32

/-- `(long)left - (long)right`, undefined where it or its `labs` overflows. -/
def longDifference (left right : Nat) : Option Int :=
  let difference := toLong left - toLong right
  if -longMax ≤ difference ∧ difference ≤ longMax then some difference else none

structure PllSearch where
  frequencyError : Nat
  div : Nat
  mul : Nat
  found : Bool
  deriving DecidableEq

/-! ## The loops -/

def divisorLoop (ccoFrequency target m upperDiv : Nat) :
    (fuel : Nat) → (d : Nat) → PllSearch → Option PllSearch
  | 0, _, search => some search
  | fuel + 1, d, search =>
      if d ≤ upperDiv then
        match longDifference (ccoFrequency / d) target with
        | none => none
        | some difference =>
            if difference.natAbs < search.frequencyError then
              let search :=
                { frequencyError := difference.natAbs, div := d, mul := m, found := true }
              if difference.natAbs = 0 then some search
              else divisorLoop ccoFrequency target m upperDiv fuel (2 * d) search
            else divisorLoop ccoFrequency target m upperDiv fuel (2 * d) search
      else some search

def divisorSteps : Nat := 6

def lowerDiv (ccoFrequency target : Nat) : Nat := max 1 (ccoFrequency / target)
def upperDiv (ccoFrequency target : Nat) : Nat :=
  min 32 (wrap32 (ccoFrequency + target - 1) / target)

/-- The power of two at or below `lowerDiv`, from its leading zeros. -/
def firstDiv (ccoFrequency target : Nat) : Nat := 2 ^ (lowerDiv ccoFrequency target).log2

def multiplierLoop (input target : Nat) :
    (remaining : Nat) → (m : Nat) → PllSearch → Option PllSearch
  | 0, _, search => some search
  | remaining + 1, m, search =>
      if target = 0 then none
      else
        let ccoFrequency := wrap32 (m * input)
        match divisorLoop ccoFrequency target m (upperDiv ccoFrequency target) divisorSteps
            (firstDiv ccoFrequency target) search with
        | none => none
        | some search =>
            if search.frequencyError = 0 then some search
            else multiplierLoop input target remaining (m + 1) search

def lowerMul (input : Nat) : Nat := max 1 (wrap32 (ccoMin + input - 1) / input)
def upperMul (input : Nat) : Nat := min 256 (ccoMax / input)

/-- What `findPllConfig` returns and what it leaves in `*div` and `*mul`. -/
structure PllChoice where
  result : Int
  div : Nat
  mul : Nat
  deriving DecidableEq

def findPllConfig (input target div mul : Nat) : Option PllChoice :=
  if input = 0 then none
  else
    let start : PllSearch :=
      { frequencyError := 2 ^ 32 - 1, div := div, mul := mul, found := false }
    match multiplierLoop input target (upperMul input + 1 - lowerMul input) (lowerMul input)
        start with
    | none => none
    | some search =>
        if search.found then
          (longDifference (wrap32 (search.mul * input) / search.div) target).map fun difference =>
            { result := difference, div := search.div, mul := search.mul }
        else some { result := longMax, div := search.div, mul := search.mul }

/-! ## The pairs visited -/

def divisors (upper : Nat) : (fuel : Nat) → (d : Nat) → List Nat
  | 0, _ => []
  | fuel + 1, d => if d ≤ upper then d :: divisors upper fuel (2 * d) else []

abbrev PllPair := Nat × Nat

def divisorPairs (input target m : Nat) : List PllPair :=
  (divisors (upperDiv (m * input) target) divisorSteps (firstDiv (m * input) target)).map
    fun d => (m, d)

def pairsFrom (input target : Nat) : (remaining : Nat) → (m : Nat) → List PllPair
  | 0, _ => []
  | remaining + 1, m =>
      divisorPairs input target m ++ pairsFrom input target remaining (m + 1)

def pllPairs (input target : Nat) : List PllPair :=
  pairsFrom input target (upperMul input + 1 - lowerMul input) (lowerMul input)

def pairDifference (input target : Nat) (pair : PllPair) : Int :=
  (pair.1 * input / pair.2 : Nat) - (target : Int)

def pairError (input target : Nat) (pair : PllPair) : Nat :=
  (pairDifference input target pair).natAbs

theorem mem_divisors_iff (upper fuel d divisor : Nat) :
    divisor ∈ divisors upper fuel d ↔
      ∃ power < fuel, divisor = d * 2 ^ power ∧ divisor ≤ upper := by
  induction fuel generalizing d with
  | zero => simp [divisors]
  | succ fuel ih =>
      by_cases inside : d ≤ upper
      · rw [divisors, if_pos inside, List.mem_cons, ih]
        constructor
        · intro either
          rcases either with same | ⟨power, bound, same, small⟩
          · exact ⟨0, by omega, by omega, by omega⟩
          · refine ⟨power + 1, by omega, ?_, small⟩
            rw [same, Nat.pow_succ]
            ring
        · intro listed
          obtain ⟨power, bound, same, small⟩ := listed
          cases power with
          | zero =>
              left
              rw [same, Nat.pow_zero, Nat.mul_one]
          | succ power =>
              right
              refine ⟨power, by omega, ?_, small⟩
              rw [same, Nat.pow_succ]
              ring
      · rw [divisors, if_neg inside]
        constructor
        · intro member
          exact absurd member List.not_mem_nil
        · intro listed
          obtain ⟨power, _, same, small⟩ := listed
          have above : d ≤ divisor := by
            rw [same]
            exact Nat.le_mul_of_pos_right d (Nat.two_pow_pos power)
          omega

theorem mem_pairsFrom_iff (input target remaining m : Nat) (pair : PllPair) :
    pair ∈ pairsFrom input target remaining m ↔
      m ≤ pair.1 ∧ pair.1 < m + remaining ∧ pair ∈ divisorPairs input target pair.1 := by
  induction remaining generalizing m with
  | zero =>
      simp only [pairsFrom, List.not_mem_nil, false_iff]
      omega
  | succ remaining ih =>
      rw [pairsFrom, List.mem_append, ih]
      constructor
      · intro either
        rcases either with here | ⟨low, high, later⟩
        · have same : pair.1 = m := by
            obtain ⟨d, _, isPair⟩ := List.mem_map.mp here
            rw [← isPair]
          rw [same]
          exact ⟨Nat.le_refl m, by omega, here⟩
        · exact ⟨by omega, by omega, later⟩
      · intro listed
        obtain ⟨low, high, member⟩ := listed
        by_cases same : pair.1 = m
        · left
          rwa [same] at member
        · exact Or.inr ⟨by omega, by omega, member⟩

theorem pairsFrom_ordered (input target remaining m : Nat) :
    (pairsFrom input target remaining m).Pairwise fun one two => one.1 ≤ two.1 := by
  induction remaining generalizing m with
  | zero => exact List.Pairwise.nil
  | succ remaining ih =>
      have sameMultiplier : ∀ pair ∈ divisorPairs input target m, pair.1 = m := by
        intro pair member
        obtain ⟨d, _, isPair⟩ := List.mem_map.mp member
        rw [← isPair]
      rw [pairsFrom, List.pairwise_append]
      refine ⟨?_, ih (m + 1), ?_⟩
      · apply List.pairwise_of_forall_mem_list
        intro one oneMember two twoMember
        rw [sameMultiplier one oneMember, sameMultiplier two twoMember]
      · intro one oneMember two twoMember
        have later := (mem_pairsFrom_iff input target remaining (m + 1) two).mp twoMember
        rw [sameMultiplier one oneMember]
        omega

theorem pllPairs_ordered (input target : Nat) :
    (pllPairs input target).Pairwise fun one two => one.1 ≤ two.1 :=
  pairsFrom_ordered input target _ _

/-! ## The loops keep the first minimum -/

def searchOf (input target div mul : Nat) : Option PllPair → PllSearch
  | none => { frequencyError := 2 ^ 32 - 1, div := div, mul := mul, found := false }
  | some pair =>
      { frequencyError := pairError input target pair
        div := pair.2
        mul := pair.1
        found := true }

section Loops

variable (input target div mul : Nat)

theorem toLong_of_lt (value : Nat) (small : value < 2 ^ 31) : toLong value = value :=
  if_pos small

theorem longDifference_pair (pair : PllPair) (ccoBound : pair.1 * input ≤ ccoMax)
    (targetBound : target < 2 ^ 31) :
    longDifference (pair.1 * input / pair.2) target =
      some (pairDifference input target pair) := by
  have quotient : pair.1 * input / pair.2 ≤ ccoMax :=
    Nat.le_trans (Nat.div_le_self _ _) ccoBound
  unfold ccoMax at quotient
  unfold longDifference pairDifference longMax
  generalize pair.1 * input / pair.2 = frequency at quotient ⊢
  rw [toLong_of_lt _ (by omega), toLong_of_lt _ targetBound]
  exact if_pos (by omega)

theorem pairError_lt (pair : PllPair) (ccoBound : pair.1 * input ≤ ccoMax)
    (targetBound : target < 2 ^ 31) : pairError input target pair < 2 ^ 32 - 1 := by
  have quotient : pair.1 * input / pair.2 ≤ ccoMax :=
    Nat.le_trans (Nat.div_le_self _ _) ccoBound
  unfold ccoMax at quotient
  unfold pairError pairDifference
  generalize pair.1 * input / pair.2 = frequency at quotient ⊢
  omega

/-- A pair replaces the variables exactly when it improves the best pair. -/
theorem searchOf_improve (pair : PllPair) (best : Option PllPair)
    (small : pairError input target pair < 2 ^ 32 - 1) :
    if pairError input target pair < (searchOf input target div mul best).frequencyError then
      improve (pairError input target) best pair = some pair
    else improve (pairError input target) best pair = best := by
  cases best with
  | none => rw [searchOf, if_pos small, improve]
  | some kept =>
      by_cases better : pairError input target pair < pairError input target kept
      · simp [searchOf, improve, better]
      · simp [searchOf, improve, better]

theorem divisorLoop_eq (m upper fuel d : Nat) (best : Option PllPair)
    (ccoBound : m * input ≤ ccoMax) (targetBound : target < 2 ^ 31) :
    divisorLoop (m * input) target m upper fuel d (searchOf input target div mul best) =
      some (searchOf input target div mul
        (((divisors upper fuel d).map fun d => (m, d)).foldl
          (improve (pairError input target)) best)) := by
  induction fuel generalizing d best with
  | zero => rfl
  | succ fuel ih =>
      by_cases inside : d ≤ upper
      · have difference := longDifference_pair input target (m, d) ccoBound targetBound
        have decision := searchOf_improve input target div mul (m, d) best
          (pairError_lt input target (m, d) ccoBound targetBound)
        simp only [divisorLoop, divisors, if_pos inside, List.map_cons, List.foldl_cons,
          difference]
        have sameError : (pairDifference input target (m, d)).natAbs =
            pairError input target (m, d) := rfl
        rw [sameError]
        by_cases better : pairError input target (m, d) <
            (searchOf input target div mul best).frequencyError
        · rw [if_pos better] at decision ⊢
          rw [decision]
          by_cases exactHit : pairError input target (m, d) = 0
          · rw [if_pos exactHit, foldl_improve_zero _ _ _ exactHit]
            rfl
          · rw [if_neg exactHit]
            exact ih (2 * d) (some (m, d))
        · rw [if_neg better] at decision ⊢
          rw [decision]
          exact ih (2 * d) best
      · simp only [divisorLoop, divisors, if_neg inside, List.map_nil, List.foldl_nil]

theorem multiplierLoop_eq (remaining m : Nat) (best : Option PllPair)
    (positive : 0 < target) (targetBound : target < 2 ^ 31)
    (ccoBound : remaining = 0 ∨ (m + remaining - 1) * input ≤ ccoMax) :
    multiplierLoop input target remaining m (searchOf input target div mul best) =
      some (searchOf input target div mul
        ((pairsFrom input target remaining m).foldl (improve (pairError input target)) best)) := by
  induction remaining generalizing m best with
  | zero => rfl
  | succ remaining ih =>
      have largest : (m + remaining) * input ≤ ccoMax := by
        rcases ccoBound with none' | bound
        · omega
        · exact bound
      have here : m * input ≤ ccoMax :=
        Nat.le_trans (Nat.mul_le_mul_right input (Nat.le_add_right m remaining)) largest
      have word : wrap32 (m * input) = m * input := by
        apply wrap32_of_lt
        unfold ccoMax at here
        omega
      have later : remaining = 0 ∨ (m + 1 + remaining - 1) * input ≤ ccoMax := by
        right
        rwa [show m + 1 + remaining - 1 = m + remaining by omega]
      simp only [multiplierLoop, if_neg (Nat.ne_of_gt positive), word, pairsFrom,
        List.foldl_append, divisorLoop_eq input target div mul m _ _ _ best here targetBound]
      unfold divisorPairs
      cases after : ((divisors (upperDiv (m * input) target) divisorSteps
          (firstDiv (m * input) target)).map fun d => (m, d)).foldl
          (improve (pairError input target)) best with
      | none =>
          rw [if_neg (by simp [searchOf])]
          exact ih (m + 1) none later
      | some kept =>
          have keptError : (searchOf input target div mul (some kept)).frequencyError =
              pairError input target kept := rfl
          rw [keptError]
          by_cases exactHit : pairError input target kept = 0
          · rw [if_pos exactHit, foldl_improve_zero _ _ _ exactHit]
          · rw [if_neg exactHit]
            exact ih (m + 1) (some kept) later

end Loops

/-- For a crystal and a target the PLL can be asked for, the search is defined and
gives the first pair of least error, or leaves its arguments. -/
theorem findPllConfig_eq (input target div mul : Nat) (inputPositive : 0 < input)
    (positive : 0 < target) (targetBound : target < 2 ^ 31) :
    findPllConfig input target div mul =
      some (match firstMinimum (pairError input target) (pllPairs input target) with
        | none => { result := longMax, div := div, mul := mul }
        | some pair =>
            { result := pairDifference input target pair, div := pair.2, mul := pair.1 }) := by
  have ccoBound : upperMul input + 1 - lowerMul input = 0 ∨
      (lowerMul input + (upperMul input + 1 - lowerMul input) - 1) * input ≤ ccoMax := by
    by_cases visited : upperMul input + 1 - lowerMul input = 0
    · exact Or.inl visited
    · right
      have top : lowerMul input + (upperMul input + 1 - lowerMul input) - 1 = upperMul input := by
        omega
      rw [top]
      exact Nat.le_trans (Nat.mul_le_mul_right input (Nat.min_le_right _ _))
        (Nat.div_mul_le_self _ _)
  have loops := multiplierLoop_eq input target div mul _ (lowerMul input) none positive
    targetBound ccoBound
  unfold findPllConfig
  rw [if_neg (Nat.ne_of_gt inputPositive)]
  have start : (⟨2 ^ 32 - 1, div, mul, false⟩ : PllSearch) =
      searchOf input target div mul none := rfl
  dsimp only
  rw [start, loops]
  have folded : (pairsFrom input target (upperMul input + 1 - lowerMul input)
      (lowerMul input)).foldl (improve (pairError input target)) none =
      firstMinimum (pairError input target) (pllPairs input target) := rfl
  rw [folded]
  cases found : firstMinimum (pairError input target) (pllPairs input target) with
  | none => rfl
  | some pair =>
      have member := (firstMinimum_isFirst _ _ _ found).mem
      obtain ⟨low, high, _⟩ := (mem_pairsFrom_iff _ _ _ _ _).mp member
      have pairBound : pair.1 * input ≤ ccoMax := by
        rcases ccoBound with none' | bound
        · omega
        · exact Nat.le_trans (Nat.mul_le_mul_right input (by omega)) bound
      have word : wrap32 (pair.1 * input) = pair.1 * input := by
        apply wrap32_of_lt
        unfold ccoMax at pairBound
        omega
      simp only [searchOf, if_true, word,
        longDifference_pair input target pair pairBound targetBound, Option.map_some]

end HalmExamples.Clock
