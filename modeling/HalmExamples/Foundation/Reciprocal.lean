import Mathlib.Algebra.Order.Field.Basic
import Mathlib.Data.Nat.Cast.Order.Field
import Mathlib.Tactic.FieldSimp
import Mathlib.Tactic.Linarith
import Mathlib.Tactic.Positivity
import Mathlib.Tactic.Ring

/-!
# Division by a truncated reciprocal

A quotient scaled by `2 ^ gain` is computed as a product with the reciprocal of the
divisor in a word of `gain + shift` bits, shifted right.  It is never above the exact
value, and below it by the error of the reciprocal and less than one more.
-/

set_option autoImplicit false

namespace Foundation

/-- `value * (word / divisor) >> shift` for the largest word of `gain + shift` bits. -/
def reciprocalScale (gain shift value divisor : Nat) : Nat :=
  value * ((2 ^ (gain + shift) - 1) / divisor) / 2 ^ shift

section Bounds

variable {K : Type*} [Field K] [LinearOrder K] [IsStrictOrderedRing K]
variable (gain shift value divisor : Nat)

theorem reciprocalScale_le (positive : 0 < divisor) :
    (reciprocalScale gain shift value divisor : K) ≤ value * 2 ^ gain / divisor := by
  have divisorPositive : (0 : K) < divisor := Nat.cast_pos.mpr positive
  have product : reciprocalScale gain shift value divisor * divisor ≤ value * 2 ^ gain := by
    have quotient := Nat.div_mul_le_self (2 ^ (gain + shift) - 1) divisor
    have shifted := Nat.div_mul_le_self (value * ((2 ^ (gain + shift) - 1) / divisor)) (2 ^ shift)
    refine Nat.le_of_mul_le_mul_right ?_ (Nat.two_pow_pos shift)
    calc reciprocalScale gain shift value divisor * divisor * 2 ^ shift
        = reciprocalScale gain shift value divisor * 2 ^ shift * divisor := by ring
      _ ≤ value * ((2 ^ (gain + shift) - 1) / divisor) * divisor :=
          Nat.mul_le_mul_right divisor shifted
      _ = value * ((2 ^ (gain + shift) - 1) / divisor * divisor) := Nat.mul_assoc _ _ _
      _ ≤ value * 2 ^ (gain + shift) :=
          Nat.mul_le_mul_left value (Nat.le_trans quotient (Nat.sub_le _ _))
      _ = value * 2 ^ gain * 2 ^ shift := by ring
  rw [le_div_iff₀ divisorPositive]
  exact_mod_cast product

theorem lt_reciprocalScale (positive : 0 < divisor) :
    value * 2 ^ gain / divisor * (1 - divisor / 2 ^ (gain + shift)) - 1 <
      (reciprocalScale gain shift value divisor : K) := by
  have divisorPositive : (0 : K) < divisor := Nat.cast_pos.mpr positive
  have product : value * 2 ^ (gain + shift) <
      ((reciprocalScale gain shift value divisor + 1) * 2 ^ shift + value) * divisor := by
    have quotient := Nat.lt_div_mul_add (a := 2 ^ (gain + shift) - 1) positive
    have shifted := Nat.lt_div_mul_add (a := value * ((2 ^ (gain + shift) - 1) / divisor))
      (Nat.two_pow_pos shift)
    have whole : 2 ^ (gain + shift) ≤ ((2 ^ (gain + shift) - 1) / divisor + 1) * divisor := by
      rw [Nat.succ_mul]
      omega
    calc value * 2 ^ (gain + shift)
        ≤ value * (((2 ^ (gain + shift) - 1) / divisor + 1) * divisor) :=
          Nat.mul_le_mul_left value whole
      _ = (value * ((2 ^ (gain + shift) - 1) / divisor) + value) * divisor := by ring
      _ < ((reciprocalScale gain shift value divisor + 1) * 2 ^ shift + value) * divisor := by
          apply Nat.mul_lt_mul_of_pos_right _ positive
          unfold reciprocalScale
          rw [Nat.succ_mul]
          omega
  have cast : (value : K) * 2 ^ (gain + shift) <
      ((reciprocalScale gain shift value divisor + 1) * 2 ^ shift + value) * divisor := by
    exact_mod_cast product
  have shiftPositive : (0 : K) < 2 ^ shift := by positivity
  have split : (value : K) * 2 ^ gain / divisor * (1 - divisor / 2 ^ (gain + shift)) =
      (value * 2 ^ (gain + shift) / divisor - value) / 2 ^ shift := by
    rw [pow_add]
    field_simp
  rw [split, sub_lt_iff_lt_add, div_lt_iff₀ shiftPositive, sub_lt_iff_lt_add,
    div_lt_iff₀ divisorPositive]
  exact cast

/-- Two such divisions in a row, the second one by at least `2 ^ gain`. -/
theorem reciprocalScale_twice (first second : Nat) (firstPositive : 0 < first)
    (wide : 2 ^ gain ≤ second) (narrow : second ≤ 2 ^ (gain + shift)) :
    (reciprocalScale gain shift (reciprocalScale gain shift value first) second : K) ≤
        value * 2 ^ gain * 2 ^ gain / (first * second) ∧
      value * 2 ^ gain * 2 ^ gain / (first * second) -
          (reciprocalScale gain shift (reciprocalScale gain shift value first) second : K) <
        2 + value * 2 ^ gain * 2 ^ gain / (first * second) * (first + second) /
          2 ^ (gain + shift) := by
  have secondPositive : 0 < second := Nat.lt_of_lt_of_le (Nat.two_pow_pos gain) wide
  have firstCast : (0 : K) < first := Nat.cast_pos.mpr firstPositive
  have secondCast : (0 : K) < second := Nat.cast_pos.mpr secondPositive
  have wordCast : (0 : K) < 2 ^ (gain + shift) := by positivity
  have wideCast : (2 : K) ^ gain ≤ second := by exact_mod_cast wide
  have narrowCast : (second : K) ≤ 2 ^ (gain + shift) := by exact_mod_cast narrow
  have upper := reciprocalScale_le (K := K) gain shift value first firstPositive
  have lower := lt_reciprocalScale (K := K) gain shift value first firstPositive
  have upperSecond := reciprocalScale_le (K := K) gain shift
    (reciprocalScale gain shift value first) second secondPositive
  have lowerSecond := lt_reciprocalScale (K := K) gain shift
    (reciprocalScale gain shift value first) second secondPositive
  have nonneg : (0 : K) ≤ value * 2 ^ gain / first := by positivity
  have exactValue : value * 2 ^ gain / first * (2 ^ gain / second) =
      (value * 2 ^ gain * 2 ^ gain / (first * second) : K) := by
    field_simp
  have factor : ∀ x : K, x * 2 ^ gain / second = x * (2 ^ gain / second) := fun x => by ring
  rw [factor] at upperSecond lowerSecond
  have gainPositive : (0 : K) ≤ 2 ^ gain / second := by positivity
  have gainBound : (2 : K) ^ gain / second ≤ 1 := (div_le_one secondCast).mpr wideCast
  have lossFirst : (0 : K) ≤ first / 2 ^ (gain + shift) := by positivity
  have lossSecond : (0 : K) ≤ second / 2 ^ (gain + shift) := by positivity
  have lossBound : (second : K) / 2 ^ (gain + shift) ≤ 1 := (div_le_one wordCast).mpr narrowCast
  have losses : (value * 2 ^ gain * 2 ^ gain / (first * second) : K) * (first + second) /
      2 ^ (gain + shift) = value * 2 ^ gain * 2 ^ gain / (first * second) *
        (first / 2 ^ (gain + shift) + second / 2 ^ (gain + shift)) := by ring
  rw [losses, ← exactValue]
  generalize (reciprocalScale gain shift (reciprocalScale gain shift value first) second : K) =
    result at upperSecond lowerSecond ⊢
  generalize (reciprocalScale gain shift value first : K) = middle at *
  generalize (value : K) * 2 ^ gain / first = ratio at *
  generalize (2 : K) ^ gain / second = scale at *
  generalize (first : K) / 2 ^ (gain + shift) = firstLoss at *
  generalize (second : K) / 2 ^ (gain + shift) = secondLoss at *
  constructor
  · exact upperSecond.trans (mul_le_mul_of_nonneg_right upper gainPositive)
  · have rest : 0 ≤ scale * (1 - secondLoss) :=
      mul_nonneg gainPositive (sub_nonneg.mpr lossBound)
    have restBound : scale * (1 - secondLoss) ≤ 1 :=
      mul_le_one₀ gainBound (sub_nonneg.mpr lossBound) (by linarith)
    have chained := mul_le_mul_of_nonneg_right lower.le rest
    have both : 0 ≤ ratio * scale * (firstLoss * secondLoss) := by positivity
    calc ratio * scale - result
        < ratio * scale - (middle * scale * (1 - secondLoss) - 1) :=
          sub_lt_sub_left lowerSecond _
      _ = ratio * scale - middle * (scale * (1 - secondLoss)) + 1 := by ring
      _ ≤ ratio * scale - (ratio * (1 - firstLoss) - 1) * (scale * (1 - secondLoss)) + 1 := by
          linarith
      _ = scale * (1 - secondLoss) + 1 + ratio * scale * (firstLoss + secondLoss) -
            ratio * scale * (firstLoss * secondLoss) := by ring
      _ ≤ 2 + ratio * scale * (firstLoss + secondLoss) := by linarith

end Bounds

end Foundation
