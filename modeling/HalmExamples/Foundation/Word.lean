import Mathlib.Algebra.Group.Int.Defs
import Mathlib.Algebra.Group.Nat.Defs
import Mathlib.Data.Nat.Init

/-!
# Machine words

The wrapping arithmetic of 32-bit unsigned words and the narrowing of a signed
difference to 16 bits.
-/

set_option autoImplicit false

namespace Foundation

/-- The value a 32-bit unsigned expression takes. -/
def wrap32 (value : Nat) : Nat := value % 2 ^ 32

theorem wrap32_of_lt (value : Nat) (bound : value < 2 ^ 32) : wrap32 value = value :=
  Nat.mod_eq_of_lt bound

def sub32 (left right : Nat) : Nat := wrap32 (left + (2 ^ 32 - wrap32 right))

theorem sub32_of_le (left right : Nat) (order : right ≤ left) (bound : left < 2 ^ 32) :
    sub32 left right = left - right := by
  unfold sub32 wrap32
  omega

def not32 (value : Nat) : Nat := 2 ^ 32 - 1 - wrap32 value

/-- The mask `~(2^k - 1)` rounds a word down to a multiple of `2^k`. -/
theorem and_not32_mask (value exponent : Nat) (bound : value < 2 ^ 32)
    (small : exponent ≤ 32) :
    value &&& not32 (2 ^ exponent - 1) = value / 2 ^ exponent * 2 ^ exponent := by
  have positive : 0 < 2 ^ exponent := Nat.two_pow_pos exponent
  have limit : 2 ^ exponent ≤ 2 ^ 32 := Nat.pow_le_pow_right (by omega) small
  have mask : not32 (2 ^ exponent - 1) = 2 ^ 32 - (2 ^ exponent - 1 + 1) := by
    rw [not32, wrap32_of_lt _ (by omega)]
    omega
  rw [mask, ← Nat.shiftRight_eq_div_pow, ← Nat.shiftLeft_eq]
  apply Nat.eq_of_testBit_eq
  intro bit
  rw [Nat.testBit_and, Nat.testBit_two_pow_sub_succ (by omega), Nat.testBit_two_pow_sub_one,
    Nat.testBit_shiftLeft, Nat.testBit_shiftRight]
  by_cases below : bit < exponent
  · simp [below, Nat.not_le.mpr below]
  · have above : exponent ≤ bit := by omega
    have same : exponent + (bit - exponent) = bit := by omega
    by_cases word : bit < 32
    · simp [below, above, same, word]
    · have clear : value.testBit bit = false :=
        Nat.testBit_lt_two_pow (Nat.lt_of_lt_of_le bound
          (Nat.pow_le_pow_right (by omega) (by omega)))
      simp [same, clear]

/-- Conversion of an `int` to `uint16_t`. -/
def narrow16 (value : Int) : UInt16 := UInt16.ofNat (value % 2 ^ 16).toNat

theorem narrow16_toNat (value : Int) : ((narrow16 value).toNat : Int) = value % 2 ^ 16 := by
  have low : 0 ≤ value % 2 ^ 16 := Int.emod_nonneg _ (by omega)
  have high : value % 2 ^ 16 < 2 ^ 16 := Int.emod_lt_of_pos _ (by omega)
  rw [narrow16, UInt16.toNat_ofNat']
  omega

end Foundation
