import HalmExamples.Foundation.Reciprocal
import HalmExamples.Sct.SofTimer
import Mathlib.Data.Nat.Cast.Field
import Mathlib.Tactic.NormNum

/-!
# The feedback ratio

`sctSofGetRatio` divides twice by a truncated reciprocal.  Its value is compared with the
exact ratio, and the operations that may fail or lose bits are told from those that
cannot.  In high-speed mode the nominal duration is an eighth of a millisecond, which is
rounded down.
-/

set_option autoImplicit false

namespace HalmExamples.Sct

open Foundation

/-! ## Checked arithmetic -/

inductive Fault where
  | divisionByZero
  | lostBits
  deriving DecidableEq

def store32 (value : Nat) : Except Fault Nat :=
  if value < 2 ^ 32 then .ok value else .error .lostBits

def checkedDivide (dividend divisor : Nat) : Except Fault Nat :=
  if divisor = 0 then .error .divisionByZero else .ok (dividend / divisor)

/-- The body of `sctSofGetRatio` with every division and every result in 32 bits
checked. -/
def checkedRatio (timer : SctSof) : Except Fault Nat := do
  let mwsDuration := timer.mws.duration.toNat
  let sofDuration := timer.sof.duration.toNat
  let frequency := timer.frequency.toNat
  let rate := timer.rate.toNat
  if mwsDuration = 0 ∨ sofDuration = 0 ∨ rate = 0 then
    return 0
  else
    let shifted ← store32 (frequency <<< 7)
    let sum ← store32 (shifted + (rate >>> 1))
    let mwsExpected ← checkedDivide sum rate
    let mwsExpectedMul ← checkedDivide uint32Max mwsExpected
    let sofDurationMul ← checkedDivide uint32Max sofDuration
    let sofNominal := frequency / 1000
    let sofExpected := if sofDuration < sofNominal >>> 2 then sofNominal >>> 3 else sofNominal
    let product ← store32 (mwsDuration * sofExpected)
    let scaled ← store32 ((product * sofDurationMul) >>> 24)
    store32 ((scaled * mwsExpectedMul) >>> 24)

section Checked

variable {Value : Type} (next : Nat → Except Fault Value) (result : Value)

theorem store32_bind_eq_ok (value : Nat) :
    (store32 value >>= next) = .ok result ↔ value < 2 ^ 32 ∧ next value = .ok result := by
  unfold store32
  split
  · rename_i fits
    exact (and_iff_right fits).symm
  · rename_i large
    exact iff_of_false nofun fun both => large both.1

theorem checkedDivide_bind_eq_ok (dividend divisor : Nat) :
    (checkedDivide dividend divisor >>= next) = .ok result ↔
      divisor ≠ 0 ∧ next (dividend / divisor) = .ok result := by
  unfold checkedDivide
  split
  · rename_i zero
    exact iff_of_false nofun fun both => both.1 zero
  · rename_i nonzero
    exact (and_iff_right nonzero).symm

theorem store32_eq_ok (value stored : Nat) :
    store32 value = .ok stored ↔ value < 2 ^ 32 ∧ value = stored := by
  unfold store32
  split
  · rename_i fits
    rw [and_iff_right fits, Except.ok.injEq]
  · rename_i large
    exact iff_of_false nofun fun both => large both.1

end Checked

/-! ## The exact quantities -/

namespace SctSof

variable (timer : SctSof)

def Measured : Prop :=
  timer.mws.duration.toNat ≠ 0 ∧ timer.sof.duration.toNat ≠ 0 ∧ timer.rate.toNat ≠ 0

/-- 128 periods of the sample rate, rounded to whole ticks. -/
def mwsNominal : Nat :=
  (128 * timer.frequency.toNat + timer.rate.toNat / 2) / timer.rate.toNat

/-- The start-of-frame period is taken for a microframe. -/
def HighSpeed : Prop := timer.sof.duration.toNat < timer.frequency.toNat / 1000 / 4

instance : Decidable timer.HighSpeed := inferInstanceAs (Decidable (_ < _))

def sofNominal : Nat :=
  if timer.HighSpeed then timer.frequency.toNat / 1000 / 8 else timer.frequency.toNat / 1000

/-- The frame period over the measured one, in 24.8 format, times the MWS duration. -/
def framesScaled : Nat :=
  reciprocalScale 8 24 (timer.mws.duration.toNat * timer.sofNominal) timer.sof.duration.toNat

/-- The value that is computed where nothing is lost. -/
def ratioValue : Nat := reciprocalScale 8 24 timer.framesScaled timer.mwsNominal

end SctSof

/-- What has to hold of the inputs for nothing to be lost. -/
structure Lossless (timer : SctSof) : Prop where
  sum : 128 * timer.frequency.toNat + timer.rate.toNat / 2 < 2 ^ 32
  divisor : timer.rate.toNat ≤ 128 * timer.frequency.toNat + timer.rate.toNat / 2
  frames : timer.framesScaled < 2 ^ 32
  ratio : timer.ratioValue < 2 ^ 32

theorem duration_lt (duration : UInt16) : duration.toNat < 2 ^ 16 := duration.toNat_lt

/-- The product of the MWS duration and the nominal period always fits. -/
theorem product_lt (timer : SctSof) (asserts : RatioAsserts timer) :
    timer.mws.duration.toNat * timer.sofNominal < 2 ^ 32 := by
  have nominal : timer.sofNominal ≤ 33554 := by
    have bound := asserts.1
    unfold uint32Max at bound
    unfold SctSof.sofNominal
    split <;> omega
  have duration := duration_lt timer.mws.duration
  calc timer.mws.duration.toNat * timer.sofNominal
      ≤ 65535 * 33554 := Nat.mul_le_mul (by omega) nominal
    _ < 2 ^ 32 := by norm_num

/-- What is checked of a timer that has measured both durations. -/
theorem checkedRatio_eq_ok (timer : SctSof) (measured : timer.Measured) (result : Nat) :
    checkedRatio timer = .ok result ↔
      128 * timer.frequency.toNat < 2 ^ 32 ∧
        128 * timer.frequency.toNat + timer.rate.toNat / 2 < 2 ^ 32 ∧
        timer.rate.toNat ≠ 0 ∧ timer.mwsNominal ≠ 0 ∧ timer.sof.duration.toNat ≠ 0 ∧
        timer.mws.duration.toNat * timer.sofNominal < 2 ^ 32 ∧
        timer.framesScaled < 2 ^ 32 ∧ timer.ratioValue < 2 ^ 32 ∧ timer.ratioValue = result := by
  obtain ⟨mws, sof, rate⟩ := measured
  have known : ¬ (timer.mws.duration.toNat = 0 ∨ timer.sof.duration.toNat = 0 ∨
      timer.rate.toNat = 0) := by omega
  have shift : timer.frequency.toNat <<< 7 = 128 * timer.frequency.toNat := by
    rw [Nat.shiftLeft_eq, Nat.mul_comm]
  simp only [checkedRatio, if_neg known, store32_bind_eq_ok, checkedDivide_bind_eq_ok,
    store32_eq_ok, shift, Nat.shiftRight_eq_div_pow]
  exact Iff.rfl

theorem checkedRatio_eq_ok_iff (timer : SctSof) (asserts : RatioAsserts timer)
    (measured : timer.Measured) (result : Nat) :
    checkedRatio timer = .ok result ↔ Lossless timer ∧ timer.ratioValue = result := by
  have sof := measured.2.1
  have rate := measured.2.2
  have ratePositive : 0 < timer.rate.toNat := Nat.pos_of_ne_zero rate
  have shiftBound : 128 * timer.frequency.toNat < 2 ^ 32 := by
    have bound := asserts.1
    unfold uint32Max at bound
    omega
  have product := product_lt timer asserts
  have divisor : timer.mwsNominal ≠ 0 ↔
      timer.rate.toNat ≤ 128 * timer.frequency.toNat + timer.rate.toNat / 2 := by
    unfold SctSof.mwsNominal
    rw [← Nat.pos_iff_ne_zero, Nat.div_pos_iff, and_iff_right ratePositive]
  rw [checkedRatio_eq_ok timer measured, divisor]
  constructor
  · rintro ⟨_, sum, _, wide, _, _, frames, ratio, same⟩
    exact ⟨⟨sum, wide, frames, ratio⟩, same⟩
  · rintro ⟨lossless, same⟩
    exact ⟨shiftBound, lossless.sum, rate, lossless.divisor, sof, product, lossless.frames,
      lossless.ratio, same⟩

theorem divide_of_ne (dividend divisor : Nat) (nonzero : divisor ≠ 0) :
    divide dividend divisor = some (dividend / divisor) := if_neg nonzero

theorem sctSofGetRatio_of_checked (timer : SctSof) (result : Nat)
    (checked : checkedRatio timer = .ok result) : sctSofGetRatio timer = some result := by
  by_cases unknown : timer.mws.duration.toNat = 0 ∨ timer.sof.duration.toNat = 0 ∨
      timer.rate.toNat = 0
  · simp only [checkedRatio, if_pos unknown] at checked
    cases checked
    simp only [sctSofGetRatio, if_pos unknown]
    rfl
  · have measured : timer.Measured := by
      unfold SctSof.Measured
      omega
    obtain ⟨shifted, sum, _, wide, sof, product, frames, ratio, same⟩ :=
      (checkedRatio_eq_ok timer measured result).mp checked
    have shift : timer.frequency.toNat <<< 7 = 128 * timer.frequency.toNat := by
      rw [Nat.shiftLeft_eq, Nat.mul_comm]
    have unfolded : sctSofGetRatio timer = (do
        let mwsExpectedMul ← divide uint32Max
          (wrap32 (wrap32 (128 * timer.frequency.toNat) + timer.rate.toNat / 2) /
            timer.rate.toNat)
        let sofDurationMul ← divide uint32Max timer.sof.duration.toNat
        let product := wrap32 (timer.mws.duration.toNat * timer.sofNominal)
        let scaled := wrap32 (product * sofDurationMul / 2 ^ 24)
        return wrap32 (scaled * mwsExpectedMul / 2 ^ 24)) := by
      simp only [sctSofGetRatio, if_neg unknown, shift, Nat.shiftRight_eq_div_pow]
      rfl
    have nominal : wrap32 (wrap32 (128 * timer.frequency.toNat) + timer.rate.toNat / 2) /
        timer.rate.toNat = timer.mwsNominal := by
      rw [wrap32_of_lt _ shifted, wrap32_of_lt _ sum, SctSof.mwsNominal]
    rw [unfolded, nominal, divide_of_ne _ _ wide, divide_of_ne _ _ sof, wrap32_of_lt _ product]
    show some (wrap32 (wrap32 timer.framesScaled * (uint32Max / timer.mwsNominal) / 2 ^ 24)) =
      some result
    rw [wrap32_of_lt _ frames, ← same]
    exact congrArg some (wrap32_of_lt _ ratio)

/-! ## Faults -/

/-- The rounded sum fits and is no less than the rate, the scaled frame period fits in
high-speed mode, and so does the result where 128 sample periods are less than 256
ticks. -/
structure FaultFree (timer : SctSof) : Prop where
  sum : 128 * timer.frequency.toNat + timer.rate.toNat / 2 < 2 ^ 32
  divisor : timer.rate.toNat ≤ 128 * timer.frequency.toNat + timer.rate.toNat / 2
  highSpeed : timer.HighSpeed →
    timer.mws.duration.toNat * (timer.frequency.toNat / 1000 / 8) *
      (uint32Max / timer.sof.duration.toNat) < 2 ^ 56
  narrow : timer.mwsNominal < 256 →
    timer.framesScaled * (uint32Max / timer.mwsNominal) < 2 ^ 56

theorem reciprocalScale_lt_iff (value divisor : Nat) :
    reciprocalScale 8 24 value divisor < 2 ^ 32 ↔ value * (uint32Max / divisor) < 2 ^ 56 :=
  Nat.div_lt_iff_lt_mul (Nat.two_pow_pos 24)

/-- A value at most 7 times the divisor stays far below the limit. -/
theorem framesScaled_fits (duration nominal divisor : Nat) (durationBound : duration < 2 ^ 16)
    (ratio : nominal ≤ 7 * divisor) : duration * nominal * (uint32Max / divisor) < 2 ^ 56 := by
  have word : divisor * (uint32Max / divisor) ≤ 2 ^ 32 - 1 := Nat.mul_div_le _ _
  calc duration * nominal * (uint32Max / divisor)
      ≤ 65535 * (7 * divisor) * (uint32Max / divisor) :=
        Nat.mul_le_mul_right _ (Nat.mul_le_mul (by omega) ratio)
    _ = 65535 * 7 * (divisor * (uint32Max / divisor)) := by ring
    _ ≤ 65535 * 7 * (2 ^ 32 - 1) := Nat.mul_le_mul_left _ word
    _ < 2 ^ 56 := by norm_num

theorem frames_of_fullSpeed (timer : SctSof) (measured : timer.Measured)
    (fullSpeed : ¬ timer.HighSpeed) : timer.framesScaled < 2 ^ 32 := by
  have sof := measured.2.1
  unfold SctSof.framesScaled
  rw [reciprocalScale_lt_iff]
  apply framesScaled_fits _ _ _ (duration_lt _)
  unfold SctSof.sofNominal
  rw [if_neg fullSpeed]
  unfold SctSof.HighSpeed at fullSpeed
  omega

theorem ratio_of_wide (timer : SctSof) (frames : timer.framesScaled < 2 ^ 32)
    (wide : 256 ≤ timer.mwsNominal) : timer.ratioValue < 2 ^ 32 := by
  have reciprocal : uint32Max / timer.mwsNominal ≤ uint32Max / 256 :=
    Nat.div_le_div_left wide (by norm_num)
  unfold SctSof.ratioValue
  rw [reciprocalScale_lt_iff]
  calc timer.framesScaled * (uint32Max / timer.mwsNominal)
      ≤ (2 ^ 32 - 1) * (uint32Max / 256) := Nat.mul_le_mul (by omega) reciprocal
    _ < 2 ^ 56 := by decide

theorem lossless_iff (timer : SctSof) (measured : timer.Measured) :
    Lossless timer ↔ FaultFree timer := by
  have inHighSpeed : timer.HighSpeed → (timer.framesScaled < 2 ^ 32 ↔
      timer.mws.duration.toNat * (timer.frequency.toNat / 1000 / 8) *
        (uint32Max / timer.sof.duration.toNat) < 2 ^ 56) := by
    intro highSpeed
    unfold SctSof.framesScaled
    rw [reciprocalScale_lt_iff, SctSof.sofNominal, if_pos highSpeed]
  have ratio : timer.ratioValue < 2 ^ 32 ↔
      timer.framesScaled * (uint32Max / timer.mwsNominal) < 2 ^ 56 :=
    reciprocalScale_lt_iff _ _
  constructor
  · intro lossless
    exact ⟨lossless.sum, lossless.divisor,
      fun highSpeed => (inHighSpeed highSpeed).mp lossless.frames,
      fun _ => ratio.mp lossless.ratio⟩
  · intro free
    have frames : timer.framesScaled < 2 ^ 32 := by
      by_cases highSpeed : timer.HighSpeed
      · exact (inHighSpeed highSpeed).mpr (free.highSpeed highSpeed)
      · exact frames_of_fullSpeed timer measured highSpeed
    refine ⟨free.sum, free.divisor, frames, ?_⟩
    by_cases wide : 256 ≤ timer.mwsNominal
    · exact ratio_of_wide timer frames wide
    · exact ratio.mpr (free.narrow (by omega))

/-- For every object that the assertions admit. -/
theorem ratio_faultless_iff (timer : SctSof) (asserts : RatioAsserts timer) :
    (∃ result, checkedRatio timer = .ok result) ↔ (timer.Measured → FaultFree timer) := by
  by_cases measured : timer.Measured
  · constructor
    · rintro ⟨result, checked⟩ _
      exact (lossless_iff timer measured).mp
        ((checkedRatio_eq_ok_iff timer asserts measured result).mp checked).1
    · intro free
      exact ⟨_, (checkedRatio_eq_ok_iff timer asserts measured _).mpr
        ⟨(lossless_iff timer measured).mpr (free measured), rfl⟩⟩
  · refine iff_of_true ?_ fun known => absurd known measured
    have unknown : timer.mws.duration.toNat = 0 ∨ timer.sof.duration.toNat = 0 ∨
        timer.rate.toNat = 0 := by
      unfold SctSof.Measured at measured
      omega
    refine ⟨0, ?_⟩
    simp only [checkedRatio, if_pos unknown]
    rfl

def measuredTimer (frequency rate : UInt32) (mws sof : UInt16) : SctSof :=
  { frequency := frequency
    rate := rate
    events := { i2sEvent := ⟨0, by decide⟩, usbEvent := ⟨1, by decide⟩, distinct := by decide }
    mws := { duration := mws, previous := 0, valid := true }
    sof := { duration := sof, previous := 0, valid := true } }

theorem ratio_faultless_iff_48kHz :
    (measuredTimer 12000000 48000 32000 12000).Measured ∧
      ∃ result, checkedRatio (measuredTimer 12000000 48000 32000 12000) = .ok result := by
  refine ⟨⟨by decide, by decide, by decide⟩, (ratio_faultless_iff _ (by decide)).mpr fun _ => ?_⟩
  exact ⟨by decide, by decide, by decide, by decide⟩

/-- With the frequency 0 the divisor is 0, and a short microframe overflows a store. -/
theorem ratio_faults :
    (RatioAsserts (measuredTimer 0 48000 32000 12000) ∧
        ¬ ∃ result, checkedRatio (measuredTimer 0 48000 32000 12000) = .ok result) ∧
      RatioAsserts (measuredTimer 33552000 48000 65535 1) ∧
        ¬ ∃ result, checkedRatio (measuredTimer 33552000 48000 65535 1) = .ok result := by
  have zero : checkedRatio (measuredTimer 0 48000 32000 12000) = .error .divisionByZero := by
    decide
  have short : checkedRatio (measuredTimer 33552000 48000 65535 1) = .error .lostBits := by
    decide
  refine ⟨⟨by decide, ?_⟩, by decide, ?_⟩
  · rintro ⟨result, checked⟩
    rw [zero] at checked
    cases checked
  · rintro ⟨result, checked⟩
    rw [short] at checked
    cases checked

/-! ## Accuracy -/

/-- The range that the comments of `sctSofGetRatio` name, with 128 sample periods of at
least 256 ticks. -/
structure FeedbackRange (timer : SctSof) : Prop where
  thousand : timer.frequency.toNat % 1000 = 0
  low : 500000 ≤ timer.frequency.toNat
  high : timer.frequency.toNat < uint32Max / 128
  sum : 128 * timer.frequency.toNat + timer.rate.toNat / 2 < 2 ^ 32
  wide : 256 ≤ timer.mwsNominal
  mws : timer.mws.duration.toNat ≠ 0
  sof : timer.sof.duration.toNat ≠ 0

/-- The ratio of the two measured durations to their nominal ones, in 16.16 format. -/
def SctSof.exactRatio (timer : SctSof) (sofPeriod : ℚ) : ℚ :=
  2 ^ 16 * timer.mws.duration.toNat * sofPeriod /
    (timer.sof.duration.toNat * timer.mwsNominal)

/-- The error that the two reciprocals may add. -/
def SctSof.reciprocalError (timer : SctSof) (ratio : ℚ) : ℚ :=
  ratio * (timer.sof.duration.toNat + timer.mwsNominal) / 2 ^ 32

namespace FeedbackRange

variable {timer : SctSof} (range : FeedbackRange timer)
include range

theorem rate_ne_zero : timer.rate.toNat ≠ 0 := by
  intro zero
  have wide := range.wide
  unfold SctSof.mwsNominal at wide
  rw [zero, Nat.div_zero] at wide
  omega

theorem measured : timer.Measured := ⟨range.mws, range.sof, range.rate_ne_zero⟩

theorem asserts : RatioAsserts timer := ⟨range.high, range.thousand⟩

theorem checked (frames : timer.framesScaled < 2 ^ 32) :
    checkedRatio timer = .ok timer.ratioValue := by
  refine (checkedRatio_eq_ok_iff timer range.asserts range.measured _).mpr ⟨?_, rfl⟩
  refine ⟨range.sum, ?_, frames, ratio_of_wide timer frames range.wide⟩
  have positive : 0 < timer.mwsNominal := Nat.lt_of_lt_of_le (by norm_num) range.wide
  exact (Nat.div_pos_iff.mp positive).2

/-- The value computed and the ratio for the nominal period in whole ticks. -/
theorem ratioValue_bounds :
    (timer.ratioValue : ℚ) ≤ timer.exactRatio timer.sofNominal ∧
      timer.exactRatio timer.sofNominal - timer.ratioValue <
        2 + timer.reciprocalError (timer.exactRatio timer.sofNominal) := by
  have narrow : timer.mwsNominal ≤ 2 ^ (8 + 24) :=
    Nat.le_trans (Nat.div_le_self _ _) (Nat.le_of_lt range.sum)
  have bounds := reciprocalScale_twice (K := ℚ) 8 24
    (timer.mws.duration.toNat * timer.sofNominal) timer.sof.duration.toNat timer.mwsNominal
    (Nat.pos_of_ne_zero range.sof) range.wide narrow
  have same : ((timer.mws.duration.toNat * timer.sofNominal : ℕ) * 2 ^ 8 * 2 ^ 8 /
      (timer.sof.duration.toNat * timer.mwsNominal) : ℚ) = timer.exactRatio timer.sofNominal := by
    unfold SctSof.exactRatio
    push_cast
    ring
  rw [same] at bounds
  exact bounds

end FeedbackRange

/-- In full-speed mode the frame period is a whole number of ticks. -/
theorem full_speed_ratio_accurate (timer : SctSof) (range : FeedbackRange timer)
    (fullSpeed : timer.frequency.toNat / 1000 / 4 ≤ timer.sof.duration.toNat) :
    ∃ result, checkedRatio timer = .ok result ∧ sctSofGetRatio timer = some result ∧
      (result : ℚ) ≤ timer.exactRatio (timer.frequency.toNat / 1000) ∧
      timer.exactRatio (timer.frequency.toNat / 1000) - result <
        2 + timer.reciprocalError (timer.exactRatio (timer.frequency.toNat / 1000)) := by
  have notHigh : ¬ timer.HighSpeed := Nat.not_lt.mpr fullSpeed
  have checked := range.checked (frames_of_fullSpeed timer range.measured notHigh)
  have period : (timer.sofNominal : ℚ) = timer.frequency.toNat / 1000 := by
    rw [SctSof.sofNominal, if_neg notHigh,
      Nat.cast_div (Nat.dvd_of_mod_eq_zero range.thousand) (by norm_num)]
    norm_num
  have bounds := range.ratioValue_bounds
  rw [period] at bounds
  exact ⟨_, checked, sctSofGetRatio_of_checked timer _ checked, bounds⟩

theorem full_speed_ratio_accurate_48kHz :
    ∃ result, checkedRatio (measuredTimer 12000000 48000 32000 12000) = .ok result ∧
      sctSofGetRatio (measuredTimer 12000000 48000 32000 12000) = some result ∧
      (result : ℚ) ≤ (measuredTimer 12000000 48000 32000 12000).exactRatio
        ((measuredTimer 12000000 48000 32000 12000).frequency.toNat / 1000) ∧
      (measuredTimer 12000000 48000 32000 12000).exactRatio
        ((measuredTimer 12000000 48000 32000 12000).frequency.toNat / 1000) - result <
        2 + (measuredTimer 12000000 48000 32000 12000).reciprocalError
          ((measuredTimer 12000000 48000 32000 12000).exactRatio
            ((measuredTimer 12000000 48000 32000 12000).frequency.toNat / 1000)) :=
  full_speed_ratio_accurate _
    ⟨by decide, by decide, by decide, by decide, by decide, by decide, by decide⟩ (by decide)

/-! ## High-speed mode -/

/-- A duration recognised as a microframe, and at least half of one. -/
structure Microframe (timer : SctSof) : Prop where
  recognised : timer.HighSpeed
  half : timer.frequency.toNat ≤ 16000 * timer.sof.duration.toNat

/-- The result is as close to the ratio for an eighth of a millisecond as in full-speed
mode, with one more for the sign. -/
def HighSpeedAccurate (timer : SctSof) : Prop :=
  ∃ result : Nat, sctSofGetRatio timer = some result ∧
    |(result : ℚ) - timer.exactRatio (timer.frequency.toNat / 8000)| <
      3 + timer.reciprocalError (timer.exactRatio (timer.frequency.toNat / 8000))

theorem highSpeed_result (timer : SctSof) (range : FeedbackRange timer)
    (microframe : Microframe timer) : sctSofGetRatio timer = some timer.ratioValue := by
  have frames : timer.framesScaled < 2 ^ 32 := by
    unfold SctSof.framesScaled
    rw [reciprocalScale_lt_iff]
    apply framesScaled_fits _ _ _ (duration_lt _)
    have half := microframe.half
    unfold SctSof.sofNominal
    rw [if_pos microframe.recognised]
    omega
  exact sctSofGetRatio_of_checked timer _ (range.checked frames)

theorem reciprocalError_nonneg (timer : SctSof) (ratio : ℚ) (nonneg : 0 ≤ ratio) :
    0 ≤ timer.reciprocalError ratio := by
  unfold SctSof.reciprocalError
  positivity

theorem exactRatio_nonneg (timer : SctSof) (period : ℚ) (nonneg : 0 ≤ period) :
    0 ≤ timer.exactRatio period := by
  unfold SctSof.exactRatio
  positivity

/-- A multiple of 8 kHz has microframes of a whole number of ticks. -/
theorem highSpeedAccurate_of_dvd (timer : SctSof) (range : FeedbackRange timer)
    (microframe : Microframe timer) (divides : 8000 ∣ timer.frequency.toNat) :
    HighSpeedAccurate timer := by
  have period : (timer.sofNominal : ℚ) = timer.frequency.toNat / 8000 := by
    rw [SctSof.sofNominal, if_pos microframe.recognised, Nat.div_div_eq_div_mul,
      Nat.cast_div divides (by norm_num)]
    norm_num
  obtain ⟨upper, lower⟩ := range.ratioValue_bounds
  rw [period] at upper lower
  have error := reciprocalError_nonneg timer (timer.exactRatio (timer.frequency.toNat / 8000))
    (exactRatio_nonneg timer _ (by positivity))
  refine ⟨_, highSpeed_result timer range microframe, ?_⟩
  rw [abs_lt]
  constructor
  · linarith
  · linarith

/-- At short durations a lost eighth of a tick costs more than the bound allows. -/
theorem loss_dominates (sof mws whole eighths : Nat) (sofPositive : 0 < sof)
    (mwsPositive : 0 < mws) (sofBound : sof ≤ 2098) (mwsBound : mws ≤ 39045)
    (periodBound : 8 * whole + eighths ≤ 33554) (lost : 0 < eighths) :
    (3 : ℚ) + 2 ^ 16 * (65535 : ℕ) * (whole + eighths / 8) / (sof * mws) * (sof + mws) / 2 ^ 32 ≤
      2 ^ 16 * (65535 : ℕ) * (whole + eighths / 8) / (sof * mws) -
        2 ^ 16 * (65535 : ℕ) * whole / (sof * mws) := by
  have natural : 24 * 2 ^ 16 * (sof * mws) + 65535 * ((8 * whole + eighths) * (sof + mws)) ≤
      2 ^ 32 * 65535 * eighths := by
    have first : sof * mws ≤ 2098 * 39045 := Nat.mul_le_mul sofBound mwsBound
    have second : (8 * whole + eighths) * (sof + mws) ≤ 33554 * (2098 + 39045) :=
      Nat.mul_le_mul periodBound (Nat.add_le_add sofBound mwsBound)
    omega
  have cast : (24 * 2 ^ 16 * (sof * mws) + 65535 * ((8 * whole + eighths) * (sof + mws)) : ℚ) ≤
      2 ^ 32 * 65535 * eighths := by exact_mod_cast natural
  have sofCast : (0 : ℚ) < sof := Nat.cast_pos.mpr sofPositive
  have mwsCast : (0 : ℚ) < mws := Nat.cast_pos.mpr mwsPositive
  have difference : (2 ^ 16 * (65535 : ℕ) * (whole + eighths / 8) / (sof * mws) -
      2 ^ 16 * (65535 : ℕ) * whole / (sof * mws) -
        (3 + 2 ^ 16 * (65535 : ℕ) * (whole + eighths / 8) / (sof * mws) * (sof + mws) /
          2 ^ 32) : ℚ) =
      (2 ^ 32 * 65535 * eighths - (24 * 2 ^ 16 * (sof * mws) +
        65535 * ((8 * whole + eighths) * (sof + mws)))) / (8 * 2 ^ 16 * (sof * mws)) := by
    push_cast
    field_simp
    ring
  rw [← sub_nonneg, difference]
  exact div_nonneg (sub_nonneg.mpr cast) (by positivity)

def shortestMicroframe (frequency : UInt32) : SctSof :=
  measuredTimer frequency 110000 65535 (UInt16.ofNat ((frequency.toNat / 1000 + 15) / 16))

section Shortest

variable {frequency : UInt32} (thousand : frequency.toNat % 1000 = 0)
variable (low : 500000 ≤ frequency.toNat) (high : frequency.toNat < uint32Max / 128)
include low high

theorem shortestMicroframe_sof :
    (shortestMicroframe frequency).sof.duration.toNat = (frequency.toNat / 1000 + 15) / 16 := by
  have size : UInt16.size = 65536 := rfl
  unfold uint32Max at high
  exact UInt16.toNat_ofNat_of_lt' (by omega)

omit low high in
theorem shortestMicroframe_mwsNominal :
    (shortestMicroframe frequency).mwsNominal = (128 * frequency.toNat + 55000) / 110000 := by
  have rate : (shortestMicroframe frequency).rate.toNat = 110000 := by
    show UInt32.toNat 110000 = 110000
    decide
  unfold SctSof.mwsNominal
  rw [rate]
  rfl

omit low high in
theorem shortestMicroframe_mws : (shortestMicroframe frequency).mws.duration.toNat = 65535 := by
  show UInt16.toNat 65535 = 65535
  decide

include thousand

theorem shortestMicroframe_range : FeedbackRange (shortestMicroframe frequency) := by
  have sof := shortestMicroframe_sof low high
  unfold uint32Max at high
  refine ⟨thousand, low, high, ?_, ?_, ?_, ?_⟩
  · show 128 * frequency.toNat + 110000 / 2 < 2 ^ 32
    omega
  · rw [shortestMicroframe_mwsNominal]
    omega
  · rw [shortestMicroframe_mws]
    omega
  · rw [sof]
    omega

theorem shortestMicroframe_microframe : Microframe (shortestMicroframe frequency) := by
  have sof := shortestMicroframe_sof low high
  refine ⟨?_, ?_⟩
  · show (shortestMicroframe frequency).sof.duration.toNat < frequency.toNat / 1000 / 4
    rw [sof]
    omega
  · rw [sof]
    show frequency.toNat ≤ _
    omega

/-- What is lost of the period outweighs the bound. -/
theorem shortestMicroframe_loss (inexact : ¬ 8000 ∣ frequency.toNat) :
    ¬ HighSpeedAccurate (shortestMicroframe frequency) := by
  rintro ⟨result, computed, close⟩
  have range := shortestMicroframe_range thousand low high
  have microframe := shortestMicroframe_microframe thousand low high
  rw [highSpeed_result _ range microframe] at computed
  cases computed
  have upper := range.ratioValue_bounds.1
  have below := (abs_lt.mp close).1
  have sof := shortestMicroframe_sof low high
  have nominal : (shortestMicroframe frequency).sofNominal = frequency.toNat / 8000 := by
    rw [SctSof.sofNominal, if_pos microframe.recognised, Nat.div_div_eq_div_mul]
    rfl
  have sofBound : (shortestMicroframe frequency).sof.duration.toNat ≤ 2098 := by
    unfold uint32Max at high
    omega
  have mwsBound : (shortestMicroframe frequency).mwsNominal ≤ 39045 := by
    rw [shortestMicroframe_mwsNominal]
    unfold uint32Max at high
    omega
  have sofPositive := Nat.pos_of_ne_zero range.sof
  have mwsPositive : 0 < (shortestMicroframe frequency).mwsNominal :=
    Nat.lt_of_lt_of_le (by norm_num) range.wide
  have split : ((shortestMicroframe frequency).frequency.toNat / 8000 : ℚ) =
      (frequency.toNat / 8000 : ℕ) + (frequency.toNat / 1000 % 8 : ℕ) / 8 := by
    have parts : frequency.toNat =
        8000 * (frequency.toNat / 8000) + 1000 * (frequency.toNat / 1000 % 8) := by omega
    have cast : (frequency.toNat : ℚ) = 8000 * (frequency.toNat / 8000 : ℕ) +
        1000 * (frequency.toNat / 1000 % 8 : ℕ) := by exact_mod_cast parts
    show (frequency.toNat / 8000 : ℚ) = _
    rw [cast]
    ring
  have dominated := loss_dominates _ _ (frequency.toNat / 8000) (frequency.toNat / 1000 % 8)
    sofPositive mwsPositive sofBound mwsBound (by unfold uint32Max at high; omega) (by omega)
  rw [split] at below
  unfold SctSof.reciprocalError SctSof.exactRatio at below
  unfold SctSof.exactRatio at upper
  rw [shortestMicroframe_mws, nominal] at upper
  rw [shortestMicroframe_mws] at below
  linarith

end Shortest

/-- The result is accurate for every measurement exactly if the timer frequency is a
multiple of 8 kHz. -/
theorem high_speed_ratio_accurate_iff (frequency : UInt32)
    (thousand : frequency.toNat % 1000 = 0) (low : 500000 ≤ frequency.toNat)
    (high : frequency.toNat < uint32Max / 128) :
    (∀ timer : SctSof, timer.frequency = frequency → FeedbackRange timer → Microframe timer →
      HighSpeedAccurate timer) ↔ 8000 ∣ frequency.toNat := by
  constructor
  · intro accurate
    by_contra inexact
    exact shortestMicroframe_loss thousand low high inexact
      (accurate _ rfl (shortestMicroframe_range thousand low high)
        (shortestMicroframe_microframe thousand low high))
  · rintro divides timer rfl range microframe
    exact highSpeedAccurate_of_dvd timer range microframe divides

theorem high_speed_ratio_accurate_iff_12MHz :
    (∀ timer : SctSof, timer.frequency = 12000000 → FeedbackRange timer → Microframe timer →
      HighSpeedAccurate timer) ↔ 8000 ∣ (12000000 : UInt32).toNat :=
  high_speed_ratio_accurate_iff 12000000 (by decide) (by decide) (by decide)

/-- At 505 kHz a microframe of 63.125 ticks is taken for 63. -/
theorem high_speed_ratio_inaccurate :
    FeedbackRange (shortestMicroframe 505000) ∧ Microframe (shortestMicroframe 505000) ∧
      ¬ HighSpeedAccurate (shortestMicroframe 505000) :=
  ⟨shortestMicroframe_range (by decide) (by decide) (by decide),
    shortestMicroframe_microframe (by decide) (by decide) (by decide),
    shortestMicroframe_loss (by decide) (by decide) (by decide) (by decide)⟩

end HalmExamples.Sct
