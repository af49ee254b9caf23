import Mathlib.Algebra.Order.Group.Unbundled.Int
import Mathlib.Tactic.Ring
import Mathlib.Tactic.Zify
import GalvoWeld.Proofs.Seam.FreeWobbling

/-!
# The delay that a shift makes up for

The shift of a free wobbling is the nearest quotient of the delay and the resolution of a step, each
taken as the number it is. So to within half a step it makes up for one microsecond for each unit of
the delay. For ten microseconds a unit it makes up only where these come to no more than half a
step, and nothing is shifted.
-/

namespace GalvoWeld

/-! ### Nearest quotients -/

namespace Number

theorem divHalfUp_error {den : Nat} (hden : 0 < den) (num : Nat) :
    2 * (divHalfUp num den * den) ≤ 2 * num + den ∧
      2 * num < 2 * (divHalfUp num den * den) + den := by
  have hparts := Nat.div_add_mod (2 * num + den) (2 * den)
  have hrest := Nat.mod_lt (2 * num + den) (show 0 < 2 * den by omega)
  have hproduct : 2 * den * divHalfUp num den = 2 * (divHalfUp num den * den) := by ring
  rw [← divHalfUp, hproduct] at hparts
  omega

theorem divHalfUp_le {den : Nat} (hden : 0 < den) (num : Nat) : divHalfUp num den ≤ num := by
  obtain ⟨hle, -⟩ := divHalfUp_error hden num
  by_contra hgt
  have hmore : (num + 1) * den ≤ divHalfUp num den * den :=
    Nat.mul_le_mul_right den (Nat.lt_of_not_le hgt)
  have hnum : num ≤ num * den := Nat.le_mul_of_pos_right num hden
  rw [Nat.succ_mul] at hmore
  omega

variable {den : Int}

theorem intDivHalfAway_of_pos (hden : 0 < den) (num : Int) :
    intDivHalfAway num den =
      if num < 0 then -(divHalfUp num.natAbs den.natAbs : Int)
      else divHalfUp num.natAbs den.natAbs := by
  have hpositive : ¬ den < 0 := hden.le.not_gt
  unfold intDivHalfAway
  simp only [if_neg hden.ne', hpositive, eq_iff_iff, iff_false]
  split_ifs <;> rfl

theorem intDivHalfAway_error (hden : 0 < den) (num : Int) :
    2 * |intDivHalfAway num den * den - num| ≤ den := by
  obtain ⟨hle, hlt⟩ := divHalfUp_error (Int.natAbs_pos.2 hden.ne') num.natAbs
  zify at hle hlt
  rw [abs_of_pos hden] at hle hlt
  rw [intDivHalfAway_of_pos hden]
  split_ifs with hneg
  · rw [abs_of_neg hneg] at hle hlt
    rw [neg_mul]
    grind
  · rw [abs_of_nonneg (not_lt.1 hneg)] at hle hlt
    grind

theorem intDivHalfAway_between (hden : 0 < den) (num : Int) :
    min num 0 ≤ intDivHalfAway num den ∧ intDivHalfAway num den ≤ max num 0 := by
  have hle := divHalfUp_le (Int.natAbs_pos.2 hden.ne') num.natAbs
  rw [intDivHalfAway_of_pos hden]
  split_ifs <;> omega

end Number

/-! ### The shift for a delay -/

open Number (maxWord minWord)
open Wobble (Setup delayShift shiftResolution)

namespace Wobble

theorem delayShift_eq {delay step : Int} (hdelay : minWord ≤ delay ∧ delay ≤ maxWord)
    (hstep : 0 < step) : delayShift delay step = Number.intDivHalfAway delay step := by
  obtain ⟨hlow, hhigh⟩ := Number.intDivHalfAway_between hstep delay
  simp only [delayShift, minWord, maxWord] at *
  omega

theorem Plan.shift_of_ok {delay : Int} {figure : Figure} {dual : Bool} {p : Plan}
    (hp : Plan.of delay figure dual = .ok p) :
    p.shift = delayShift delay (shiftResolution p.divisor) := by
  unfold Plan.of at hp
  simp only at hp
  split at hp
  · cases hp
  · split at hp
    · cases hp
    · obtain rfl := Except.ok.inj hp
      rfl

/-- The shift makes up for so many microseconds, to within half a step. -/
def Compensation.MakesUpFor (c : Compensation) (micros : Int) : Prop :=
  2 * |c.shift * shiftResolution c.divisor - micros| ≤ shiftResolution c.divisor

instance (c : Compensation) (micros : Int) : Decidable (c.MakesUpFor micros) :=
  inferInstanceAs (Decidable (_ ≤ _))

/-- A shift that makes up for a number and for ten times the number at once is none. -/
theorem Compensation.makesUpFor_tenfold {c : Compensation} {delay : Int}
    (hdivisor : 0 < c.divisor ∧ c.divisor ≤ maxDivisor) (hdelay : c.MakesUpFor delay) :
    (c.MakesUpFor (10 * delay) ↔ 2 * |delay| ≤ c.divisor) ∧
      (c.MakesUpFor (10 * delay) → c.shift = 0) := by
  have hresolution : shiftResolution c.divisor = 10 * c.divisor :=
    shiftResolution_of_lt (Nat.lt_of_le_of_lt hdivisor.2 (by decide))
  have hproduct : c.shift * (10 * (c.divisor : Int)) = 10 * (c.shift * c.divisor) := by ring
  have hmultiple := Int.eq_zero_of_abs_lt_dvd (Int.dvd_mul_left c.shift c.divisor)
  simp only [MakesUpFor, hresolution, hproduct, Int.abs_eq_natAbs] at *
  constructor
  · omega
  · intro htenfold
    have hnone : c.shift * (c.divisor : Int) = 0 := hmultiple (by omega)
    exact (Int.mul_eq_zero.1 hnone).resolve_right (by omega)

end Wobble

namespace Seam

variable {s t : Seam} {setup : Setup}

theorem divisor_of_defineWobble (hd : s.defineWobble .free = (.ok setup, t)) :
    (0 < t.compensation.divisor ∧ t.compensation.divisor ≤ Wobble.maxDivisor) ∧
      t.compensation.shift = s.shiftFor t.compensation.divisor := by
  obtain ⟨figure, hfree, -, hvectors⟩ := defineWobble_free_vectors hd
  obtain ⟨-, -, heven⟩ := freeFigure_ok hfree
  obtain ⟨p, hp, hvalues⟩ := Wobble.Compensation.define_ok hvectors
  obtain ⟨-, hdivisor, -⟩ := Wobble.Plan.of_ok hp
  have hsuits : decide (figure.modulation = .dual) = true → figure.microVectorFactor % 2 = 0 :=
    fun hdual => heven (of_decide_eq_true hdual)
  have hfound := Wobble.findDivisor_mem hsuits (figure.size - 1)
  rw [← hdivisor] at hfound
  obtain ⟨hone, hmax, -⟩ := Wobble.mem_divisorCandidates.1 hfound
  have hshift := Wobble.Plan.shift_of_ok hp
  rw [hvalues]
  exact ⟨⟨hone, hmax⟩, hshift⟩

/-- The shift of a free wobbling makes up for one microsecond for each unit of the delay, whatever
the configuration, the figure and the divisor. For ten microseconds a unit it makes up if and only
if these are at most half a step, and then nothing is shifted. -/
theorem shift_makes_up_for_tenth (hdelay : minWord ≤ s.config.powerDelay ∧
      s.config.powerDelay ≤ maxWord) (hd : s.defineWobble .free = (.ok setup, t)) :
    t.compensation.MakesUpFor s.config.powerDelay ∧
      (t.compensation.MakesUpFor (10 * s.config.powerDelay) ↔
        2 * |s.config.powerDelay| ≤ t.compensation.divisor) ∧
      (t.compensation.MakesUpFor (10 * s.config.powerDelay) → t.compensation.shift = 0) := by
  obtain ⟨hdivisor, hshift⟩ := divisor_of_defineWobble hd
  have hstep : 0 < shiftResolution t.compensation.divisor := by
    rw [Wobble.shiftResolution_of_lt (Nat.lt_of_le_of_lt hdivisor.2 (by decide))]
    omega
  have htenth : t.compensation.MakesUpFor s.config.powerDelay := by
    rw [Wobble.Compensation.MakesUpFor, hshift, shiftFor, Wobble.delayShift_eq hdelay hstep]
    exact Number.intDivHalfAway_error hstep s.config.powerDelay
  exact ⟨htenth, Wobble.Compensation.makesUpFor_tenfold hdivisor htenth⟩

theorem bench_shift_makes_up :
    (benchDelayed.defineWobble .free).1 = .ok (.free .dual) ∧
    (benchDelayed.defineWobble .free).2.compensation.shift = -2 ∧
    (benchDelayed.defineWobble .free).2.compensation.MakesUpFor (-30) ∧
    ¬ (benchDelayed.defineWobble .free).2.compensation.MakesUpFor (10 * -30) := by
  have hdefined : (benchDelayed.defineWobble .free).1 = .ok (.free .dual) := by decide +kernel
  have hshift : (benchDelayed.defineWobble .free).2.compensation.shift = -2 := by decide +kernel
  have hd : benchDelayed.defineWobble .free =
      (.ok (.free .dual), (benchDelayed.defineWobble .free).2) := Prod.ext hdefined rfl
  obtain ⟨htenth, -, hnone⟩ := shift_makes_up_for_tenth (by decide) hd
  refine ⟨hdefined, hshift, htenth, fun hwhole => ?_⟩
  have hzero := hnone hwhole
  rw [hshift] at hzero
  exact absurd hzero (by decide)

/-- It is not so that the shift makes up for ten microseconds for each unit of the delay: with the
divisor 1 these are a whole step, and a delay of one unit is not shifted at all. -/
theorem delay_not_made_up :
    ¬ ∀ (s t : Seam) (setup : Setup), minWord ≤ s.config.powerDelay ∧
      s.config.powerDelay ≤ maxWord → s.defineWobble .free = (.ok setup, t) →
      t.compensation.MakesUpFor (10 * s.config.powerDelay) := by
  intro hall
  let s : Seam :=
    { config := { powerDelay := 1 }, data := { power := 0.5 }, wobbleFigure := some coreTriangle }
  have hdefined : (s.defineWobble .free).1 = .ok (.free (.single .core)) := by decide +kernel
  have hshort : ¬ (s.defineWobble .free).2.compensation.MakesUpFor (10 * 1) := by decide +kernel
  exact hshort (hall s (s.defineWobble .free).2 _ (by decide) (Prod.ext hdefined rfl))

end Seam

end GalvoWeld
