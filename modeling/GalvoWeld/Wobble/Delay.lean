import GalvoWeld.Number.Exact

/-!
# The delay of the laser power

The laser answers late to a change of its power. The power values of a wobble figure are moved
along the figure by a whole number of micro-vectors to make up for it.
-/

namespace GalvoWeld.Wobble

open Number

/-- The duration of one micro-vector in µs when the factor is divided by `divisor`. The divisor
counts as a signed 32 bit word. -/
def shiftResolution (divisor : Nat) : Int := 10 * (divisor : Int).bmod 4294967296

theorem shiftResolution_of_lt {divisor : Nat} (h : divisor < 2147483648) :
    shiftResolution divisor = 10 * divisor := by
  unfold shiftResolution
  rw [Int.bmod_eq_of_le (by omega) (by omega)]

/-- The nearest quotient of a delay, in units of 10 µs, and a resolution in µs, a half away from
zero; 0 for a resolution of 0. The result is a signed 32 bit word. -/
def delayShift (compensation resolution : Int) : Int :=
  max minWord (min maxWord (intDivHalfAway compensation resolution))

end GalvoWeld.Wobble
