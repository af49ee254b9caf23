/-!
# Segment limits and the divisor of a wobble figure

The hardware accepts a limited number of wobble segments. A figure with more of them is split
into fewer micro-vectors: the micro-vector factor is divided by the least divisor that brings the
figure under the limit.
-/

namespace GalvoWeld.Wobble

/-- The most segments of one wobble figure. -/
def maxSegments : Nat := 1023

/-- The most segments of a figure: fewer where both power channels are modulated. -/
def segmentLimit (dual : Bool) : Nat := if dual then 511 else maxSegments

/-- The greatest divisor that is tried. -/
def maxDivisor : Nat := 100

/-- The divisors of a micro-vector factor up to the greatest one; only even ones where both channels
are modulated. -/
def divisorCandidates (factor : Nat) (dual : Bool) : List Nat :=
  (List.range' 1 maxDivisor).filter fun d => factor % d = 0 && (!dual || d % 2 = 0)

/-- The figure divided by `d` has no more segments than the limit. -/
def fitsLimit (segments factor : Nat) (dual : Bool) (d : Nat) : Bool :=
  segments * (factor / d) ≤ segmentLimit dual

/-- The least candidate that brings the figure under the limit. Without one it is the greatest
candidate, so that the caller checks the limit again; without candidates it is the least divisor
allowed. -/
def findDivisor (segments factor : Nat) (dual : Bool) : Nat :=
  let candidates := divisorCandidates factor dual
  match candidates.find? (fitsLimit segments factor dual) with
  | some d => d
  | none => candidates.getLast?.getD (if dual then 2 else 1)

end GalvoWeld.Wobble
