import GalvoWeld.Figure
import GalvoWeld.Wobble.Divisor

/-!
# Micro-points of a wobble figure

Every segment of a figure is split into equal steps, with position and both powers interpolated
linearly. A figure that would get too many segments is left as it is.
-/

namespace GalvoWeld.Wobble

/-- The points between `p` and `q` that split the segment into `n` equal steps. -/
def innerPoints (n : Nat) (p q : FigurePoint) : List FigurePoint :=
  (List.range (n - 1)).map fun s => p.lerp q (Float.ofNat (s + 1) / Float.ofNat n)

/-- All segments split into `n` equal steps. -/
def splitSegments (n : Nat) : List FigurePoint → List FigurePoint
  | p :: q :: rest => p :: (innerPoints n p q ++ splitSegments n (q :: rest))
  | points => points

/-- The figure split into `n` steps per segment; unchanged if there is nothing to split or the
result would have too many segments. -/
def microPoints (points : List FigurePoint) (n : Nat) : List FigurePoint :=
  if points.isEmpty || n ≤ 1 || maxSegments < (points.length - 1) * n then points
  else splitSegments n points

end GalvoWeld.Wobble
