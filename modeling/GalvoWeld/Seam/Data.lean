import GalvoWeld.Figure
import GalvoWeld.Wobble.Mode

/-!
# Seam data and special values

The product and seam parameters of a weld request. A power or velocity of a weld point may be a
special value: `-1` repeats the value of the point before, `-2` stands for the default.
-/

namespace GalvoWeld

/-- Is the laser on? -/
inductive WeldMode where
  | welding
  | preview
deriving DecidableEq, Repr

/-- Displacements across the seam and along it, in mm. -/
structure Amplitude where
  transversal : Float
  longitudinal : Float

/-- The product and seam parameters of one request. -/
structure SeamData where
  seam : Nat := 0
  mode : WeldMode := .welding
  wobbleMode : Wobble.Mode := .off
  /-- The nominal power of the core channel, from 0 to 1. -/
  power : Float := 0
  /-- The nominal power of the ring channel, from 0 to 1. -/
  ringPower : Float := 0
  /-- In mm/s. -/
  velocity : Float := 100
  /-- In mm/s. -/
  jumpSpeed : Float := 1000
  /-- Added to every position, in mm. -/
  offset : Point := Point.origin
  wobbleAmplitude : Amplitude := ⟨0, 0⟩
  /-- In Hz; the configuration decides where it is not positive. -/
  wobbleFrequency : Float := 0

/-! ### Special values -/

/-- Stands for the value of the point before. -/
def isPrevious (x : Float) : Bool := isNegligible (x - -1.0)

/-- Stands for the default. -/
def isDefault (x : Float) : Bool := isNegligible (x - -2.0)

/-- The value that a point has, given the value of the point before. -/
def resolveSpecial (value : Float) (previous : Option Float) (default : Float) : Float :=
  if isPrevious value then previous.getD default
  else if isDefault value then default
  else value

/-- A point with its special values resolved, given the resolved point before. -/
def FigurePoint.resolve (data : SeamData) (previous : Option FigurePoint) (p : FigurePoint) :
    FigurePoint :=
  { position := p.position
    power := resolveSpecial p.power (previous.map (·.power)) data.power
    ringPower := resolveSpecial p.ringPower (previous.map (·.ringPower)) data.ringPower
    velocity := resolveSpecial p.velocity (previous.map (·.velocity)) data.velocity }

/-- Points with their special values resolved, behind a resolved point. -/
def resolveAfter (data : SeamData) (previous : Option FigurePoint) :
    List FigurePoint → List FigurePoint
  | [] => []
  | p :: rest =>
    let resolved := p.resolve data previous
    resolved :: resolveAfter data (some resolved) rest

def resolvePoints (data : SeamData) (points : List FigurePoint) : List FigurePoint :=
  resolveAfter data none points

end GalvoWeld
