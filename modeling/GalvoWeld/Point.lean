/-!
# Points of the scan field

Positions and displacements in mm, with the arithmetic of doubles. Two points differ where one of
their coordinates does; a coordinate that is NaN always does.
-/

namespace GalvoWeld

/-- A position or displacement in mm. -/
structure Point where
  x : Float
  y : Float
deriving BEq, Inhabited

namespace Point

def origin : Point := ⟨0, 0⟩

instance : Add Point := ⟨fun p q => ⟨p.x + q.x, p.y + q.y⟩⟩

instance : Sub Point := ⟨fun p q => ⟨p.x - q.x, p.y - q.y⟩⟩

def scale (p : Point) (s : Float) : Point := ⟨p.x * s, p.y * s⟩

def length (p : Point) : Float := (p.x * p.x + p.y * p.y).sqrt

/-- A quarter turn counter-clockwise. -/
def quarterTurn (p : Point) : Point := ⟨-p.y, p.x⟩

/-- The point at the fraction `t` of the way from `p` to `q`. -/
def lerp (p q : Point) (t : Float) : Point :=
  ⟨p.x + (q.x - p.x) * t, p.y + (q.y - p.y) * t⟩

end Point

/-- A magnitude below `10^-9` counts as zero. -/
def isNegligible (x : Float) : Bool := x.abs < 1e-9

/-- The run-up point before `p1`: on the extension of the line from `p2` to `p1`, at `length` from
`p1`. Without a length, a calibration or a direction it is `p1` itself. -/
def runUpPoint (length calibration : Float) (p1 p2 : Point) : Point :=
  if isNegligible length || isNegligible calibration then p1
  else
    let direction := p1 - p2
    let distance := direction.length
    if isNegligible distance then p1 else p1 + direction.scale (length / distance)

end GalvoWeld
