import GalvoWeld.Point

/-!
# Figures

A figure is a sequence of points with the power of the two laser channels and a velocity at each.
Weld figures give absolute powers, wobble figures offsets from the nominal power; a wobble figure
also says into how many micro-vectors a segment is split and which power channels it modulates.
-/

namespace GalvoWeld

/-- One point of a figure. The segment that ends here is welded with its powers and velocity. -/
structure FigurePoint where
  position : Point
  power : Float
  ringPower : Float
  velocity : Float
deriving BEq, Inhabited

/-- The point at the fraction `t` of the way from `p` to `q`, in position and in both powers. The
velocity is that of `p`. -/
def FigurePoint.lerp (p q : FigurePoint) (t : Float) : FigurePoint :=
  { position := p.position.lerp q.position t
    power := p.power + (q.power - p.power) * t
    ringPower := p.ringPower + (q.ringPower - p.ringPower) * t
    velocity := p.velocity }

/-- One of the two laser powers: that of the core of the beam, or of the ring around it. -/
inductive PowerChannel where
  | core
  | ring
deriving DecidableEq, Repr

def PowerChannel.value : PowerChannel → FigurePoint → Float
  | .core, p => p.power
  | .ring, p => p.ringPower

/-- The power channels that a wobble figure modulates: one of them, or both. -/
inductive Modulation where
  | single (channel : PowerChannel)
  | dual
deriving DecidableEq, Repr

def Modulation.covers : Modulation → PowerChannel → Bool
  | .single channel, p => channel = p
  | .dual, _ => true

/-- The modulated channel, the core where both are. -/
def Modulation.firstChannel : Modulation → PowerChannel
  | .single channel => channel
  | .dual => .core

/-- The modulated channels of a bit mask: 1 is the core, 2 the ring; without either bit it is the
core. -/
def Modulation.ofMask (mask : Nat) : Modulation :=
  match mask.testBit 0, mask.testBit 1 with
  | true, true => .dual
  | false, true => .single .ring
  | _, _ => .single .core

structure Figure where
  name : String
  id : Nat
  description : String
  /-- The micro-vectors of one segment. -/
  microVectorFactor : Nat
  /-- The bit mask of modulated channels. -/
  modulationMask : Nat
  points : List FigurePoint

/-- A figure of these points that is not split and modulates the core channel. -/
def Figure.ofPoints (points : List FigurePoint) : Figure :=
  { name := "", id := 0, description := "", microVectorFactor := 1, modulationMask := 1, points }

def Figure.modulation (f : Figure) : Modulation := Modulation.ofMask f.modulationMask

def Figure.size (f : Figure) : Nat := f.points.length

end GalvoWeld
