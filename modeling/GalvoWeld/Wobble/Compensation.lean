import GalvoWeld.Wobble.Delay
import GalvoWeld.Wobble.MicroPoints
import GalvoWeld.Wobble.Mode
import GalvoWeld.Wobble.PowerShift

/-!
# The wobble vectors of a free figure

For every segment of a wobble figure the scanner is given a transversal and a longitudinal
displacement and a change of power on each channel. The figure is split into micro-points under the
segment limit, and the powers are moved along it to make up for the delay of the laser.
-/

namespace GalvoWeld.Wobble

structure NominalPowers where
  core : Float
  ring : Float

def NominalPowers.of (nominal : NominalPowers) : PowerChannel → Float
  | .core => nominal.core
  | .ring => nominal.ring

/-- The vectors of a wobble figure, one entry per segment, and what they were computed from. -/
structure Compensation where
  nominal : NominalPowers
  shift : Int
  divisor : Nat
  transversal : List Float
  longitudinal : List Float
  power : List Float
  ringPower : List Float

namespace Compensation

def cleared : Compensation :=
  { nominal := ⟨0, 0⟩, shift := 0, divisor := 0, transversal := [], longitudinal := [],
    power := [], ringPower := [] }

def segments (c : Compensation) : Nat := c.transversal.length

end Compensation

/-- The displacements of the segments between neighbouring points, turned by a quarter. -/
def segmentTurns (points : List FigurePoint) : List Point :=
  List.zipWith (fun p q => (q.position - p.position).quarterTurn) points points.tail

/-- The relative changes of power on a channel over the segments. Figure powers are offsets from the
nominal power; the first segment starts at the nominal power itself. -/
def powerChanges (channel : PowerChannel) (points : List FigurePoint) (shift : Int)
    (nominal : Float) (divisor : Nat) : List Float :=
  let reached := (shiftedPowers channel points shift).map (nominal + ·)
  (List.zipWith (fun new old => relativePower nominal new old divisor) reached
    (nominal :: reached)).take (points.length - 1)

/-! ### Divisor and shift -/

/-- How a figure is split and by how much its powers are moved. -/
structure Plan where
  divisor : Nat
  shift : Int
  points : List FigurePoint

/-- The plan of a figure for a delay, in units of 10 µs. It fails if no divisor brings the figure
under the segment limit, or if the powers would be moved by more than the whole figure. -/
def Plan.of (delay : Int) (figure : Figure) (dual : Bool) : Except Fault Plan :=
  let segments := figure.size - 1
  let divisor := findDivisor segments figure.microVectorFactor dual
  let steps := figure.microVectorFactor / divisor
  let limit := segmentLimit dual
  if limit < segments * steps then .error (.tooManySegments (segments * steps) limit)
  else
    let shift := delayShift delay (shiftResolution divisor)
    let points := microPoints figure.points steps
    let count := points.length - 1
    if count < shift.natAbs then .error (.compensationAbandoned shift count)
    else .ok ⟨divisor, shift, points⟩

namespace Compensation

/-- Takes over a plan. A figure that is abandoned for its shift leaves nominal powers of 0. -/
def plan (c : Compensation) (nominal : NominalPowers) (delay : Int) (figure : Figure)
    (dual : Bool) : Except Fault Plan × Compensation :=
  match Plan.of delay figure dual with
  | .ok p => (.ok p, { c with nominal, shift := p.shift, divisor := p.divisor })
  | .error (.compensationAbandoned shift count) =>
    (.error (.compensationAbandoned shift count), { c with nominal := ⟨0, 0⟩ })
  | .error fault => (.error fault, c)

/-- The changes of power on a channel: zeros where the channel is not modulated. -/
def changesOn (p : Plan) (nominal : NominalPowers) (modulation : Modulation)
    (channel : PowerChannel) : List Float :=
  if modulation.covers channel then
    powerChanges channel p.points p.shift (nominal.of channel) p.divisor
  else List.replicate (p.points.length - 1) 0

/-- Rebuilds all vectors for a figure. -/
def define (c : Compensation) (nominal : NominalPowers) (delay : Int) (figure : Figure)
    (modulation : Modulation) : Except Fault Unit × Compensation :=
  match c.plan nominal delay figure (modulation = .dual) with
  | (.error fault, c) => (.error fault, c)
  | (.ok p, c) =>
    let turns := segmentTurns p.points
    (.ok (), { c with
      transversal := turns.map (·.x)
      longitudinal := turns.map (·.y)
      power := changesOn p nominal modulation .core
      ringPower := changesOn p nominal modulation .ring })

end Compensation

end GalvoWeld.Wobble
