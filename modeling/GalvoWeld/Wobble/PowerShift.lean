import GalvoWeld.Figure

/-!
# Power values moved along a wobble figure

A wobble figure is closed: its last point stands for its first. The power values of one channel are
rotated along the figure, and the change of power over a segment is given relative to the nominal
power.
-/

namespace GalvoWeld.Wobble

/-- The change of power per micro-vector relative to the nominal power, within `[-1, 1]`. Without
a nominal power or micro-vectors it is 0. -/
def relativePower (nominal new old : Float) (factor : Nat) : Float :=
  if isNegligible nominal || factor = 0 then 0
  else
    let change := (new - old) / (nominal * Float.ofNat factor)
    if change < -1.0 then -1.0 else if 1.0 < change then 1.0 else change

/-- The power values of one channel, rotated by `shift` points. The last point closes the figure, so
its value is dropped and the first value of the rotated list is appended in its place. -/
def shiftedPowers (channel : PowerChannel) (points : List FigurePoint) (shift : Int) : List Float :=
  let values := points.map channel.value
  let loop := values.dropLast
  if loop.isEmpty then values
  else
    let rotated := loop.rotateLeft (shift % (loop.length : Int)).toNat
    rotated ++ rotated.take 1

end GalvoWeld.Wobble
