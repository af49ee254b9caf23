import GalvoWeld.Point

/-!
# Contours

A contour tells a device point by point what to do. It knows positions in mm, powers in percent
and speeds in mm/s, and nothing of any device.
-/

namespace GalvoWeld

inductive ContourCommand where
  | setUp
  /-- Move with the laser on. -/
  | mark (position : Point)
  /-- Move with the laser off. -/
  | jump (position : Point)
  | power (percent : Float)
  | ringPower (percent : Float)
  | markSpeed (speed : Float)

abbrev Contour := List ContourCommand

end GalvoWeld
