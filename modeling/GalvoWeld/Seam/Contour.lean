import GalvoWeld.Contour.Command
import GalvoWeld.Seam.Data

/-!
# The contour of a weld figure

The contour jumps to a run-up point before the first weld point, so that the mirrors have gained
speed when the laser answers, and then marks from point to point. Every mark is preceded by its
speed and its powers. In a preview both powers are set to 0 at the beginning and stay there.
-/

namespace GalvoWeld

/-- The commands of one weld point at its place in the field. -/
def markCommands (preview : Bool) (p : FigurePoint) (place : Point) : Contour :=
  .markSpeed p.velocity ::
    ((if preview then [] else [.power (p.power * 100), .ringPower (p.ringPower * 100)]) ++
      [.mark place])

/-- Where the contour of resolved points begins: the run-up point, or the first point where it is
the only one. -/
def startPlace (calibration laserDelay : Float) (offset : Point) (first : FigurePoint) :
    List FigurePoint → Point
  | [] => first.position + offset
  | next :: _ =>
    runUpPoint (first.velocity * laserDelay / 1000) calibration (first.position + offset)
      (next.position + offset)

def contourOfPoints (calibration laserDelay : Float) (offset : Point) (preview : Bool) :
    List FigurePoint → Option Contour
  | [] => none
  | first :: rest =>
    let start := startPlace calibration laserDelay offset first rest
    let off : Contour := if preview then [.power 0, .ringPower 0] else []
    let lead : List FigurePoint := if start == first.position + offset then [] else [first]
    some (.setUp :: .jump start :: (off ++
      (lead ++ rest).flatMap fun p => markCommands preview p (p.position + offset)))

end GalvoWeld
