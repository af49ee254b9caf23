import GalvoWeld.Config
import GalvoWeld.Figure.Document
import GalvoWeld.Seam.Contour
import GalvoWeld.Wobble.Compensation

/-!
# The state of a seam

What is known of the seam in work, whatever the device: its data, the weld and wobble figures, what
was decided about wobbling and how far the weld list has come. Every operation gives its result
and the next state, so that a failure shows what it leaves behind.
-/

namespace GalvoWeld

open Wobble (Compensation NominalPowers Setup)

/-- The seam in work. -/
structure Seam where
  config : Config
  stage : ListStage := .idle
  data : SeamData := {}
  weldFigure : Option Figure := none
  wobbleFigure : Option Figure := none
  wobble : Setup := .off
  compensation : Compensation := Compensation.cleared

namespace Seam

def nominal (s : Seam) : NominalPowers := ⟨s.data.power, s.data.ringPower⟩

/-- The first weld point in the field. -/
def startPosition (s : Seam) : Option Point :=
  (s.weldFigure.bind (·.points.head?)).map (·.position + s.data.offset)

def reset (s : Seam) : Seam := { config := s.config }

/-- Takes over the data and the weld figure of a request. Wobbling is decided anew. -/
def prepare (s : Seam) (data : SeamData) (figure : Figure) : Seam :=
  { s with data, weldFigure := some figure, wobble := .off, compensation := Compensation.cleared,
           stage := .prepared }

/-- Attaches or removes a wobble figure. -/
def attachWobble (s : Seam) (figure : Option Figure) : Seam := { s with wobbleFigure := figure }

/-! ### Wobbling -/

/-- Finds divisor and shift of a figure and gives its micro-points. -/
def planWobble (s : Seam) (figure : Figure) (dual : Bool) :
    Except Wobble.Fault (List FigurePoint) × Seam :=
  let (result, compensation) :=
    s.compensation.plan s.nominal s.config.powerDelay figure dual
  (result.map (·.points), { s with compensation })

/-- Rebuilds the wobble vectors for a figure that modulates these channels. -/
def defineVectors (s : Seam) (figure : Figure) (modulation : Modulation) :
    Except Wobble.Fault Unit × Seam :=
  let (result, compensation) :=
    s.compensation.define s.nominal s.config.powerDelay figure modulation
  (result, { s with compensation })

/-- The figure of a free wobbling: the attached one, if it has more than two points. While the
laser is on, a modulated channel needs a nominal power; where both channels are modulated, the
micro-vector factor is even. -/
def freeFigure (s : Seam) : Except Wobble.Fault Figure :=
  match s.wobbleFigure with
  | none => .error .invalidFigure
  | some figure =>
    let modulation := figure.modulation
    if figure.size ≤ 2 then .error .invalidFigure
    else if s.data.mode = .welding && modulation.covers .core && isNegligible s.data.power then
      .error .nominalPowerZero
    else if s.data.mode = .welding && modulation.covers .ring && isNegligible s.data.ringPower then
      .error .nominalRingPowerZero
    else if modulation = .dual ∧ figure.microVectorFactor % 2 ≠ 0 then
      .error (.oddFactor figure.microVectorFactor)
    else .ok figure

/-- Decides what a device has to set up for a mode, and computes the vectors it needs. -/
def defineWobble (s : Seam) (mode : Wobble.Mode) : Except Wobble.Fault Setup × Seam :=
  let s := { s with compensation := Compensation.cleared }
  match mode with
  | .off => (.ok .off, s)
  | .basic shape => (.ok (.basic shape), s)
  | .free =>
    match s.freeFigure with
    | .error fault => (.error fault, s)
    | .ok figure =>
      match s.defineVectors figure figure.modulation with
      | (.error fault, s) => (.error fault, s)
      | (.ok (), s) => (.ok (.free figure.modulation), s)

/-- Decides about wobbling for the mode of the seam. A fault that is not fatal means that there is
none. -/
def resolveWobble (s : Seam) : Except Fault Setup × Seam :=
  match s.defineWobble s.data.wobbleMode with
  | (.ok setup, s) => (.ok setup, { s with wobble := setup })
  | (.error fault, s) =>
    if fault.isFatal then (.error (.wobble fault), s)
    else (.ok .off, { s with compensation := Compensation.cleared, wobble := .off })

/-- Loads a wobble figure. Once the seam is prepared wobbling is decided as well. A file that
cannot be read leaves no wobble figure. -/
def loadWobble (s : Seam) (disk : Disk) (path : String) : Except Fault Unit × Seam :=
  match Figure.load disk path with
  | .error fault => (.error fault, { s with wobbleFigure := none, wobble := .off })
  | .ok figure =>
    let s := { s with wobbleFigure := some figure }
    if s.stage = .prepared then
      match s.resolveWobble with
      | (.error fault, s) => (.error fault, s)
      | (.ok _, s) => (.ok (), { s with stage := .wobbleDefined })
    else (.ok (), s)

/-! ### The contour -/

def contour (s : Seam) : Except Fault Contour :=
  let points := match s.weldFigure with
    | some figure => resolvePoints s.data figure.points
    | none => []
  match contourOfPoints s.config.calibrationFactor s.config.laserDelay s.data.offset
      (s.data.mode = .preview) points with
  | some contour => .ok contour
  | none => .error .noWeldFigure

end Seam

end GalvoWeld
