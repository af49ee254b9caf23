import GalvoWeld.Figure

/-!
# Wobble modes

The laser spot may move on a small figure around the seam: on one of the figures that the scanner
knows, on a free figure from a file, or not at all.
-/

namespace GalvoWeld.Wobble

/-- The figures that the scanner knows. -/
inductive Shape where
  | standingEight
  | ellipse
  | lyingEight
deriving DecidableEq, Repr

/-- The wobbling that is asked for. -/
inductive Mode where
  | off
  | basic (shape : Shape)
  | free
deriving DecidableEq, Repr

def Shape.name : Shape → String
  | .standingEight => "standing-eight"
  | .ellipse => "ellipse"
  | .lyingEight => "lying-eight"

def Mode.name : Mode → String
  | .off => "none"
  | .basic shape => shape.name
  | .free => "free"

def Mode.all : List Mode :=
  [.off, .basic .standingEight, .basic .ellipse, .basic .lyingEight, .free]

/-- The mode of a name. -/
def Mode.ofName? (name : String) : Option Mode := all.find? (·.name = name)

def Mode.unknownMessage (name : String) : String := "Unknown wobble mode '" ++ name ++ "'"

/-- What a device has to set up: nothing, one of its own figures, or a free figure that modulates
these channels. -/
inductive Setup where
  | off
  | basic (shape : Shape)
  | free (modulation : Modulation)
deriving DecidableEq, Repr

/-- Why a free figure is not set up. -/
inductive Fault where
  /-- There is no figure with more than two points. -/
  | invalidFigure
  | nominalPowerZero
  | nominalRingPowerZero
  | tooManySegments (segments limit : Nat)
  | oddFactor (factor : Nat)
  /-- The power would have to be moved by more than the whole figure. -/
  | compensationAbandoned (shift : Int) (segments : Nat)
deriving DecidableEq, Repr

/-- Does the fault end the seam? Where it does not, the seam is welded without wobbling. -/
def Fault.isFatal : Fault → Bool
  | .invalidFigure => false
  | .compensationAbandoned .. => false
  | .nominalPowerZero => true
  | .nominalRingPowerZero => true
  | .tooManySegments .. => true
  | .oddFactor _ => true

def Fault.message : Fault → String
  | .invalidFigure => "wobble figure missing or has fewer than 3 points"
  | .nominalPowerZero => "nominal laser power is zero but port 1 is modulated"
  | .nominalRingPowerZero => "nominal ring power is zero but port 2 is modulated"
  | .tooManySegments segments limit =>
    toString segments ++ " wobble segments exceed the limit of " ++ toString limit
  | .oddFactor factor =>
    "micro vector factor " ++ toString factor ++ " must be even when both ports are modulated"
  | .compensationAbandoned shift segments =>
    "shift " ++ toString shift ++ " exceeds the " ++ toString segments ++ " interpolated segments"

end GalvoWeld.Wobble
