import GalvoWeld.Card.Lowering
import GalvoWeld.Device.Welder

/-!
# Welding with the scanner card

A weld list is written into the list memory of the card: the jump speed, the wobbling, the contour,
the end of wobbling and the end of the list. The list memory must hold four entries for every weld
point and eight more, with a reserve for the vectors of a free wobble figure.
-/

namespace GalvoWeld

open Wobble (Compensation Setup Shape)

namespace Card

/-- The list that is used. -/
def listNumber : Nat := 1

/-- A speed, two powers and the mark itself. -/
def entriesPerPoint : Nat := 4

/-- The entries around the weld points. -/
def headerEntries : Nat := 8

/-- The entries that are kept free for wobble vectors. -/
def vectorReserve : Nat := 1024

/-- The errors that are reset after a stop: all of them. -/
def allErrors : Nat := 4294967295

def entriesNeeded (points : Nat) : Nat := points * entriesPerPoint + headerEntries

def entriesAvailable (config : Config) : Nat := config.listMemory - vectorReserve

/-- The number of a shape that the card knows. -/
def shapeCode : Shape → Int
  | .ellipse => 0
  | .standingEight => 1
  | .lyingEight => -1

def freeCode : Int := 4

def wobbleOff : Call := .setWobbelMode 0 0 0 0

/-- The wobble frequency of a seam: its own if it is positive. -/
def wobbleFrequency (s : Seam) : Float :=
  if 0.0 < s.data.wobbleFrequency then s.data.wobbleFrequency else s.config.wobbleFrequency

def vectorCalls (calibration : Float) (c : Compensation) : List Call :=
  List.zipWith
    (fun (t, l) (p, r) => .setWobbelVector (t * calibration) (l * calibration) c.divisor p r)
    (c.transversal.zip c.longitudinal) (c.power.zip c.ringPower)

def wobbleCalls (s : Seam) : Setup → List Call
  | .off => [wobbleOff]
  | .basic shape =>
    let calibration := s.config.calibrationFactor
    [.setWobbelMode (positionBits s.data.wobbleAmplitude.transversal calibration).natAbs
      (positionBits s.data.wobbleAmplitude.longitudinal calibration).natAbs
      (wobbleFrequency s) (shapeCode shape)]
  | .free _ =>
    vectorCalls s.config.calibrationFactor s.compensation ++
      [.setWobbelMode 0 0 (wobbleFrequency s) freeCode]

/-- The calls between the opening and the end of a list. -/
def listCalls (s : Seam) (setup : Setup) (contour : List Call) : List Call :=
  .setJumpSpeed (speedBits s.data.jumpSpeed s.config.calibrationFactor) ::
    (wobbleCalls s setup ++ contour ++ (if setup = .off then [] else [wobbleOff]))

end Card

/-- A card and the values it was given last. -/
structure CardDevice where
  card : Card
  memo : Card.Memo

namespace CardDevice

open Card

def fresh : CardDevice := ⟨Card.fresh, {}⟩

/-- Writes a list, if it fits into the list memory and the card does not execute. -/
def lower (s : Seam) (contour : Contour) (setup : Setup) (d : CardDevice) :
    Except Fault Unit × CardDevice :=
  let needed := entriesNeeded (s.weldFigure.elim 0 Figure.size)
  let available := entriesAvailable s.config
  if available < needed then (.error (.tooManyPoints needed available), d)
  else
    match d.card.loadList listNumber 0 with
    | (false, card) => (.error (.listBusy listNumber), { d with card })
    | (true, card) =>
      let lowered := lowerContour s.config.calibrationFactor d.memo contour
      let calls := listCalls s setup lowered.calls.toList
      (.ok (), { card := card.record (calls ++ [.setEndOfList]), memo := lowered.memo })

instance : Device CardDevice where
  lower := fun s contour setup disk d =>
    let (result, d) := lower s contour setup d
    (result, disk, d)
  move := fun config place d =>
    let calibration := config.calibrationFactor
    let call := .gotoXy (positionBits place.x calibration) (positionBits place.y calibration)
    (.ok (), { d with card := d.card.record [call] })
  start := fun d => (.ok (), { d with card := d.card.executeList listNumber })
  abort := fun d =>
    (.ok (), { d with card := d.card.stopExecution.record [.resetError allErrors] })

end CardDevice

end GalvoWeld
