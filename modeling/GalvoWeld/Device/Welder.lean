import GalvoWeld.Seam.State

/-!
# Welders

A welder is a seam in work and the device that welds it. The device takes a compiled contour with
the wobbling to set up, moves, starts and stops; everything else is the same for all devices. The
working directory belongs to the welder, since figures are read from it and a device may write to
it.
-/

namespace GalvoWeld

/-- What a device can do. Every operation gives its result and the next state. -/
class Device (δ : Type) where
  /-- Takes over a contour, with the wobbling to set up. -/
  lower : Seam → Contour → Wobble.Setup → Disk → δ → Except Fault Unit × Disk × δ
  /-- Moves to a place in the field at once. -/
  move : Config → Point → δ → Except Fault Unit × δ
  /-- Starts what it has taken over last. -/
  start : δ → Except Fault Unit × δ
  /-- Stops at once. Does not depend on the seam. -/
  abort : δ → Except Fault Unit × δ

/-- A seam in work, the device that welds it and the working directory. -/
structure Welder (δ : Type) where
  seam : Seam
  device : δ
  disk : Disk

namespace Welder

variable {δ : Type} [Device δ]

def create (config : Config) (device : δ) (disk : Disk) : Welder δ := ⟨{ config }, device, disk⟩

def buildList (w : Welder δ) (contour : Contour) (setup : Wobble.Setup) :
    Except Fault Unit × Welder δ :=
  let (result, disk, device) := Device.lower w.seam contour setup w.disk w.device
  (result, { w with disk, device })

/-- Takes over a request, if it has a weld figure. -/
def prepare (w : Welder δ) (data : SeamData) (figure : Figure) : Except Fault Unit × Welder δ :=
  if figure.points.isEmpty then (.error .noWeldFigure, w)
  else (.ok (), { w with seam := w.seam.prepare data figure })

def attachWobble (w : Welder δ) (figure : Option Figure) : Welder δ :=
  { w with seam := w.seam.attachWobble figure }

def loadWobble (w : Welder δ) (path : String) : Except Fault Unit × Welder δ :=
  let (result, seam) := w.seam.loadWobble w.disk path
  (result, { w with seam })

/-- Compiles the contour, hands it to the device and notes that the list is built. -/
def compile (w : Welder δ) (setup : Wobble.Setup) : Except Fault Unit × Welder δ :=
  match w.seam.contour with
  | .error fault => (.error fault, w)
  | .ok contour =>
    match w.buildList contour setup with
    | (.error fault, w) => (.error fault, w)
    | (.ok (), w) => (.ok (), { w with seam := { w.seam with stage := .built } })

/-- Builds the list of a prepared seam. Wobbling is decided here unless it is already. -/
def buildWeldingList (w : Welder δ) : Except Fault Unit × Welder δ :=
  match w.seam.stage with
  | .prepared =>
    match w.seam.resolveWobble with
    | (.error fault, seam) => (.error fault, { w with seam })
    | (.ok setup, seam) => compile { w with seam } setup
  | .wobbleDefined => w.compile w.seam.wobble
  | stage => (.error (.outOfOrder stage), w)

/-- Builds a list with the laser off, at any stage. -/
def buildPreviewList (w : Welder δ) (data : SeamData) (figure : Figure) :
    Except Fault Unit × Welder δ :=
  match (w.seam.prepare { data with mode := .preview } figure).resolveWobble with
  | (.error fault, seam) => (.error fault, { w with seam })
  | (.ok setup, seam) => compile { w with seam } setup

def resetSeam (w : Welder δ) : Welder δ := { w with seam := w.seam.reset }

def moveTo (w : Welder δ) (place : Point) : Except Fault Unit × Welder δ :=
  let (result, device) := Device.move w.seam.config place w.device
  (result, { w with device })

/-- Starts the list. A list that was built is then dispatched. -/
def startMark (w : Welder δ) : Except Fault Unit × Welder δ :=
  match Device.start w.device with
  | (.error fault, device) => (.error fault, { w with device })
  | (.ok (), device) =>
    let stage := if w.seam.stage = .built then .dispatched else w.seam.stage
    (.ok (), { w with device, seam := { w.seam with stage } })

def stopMark (w : Welder δ) : Except Fault Unit × Welder δ :=
  let (result, device) := Device.abort w.device
  (result, { w with device })

end Welder

end GalvoWeld
