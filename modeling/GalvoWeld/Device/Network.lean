import GalvoWeld.Contour.Plot
import GalvoWeld.Device.Welder
import GalvoWeld.Link.Session

/-!
# Welding with a controller on the network

The settings of a weld go out as protocol lines, the contour as a file of plotter text. Every line
must be acknowledged before the contour is staged and sent. The controller has no wobbling.
-/

namespace GalvoWeld

open Link (Peer Session)

def contourFileName : String := "contour.plt"

/-- Where a contour waits for its transfer: in memory, and in a file if one is named. -/
structure PlotStage where
  file : Option String
  text : String

/-- Stages the text of a contour. A file that cannot be written leaves the old text. -/
def PlotStage.put (stage : PlotStage) (contour : Contour) (disk : Disk) :
    Except Fault Unit × Disk × PlotStage :=
  let text := Plot.contourText contour
  match stage.file with
  | none => (.ok (), disk, { stage with text })
  | some path =>
    match disk.write path text with
    | .error cause => (.error (.unopened path cause), disk, stage)
    | .ok disk => (.ok (), disk, { stage with text })

structure NetworkDevice where
  session : Session
  stage : PlotStage

namespace NetworkDevice

/-- A controller that nothing was sent to. -/
def fresh (config : Config) (peer : Peer) : NetworkDevice :=
  ⟨⟨peer, []⟩, ⟨config.smartMove.debugContourFile, ""⟩⟩

def firstMarkSpeed (s : Seam) : Float :=
  match s.weldFigure.bind (·.points.head?) with
  | some first => resolveSpecial first.velocity none s.data.velocity
  | none => s.data.velocity

def weldSettings (s : Seam) : List Setting :=
  let network := s.config.smartMove
  [.operationMode .marking, .inputMode .ethernet, .markSpeed (firstMarkSpeed s),
    .jumpSpeed s.data.jumpSpeed, .focalLength network.focalLength,
    .scanfieldSize network.scanfieldSize, .calibrationFile network.calibrationFile]

def write (d : NetworkDevice) (settings : List Setting) : Except Fault Unit × NetworkDevice :=
  let (result, session) := d.session.send (settings.map Setting.write)
  (result, { d with session })

/-- Writes the settings of a weld, stages its contour and sends it. -/
def lower (s : Seam) (contour : Contour) (disk : Disk) (d : NetworkDevice) :
    Except Fault Unit × Disk × NetworkDevice :=
  match d.write (weldSettings s) with
  | (.error fault, d) => (.error fault, disk, d)
  | (.ok (), d) =>
    match d.stage.put contour disk with
    | (.error fault, disk, stage) => (.error fault, disk, { d with stage })
    | (.ok (), disk, stage) =>
      let (result, session) := d.session.sendFile contourFileName stage.text
      (result, disk, { session, stage })

instance : Device NetworkDevice where
  lower := fun s contour _ disk d => lower s contour disk d
  move := fun _ place d => d.write [.operationMode .alignment, .align place.x place.y]
  start := fun d => d.write [.processJob .start]
  abort := fun d => d.write [.processJob .stop]

end NetworkDevice

end GalvoWeld
