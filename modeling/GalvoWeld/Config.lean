import GalvoWeld.Fault

/-!
# Configuration

The configuration of a scanner and of the controller behind it, the places of figure files, and
the configuration file. Every field of the file may be missing and then has its default.
-/

namespace GalvoWeld

open Json

/-- The controller that moves the mirrors: a scanner card, or a controller on the network. -/
inductive Controller where
  | rtc6
  | smartMove
deriving DecidableEq, Repr

def Controller.ofName? : String → Option Controller
  | "rtc6" => some .rtc6
  | "smartMove" => some .smartMove
  | _ => none

structure NetworkConfig where
  address : String := "192.168.170.105:32000"
  replyTimeoutMs : Nat := 1000
  /-- The contour is also written to this file. -/
  debugContourFile : Option String := none
  /-- In mm. -/
  focalLength : Float := 340
  /-- In mm. -/
  scanfieldSize : Float := 52
  calibrationFile : String := "calibration.txt"

structure Config where
  controller : Controller := .rtc6
  /-- The root of the figure files. Where it is empty the environment names it. -/
  baseDir : String := ""
  /-- Bits per mm. -/
  calibrationFactor : Float := 4000
  /-- In ms. -/
  laserDelay : Float := 0
  /-- The delay of the laser power in units of 10 µs. -/
  powerDelay : Int := 0
  /-- Entries of the list memory. -/
  listMemory : Nat := 65536
  /-- In mm/s. -/
  jumpSpeed : Float := 1000
  /-- In Hz. -/
  wobbleFrequency : Float := 200
  gateTimeoutMs : Nat := 400
  smartMove : NetworkConfig := {}

/-! ### Places of files -/

def joinPath (directory name : String) : String :=
  if directory = "" ∨ directory.toList.getLast? = some '/' then directory ++ name
  else directory ++ "/" ++ name

/-- The root of the figure files: from the configuration, else from the environment, else the
working directory. -/
def Config.baseDirectory (c : Config) (environment : Option String) : String :=
  if c.baseDir = "" then environment.getD "." else c.baseDir

def wobbleFigurePath (base : String) (number : Nat) : String :=
  joinPath (joinPath (joinPath base "config") "laser_controls")
    ("figureWobble" ++ toString number ++ ".json")

def weldFigurePath (base : String) (number : Nat) : String :=
  joinPath (joinPath (joinPath base "config") "weld_figure")
    ("weldingSeam" ++ toString number ++ ".json")

/-! ### The configuration file -/

/-- The bound of the numbers that are 64 bits wide, `2^64`. -/
def longWordBound : Nat := 18446744073709551616

def NetworkConfig.fields : List (Member NetworkConfig) :=
  [Member.of "address" readString fun c s => { c with address := s },
    Member.of "replyTimeoutMs" (readNat longWordBound) fun c n => { c with replyTimeoutMs := n },
    Member.of "debugContourFile" (readOption readString)
      fun c s => { c with debugContourFile := s },
    Member.of "focalLength" readDouble fun c x => { c with focalLength := x },
    Member.of "scanfieldSize" readDouble fun c x => { c with scanfieldSize := x },
    Member.of "calibrationFile" readString fun c s => { c with calibrationFile := s }]

def Config.fields : List (Member Config) :=
  [Member.of "controller" (readName Controller.ofName?) fun c k => { c with controller := k },
    Member.of "baseDir" readString fun c s => { c with baseDir := s },
    Member.of "calibrationFactor" readDouble fun c x => { c with calibrationFactor := x },
    Member.of "laserDelay" readDouble fun c x => { c with laserDelay := x },
    Member.of "laserPowerDelayCompensation" (readInt Number.minWord Number.maxWord)
      fun c i => { c with powerDelay := i },
    Member.of "listMemory" (readNat longWordBound) fun c n => { c with listMemory := n },
    Member.of "jumpSpeed" readDouble fun c x => { c with jumpSpeed := x },
    Member.of "wobbleFrequency" readDouble fun c x => { c with wobbleFrequency := x },
    Member.of "gateTimeoutMs" (readNat longWordBound) fun c n => { c with gateTimeoutMs := n },
    Member.of "smartMove" (readRecord NetworkConfig.fields {})
      fun c n => { c with smartMove := n }]

def Config.ofDocument (text : String) : Except Flaw Config :=
  readDocument (readRecord Config.fields {}) text

def Config.load (disk : Disk) (path : String) : Except Fault Config :=
  match disk.resolve path with
  | .error cause => .error (.unopened path cause)
  | .ok (.directory _) => .error (.badConfig path .unreadable)
  | .ok (.file text) =>
    match Config.ofDocument text with
    | .ok config => .ok config
    | .error flaw => .error (.badConfig path flaw)

end GalvoWeld
