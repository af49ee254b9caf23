import GalvoWeld.Device.Card
import GalvoWeld.Device.Network
import GalvoWeld.DryRun.Listing
import GalvoWeld.DryRun.Options

/-!
# Dry runs

A dry run compiles one seam for a device that only takes notes, and prints what the device was
given: card calls, or protocol lines and contour text. Every failure is printed as a line and ends
the run.
-/

namespace GalvoWeld.DryRun

/-- What a run prints, and the files as it leaves them. -/
structure Output where
  text : String
  disk : Disk

def line (text : String) : String := text ++ "\n"

/-! ### The seam of a command line -/

def floatFaultText (text : String) : String :=
  if text = "" then "cannot parse float from empty string" else "invalid float literal"

def numberOption (g : Given) (name : String) (default : Float) : Except String Float :=
  match g.value? name with
  | none => .ok default
  | some text =>
    match Number.readFloat? text.toList with
    | some x => .ok x
    | none => .error ("Invalid " ++ name ++ ": " ++ floatFaultText text)

/-- A power from the options, from 0 to 1. -/
def powerOption (g : Given) (name title : String) (default : Float) : Except String Float := do
  let x ← numberOption g name default
  if 0.0 ≤ x && x ≤ 1.0 then .ok x else .error ("Invalid " ++ title ++ ", must be 0 - 1")

def modeOption (g : Given) : Except String Wobble.Mode :=
  match g.value? "wobble-mode" with
  | none => .ok .off
  | some name =>
    match Wobble.Mode.ofName? name with
    | some mode => .ok mode
    | none => .error ("Invalid wobble-mode: " ++ Wobble.Mode.unknownMessage name)

/-- The configuration, with the controller that the options ask for. -/
def configOption (g : Given) (disk : Disk) : Except String Config := do
  let config ← match g.value? "config" with
    | none => pure {}
    | some path => (Config.load disk path).mapError Fault.message
  match g.value? "backend" with
  | none => .ok config
  | some "rtc6" => .ok { config with controller := .rtc6 }
  | some "smartmove" => .ok { config with controller := .smartMove }
  | some name => .error ("Unknown backend '" ++ name ++ "'")

/-- The seam data that the options ask for. -/
def dataOption (g : Given) (config : Config) : Except String SeamData := do
  let defaults : SeamData := {}
  let wobbleMode ← modeOption g
  let power ← powerOption g "power" "power" defaults.power
  let ringPower ← powerOption g "ring-power" "ring power" defaults.ringPower
  let velocity ← numberOption g "speed" defaults.velocity
  .ok { defaults with
    seam := 1
    mode := if g.has "preview" then .preview else .welding
    wobbleMode, power, ringPower, velocity
    jumpSpeed := config.jumpSpeed
    wobbleFrequency := config.wobbleFrequency }

/-! ### Compiling -/

variable {δ : Type} [Device δ]

/-- Loads the wobble figure, if one is named. A fault that is not fatal only drops the wobbling and
is noted. -/
def loadWobble (w : Welder δ) : Option String → Except Fault (List Fault) × Welder δ
  | none => (.ok [], w)
  | some path =>
    match w.loadWobble path with
    | (.ok (), w) => (.ok [], w)
    | (.error fault, w) => if fault.isFatal then (.error fault, w) else (.ok [fault], w)

/-- Compiles the seam: the faults that did not end it, and the result. -/
def compile (w : Welder δ) (data : SeamData) (figure : Figure) (wobbleFile : Option String) :
    List Fault × Except Fault Unit × Welder δ :=
  match data.mode with
  | .preview =>
    match loadWobble w wobbleFile with
    | (.error fault, w) => ([], .error fault, w)
    | (.ok notes, w) => (notes, w.buildPreviewList data figure)
  | .welding =>
    match w.prepare data figure with
    | (.error fault, w) => ([], .error fault, w)
    | (.ok (), w) =>
      match loadWobble w wobbleFile with
      | (.error fault, w) => ([], .error fault, w)
      | (.ok notes, w) => (notes, w.buildWeldingList)

/-- The line about a fault that only drops the wobbling. -/
def noteLine (fault : Fault) : String :=
  line ("Continuing without wobble figure: " ++ fault.message)

/-- Compiles the seam and prints what the device was given. -/
def compileAndPrint (w : Welder δ) (data : SeamData) (figure : Figure)
    (wobbleFile : Option String) (listing : δ → String) : Output :=
  match compile w data figure wobbleFile with
  | (notes, result, w) =>
    let noteLines := String.join (notes.map noteLine)
    match result with
    | .error fault => ⟨noteLines ++ line fault.message, w.disk⟩
    | .ok () => ⟨noteLines ++ listing w.device, w.disk⟩

/-- The calls of a card, one on each line. -/
def cardListing (d : CardDevice) : String :=
  String.join (d.card.calls.map fun call => line (listCall call))

/-- The lines to a controller, and then each file under its name. -/
def networkListing (d : NetworkDevice) : String :=
  String.join (d.session.lines.map line) ++
    String.join (d.session.files.map fun (name, text) => line ("--- " ++ name) ++ text)

/-! ### The program -/

/-- A dry run for what the command line gives. -/
def runGiven (g : Given) (disk : Disk) : Except String Output := do
  let some path := g.free.head? | .error "No weld figure file"
  let config ← configOption g disk
  let figure ← (Figure.load disk path).mapError Fault.message
  let data ← dataOption g config
  let wobbleFile := g.value? "wobble"
  match config.controller with
  | .rtc6 =>
    .ok (compileAndPrint (Welder.create config CardDevice.fresh disk) data figure wobbleFile
      cardListing)
  | .smartMove =>
    let device := NetworkDevice.fresh config (Link.Peer.rehearsal [] none)
    .ok (compileAndPrint (Welder.create config device disk) data figure wobbleFile networkListing)

/-- The program: what it prints for its arguments, and the files as it leaves them. -/
def run (program : String) (arguments : List String) (disk : Disk) : Output :=
  match parseArguments arguments with
  | .error fault => ⟨line fault.message, disk⟩
  | .ok g =>
    if g.has "help" then ⟨helpText program, disk⟩
    else
      match runGiven g disk with
      | .error text => ⟨line text, disk⟩
      | .ok output => output

/-- The files that a run may read. -/
def filesToRead (arguments : List String) : List String :=
  match parseArguments arguments with
  | .error _ => []
  | .ok g => g.free.take 1 ++ (g.value? "config").toList ++ (g.value? "wobble").toList

/-- The directories that a run may write to, given the files it may read. -/
def directoriesToKnow (arguments : List String) (disk : Disk) : List String :=
  match parseArguments arguments with
  | .error _ => []
  | .ok g =>
    match configOption g disk with
    | .error _ => []
    | .ok config =>
      config.smartMove.debugContourFile.toList.map fun path =>
        Disk.pathOf (Disk.namesOf path).dropLast

end GalvoWeld.DryRun
