import GalvoWeld.Number.Layout
import GalvoWeld.Setting.Command

/-!
# Lines of the controller's protocol

A write is the line `S <key> <value>`, a read the line `G <key> `, which the controller completes
by the value. Neighbouring writes are packed into one line `S <key1> v1 <key2> v2 ...` while it
stays below 80 bytes.
-/

namespace GalvoWeld.Setting

open Number

/-- A line stays below this number of bytes if it packs several writes. -/
def lineLimit : Nat := 80

/-! ### The lines of one command -/

def flagText (on : Bool) : String := if on then "1" else "0"

/-- The keys of a setting with their values. -/
def entries : Setting → List (String × String)
  | .processJob action => [("JOB_PROC", toString action.code)]
  | .jobSelect job => [("JOB_SEL", toString job)]
  | .operationMode mode => [("SYS_OPMODE", toString mode.code)]
  | .inputMode mode => [("INPUT_MODE", toString mode.code)]
  | .align x y => [("ALIGN_X", Layout.plain.text x), ("ALIGN_Y", Layout.plain.text y)]
  | .laserOnForAlignment on maxPower =>
    [("LSR_ON", flagText on), ("LSR_ON_MAX", Layout.plain.text maxPower)]
  | .calibrationFile name => [("CALIB_FILE", name)]
  | .focalLength length => [("FOCAL_LEN", Layout.plain.text length)]
  | .scanfieldSize size => [("SCANFIELD_SIZE", Layout.plain.text size)]
  | .jumpSpeed speed => [("JUMP_SPEED", Layout.plain.text speed)]
  | .markSpeed speed => [("MARK_SPEED", Layout.plain.text speed)]
  | .positionFeedbackBits bits => [("POS_FB_BITS", toString bits)]
  | .positionCommandBits bits => [("POS_CMD_BITS", toString bits)]
  | .forceEnable enable => [("FORCE_ENABLE", flagText enable)]
  | .sysTs value => [("SYS_TS", toString value)]
  | .laserPower power => [("LSR_POWER", Layout.plain.text power)]

def writeLine (key value : String) : String := "S " ++ key ++ " " ++ value

def readLine (key : String) : String := "G " ++ key ++ " "

def Command.lines (c : Command) : List String :=
  c.setting.entries.map fun (key, value) =>
    if c.writes then writeLine key value else readLine key

/-! ### Packing -/

/-- Does the line write? -/
def isWriteLine (line : String) : Bool := ['S', ' '].isPrefixOf line.toList

/-- The keys and values of a line that writes. -/
def lineBody (line : String) : String := String.ofList (line.toList.drop 2)

/-- The bodies of writes on one line. -/
def packedLine (lines : List String) : String :=
  lines.foldl (fun packed line => packed ++ " " ++ lineBody line) "S"

/-- Do these writes go on one line? -/
def fitsOneLine (lines : List String) : Bool := (packedLine lines).utf8ByteSize < lineLimit

/-- One line for all these writes, if there are any, all of them write and the line stays below
the limit. -/
def mergeLines? (lines : List String) : Option String :=
  if !lines.isEmpty && lines.all isWriteLine && fitsOneLine lines then some (packedLine lines)
  else none

/-- The line of a run of writes: a single one stays as it is. -/
def runLine : List String → List String
  | [] => []
  | [line] => [line]
  | lines => [packedLine lines]

/-- Packs neighbouring writes behind a run of writes that is not closed yet. -/
def packAfter (run : List String) : List String → List String
  | [] => runLine run
  | line :: rest =>
    if isWriteLine line then
      if run.isEmpty || fitsOneLine (run ++ [line]) then packAfter (run ++ [line]) rest
      else runLine run ++ packAfter [line] rest
    else runLine run ++ line :: packAfter [] rest

/-- The lines of commands, neighbouring writes packed. -/
def packedLines (commands : List Command) : List String :=
  packAfter [] (commands.flatMap Command.lines)

end GalvoWeld.Setting
