import GalvoWeld.Disk
import GalvoWeld.Gate.Phase
import GalvoWeld.Json.Reader
import GalvoWeld.Seam.Stage
import GalvoWeld.Wobble.Mode

/-!
# Faults

Everything that can go wrong on the way from a figure to a started weld, with its words for the
operator. A fatal fault ends the seam; with any other the seam goes on without what failed.
-/

namespace GalvoWeld

/-- The three workers of a weld cell. -/
inductive Worker where
  | listFill
  | scannerMove
  | startWeld
deriving DecidableEq, Repr

def Worker.name : Worker → String
  | .listFill => "list-fill"
  | .scannerMove => "scanner-move"
  | .startWeld => "start-weld"

inductive Fault where
  | unopened (path : String) (cause : Disk.Cause)
  | badConfig (path : String) (flaw : Json.Flaw)
  | badFigure (flaw : Json.Flaw)
  | wobble (fault : Wobble.Fault)
  | noWeldFigure
  /-- A list is built that was not prepared. -/
  | outOfOrder (stage : ListStage)
  | listBusy (list : Nat)
  | tooManyPoints (needed capacity : Nat)
  | connection (address cause : String)
  | transport (cause : String)
  | unexpectedReply (command reply : String)
  | nonNumericReply (command reply : String)
  | gateTimeout (waitedMs : Nat) (phase : Gate.Phase)
  | alreadyRequested (seam : Nat)
  | gateAborted
  | workerNotStarted (worker : Worker) (cause : String)
  | shuttingDown
deriving DecidableEq, Repr

/-- A time span of whole milliseconds: in milliseconds below one second, else in seconds without
zeros at the end. -/
def durationText (ms : Nat) : String :=
  if ms = 0 then "0ns"
  else if ms < 1000 then toString ms ++ "ms"
  else
    let places := (toString (1000 + ms % 1000)).toList.drop 1
    let kept := (places.reverse.dropWhile (· = '0')).reverse
    toString (ms / 1000) ++ (if kept.isEmpty then "" else "." ++ String.ofList kept) ++ "s"

namespace Fault

def isFatal : Fault → Bool
  | unopened .. => false
  | badConfig .. => false
  | badFigure _ => false
  | wobble fault => fault.isFatal
  | noWeldFigure => true
  | outOfOrder _ => true
  | listBusy _ => true
  | tooManyPoints .. => true
  | connection .. => true
  | transport _ => true
  | unexpectedReply .. => true
  | nonNumericReply .. => true
  | gateTimeout .. => true
  | alreadyRequested _ => false
  | gateAborted => false
  | workerNotStarted .. => true
  | shuttingDown => false

def message : Fault → String
  | unopened path cause => "Failed to open " ++ path ++ ": " ++ cause.message
  | badConfig path flaw => "Failed to parse " ++ path ++ ": " ++ flaw.message
  | badFigure flaw => "Failed to parse figure: " ++ flaw.message
  | wobble fault => fault.message
  | noWeldFigure => "no weld figure loaded"
  | outOfOrder stage => "build_welding_list not allowed in state " ++ stage.name
  | listBusy list => "list " ++ toString list ++ " is still executing"
  | tooManyPoints needed capacity =>
    "contour needs " ++ toString needed ++ " list entries, list memory holds " ++
      toString capacity
  | connection address cause => "connection to " ++ address ++ " failed: " ++ cause
  | transport cause => "transport error: " ++ cause
  | unexpectedReply command reply =>
    "unexpected reply to '" ++ command ++ "': '" ++ reply ++ "'"
  | nonNumericReply command reply =>
    "non-numeric reply to '" ++ command ++ "': '" ++ reply ++ "'"
  | gateTimeout waitedMs phase =>
    "start welding not ready after " ++ durationText waitedMs ++ ", gate in phase " ++ phase.name
  | alreadyRequested seam => "a request for seam " ++ toString seam ++ " is already in flight"
  | gateAborted => "seam aborted before start welding was ready"
  | workerNotStarted worker cause =>
    "failed to start the " ++ worker.name ++ " worker: " ++ cause
  | shuttingDown => "orchestrator is shutting down"

end Fault

end GalvoWeld
