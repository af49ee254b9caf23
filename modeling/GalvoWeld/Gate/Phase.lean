/-!
# Phases of the readiness gate

A weld starts when the height is compensated, a list is there and the scanner has moved. While the
gate is closed, its phase names the first of these that is missing.
-/

namespace GalvoWeld.Gate

/-- What the gate waits for. -/
inductive Phase where
  | idle
  | heightPending
  | listPending
  | movePending
  | ready
deriving DecidableEq, Repr

def Phase.name : Phase → String
  | .idle => "Idle"
  | .heightPending => "ZPending"
  | .listPending => "ListPending"
  | .movePending => "MovePending"
  | .ready => "Ready"

/-- What can be completed. -/
inductive Task where
  | height
  | list
  /-- The list of an earlier seam is used again. -/
  | contourPrepared
  | move
deriving DecidableEq, Repr

end GalvoWeld.Gate
