/-!
# Stages of a weld list

A weld list is prepared, may get a wobble figure, is built and started.
-/

namespace GalvoWeld

/-- How far the weld list of a seam has come. -/
inductive ListStage where
  | idle
  | prepared
  | wobbleDefined
  | built
  | dispatched
deriving DecidableEq, Repr

def ListStage.name : ListStage → String
  | .idle => "Idle"
  | .prepared => "SpeedsAndOffsetsSet"
  | .wobbleDefined => "WobbleDefined"
  | .built => "ListBuilt"
  | .dispatched => "Dispatched"

end GalvoWeld
