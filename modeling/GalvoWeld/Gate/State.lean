import GalvoWeld.Fault

/-!
# The readiness gate

The gate collects what must be done before a weld starts. Arming and resetting it begin a new
generation, and work done for an older generation does not count. Whoever waits at the gate waits
for one generation.
-/

namespace GalvoWeld

open Gate (Phase Task)

/-- The readiness gate. Generations are counted modulo `2^64`. -/
structure Gate where
  generation : UInt64 := 0
  armed : Bool := false
  heightDone : Bool := false
  listDone : Bool := false
  contourPrepared : Bool := false
  moveDone : Bool := false
  cancelled : Bool := false
deriving DecidableEq, Repr

namespace Gate

/-- The first thing that is missing. -/
def phase (g : Gate) : Phase :=
  if !g.armed then .idle
  else if !g.heightDone then .heightPending
  else if !(g.listDone || g.contourPrepared) then .listPending
  else if !g.moveDone then .movePending
  else .ready

/-- May the weld start? -/
def isReady (g : Gate) : Bool := g.phase = .ready

/-- Notes that a task is done, in the present generation. -/
def complete (g : Gate) : Task → Gate
  | .height => { g with heightDone := true }
  | .list => { g with listDone := true }
  | .contourPrepared => { g with contourPrepared := true }
  | .move => { g with moveDone := true }

/-- Begins a new generation in which nothing is done. -/
def restart (g : Gate) (armed contourPrepared : Bool) : Gate :=
  { generation := g.generation + 1, armed, contourPrepared, cancelled := g.cancelled }

/-- Begins a new seam. Its list may be that of an earlier seam. -/
def arm (g : Gate) (contourPrepared : Bool) : Gate := g.restart true contourPrepared

/-- Abandons the seam. -/
def reset (g : Gate) : Gate := g.restart false false

/-- Notes that a task is done if the gate is still in this generation. -/
def completeIn (g : Gate) (generation : UInt64) (task : Task) : Bool × Gate :=
  if g.generation = generation then (true, g.complete task) else (false, g)

/-- Abandons the seam if the gate is still in this generation. -/
def resetIn (g : Gate) (generation : UInt64) : Gate :=
  if g.generation = generation then g.reset else g

/-- Sends everybody home who waits or will wait. -/
def cancel (g : Gate) : Gate := { g with cancelled := true }

/-- Must somebody who waits for this generation keep waiting? -/
def holds (g : Gate) (generation : UInt64) : Bool :=
  !g.cancelled && g.armed && g.generation = generation && !g.isReady

/-- What waiting for this generation ends with, once it ends: the gate no longer holds, or the
time is up. -/
def outcome (g : Gate) (generation : UInt64) (waitedMs : Nat) : Except Fault Unit :=
  if g.cancelled then .error .shuttingDown
  else if g.generation ≠ generation then .error .gateAborted
  else if g.isReady then .ok ()
  else if g.armed then .error (.gateTimeout waitedMs g.phase)
  else .error .gateAborted

end Gate

end GalvoWeld
