import GalvoWeld.Cell.Job
import GalvoWeld.Gate.State

/-!
# A weld cell

Callers and three workers share a welder, the readiness gate, the note which seam is requested, and
one slot for a job per worker. Whatever one of them does without being interrupted is one step; the
state says for each caller and worker which step comes next.
-/

namespace GalvoWeld

namespace Cell

/-- Room for one job of a worker. A new job takes the place of one that was not fetched. -/
structure Slot (α : Type) where
  job : Option α := none
  closed : Bool := false

def Slot.post {α : Type} (s : Slot α) (job : α) : Slot α := { s with job := some job }

def Slot.close {α : Type} (s : Slot α) : Slot α := { s with closed := true }

/-- Where a worker is that fills the list or moves the scanner. -/
inductive Hand (α : Type) where
  /-- At its slot. -/
  | parked
  /-- With a job to do. -/
  | holding (job : α)
  /-- With a result that the gate does not know yet. -/
  | finished (generation : UInt64) (seam : Nat) (result : Except Fault Unit)
  /-- With an event to report. -/
  | reporting (event : Event)
  | gone

/-- Where the worker is that starts the weld. -/
inductive Starter where
  /-- At its slot. -/
  | parked
  /-- At the gate. -/
  | waiting (job : StartJob)
  /-- Past the gate, on its way to the scanner. -/
  | admitted (job : StartJob)
  /-- With an event to report. -/
  | reporting (event : Event)
  | gone

inductive Call where
  | seamStart (seam : Nat)
  | seamEnd
  | request (r : Request)
  | heightDone
  | stopMark
  | shutdown

/-- Where a caller is. -/
inductive Caller where
  /-- The last call has returned. -/
  | returned (result : Except Fault Unit)
  | called (call : Call)
  /-- A seam is cleared: the gate is reset, the scanner and the note are not. -/
  | clearing
  /-- A stop: the gate is reset, the scanner still runs. -/
  | stopping
  /-- A request is noted; the gate is not armed. -/
  | claimed (r : Request) (first : FigurePoint)
  /-- The gate is armed in this generation. -/
  | armed (r : Request) (first : FigurePoint) (generation : UInt64)
  /-- The height of a preview is taken as compensated. -/
  | heightSettled (r : Request) (first : FigurePoint) (generation : UInt64)
  | listPosted (r : Request) (first : FigurePoint) (generation : UInt64)
  | movePosted (r : Request) (generation : UInt64)
  /-- A shutdown: the first slots are closed. -/
  | closedList
  | closedMove
  | closedStart
  /-- A shutdown that waits for the workers to go. -/
  | joining

end Cell

structure Cell (δ : Type) where
  welder : Welder δ
  gate : Gate := {}
  /-- The seam whose request was accepted. -/
  requested : Option Nat := none
  listSlot : Cell.Slot Cell.ListJob := {}
  moveSlot : Cell.Slot Cell.MoveJob := {}
  startSlot : Cell.Slot Cell.StartJob := {}
  lister : Cell.Hand Cell.ListJob := .parked
  mover : Cell.Hand Cell.MoveJob := .parked
  starter : Cell.Starter := .parked
  callers : Nat → Cell.Caller := fun _ => .returned (.ok ())
  events : List Cell.Event := []
  /-- The workers were waited for. -/
  joined : Bool := false

end GalvoWeld
