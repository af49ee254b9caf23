import GalvoWeld.Cell.State

/-!
# Steps of a weld cell

Every step is something that a caller or a worker does without interruption: a look at the gate, at
a slot, at the note of the request, or an operation on the scanner. `Cell.step` says which steps
are possible and what they do; a run of the cell is a sequence of possible steps in any order.
-/

namespace GalvoWeld.Cell

open Gate (Task)

/-- Who does the next step. -/
inductive Label where
  /-- A caller begins a call. -/
  | call (caller : Nat) (call : Call)
  /-- A caller goes on with its call. -/
  | advance (caller : Nat)
  | lister
  | mover
  | starter
  /-- The time is up for the starter at the gate. -/
  | timeout

variable {δ : Type} [Device δ]

def setCaller (c : Cell δ) (i : Nat) (place : Caller) : Cell δ :=
  { c with callers := fun j => if j = i then place else c.callers j }

/-! ### Callers -/

def beginCall (c : Cell δ) (i : Nat) : Call → Cell δ
  | .seamStart _ => setCaller { c with gate := c.gate.reset } i .clearing
  | .seamEnd => setCaller { c with gate := c.gate.reset } i .clearing
  | .stopMark => setCaller { c with gate := c.gate.reset } i .stopping
  | .heightDone => setCaller { c with gate := c.gate.complete .height } i (.returned (.ok ()))
  | .request r =>
    match r.figure.points with
    | [] => setCaller c i (.returned (.error .noWeldFigure))
    | first :: _ =>
      match c.requested with
      | some seam => setCaller c i (.returned (.error (.alreadyRequested seam)))
      | none => setCaller { c with requested := some r.data.seam } i (.claimed r first)
  | .shutdown =>
    if c.joined then setCaller c i (.returned (.ok ()))
    else setCaller { c with listSlot := c.listSlot.close } i .closedList

def allGone (c : Cell δ) : Bool :=
  match c.lister, c.mover, c.starter with
  | .gone, .gone, .gone => true
  | _, _, _ => false

def advance? (c : Cell δ) (i : Nat) : Option (Cell δ) :=
  match c.callers i with
  | .returned _ => none
  | .called call => some (beginCall c i call)
  | .clearing =>
    some (setCaller { c with welder := c.welder.resetSeam, requested := none } i
      (.returned (.ok ())))
  | .stopping =>
    let (result, welder) := c.welder.stopMark
    some (setCaller { c with welder } i (.returned result))
  | .claimed r first =>
    let gate := c.gate.arm r.contourPrepared
    some (setCaller { c with gate } i (.armed r first gate.generation))
  | .armed r first generation =>
    let gate := match r.kind with
      | .preview => (c.gate.completeIn generation .height).2
      | .weld => c.gate
    some (setCaller { c with gate } i (.heightSettled r first generation))
  | .heightSettled r first generation =>
    let listSlot := if r.contourPrepared then c.listSlot
      else c.listSlot.post (r.listJob generation)
    some (setCaller { c with listSlot } i (.listPosted r first generation))
  | .listPosted r first generation =>
    let moveSlot := c.moveSlot.post (r.moveJob first generation)
    some (setCaller { c with moveSlot } i (.movePosted r generation))
  | .movePosted r generation =>
    let startSlot := c.startSlot.post (r.startJob generation)
    some (setCaller { c with startSlot } i (.returned (.ok ())))
  | .closedList => some (setCaller { c with moveSlot := c.moveSlot.close } i .closedMove)
  | .closedMove => some (setCaller { c with startSlot := c.startSlot.close } i .closedStart)
  | .closedStart => some (setCaller { c with gate := c.gate.cancel } i .joining)
  | .joining =>
    if allGone c then some (setCaller { c with joined := true } i (.returned (.ok ()))) else none

/-! ### Workers -/

/-- Fetches the job of a slot: where the worker is then, and the slot. -/
def fetch? {α : Type} (s : Slot α) : Option (Hand α × Slot α) :=
  if s.closed then some (.gone, s)
  else s.job.map fun job => (.holding job, { s with job := none })

/-- Tells the gate of a result: a task done, or a seam abandoned. The event is reported next. -/
def settle (gate : Gate) (generation : UInt64) (seam : Nat) (task : Task) (success : Event) :
    Except Fault Unit → Gate × Event
  | .ok () => ((gate.completeIn generation task).2, success)
  | .error fault => (gate.resetIn generation, .fatal seam fault)

def listerStep? (c : Cell δ) : Option (Cell δ) :=
  match c.lister with
  | .parked => (fetch? c.listSlot).map fun (lister, listSlot) => { c with lister, listSlot }
  | .holding job =>
    let (result, welder) := fillList c.welder job
    some { c with welder, lister := .finished job.generation job.data.seam result }
  | .finished generation seam result =>
    let (gate, event) := settle c.gate generation seam .list (.listBuilt seam) result
    some { c with gate, lister := .reporting event }
  | .reporting event => some { c with events := c.events ++ [event], lister := .parked }
  | .gone => none

def moverStep? (c : Cell δ) : Option (Cell δ) :=
  match c.mover with
  | .parked => (fetch? c.moveSlot).map fun (mover, moveSlot) => { c with mover, moveSlot }
  | .holding job =>
    let (result, welder) := c.welder.moveTo job.target
    some { c with welder, mover := .finished job.generation job.seam result }
  | .finished generation seam result =>
    let (gate, event) := settle c.gate generation seam .move (.scannerMoved seam) result
    some { c with gate, mover := .reporting event }
  | .reporting event => some { c with events := c.events ++ [event], mover := .parked }
  | .gone => none

/-- Where the starter goes when its job ends with a fault: home at a shutdown, back to its slot
if the seam was abandoned, and else to report. -/
def afterFault (seam : Nat) : Fault → Starter
  | .shuttingDown => .gone
  | .gateAborted => .parked
  | fault => .reporting (.fatal seam fault)

/-- The starter at the gate once its waiting ends. -/
def leaveGate (c : Cell δ) (job : StartJob) : Cell δ :=
  let timeout := c.welder.seam.config.gateTimeoutMs
  match c.gate.outcome job.generation timeout with
  | .ok () => { c with starter := .admitted job }
  | .error fault => { c with starter := afterFault job.seam fault }

def starterStep? (c : Cell δ) : Option (Cell δ) :=
  match c.starter with
  | .parked =>
    if c.startSlot.closed then some { c with starter := .gone }
    else c.startSlot.job.map fun job =>
      { c with starter := .waiting job, startSlot := { c.startSlot with job := none } }
  | .waiting job => if c.gate.holds job.generation then none else some (leaveGate c job)
  | .admitted job =>
    let (result, welder) := c.welder.startMark
    let starter := match result with
      | .ok () => .reporting (.weldingStarted job.seam)
      | .error fault => afterFault job.seam fault
    some { c with welder, starter }
  | .reporting event => some { c with events := c.events ++ [event], starter := .parked }
  | .gone => none

/-- The time is up for the starter if it is still held at the gate. -/
def timeoutStep? (c : Cell δ) : Option (Cell δ) :=
  match c.starter with
  | .waiting job => if c.gate.holds job.generation then some (leaveGate c job) else none
  | _ => none

/-! ### Steps and runs -/

/-- The state after a step, if the step is possible. -/
def step (c : Cell δ) : Label → Option (Cell δ)
  | .call i call =>
    match c.callers i with
    | .returned _ => some (setCaller c i (.called call))
    | _ => none
  | .advance i => advance? c i
  | .lister => listerStep? c
  | .mover => moverStep? c
  | .starter => starterStep? c
  | .timeout => timeoutStep? c

/-- The state after a sequence of steps, if each is possible in its turn. -/
def run (c : Cell δ) : List Label → Option (Cell δ)
  | [] => some c
  | label :: rest => (step c label).bind fun c => run c rest

end GalvoWeld.Cell
