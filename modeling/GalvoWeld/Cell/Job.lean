import GalvoWeld.Device.Welder

/-!
# Jobs of a weld cell

A request for a seam is split into three jobs: fill the list, move the scanner to the first point,
start the weld. Each job carries the generation of the gate it was posted for.
-/

namespace GalvoWeld

namespace Cell

/-- Is the laser to be on? -/
inductive RequestKind where
  | weld
  | preview
deriving DecidableEq, Repr

/-- A request to weld one seam. -/
structure Request where
  kind : RequestKind
  data : SeamData
  figure : Figure
  wobbleFile : Option String
  /-- The list of an earlier seam is used again. -/
  contourPrepared : Bool

structure ListJob where
  generation : UInt64
  kind : RequestKind
  data : SeamData
  figure : Figure
  wobbleFile : Option String

structure MoveJob where
  generation : UInt64
  seam : Nat
  target : Point

/-- Start the weld once the gate is open. -/
structure StartJob where
  generation : UInt64
  seam : Nat

/-- What the cell reports. -/
inductive Event where
  | listBuilt (seam : Nat)
  | scannerMoved (seam : Nat)
  | weldingStarted (seam : Nat)
  | fatal (seam : Nat) (fault : Fault)
deriving DecidableEq, Repr

def Request.listJob (r : Request) (generation : UInt64) : ListJob :=
  ⟨generation, r.kind, r.data, r.figure, r.wobbleFile⟩

def Request.moveJob (r : Request) (first : FigurePoint) (generation : UInt64) : MoveJob :=
  ⟨generation, r.data.seam, first.position + r.data.offset⟩

def Request.startJob (r : Request) (generation : UInt64) : StartJob := ⟨generation, r.data.seam⟩

variable {δ : Type} [Device δ]

def loadWobble? (w : Welder δ) : Option String → Except Fault Unit × Welder δ
  | none => (.ok (), w)
  | some path => w.loadWobble path

/-- Fills the list. A wobble figure that cannot be loaded is left out; while the laser is on, a
fatal fault of it ends the job. -/
def fillList (w : Welder δ) (job : ListJob) : Except Fault Unit × Welder δ :=
  match job.kind with
  | .weld =>
    match w.prepare job.data job.figure with
    | (.error fault, w) => (.error fault, w)
    | (.ok (), w) =>
      match loadWobble? w job.wobbleFile with
      | (.error fault, w) => if fault.isFatal then (.error fault, w) else w.buildWeldingList
      | (.ok (), w) => w.buildWeldingList
  | .preview => (loadWobble? w job.wobbleFile).2.buildPreviewList job.data job.figure

end Cell

end GalvoWeld
