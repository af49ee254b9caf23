import GalvoWeld.Fault
import GalvoWeld.Figure

/-!
# Figure files

A figure file is a JSON record. Only the points of the figure, and the position and power of each,
must be given.
-/

namespace GalvoWeld

open Json

/-- The bound of the numbers that are 32 bits wide, `2^32`. -/
def wordBound : Nat := 4294967296

/-- A point while its record is read. -/
structure PointDraft where
  position : Option Point := none
  power : Option Float := none
  ringPower : Float := 0
  velocity : Float := -1

def PointDraft.fields : List (Member PointDraft) :=
  [Member.of "EndPosition" (readPair readDouble readDouble)
      fun d p => { d with position := some ⟨p.1, p.2⟩ },
    Member.of "Power" readDouble fun d x => { d with power := some x },
    Member.of "RingPower" readDouble fun d x => { d with ringPower := x },
    Member.of "Velocity" readDouble fun d x => { d with velocity := x }]

def readFigurePoint : Reader FigurePoint := fun cs => do
  let (d, rest) ← readRecord PointDraft.fields {} cs
  let position ← required d.position
  let power ← required d.power
  .ok (⟨position, power, d.ringPower, d.velocity⟩, rest)

/-- A figure while its record is read. -/
structure FigureDraft where
  name : String := ""
  id : Nat := 0
  description : String := ""
  microVectorFactor : Nat := 1
  modulationMask : Nat := 1
  points : Option (List FigurePoint) := none

def FigureDraft.fields : List (Member FigureDraft) :=
  [Member.of "Name" readString fun d s => { d with name := s },
    Member.of "ID" (readNat wordBound) fun d n => { d with id := n },
    Member.of "Description" readString fun d s => { d with description := s },
    Member.of "MicroVectorFactor" (readNat wordBound) fun d n => { d with microVectorFactor := n },
    Member.of "PowerModulationMode" (readNat wordBound) fun d n => { d with modulationMask := n },
    Member.of "Figure" (readList readFigurePoint) fun d ps => { d with points := some ps }]

def readFigure : Reader Figure := fun cs => do
  let (d, rest) ← readRecord FigureDraft.fields {} cs
  let points ← required d.points
  .ok (⟨d.name, d.id, d.description, d.microVectorFactor, d.modulationMask, points⟩, rest)

def Figure.ofDocument (text : String) : Except Fault Figure :=
  match readDocument readFigure text with
  | .ok figure => .ok figure
  | .error flaw => .error (.badFigure flaw)

def Figure.load (disk : Disk) (path : String) : Except Fault Figure :=
  match disk.resolve path with
  | .error cause => .error (.unopened path cause)
  | .ok (.directory _) => .error (.badFigure .unreadable)
  | .ok (.file text) => Figure.ofDocument text

end GalvoWeld
