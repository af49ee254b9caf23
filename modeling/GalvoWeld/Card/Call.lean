/-!
# The scanner card

The calls that an RTC6 scanner card takes, and a card that remembers them. Positions are in bits,
speeds in bits per ms, powers are 12 bit values of the analog outputs. A card that executes its
list refuses to open one for writing.
-/

namespace GalvoWeld

inductive Card.Call where
  | loadList (list position : Nat)
  | setEndOfList
  | executeList (list : Nat)
  | jumpAbs (x y : Int)
  | markAbs (x y : Int)
  | setLaserPower (channel value : Nat)
  | setMarkSpeed (speed : Float)
  | setJumpSpeed (speed : Float)
  | setWobbelMode (transversal longitudinal : Nat) (frequency : Float) (code : Int)
  | setWobbelVector (transversal longitudinal : Float) (period : Nat) (power ringPower : Float)
  | gotoXy (x y : Int)
  | stopExecution
  | resetError (code : Nat)

/-- A card: the calls it has taken, and whether it executes its list. -/
structure Card where
  calls : List Card.Call
  executing : Bool

namespace Card

def fresh : Card := ⟨[], false⟩

def record (c : Card) (calls : List Call) : Card := { c with calls := c.calls ++ calls }

/-- Opens a list for writing. Refused while a list executes. -/
def loadList (c : Card) (list position : Nat) : Bool × Card :=
  (!c.executing, c.record [.loadList list position])

def executeList (c : Card) (list : Nat) : Card :=
  { c.record [.executeList list] with executing := true }

def stopExecution (c : Card) : Card :=
  { c.record [.stopExecution] with executing := false }

def stopCount (c : Card) : Nat :=
  c.calls.countP fun call => match call with
    | .stopExecution => true
    | _ => false

@[simp] theorem calls_record (c : Card) (calls : List Call) :
    (c.record calls).calls = c.calls ++ calls := rfl

@[simp] theorem executing_record (c : Card) (calls : List Call) :
    (c.record calls).executing = c.executing := rfl

end Card

end GalvoWeld
