import GalvoWeld.Cell.Step

/-!
# One caller after the other

A schedule in which the single caller finishes its call and the workers then go on until each of
them waits for something. What the starter at the gate is to see of the clock is decided by the
number of events that are awaited.
-/

namespace GalvoWeld.Cell

variable {δ : Type} [Device δ]

/-- The caller first, then the workers in turn. -/
def priorities : List Label := [.advance 0, .lister, .mover, .starter]

def nextStep? (c : Cell δ) : Option (Cell δ) := priorities.findSome? (step c)

/-- Goes on until nobody can. The fuel bounds the steps. -/
def settleWithin : Nat → Cell δ → Cell δ
  | 0, c => c
  | fuel + 1, c =>
    match nextStep? c with
    | some c => settleWithin fuel c
    | none => c

/-- A call takes at most eight steps and gives each worker at most one job of at most five. -/
def settleFuel : Nat := 64

def settleAll (c : Cell δ) : Cell δ := settleWithin settleFuel c

/-- Lets time pass until this many events have been reported, or nothing is left to time out. -/
def awaitEvents : Nat → Nat → Cell δ → Cell δ
  | 0, _, c => c
  | fuel + 1, count, c =>
    if count ≤ c.events.length then c
    else
      match timeoutStep? c with
      | some c => awaitEvents fuel count (settleAll c)
      | none => c

def lastResult (c : Cell δ) : Except Fault Unit :=
  match c.callers 0 with
  | .returned result => result
  | _ => .ok ()

/-- Makes a call and waits for this many further events. -/
def perform (c : Cell δ) (call : Call) (awaited : Nat) : Except Fault Unit × Cell δ :=
  let count := c.events.length + awaited
  match step c (.call 0 call) with
  | none => (lastResult c, c)
  | some called =>
    let c := awaitEvents awaited count (settleAll called)
    (lastResult c, c)

end GalvoWeld.Cell
