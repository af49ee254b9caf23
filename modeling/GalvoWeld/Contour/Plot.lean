import GalvoWeld.Contour.Command
import GalvoWeld.Number.Fixed

/-!
# Contours as plotter text

A contour is written with one command per line and three places per number: `IN;`, `PUx,y;` for a
jump, `PDx,y;` for a mark, `PWp;` for the power and `VSs;` for the speed. The text has no command
for the power of the ring.
-/

namespace GalvoWeld.Plot

open Number

/-- Two numbers with a comma between them. -/
def pairChars (p : Point) : List Char := fixedChars p.x ++ ',' :: fixedChars p.y

def commandChars : ContourCommand → Option (List Char)
  | .setUp => some ['I', 'N', ';']
  | .jump p => some ('P' :: 'U' :: (pairChars p ++ [';']))
  | .mark p => some ('P' :: 'D' :: (pairChars p ++ [';']))
  | .power percent => some ('P' :: 'W' :: (fixedChars percent ++ [';']))
  | .markSpeed speed => some ('V' :: 'S' :: (fixedChars speed ++ [';']))
  | .ringPower _ => none

def commandText (c : ContourCommand) : Option String := (commandChars c).map String.ofList

/-- The line of a command, if it has one. -/
def lineChars (c : ContourCommand) : List Char :=
  match commandChars c with
  | some cs => cs ++ ['\n']
  | none => []

def contourText (contour : Contour) : String := String.ofList (contour.flatMap lineChars)

end GalvoWeld.Plot
