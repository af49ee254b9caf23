/-!
# Blank characters

The white space of Unicode: 25 code points in ten ranges. Trimming removes them from the ends of
a text.
-/

namespace GalvoWeld.Text

/-- The ranges of white space, in ascending order. -/
def blankRanges : List (Nat × Nat) :=
  [(0x09, 0x0d), (0x20, 0x20), (0x85, 0x85), (0xa0, 0xa0), (0x1680, 0x1680), (0x2000, 0x200a),
    (0x2028, 0x2029), (0x202f, 0x202f), (0x205f, 0x205f), (0x3000, 0x3000)]

def isBlank (c : Char) : Bool :=
  blankRanges.any fun (low, high) => low ≤ c.toNat && c.toNat ≤ high

/-- Drops the characters at the end that satisfy `p`. -/
def dropEndWhile (p : Char → Bool) (cs : List Char) : List Char :=
  (cs.reverse.dropWhile p).reverse

def trimEnd (cs : List Char) : List Char := dropEndWhile isBlank cs

/-- A text without white space at its ends. -/
def trim (cs : List Char) : List Char := trimEnd (cs.dropWhile isBlank)

end GalvoWeld.Text
