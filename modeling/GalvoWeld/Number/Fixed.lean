import GalvoWeld.Number.Exact

/-!
# Numbers with three places

A double is rounded to thousandths in exact arithmetic, a half to the even neighbour, and written
with its sign, its whole part and three places. The sign stays where the thousandths are zero.
-/

namespace GalvoWeld.Number

/-- A double rounded to thousandths. -/
inductive Thousandths where
  | notANumber
  | infinite (negative : Bool)
  | count (negative : Bool) (thousandths : Nat)
deriving DecidableEq, Repr

/-- The nearest count of thousandths, a half to the even neighbour. -/
def Exact.thousandths : Exact → Thousandths
  | .notANumber => .notANumber
  | .infinite negative => .infinite negative
  | .finite negative mantissa exponent =>
    .count negative <| match exponent with
      | .ofNat k => mantissa * Nat.pow 2 k * 1000
      | .negSucc k => divHalfEven (mantissa * 1000) (Nat.pow 2 (k + 1))

/-- Three digits for a number below 1000. -/
def threeDigits (n : Nat) : List Char :=
  [Nat.digitChar (n / 100 % 10), Nat.digitChar (n / 10 % 10), Nat.digitChar (n % 10)]

/-- The sign of a negative number. -/
def signChars (negative : Bool) : List Char := if negative then ['-'] else []

/-- The whole part, a point and three places. -/
def Thousandths.chars : Thousandths → List Char
  | .notANumber => ['N', 'a', 'N']
  | .infinite negative => signChars negative ++ ['i', 'n', 'f']
  | .count negative thousandths =>
    signChars negative ++ Nat.toDigits 10 (thousandths / 1000) ++
      '.' :: threeDigits (thousandths % 1000)

def fixedChars (x : Float) : List Char := (Exact.ofFloat x).thousandths.chars

end GalvoWeld.Number
