import GalvoWeld.Number.Shortest

/-!
# Layouts of a double's shortest digits

A layout says from which sizes on a number is written with an exponent and whether a whole number
keeps `.0`. The protocol lines use `Layout.plain`, listings of device calls `Layout.listing`.
-/

namespace GalvoWeld.Number

/-- The decisions a written number depends on besides its digits. -/
structure Layout where
  /-- Places of the leading digit for which the number is written without an exponent. -/
  positional : Int → Bool
  /-- A whole number ends in `.0`. -/
  keepsPoint : Bool

/-- Never an exponent, and no `.0`. -/
def Layout.plain : Layout := ⟨fun _ => true, false⟩

/-- An exponent below `10^-4` and from `10^16` on, and whole numbers end in `.0`. -/
def Layout.listing : Layout := ⟨fun place => -4 ≤ place ∧ place < 16, true⟩

/-- The digits with a point before the last `places` of them, filled up by zeros. -/
def pointed (digits : List Char) (places : Nat) : List Char :=
  if digits.length ≤ places then
    '0' :: '.' :: (List.replicate (places - digits.length) '0' ++ digits)
  else digits.take (digits.length - places) ++ '.' :: digits.drop (digits.length - places)

/-- A positive decimal without an exponent. -/
def ShortDecimal.positional (keepsPoint : Bool) (d : ShortDecimal) : List Char :=
  let digits := Nat.toDigits 10 d.digits
  match d.exponent with
  | .ofNat k => digits ++ List.replicate k '0' ++ (if keepsPoint then ['.', '0'] else [])
  | .negSucc k => pointed digits (k + 1)

def ShortDecimal.leadingPlace (d : ShortDecimal) : Int :=
  d.exponent + (digitCount d.digits : Int) - 1

/-- A positive decimal as one digit, its further digits and the exponent. -/
def ShortDecimal.scientific (d : ShortDecimal) : List Char :=
  let digits := Nat.toDigits 10 d.digits
  let fraction := digits.drop 1
  digits.take 1 ++ (if fraction.isEmpty then [] else '.' :: fraction) ++ 'e' ::
    (toString d.leadingPlace).toList

/-- A double in this layout. The sign of zero is written. -/
def Layout.chars (layout : Layout) (x : Float) : List Char :=
  match Exact.ofFloat x with
  | .notANumber => ['N', 'a', 'N']
  | .infinite negative => (if negative then ['-'] else []) ++ ['i', 'n', 'f']
  | .finite negative mantissa exponent =>
    let sign := if negative then ['-'] else []
    if mantissa = 0 then sign ++ '0' :: (if layout.keepsPoint then ['.', '0'] else [])
    else
      let d := shortest mantissa exponent
      sign ++ if layout.positional d.leadingPlace then d.positional layout.keepsPoint
        else d.scientific

def Layout.text (layout : Layout) (x : Float) : String := String.ofList (layout.chars x)

end GalvoWeld.Number
