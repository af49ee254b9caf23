import GalvoWeld.Number.Exact
import GalvoWeld.Number.Shortest

/-!
# Reading decimals

A decimal is a sign, digits with an optional point, and an optional exponent. `Lexed.ofChars`
takes the longest decimal at the head of a text; `readFloat?` reads a whole text, also the names
of infinity and of NaN. A decimal stands for the double nearest to it.
-/

namespace GalvoWeld.Number

/-- The number `± mantissa · 10^exponent`. -/
structure Decimal where
  negative : Bool
  mantissa : Nat
  exponent : Int
deriving DecidableEq, Repr

/-- The double nearest to a decimal. Beyond `10^310` that is infinity and below `10^-330` zero,
so that no power of ten outside that range is ever formed. -/
def Decimal.toFloat (d : Decimal) : Float :=
  let size : Int := d.exponent + digitCount d.mantissa
  let magnitude : Float :=
    if d.mantissa = 0 ∨ size < -330 then Float.ofBits 0
    else if 310 < size then infinity false
    else Float.ofScientific d.mantissa (d.exponent < 0) d.exponent.natAbs
  if d.negative then -magnitude else magnitude

/-! ### The grammar -/

def isDigit (c : Char) : Bool := '0' ≤ c && c ≤ '9'

/-- The digits at the head of a text, and what follows. -/
def spanDigits (cs : List Char) : List Char × List Char :=
  (cs.takeWhile isDigit, cs.dropWhile isDigit)

/-- An optional sign at the head of a text: is it a minus, and what follows. -/
def spanSign : List Char → Bool × List Char
  | '-' :: rest => (true, rest)
  | '+' :: rest => (false, rest)
  | cs => (false, cs)

/-- What stands at the head of a text where a number is expected. -/
inductive Lexed where
  /-- No number starts here. -/
  | absent
  /-- A number with an exponent mark that no digit follows. -/
  | unfinished
  | found (value : Decimal) (rest : List Char)
deriving DecidableEq, Repr

/-- The digits before and after an optional point, and what follows. There is a digit before the
point or after it. -/
def lexDigits? (cs : List Char) : Option (List Char × List Char × List Char) :=
  let (whole, afterWhole) := spanDigits cs
  match afterWhole with
  | '.' :: afterPoint =>
    let (places, rest) := spanDigits afterPoint
    if whole.isEmpty && places.isEmpty then none else some (whole, places, rest)
  | rest => if whole.isEmpty then none else some (whole, [], rest)

def digitsValue (digits : List Char) : Nat := Nat.ofDigitChars 10 digits 0

/-- The longest decimal at the head of a text: `[+-]? (digits ('.' digits?)? | '.' digits)
([eE] [+-]? digits)?`. -/
def Lexed.ofChars (cs : List Char) : Lexed :=
  let (negative, unsigned) := spanSign cs
  match lexDigits? unsigned with
  | none => .absent
  | some (whole, places, rest) =>
    let mantissa := digitsValue (whole ++ places)
    let scale : Int := places.length
    match rest with
    | mark :: afterMark =>
      if mark = 'e' ∨ mark = 'E' then
        let (below, unsignedExponent) := spanSign afterMark
        let (digits, afterExponent) := spanDigits unsignedExponent
        if digits.isEmpty then .unfinished
        else
          let size : Int := digitsValue digits
          .found ⟨negative, mantissa, (if below then -size else size) - scale⟩ afterExponent
      else .found ⟨negative, mantissa, -scale⟩ rest
    | [] => .found ⟨negative, mantissa, -scale⟩ []

/-! ### Names of the values that are no decimals -/

/-- Drops `word` from the head of a text, in either case; `word` is in small letters. -/
def dropWord? : (word : List Char) → List Char → Option (List Char)
  | [], cs => some cs
  | _ :: _, [] => none
  | w :: word, c :: cs => if c.toLower = w then dropWord? word cs else none

/-- The whole text as a double: a decimal, or with an optional sign `inf`, `infinity` or `nan` in
either case. -/
def readFloat? (cs : List Char) : Option Float :=
  match Lexed.ofChars cs with
  | .found d [] => some d.toFloat
  | .found _ (_ :: _) => none
  | .unfinished => none
  | .absent =>
    let (negative, name) := spanSign cs
    if dropWord? ['n', 'a', 'n'] name = some [] then some notANumber
    else if dropWord? ['i', 'n', 'f'] name = some [] then some (infinity negative)
    else if dropWord? ['i', 'n', 'f', 'i', 'n', 'i', 't', 'y'] name = some [] then
      some (infinity negative)
    else none

end GalvoWeld.Number
