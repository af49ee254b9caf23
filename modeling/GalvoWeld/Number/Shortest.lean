import GalvoWeld.Number.Exact

/-!
# The fewest digits that read back

A positive finite double `v` is told apart from its neighbours by every real that rounds to it.
Among the decimals in that interval, the one with the fewest digits is chosen, among those the one
nearest to `v`, and on a tie the greater one. All comparisons are between integers.
-/

namespace GalvoWeld.Number

/-- A positive decimal `digits · 10^exponent`; the last digit is not 0. -/
structure ShortDecimal where
  digits : Nat
  exponent : Int
deriving DecidableEq, Repr

def digitCount (n : Nat) : Nat := (Nat.toDigits 10 n).length

/-- Moves the zeros at the end of the digits into the exponent. The fuel bounds their number. -/
def ShortDecimal.strip : Nat → ShortDecimal → ShortDecimal
  | 0, d => d
  | fuel + 1, d =>
    if d.digits % 10 = 0 ∧ d.digits ≠ 0 then
      ShortDecimal.strip fuel ⟨d.digits / 10, d.exponent + 1⟩
    else d

/-! ### The interval of a double -/

/-- The reals that round to a double, in quarters of its unit: `low ≤ 4·mantissa ≤ high`, all
times `2^(exponent - 2)`. The ends belong to the interval iff the mantissa is even. -/
structure Cell where
  low : Nat
  middle : Nat
  high : Nat
  closed : Bool
  exponent : Int

/-- The interval of `mantissa · 2^exponent`. Below a power of two the spacing is half as wide. -/
def Cell.ofBinary (mantissa : Nat) (exponent : Int) : Cell :=
  let lowestOfBinade := mantissa = hiddenBit ∧ exponent ≠ -1074
  { low := if lowestOfBinade then 4 * mantissa - 1 else 4 * mantissa - 2
    middle := 4 * mantissa
    high := 4 * mantissa + 2
    closed := mantissa % 2 = 0
    exponent := exponent - 2 }

/-- The number `k` with `10^k ≤ mantissa · 2^exponent < 10^(k+1)`: a double is at least
`10^-324`, so that 350 places keep a leading digit. -/
def leadingPlace (mantissa : Nat) (exponent : Int) : Int :=
  let whole := match exponent with
    | .ofNat k => mantissa * Nat.pow 2 k * Nat.pow 10 350
    | .negSucc k => mantissa * Nat.pow 10 350 / Nat.pow 2 (k + 1)
  (digitCount whole : Int) - 351

/-! ### The search -/

/-- The decimal with the last digit at `10^place` that is nearest to the middle of the cell among
those in the cell, the greater one on a tie. -/
def Cell.onGrid? (c : Cell) (place : Int) : Option ShortDecimal :=
  let up := Nat.pow 2 c.exponent.toNat * Nat.pow 10 (-place).toNat
  let unit := Nat.pow 2 (-c.exponent).toNat * Nat.pow 10 place.toNat
  let low := c.low * up
  let middle := c.middle * up
  let high := c.high * up
  let inside := fun n => if c.closed then low ≤ n * unit ∧ n * unit ≤ high
    else low < n * unit ∧ n * unit < high
  let below := middle / unit
  let above := below + 1
  if inside below then
    if inside above ∧ (2 * below + 1) * unit ≤ 2 * middle then some ⟨above, place⟩
    else some ⟨below, place⟩
  else if inside above then some ⟨above, place⟩
  else none

/-- The first grid with a decimal in the cell, from `place` downwards. -/
def Cell.search (c : Cell) : Nat → Int → Option ShortDecimal
  | 0, _ => none
  | fuel + 1, place =>
    match c.onGrid? place with
    | some d => some d
    | none => c.search fuel (place - 1)

/-- The fewest digits that read back to `mantissa · 2^exponent`, for a positive mantissa.
Seventeen digits always do. -/
def shortest (mantissa : Nat) (exponent : Int) : ShortDecimal :=
  let cell := Cell.ofBinary mantissa exponent
  let place := leadingPlace mantissa exponent
  match cell.search 18 place with
  | some d => d.strip 20
  | none => ⟨mantissa, 0⟩

end GalvoWeld.Number
