/-!
# Exact values of doubles

Every finite double is `± m · 2^e` for integers `m` and `e`. This module reads that form off the
64 bits of a double and rounds it to an integer in exact arithmetic. A half goes away from zero,
a value outside the target range becomes the nearer bound, and NaN becomes 0.
-/

namespace GalvoWeld.Number

/-! ### The value behind the bits -/

/-- What a double stands for: no number, an infinity, or `± mantissa · 2^exponent`. -/
inductive Exact where
  | notANumber
  | infinite (negative : Bool)
  | finite (negative : Bool) (mantissa : Nat) (exponent : Int)
deriving DecidableEq, Repr

/-- The bit above the 52 fraction bits, which a normal double does not store. -/
def hiddenBit : Nat := 4503599627370496

/-- The value of a 64 bit pattern: sign bit, 11 exponent bits, 52 fraction bits. -/
def Exact.ofBits (bits : Nat) : Exact :=
  let negative : Bool := bits / hiddenBit / 2048 % 2 = 1
  let biased : Nat := bits / hiddenBit % 2048
  let fraction : Nat := bits % hiddenBit
  if biased = 2047 then
    if fraction = 0 then .infinite negative else .notANumber
  else if biased = 0 then .finite negative fraction (-1074)
  else .finite negative (hiddenBit + fraction) ((biased : Int) - 1075)

def Exact.ofFloat (x : Float) : Exact := Exact.ofBits x.toBits.toNat

def infinity (negative : Bool) : Float :=
  Float.ofBits (if negative then 0xfff0000000000000 else 0x7ff0000000000000)

def notANumber : Float := Float.ofBits 0x7ff8000000000000

/-! ### Rounding quotients -/

/-- The integer nearest to `num / den`, a half upwards. -/
def divHalfUp (num den : Nat) : Nat := (2 * num + den) / (2 * den)

/-- The integer nearest to `num / den`, a half to the even neighbour. -/
def divHalfEven (num den : Nat) : Nat :=
  let below := num / den
  let twice := 2 * (num % den)
  if twice < den then below
  else if den < twice then below + 1
  else if below % 2 = 0 then below else below + 1

/-- The integer nearest to `num / den`, a half away from zero, and 0 for `den = 0`. -/
def intDivHalfAway (num den : Int) : Int :=
  if den = 0 then 0
  else
    let magnitude : Int := divHalfUp num.natAbs den.natAbs
    if (num < 0) = (den < 0) then magnitude else -magnitude

/-! ### Rounding doubles -/

/-- The integer nearest to `mantissa · 2^exponent`, a half upwards. -/
def scaledHalfUp (mantissa : Nat) : Int → Nat
  | .ofNat k => mantissa * Nat.pow 2 k
  | .negSucc k => divHalfUp mantissa (Nat.pow 2 (k + 1))

/-- The nearest integer within `[low, high]` of an exact value, a half away from zero; 0 if
there is no number. -/
def Exact.clampRound (low high : Int) : Exact → Int
  | .notANumber => 0
  | .infinite negative => if negative then low else high
  | .finite negative mantissa exponent =>
    let magnitude : Int := scaledHalfUp mantissa exponent
    max low (min high (if negative then -magnitude else magnitude))

/-- The nearest integer within `[low, high]`, a half away from zero; 0 for NaN. -/
def clampRound (low high : Int) (x : Float) : Int := (Exact.ofFloat x).clampRound low high

/-- Bounds of the signed 32 bit words of the devices. -/
def minWord : Int := -2147483648

def maxWord : Int := 2147483647

/-- The nearest signed 32 bit word, a half away from zero; 0 for NaN. -/
def toWord (x : Float) : Int := clampRound minWord maxWord x

theorem Exact.le_clampRound {low high : Int} (h : low ≤ 0) (hh : low ≤ high) (x : Exact) :
    low ≤ x.clampRound low high := by
  cases x with
  | notANumber => exact h
  | infinite negative => cases negative <;> simp [clampRound, hh]
  | finite negative mantissa exponent => exact Int.le_max_left ..

theorem Exact.clampRound_le {low high : Int} (h : 0 ≤ high) (hh : low ≤ high) (x : Exact) :
    x.clampRound low high ≤ high := by
  cases x with
  | notANumber => exact h
  | infinite negative => cases negative <;> simp [clampRound, hh]
  | finite negative mantissa exponent => exact Int.max_le.2 ⟨hh, Int.min_le_left ..⟩

end GalvoWeld.Number
