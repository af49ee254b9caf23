import GalvoWeld.Number.Exact

/-!
# Units of the scanner card

Positions, speeds and powers as the card takes them. Positions become the nearest 32 bit word,
powers the nearest value of a 12 bit output.
-/

namespace GalvoWeld.Card

open Number

def analogMax : Nat := 4095

def coreChannel : Nat := 1

def ringChannel : Nat := 2

/-- mm to bits. -/
def positionBits (mm calibration : Float) : Int := toWord (mm * calibration)

/-- mm/s to bits per ms. -/
def speedBits (speed calibration : Float) : Float := speed * calibration / 1000

/-- Percent to the value of an analog output. -/
def analogValue (percent : Float) : Nat :=
  (clampRound 0 4095 (percent / 100 * 4095)).toNat

theorem analogValue_le (percent : Float) : analogValue percent ≤ analogMax := by
  have h : clampRound 0 4095 (percent / 100 * 4095) ≤ 4095 :=
    Exact.clampRound_le (by decide) (by decide) _
  simp only [analogValue, analogMax]
  omega

end GalvoWeld.Card
