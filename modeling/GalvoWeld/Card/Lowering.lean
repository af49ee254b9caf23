import GalvoWeld.Card.Call
import GalvoWeld.Card.Units
import GalvoWeld.Contour.Command

/-!
# Contours as card calls

Every command of a contour becomes at most one call. A power or speed that the card was given last
is not given again, until the contour initializes the card.
-/

namespace GalvoWeld.Card

/-- The values that the card was given last. -/
structure Memo where
  power : Option Nat := none
  ringPower : Option Nat := none
  markSpeed : Option Float := none

/-- The call of a command, if it is needed, and what the card was given last after it. -/
def Memo.lower (calibration : Float) (memo : Memo) : ContourCommand → Option Call × Memo
  | .setUp => (none, {})
  | .jump p => (some (.jumpAbs (positionBits p.x calibration) (positionBits p.y calibration)), memo)
  | .mark p => (some (.markAbs (positionBits p.x calibration) (positionBits p.y calibration)), memo)
  | .power percent =>
    let value := analogValue percent
    if memo.power = some value then (none, memo)
    else (some (.setLaserPower coreChannel value), { memo with power := some value })
  | .ringPower percent =>
    let value := analogValue percent
    if memo.ringPower = some value then (none, memo)
    else (some (.setLaserPower ringChannel value), { memo with ringPower := some value })
  | .markSpeed speed =>
    let bits := speedBits speed calibration
    if memo.markSpeed.any (· == bits) then (none, memo)
    else (some (.setMarkSpeed bits), { memo with markSpeed := some bits })

/-- A contour on its way to the card: the calls so far, the number of commands left out because
the card has their value, and the values given last. -/
structure Lowering where
  calls : Array Call
  elided : Nat
  memo : Memo

/-- Lowers one further command. -/
def Lowering.step (calibration : Float) (l : Lowering) (command : ContourCommand) : Lowering :=
  match command, l.memo.lower calibration command with
  | _, (some call, memo) => { l with calls := l.calls.push call, memo }
  | .setUp, (none, memo) => { l with memo }
  | _, (none, memo) => { l with elided := l.elided + 1, memo }

/-- Lowers a contour for a card that was given these values last. -/
def lowerContour (calibration : Float) (memo : Memo) (contour : Contour) : Lowering :=
  contour.foldl (Lowering.step calibration) ⟨#[], 0, memo⟩

end GalvoWeld.Card
