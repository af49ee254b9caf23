import GalvoWeld.Card.Call
import GalvoWeld.Number.Layout

/-!
# Listings of card calls

Every call is listed by its name and its values in parentheses.
-/

namespace GalvoWeld.DryRun

/-- A name and its values. -/
def callText (name : String) (values : List String) : String :=
  if values.isEmpty then name else name ++ "(" ++ ", ".intercalate values ++ ")"

def doubleText (x : Float) : String := Number.Layout.listing.text x

def listCall : Card.Call → String
  | .loadList list position => callText "LoadList" [toString list, toString position]
  | .setEndOfList => callText "SetEndOfList" []
  | .executeList list => callText "ExecuteList" [toString list]
  | .jumpAbs x y => callText "JumpAbs" [toString x, toString y]
  | .markAbs x y => callText "MarkAbs" [toString x, toString y]
  | .setLaserPower channel value => callText "SetLaserPower" [toString channel, toString value]
  | .setMarkSpeed speed => callText "SetMarkSpeed" [doubleText speed]
  | .setJumpSpeed speed => callText "SetJumpSpeed" [doubleText speed]
  | .setWobbelMode transversal longitudinal frequency code =>
    callText "SetWobbelMode"
      [toString transversal, toString longitudinal, doubleText frequency, toString code]
  | .setWobbelVector transversal longitudinal period power ringPower =>
    callText "SetWobbelVector"
      [doubleText transversal, doubleText longitudinal, toString period, doubleText power,
        doubleText ringPower]
  | .gotoXy x y => callText "GotoXy" [toString x, toString y]
  | .stopExecution => callText "StopExecution" []
  | .resetError code => callText "ResetError" [toString code]

end GalvoWeld.DryRun
