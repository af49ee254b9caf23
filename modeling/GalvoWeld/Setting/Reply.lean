import GalvoWeld.Fault
import GalvoWeld.Setting.Line
import GalvoWeld.Text.Blank

/-!
# Replies of the controller

A write is acknowledged by its own text, blanks at the end aside. A read is answered by its own
text followed by a number.
-/

namespace GalvoWeld.Setting

open Text (trim trimEnd)

def checkWriteReply (command reply : String) : Except Fault Unit :=
  if trimEnd reply.toList = trimEnd command.toList then .ok ()
  else .error (.unexpectedReply command reply)

/-- What follows a text at the head of another. -/
def behind? (head : List Char) (cs : List Char) : Option (List Char) :=
  if head.isPrefixOf cs then some (cs.drop head.length) else none

/-- The value in the reply to a read. -/
def readReply (command reply : String) : Except Fault Float :=
  match behind? command.toList reply.toList with
  | none => .error (.unexpectedReply command reply)
  | some value =>
    match Number.readFloat? (trim value) with
    | some x => .ok x
    | none => .error (.nonNumericReply command reply)

def checkReply (line reply : String) : Except Fault Unit :=
  if isWriteLine line then checkWriteReply line reply else (readReply line reply).map fun _ => ()

end GalvoWeld.Setting
