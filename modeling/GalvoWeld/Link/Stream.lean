import GalvoWeld.Fault
import GalvoWeld.Link.Address
import GalvoWeld.Link.Frame
import GalvoWeld.Text.Blank
import GalvoWeld.Text.Utf8

/-!
# The byte stream to the controller

Lines go out with a line end, replies come in and end with a prompt. A file is announced by a line
that the controller must repeat; then its frame goes out and one more reply comes in. All bytes
that the controller will ever send are known beforehand, and after them the stream has ended.
-/

namespace GalvoWeld.Link

/-- The byte that ends a reply. -/
def prompt : UInt8 := 0x3e

/-- The bytes that are still to come in, and those that went out. -/
structure Stream where
  incoming : List UInt8
  sent : List UInt8

namespace Stream

def bytesOf (text : String) : List UInt8 := text.toUTF8.toList

/-- The text of a reply. Line ends in front of the prompt are dropped. -/
def replyText (bytes : List UInt8) : String :=
  String.ofList (Text.dropEndWhile (fun c => c = '\r' || c = '\n') (Text.decodeLossy bytes))

/-- Takes the reply up to the prompt. -/
def readReply (s : Stream) : Except Fault String × Stream :=
  let reply := s.incoming.takeWhile (· ≠ prompt)
  match s.incoming.dropWhile (· ≠ prompt) with
  | [] => (.error (.transport "connection closed before prompt"), { s with incoming := [] })
  | _ :: rest => (.ok (replyText reply), { s with incoming := rest })

def write (s : Stream) (bytes : List UInt8) : Stream := { s with sent := s.sent ++ bytes }

/-- Sends a line and takes the reply. -/
def request (s : Stream) (line : String) : Except Fault String × Stream :=
  (s.write (bytesOf line ++ [0x0d, 0x0a])).readReply

/-- The line that announces a file. -/
def announcement (name : String) : String := "S FILE_NAME " ++ name

/-- What a transfer is called in a fault. -/
def transferName (name : String) (size : Nat) : String :=
  "BTX " ++ name ++ " (" ++ toString size ++ " bytes)"

/-- Announces a file and sends it. -/
def sendFile (s : Stream) (name : String) (data : List UInt8) : Except Fault Unit × Stream :=
  match s.request (announcement name) with
  | (.error fault, s) => (.error fault, s)
  | (.ok reply, s) =>
    if Text.trimEnd reply.toList ≠ (announcement name).toList then
      (.error (.unexpectedReply (announcement name) reply), s)
    else
      match (s.write (frameHeader data ++ data)).readReply with
      | (.error fault, s) => (.error fault, s)
      | (.ok reply, s) =>
        if ['E', 'R', 'R'].isPrefixOf reply.toList then
          (.error (.unexpectedReply (transferName name data.length) reply), s)
        else (.ok (), s)

/-- A stream of these bytes. The greeting in front of the first prompt is dropped. -/
def connect (incoming : List UInt8) : Except Fault Unit × Stream :=
  match readReply ⟨incoming, []⟩ with
  | (.error fault, s) => (.error fault, s)
  | (.ok _, s) => (.ok (), s)

end Stream

/-- The fault of an address that cannot be connected to, if its form tells. -/
def connectFault? (address : String) : Option Fault :=
  (addressFlaw? address).map (.connection address)

end GalvoWeld.Link
