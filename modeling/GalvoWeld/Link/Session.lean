import GalvoWeld.Setting.Reply

/-!
# A session with the controller

The controller answers lines and accepts files as it pleases: what it does may depend on everything
that went over the link before. A session is such a controller and the exchanges so far.
-/

namespace GalvoWeld.Link

/-- What went over the link: a line or a file, and what came of it. -/
inductive Exchange where
  | line (text : String) (outcome : Except Fault String)
  | file (name text : String) (outcome : Except Fault Unit)

/-- How the controller behaves after a history of exchanges. -/
structure Peer where
  answer : List Exchange → String → Except Fault String
  accept : List Exchange → String → String → Except Fault Unit

structure Session where
  peer : Peer
  history : List Exchange

namespace Session

/-- Sends a line and takes the reply. -/
def request (s : Session) (line : String) : Except Fault String × Session :=
  let outcome := s.peer.answer s.history line
  (outcome, { s with history := s.history ++ [.line line outcome] })

def sendFile (s : Session) (name text : String) : Except Fault Unit × Session :=
  let outcome := s.peer.accept s.history name text
  (outcome, { s with history := s.history ++ [.file name text outcome] })

/-- Sends a line and checks the reply. -/
def exchange (s : Session) (line : String) : Except Fault Unit × Session :=
  match s.request line with
  | (.error fault, s) => (.error fault, s)
  | (.ok reply, s) => (Setting.checkReply line reply, s)

/-- Sends lines up to the first that fails. -/
def exchangeAll (s : Session) : List String → Except Fault Unit × Session
  | [] => (.ok (), s)
  | line :: rest =>
    match s.exchange line with
    | (.error fault, s) => (.error fault, s)
    | (.ok (), s) => s.exchangeAll rest

def send (s : Session) (commands : List Setting.Command) : Except Fault Unit × Session :=
  s.exchangeAll (Setting.packedLines commands)

def lines (s : Session) : List String :=
  s.history.filterMap fun e => match e with
    | .line text _ => some text
    | .file .. => none

/-- The files that were accepted, with their texts. -/
def files (s : Session) : List (String × String) :=
  s.history.filterMap fun e => match e with
    | .file name text (.ok ()) => some (name, text)
    | _ => none

end Session

/-! ### Rehearsals -/

/-- Does `part` occur in `whole`? -/
def occursIn (part : List Char) : List Char → Bool
  | [] => part.isEmpty
  | c :: rest => part.isPrefixOf (c :: rest) || occursIn part rest

/-- A controller for rehearsals. A line is answered by the first rule whose text occurs in it;
without one a write is answered by its own text and a read by the value 0. Files are accepted
unless a fault is given. -/
def Peer.rehearsal (rules : List (String × String)) (fileFault : Option String) : Peer where
  answer := fun _ line =>
    match rules.find? fun rule => occursIn rule.1.toList line.toList with
    | some rule => .ok rule.2
    | none => .ok (if ['G', ' '].isPrefixOf line.toList then line ++ "0" else line)
  accept := fun _ _ _ =>
    match fileFault with
    | some cause => .error (.transport cause)
    | none => .ok ()

end GalvoWeld.Link
