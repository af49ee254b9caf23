import GalvoWeld.Contour.Command
import GalvoWeld.Number.Decimal

/-!
# Reading plotter text

The reader takes commands with any blanks between them. Where no further command can be taken the
text must end; an exponent mark without digits is a fault of its own.
-/

namespace GalvoWeld.Plot

open Number

/-- The blanks between commands. -/
def isSpace (c : Char) : Bool := c = ' ' || c = '\t' || c = '\r' || c = '\n'

def skipSpace (cs : List Char) : List Char := cs.dropWhile isSpace

/-- The outcome of taking something from the head of a text. -/
inductive Taken (α : Type) where
  /-- It does not stand here. -/
  | absent
  /-- A number whose exponent has no digits begins at this text. -/
  | unfinished (text : List Char)
  | taken (value : α) (rest : List Char)

/-- Takes two things one after the other. -/
def Taken.andThen {α β : Type} (t : Taken α) (next : α → List Char → Taken β) : Taken β :=
  match t with
  | .absent => .absent
  | .unfinished text => .unfinished text
  | .taken a rest => next a rest

def takeChar (c : Char) : List Char → Taken Unit
  | [] => .absent
  | d :: rest => if d = c then .taken () rest else .absent

/-- Takes a number: a decimal, or `nan` or `inf` in either case. -/
def takeNumber (cs : List Char) : Taken Float :=
  match Lexed.ofChars cs with
  | .found d rest => .taken d.toFloat rest
  | .unfinished => .unfinished cs
  | .absent =>
    match dropWord? ['n', 'a', 'n'] cs, dropWord? ['i', 'n', 'f'] cs with
    | some rest, _ => .taken notANumber rest
    | none, some rest => .taken (infinity false) rest
    | none, none => .absent

/-- Takes two numbers with a comma between them. -/
def takePair (cs : List Char) : Taken Point :=
  (takeNumber cs).andThen fun x rest =>
    (takeChar ',' rest).andThen fun _ rest =>
      (takeNumber rest).andThen fun y rest => .taken ⟨x, y⟩ rest

/-- Takes a command but for its semicolon. -/
def takeBody : List Char → Taken ContourCommand
  | 'I' :: 'N' :: rest => .taken .setUp rest
  | 'P' :: 'U' :: rest => (takePair rest).andThen fun p rest => .taken (.jump p) rest
  | 'P' :: 'D' :: rest => (takePair rest).andThen fun p rest => .taken (.mark p) rest
  | 'P' :: 'W' :: rest => (takeNumber rest).andThen fun x rest => .taken (.power x) rest
  | 'V' :: 'S' :: rest => (takeNumber rest).andThen fun x rest => .taken (.markSpeed x) rest
  | _ => .absent

def takeCommand (cs : List Char) : Taken ContourCommand :=
  (takeBody cs).andThen fun command rest =>
    (takeChar ';' rest).andThen fun _ rest => .taken command rest

/-- Why a text is no contour, with the text that could not be read. -/
inductive ReadFault where
  /-- No command stands here. -/
  | leftover (text : List Char)
  /-- A number whose exponent has no digits. -/
  | badNumber (text : List Char)
deriving DecidableEq, Repr

/-- The commands of a text, with blanks around each, behind those taken so far in reverse. The
fuel bounds their number. -/
def readCommands : Nat → List ContourCommand → List Char → Except ReadFault Contour
  | 0, _, cs => .error (.leftover cs)
  | fuel + 1, done, cs =>
    match takeCommand (skipSpace cs) with
    | .taken command rest => readCommands fuel (command :: done) (skipSpace rest)
    | .unfinished text => .error (.badNumber text)
    | .absent => if cs.isEmpty then .ok done.reverse else .error (.leftover cs)

/-- The contour of a text. Every command takes up characters, so that the length of the text
bounds their number. -/
def readContour (cs : List Char) : Except ReadFault Contour :=
  readCommands (cs.length + 1) [] cs

end GalvoWeld.Plot
