/-!
# Command line options

An option has a long name, and maybe a short one of a single letter; some take a value. Options and
other arguments may be mixed, `--` ends the options. Letters of short options may be joined; the
rest of the letters behind one that takes a value is its value.
-/

namespace GalvoWeld.DryRun

structure OptionSpec where
  letter : Option Char
  long : String
  /-- The word for the value, where it takes one. -/
  valueHint : Option String
  description : String

def optionTable : List OptionSpec :=
  [⟨some 'c', "config", some "FILE", "scanner configuration file"⟩,
    ⟨some 'b', "backend", some "BACKEND", "rtc6 or smartmove, overrides the configuration"⟩,
    ⟨some 'w', "wobble", some "FILE", "wobble figure file"⟩,
    ⟨some 'm', "wobble-mode", some "MODE", "none, ellipse, standing-eight, lying-eight or free"⟩,
    ⟨none, "power", some "POWER", "nominal laser power (0 - 1)"⟩,
    ⟨none, "ring-power", some "POWER", "nominal ring laser power (0 - 1)"⟩,
    ⟨some 'v', "speed", some "SPEED", "default mark speed (mm/s)"⟩,
    ⟨some 'p', "preview", none, "build a preview list with the laser off"⟩,
    ⟨some 'h', "help", none, "print this help menu"⟩]

/-- The name of an option as it is given: a letter or a long name. -/
inductive OptionName where
  | letter (c : Char)
  | long (name : String)
deriving DecidableEq, Repr

/-- A name behind two dashes. A single letter is the short name. -/
def OptionName.ofText (text : List Char) : OptionName :=
  match text with
  | [c] => if c.toNat < 0x80 then .letter c else .long (String.ofList text)
  | _ => .long (String.ofList text)

def OptionName.text : OptionName → String
  | .letter c => String.singleton c
  | .long name => name

def OptionName.spec? (name : OptionName) : Option OptionSpec :=
  optionTable.find? fun spec =>
    match name with
    | .letter c => spec.letter = some c
    | .long text => spec.long = text

/-- Why a command line cannot be understood. -/
inductive OptionFault where
  | unrecognized (name : String)
  | valueMissing (name : String)
  | unexpectedValue (name : String)
  | repeated (name : String)
deriving DecidableEq, Repr

def OptionFault.message : OptionFault → String
  | .unrecognized name => "Unrecognized option: '" ++ name ++ "'"
  | .valueMissing name => "Argument to option '" ++ name ++ "' missing"
  | .unexpectedValue name => "Option '" ++ name ++ "' does not take an argument"
  | .repeated name => "Option '" ++ name ++ "' given more than once"

/-- What a command line gives: options by their long names, and the other arguments. -/
structure Given where
  options : List (String × Option String) := []
  free : List String := []

def Given.note (g : Given) (spec : OptionSpec) (value : Option String) : Given :=
  { g with options := g.options ++ [(spec.long, value)] }

/-- What one argument asks for. -/
inductive ArgumentStep where
  /-- The argument is complete. -/
  | complete (g : Given)
  /-- The next argument is the value of this option. -/
  | needsValue (g : Given) (name : OptionName) (spec : OptionSpec)

/-- The letters behind one dash. -/
def readLetters (g : Given) : List Char → Except OptionFault ArgumentStep
  | [] => .ok (.complete g)
  | c :: rest =>
    match (OptionName.letter c).spec? with
    | none => .error (.unrecognized (String.singleton c))
    | some spec =>
      if spec.valueHint.isNone then readLetters (g.note spec none) rest
      else if rest.isEmpty then .ok (.needsValue g (.letter c) spec)
      else .ok (.complete (g.note spec (some (String.ofList rest))))

/-- A name behind two dashes, with its value behind an equals sign. -/
def readLong (g : Given) (text : List Char) : Except OptionFault ArgumentStep :=
  let name := OptionName.ofText (text.takeWhile (· ≠ '='))
  let value : Option String := match text.dropWhile (· ≠ '=') with
    | [] => none
    | _ :: value => some (String.ofList value)
  match name.spec? with
  | none => .error (.unrecognized name.text)
  | some spec =>
    if spec.valueHint.isNone then
      if value.isSome then .error (.unexpectedValue name.text)
      else .ok (.complete (g.note spec none))
    else
      match value with
      | some value => .ok (.complete (g.note spec (some value)))
      | none => .ok (.needsValue g name spec)

/-- The arguments from left to right, behind what was given before. -/
def readArguments (g : Given) : List String → Except OptionFault Given
  | [] => .ok g
  | argument :: rest =>
    let step := match argument.toList with
      | ['-'] => none
      | '-' :: '-' :: text => some (readLong g text)
      | '-' :: letters => some (readLetters g letters)
      | _ => none
    if argument = "--" then .ok { g with free := g.free ++ rest }
    else
      match step with
      | none => readArguments { g with free := g.free ++ [argument] } rest
      | some (.error fault) => .error fault
      | some (.ok (.complete g)) => readArguments g rest
      | some (.ok (.needsValue g name spec)) =>
        match rest with
        | [] => .error (.valueMissing name.text)
        | value :: rest => readArguments (g.note spec (some value)) rest

/-- What the arguments give. No option stands twice, under whichever of its names; the fault calls
it by the long one. -/
def parseArguments (arguments : List String) : Except OptionFault Given :=
  match readArguments {} arguments with
  | .error fault => .error fault
  | .ok g =>
    match optionTable.find? fun spec => 1 < g.options.countP fun o => o.1 = spec.long with
    | some spec => .error (.repeated spec.long)
    | none => .ok g

def Given.has (g : Given) (long : String) : Bool := g.options.any (·.1 = long)

def Given.value? (g : Given) (long : String) : Option String :=
  (g.options.find? (·.1 = long)).bind (·.2)

/-! ### Help -/

/-- The column where descriptions begin. -/
def helpColumn : Nat := 24

/-- The names of an option and the word for its value. -/
def OptionSpec.usage (spec : OptionSpec) : String :=
  (match spec.letter with
    | some c => "    -" ++ String.singleton c ++ ", --"
    | none => "        --") ++ spec.long ++
    (match spec.valueHint with
    | some hint => " " ++ hint
    | none => "")

/-- The help for an option. The description stands on a line of its own if the names reach its
column. -/
def OptionSpec.helpLine (spec : OptionSpec) : String :=
  let gap := fun n => String.ofList (List.replicate n ' ')
  let names := spec.usage
  (if names.length < helpColumn then names ++ gap (helpColumn - names.length)
    else names ++ "\n" ++ gap helpColumn) ++ spec.description

def helpText (program : String) : String :=
  "Usage: " ++ program ++ " [options] WELD_FIGURE\n\nOptions:\n" ++
    "\n".intercalate (optionTable.map OptionSpec.helpLine) ++ "\n"

end GalvoWeld.DryRun
