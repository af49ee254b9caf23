/-!
# Settings of a network controller

The settings that a controller on the network has, and the commands that write or read them.
-/

namespace GalvoWeld

/-- What the marking job is told to do. -/
inductive Setting.JobAction where
  | stop
  | start
deriving DecidableEq, Repr

def Setting.JobAction.code : Setting.JobAction → Nat
  | .stop => 0
  | .start => 1

inductive Setting.OperationMode where
  | service
  | marking
  | alignment
deriving DecidableEq, Repr

def Setting.OperationMode.code : Setting.OperationMode → Nat
  | .service => 0
  | .marking => 1
  | .alignment => 2

inductive Setting.InputMode where
  | ethernet
  | analog
  | xy2100
deriving DecidableEq, Repr

def Setting.InputMode.code : Setting.InputMode → Nat
  | .ethernet => 0
  | .analog => 1
  | .xy2100 => 2

/-- A setting with its value. A command that reads does not use the value. -/
inductive Setting where
  | processJob (action : Setting.JobAction)
  | jobSelect (job : Nat)
  | operationMode (mode : Setting.OperationMode)
  | inputMode (mode : Setting.InputMode)
  | align (x y : Float)
  | laserOnForAlignment (on : Bool) (maxPower : Float)
  | calibrationFile (name : String)
  | focalLength (length : Float)
  | scanfieldSize (size : Float)
  | jumpSpeed (speed : Float)
  | markSpeed (speed : Float)
  | positionFeedbackBits (bits : Nat)
  | positionCommandBits (bits : Nat)
  | forceEnable (enable : Bool)
  | sysTs (value : Nat)
  | laserPower (power : Float)

/-- A command that writes or reads a setting. -/
structure Setting.Command where
  writes : Bool
  setting : Setting

def Setting.write (s : Setting) : Setting.Command := ⟨true, s⟩

end GalvoWeld
