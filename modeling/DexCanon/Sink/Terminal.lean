import DexCanon.Sink.Basic

/-!
# Diagnostics on a terminal

Each diagnostic becomes one line of its own: its message as it stands, between color codes if
colors are on, and a line break. The line is handed to the device in one piece. A device may refuse
it; what it refuses is lost and nobody is told.
-/

set_option autoImplicit false

namespace DexCanon

inductive ColorMode where
  | auto
  | always
  | never
  deriving DecidableEq, Repr

namespace ColorMode

instance : Inhabited ColorMode := ⟨never⟩

def enabled (isTerminal : Bool) : ColorMode → Bool
  | auto => isTerminal
  | always => true
  | never => false

end ColorMode

/-- Something that lines are written to. It counts what it is asked to do and keeps what it
accepted. -/
structure Device where
  /-- Numbers of the writes that are refused, counted from zero. -/
  refused : List Nat := []
  calls : Nat := 0
  written : List String := []
  flushes : Nat := 0
  deriving DecidableEq, Repr

namespace Device

def write (text : String) (device : Device) : Device :=
  { device with
    calls := device.calls + 1
    written := if device.calls ∈ device.refused then device.written else device.written ++ [text] }

def flush (device : Device) : Device := { device with flushes := device.flushes + 1 }

def text (device : Device) : String := String.join device.written

end Device

structure Terminal where
  colors : Bool := false
  device : Device := {}
  deriving DecidableEq, Repr

namespace Terminal

/-- The code that starts a colored line: bold yellow for a warning, bold cyan for a note. -/
def colorCode : Severity → String
  | .warning => "\x1b[1;33m"
  | .note => "\x1b[1;36m"

def resetCode : String := "\x1b[0m"

def line (colors : Bool) (d : Diagnostic) : String :=
  if colors then colorCode d.severity ++ d.message ++ resetCode else d.message

instance : Sink Terminal where
  emit d terminal :=
    { terminal with device := terminal.device.write (line terminal.colors d ++ "\n") }
  flush terminal := { terminal with device := terminal.device.flush }

def start (mode : ColorMode) (isTerminal : Bool) (refused : List Nat) : Terminal :=
  { colors := mode.enabled isTerminal, device := { refused } }

end Terminal

end DexCanon
