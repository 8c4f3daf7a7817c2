import DexCanon.Text.Layout
import DexCanon.Text.Quoted

/-!
# Diagnostics

A diagnostic is one advisory message. Nothing here is ever an error, so there are two severities
only. Readers match on the wording of the messages.
-/

set_option autoImplicit false

namespace DexCanon

inductive Severity where
  | warning
  | note
  deriving DecidableEq, Repr

namespace Severity

def label : Severity → String
  | warning => "warning"
  | note => "note"

def name : Severity → String
  | warning => "Warning"
  | note => "Note"

def ofName? (text : String) : Option Severity := [warning, note].find? (·.name = text)

theorem ofName?_name (s : Severity) : ofName? s.name = some s := by cases s <;> rfl

instance : ToString Severity := ⟨label⟩

end Severity

structure Diagnostic where
  severity : Severity
  message : String
  deriving DecidableEq, Repr

namespace Diagnostic

def warning (message : String) : Diagnostic := ⟨.warning, message⟩

def note (message : String) : Diagnostic := ⟨.note, message⟩

/-- A member of a set was dropped because another one has its place. `subject` says what kind of
member it was, `key` which one. -/
def duplicate (subject key : String) : Diagnostic :=
  .warning ("Ignoring duplicate " ++ subject ++ " for name: " ++ key)

def isWarning (d : Diagnostic) : Bool := d.severity = .warning

instance : ToString Diagnostic := ⟨message⟩

def inspect (d : Diagnostic) : String :=
  (Text.Brackets.record "Diagnostic").around .oneLine
    ["severity: " ++ d.severity.name, "message: " ++ Text.quoted d.message]

end Diagnostic

end DexCanon
