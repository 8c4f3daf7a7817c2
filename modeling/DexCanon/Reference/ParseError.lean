/-!
# Why a reference cannot be read

Each cause carries the text that is at fault: all of the input where a part is missing, and only
the part that should have been a type where a type is malformed.
-/

set_option autoImplicit false

namespace DexCanon

inductive ParseError where
  | missingArrow (text : String)
  /-- No parameter list, or one that does not end. -/
  | missingParameters (text : String)
  | missingFieldType (text : String)
  /-- Nothing between the arrow and the parameter list or the colon. -/
  | emptyName (text : String)
  /-- A part that is not a type, or not a list of types. The position counts bytes of UTF-8. -/
  | malformedType (descriptor : String) (position : Nat)
  deriving DecidableEq, Repr

namespace ParseError

def text : ParseError → String
  | missingArrow text | missingParameters text | missingFieldType text | emptyName text => text
  | malformedType descriptor _ => descriptor

def message : ParseError → String
  | missingArrow text => "missing `->` between class and member in `" ++ text ++ "`"
  | missingParameters text => "missing parameter list in `" ++ text ++ "`"
  | missingFieldType text => "missing `:` before field type in `" ++ text ++ "`"
  | emptyName text => "empty member name in `" ++ text ++ "`"
  | malformedType descriptor position =>
    "malformed type descriptor `" ++ descriptor ++ "` at offset " ++ toString position

end ParseError

end DexCanon
