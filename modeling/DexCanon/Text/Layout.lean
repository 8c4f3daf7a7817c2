/-!
# Layout of nested text

A composite is written as its members between two brackets: all on one line, or each member on a
line of its own, moved in by four blanks and followed by a comma. Moving a text in moves each of its
lines in. A composite without members is just its brackets.
-/

set_option autoImplicit false

namespace DexCanon.Text

inductive Layout where
  | oneLine
  | spread
  deriving DecidableEq, Repr

structure Brackets where
  opening : String
  closing : String
  gap : String := ""
  deriving DecidableEq, Repr

namespace Brackets

def list : Brackets := ⟨"[", "]", ""⟩

def set : Brackets := ⟨"\x7b", "\x7d", ""⟩

def case (name : String) : Brackets := ⟨name ++ "(", ")", ""⟩

def record (name : String) : Brackets := ⟨name ++ " \x7b", "\x7d", " "⟩

end Brackets

/-- The text with four blanks in front of each of its lines. -/
def indented (text : String) : String :=
  "    " ++ String.ofList
    (text.toList.flatMap fun c => if c = '\n' then ['\n', ' ', ' ', ' ', ' '] else [c])

def Brackets.around (brackets : Brackets) (layout : Layout) (members : List String) : String :=
  match members, layout with
  | [], _ => brackets.opening ++ brackets.closing
  | _, .oneLine =>
    brackets.opening ++ brackets.gap ++ ", ".intercalate members ++ brackets.gap ++ brackets.closing
  | _, .spread =>
    brackets.opening ++ "\n" ++ String.join (members.map fun m => indented m ++ ",\n") ++
      brackets.closing

end DexCanon.Text
