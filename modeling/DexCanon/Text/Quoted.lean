/-!
# Quoted text

A text is quoted by standing between quotation marks. Quotation marks, backslashes and the control
characters of ASCII are replaced by escapes; all other characters stand for themselves.
-/

set_option autoImplicit false

namespace DexCanon.Text

/-- The escape of a character, if it may not stand for itself. -/
def escape? (c : Char) : Option (List Char) :=
  if c = '"' then some ['\\', '"']
  else if c = '\\' then some ['\\', '\\']
  else if c = '\n' then some ['\\', 'n']
  else if c = '\r' then some ['\\', 'r']
  else if c = '\t' then some ['\\', 't']
  else if c.toNat = 0 then some ['\\', '0']
  else if c.toNat < 0x20 ∨ c.toNat = 0x7f then
    some (['\\', 'u', '\x7b'] ++ Nat.toDigits 16 c.toNat ++ ['\x7d'])
  else none

def quoted (text : String) : String :=
  String.ofList (['"'] ++ text.toList.flatMap (fun c => (escape? c).getD [c]) ++ ['"'])

end DexCanon.Text
