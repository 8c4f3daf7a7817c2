/-!
# Text order by 16-bit units

A container sorts names by the 16-bit units of their text, not by code point. The two orders part
where a character from U+10000 up, written as a surrogate pair, meets one in U+E000 to U+FFFF: the
pair starts with a unit below U+E000, so it comes first.
-/

set_option autoImplicit false

namespace DexCanon.Text

/-- The 16-bit units of one character: the character itself below U+10000, a surrogate pair
above. -/
def unitsOf (c : Char) : List Nat :=
  if c.toNat < 0x10000 then [c.toNat]
  else [0xD800 + (c.toNat - 0x10000) / 0x400, 0xDC00 + (c.toNat - 0x10000) % 0x400]

def units (text : String) : List Nat := text.toList.flatMap unitsOf

/-- Lexicographic order of the code points, which is also that of the bytes in UTF-8. -/
def compareCodePoints (a b : String) : Ordering := compare a b

def isAscii (text : String) : Bool := text.toList.all fun c => c.toNat < 0x80

/-- Lexicographic order of the 16-bit units; a proper beginning comes first. Between texts of ASCII
the code points decide. -/
def compareUnits (a b : String) : Ordering :=
  if isAscii a && isAscii b then compareCodePoints a b
  else List.compareLex compare (units a) (units b)

end DexCanon.Text
