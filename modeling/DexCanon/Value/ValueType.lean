/-!
# Types of values

Every value has one of sixteen types, and every type a code, under which it is stored. Types are
ordered by their codes.
-/

set_option autoImplicit false

namespace DexCanon

inductive ValueType where
  | byte
  | short
  | char
  | int
  | long
  | float
  | double
  | string
  | type
  | field
  | method
  | enum
  | array
  | annot
  | null
  | boolean
  deriving DecidableEq, Repr

namespace ValueType

def all : List ValueType :=
  [byte, short, char, int, long, float, double, string, type, field, method, enum, array,
    annot, null, boolean]

def code : ValueType → Nat
  | byte => 0x00
  | short => 0x02
  | char => 0x03
  | int => 0x04
  | long => 0x06
  | float => 0x10
  | double => 0x11
  | string => 0x17
  | type => 0x18
  | field => 0x19
  | method => 0x1a
  | enum => 0x1b
  | array => 0x1c
  | annot => 0x1d
  | null => 0x1e
  | boolean => 0x1f

def ofCode? (code : Nat) : Option ValueType := all.find? (·.code = code)

theorem ofCode?_code (t : ValueType) : ofCode? t.code = some t := by cases t <;> rfl

def name : ValueType → String
  | byte => "Byte"
  | short => "Short"
  | char => "Char"
  | int => "Int"
  | long => "Long"
  | float => "Float"
  | double => "Double"
  | string => "String"
  | type => "Type"
  | field => "Field"
  | method => "Method"
  | enum => "Enum"
  | array => "Array"
  | annot => "Annotation"
  | null => "Null"
  | boolean => "Boolean"

instance : ToString ValueType := ⟨name⟩

protected def compare (a b : ValueType) : Ordering := Ord.compare a.code b.code

instance : Ord ValueType := ⟨ValueType.compare⟩

end ValueType

end DexCanon
