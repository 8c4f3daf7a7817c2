import DexCanon.Decimal.Notation
import DexCanon.Text.Quoted
import DexCanon.Text.Layout
import DexCanon.Text.Units
import DexCanon.Value.ValueType

/-!
# Scalars

A scalar is a value that stands for itself. Floating-point numbers are held as their bits and
are the same only if all their bits are.

Scalars are ordered by type code and within one type by what they hold: numbers and truth values by
size, texts by their 16-bit units, floating-point numbers by the total order of their bits, in which
the negative ones run backwards, minus zero stands before zero and what is not a number stands
outside the infinities.
-/

set_option autoImplicit false

namespace DexCanon

inductive Scalar where
  | byte (value : Int8)
  | short (value : Int16)
  | char (value : UInt16)
  | int (value : Int32)
  | long (value : Int64)
  | float (bits : UInt32)
  | double (bits : UInt64)
  | string (text : String)
  | type (descriptor : String)
  | null
  | boolean (value : Bool)
  deriving DecidableEq, Repr

/-- Position in the total order of floating-point numbers with `width` bits: the sign bit makes a
number negative, the other bits count its size. -/
def totalOrderKey (width bits : Nat) : Int :=
  if bits < Nat.pow 2 (width - 1) then bits else Nat.pow 2 (width - 1) - 1 - bits

namespace Scalar

def valueType : Scalar → ValueType
  | byte _ => .byte
  | short _ => .short
  | char _ => .char
  | int _ => .int
  | long _ => .long
  | float _ => .float
  | double _ => .double
  | string _ => .string
  | type _ => .type
  | null => .null
  | boolean _ => .boolean

/-- What is compared between scalars of one type that is not a type of texts. -/
def number : Scalar → Int
  | byte value => value.toInt
  | short value => value.toInt
  | char value => value.toNat
  | int value => value.toInt
  | long value => value.toInt
  | float bits => totalOrderKey 32 bits.toNat
  | double bits => totalOrderKey 64 bits.toNat
  | boolean value => value.toNat
  | string _ | type _ | null => 0

def text : Scalar → String
  | string text => text
  | type descriptor => descriptor
  | _ => ""

protected def compare (a b : Scalar) : Ordering :=
  (Ord.compare a.valueType b.valueType).then <|
  (Ord.compare a.number b.number).then <|
  Text.compareUnits a.text b.text

instance : Ord Scalar := ⟨Scalar.compare⟩

def payload? : Scalar → Option String
  | byte value => some (toString value.toInt)
  | short value => some (toString value.toInt)
  | char value => some (toString value.toNat)
  | int value => some (toString value.toInt)
  | long value => some (toString value.toInt)
  | float bits => some (Decimal.single.write bits.toNat)
  | double bits => some (Decimal.double.write bits.toNat)
  | string text => some (Text.quoted text)
  | type descriptor => some (Text.quoted descriptor)
  | null => none
  | boolean value => some (toString value)

def inspect (layout : Text.Layout) (s : Scalar) : String :=
  match s.payload? with
  | none => s.valueType.name
  | some payload => (Text.Brackets.case s.valueType.name).around layout [payload]

end Scalar

end DexCanon
