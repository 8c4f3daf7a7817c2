import DexCanon.Value.Basic

/-!
# Named rules

The rules by which sets of elements, methods, fields and values can be built on request. Each kind
of member has one rule of its own, which fixes how duplicates are reported; for all other rules the
caller says what kind of thing is dropped.
-/

set_option autoImplicit false

namespace DexCanon

inductive ElementOrder where
  | byName
  | nameReversed
  | nameByCodePoint
  | nameLength
  | value
  | valueType
  | full
  | allEqual
  deriving DecidableEq, Repr

def ElementOrder.compare : ElementOrder → Element → Element → Ordering
  | byName, a, b => Text.compareUnits a.name b.name
  | nameReversed, a, b => Text.compareUnits b.name a.name
  | nameByCodePoint, a, b => Text.compareCodePoints a.name b.name
  | nameLength, a, b => Ord.compare a.name.utf8ByteSize b.name.utf8ByteSize
  | value, a, b => a.value.compare b.value
  | valueType, a, b => a.value.valueType.compare b.value.valueType
  | full, a, b => a.compare b
  | allEqual, _, _ => .eq

def ElementOrder.rule (subject : String) : ElementOrder → SetOrder Element
  | byName => Element.byName
  | order => { compare := order.compare, key := (·.name), subject }

inductive MethodOrder where
  | natural
  | nameByCodePoint
  | owner
  | result
  | arity
  | reversed
  | allEqual
  deriving DecidableEq, Repr

def MethodOrder.compare : MethodOrder → MethodRef → MethodRef → Ordering
  | natural, a, b => a.compare b
  | nameByCodePoint, a, b => Text.compareCodePoints a.name b.name
  | owner, a, b => Text.compareUnits a.owner b.owner
  | result, a, b => Text.compareUnits a.result b.result
  | arity, a, b => Ord.compare a.params.length b.params.length
  | reversed, a, b => b.compare a
  | allEqual, _, _ => .eq

def MethodOrder.rule (subject : String) : MethodOrder → SetOrder MethodRef
  | natural => .natural
  | order => { compare := order.compare, key := (·.name), subject }

inductive FieldOrder where
  | natural
  | nameByCodePoint
  | owner
  | type
  | reversed
  | allEqual
  deriving DecidableEq, Repr

def FieldOrder.compare : FieldOrder → FieldRef → FieldRef → Ordering
  | natural, a, b => a.compare b
  | nameByCodePoint, a, b => Text.compareCodePoints a.name b.name
  | owner, a, b => Text.compareUnits a.owner b.owner
  | type, a, b => Text.compareUnits a.type b.type
  | reversed, a, b => b.compare a
  | allEqual, _, _ => .eq

def FieldOrder.rule (subject : String) : FieldOrder → SetOrder FieldRef
  | natural => .natural
  | order => { compare := order.compare, key := (·.name), subject }

inductive ValueOrder where
  | full
  | reversed
  | valueType
  | allEqual
  deriving DecidableEq, Repr

def ValueOrder.compare : ValueOrder → Value → Value → Ordering
  | full, a, b => a.compare b
  | reversed, a, b => b.compare a
  | valueType, a, b => a.valueType.compare b.valueType
  | allEqual, _, _ => .eq

/-- A value has no name; in a diagnostic it is called by its type code. -/
def ValueOrder.rule (subject : String) (order : ValueOrder) : SetOrder Value where
  compare := order.compare
  key value := toString value.valueType.code
  subject := subject

end DexCanon
