import DexCanon.Text.Units

/-!
# Method and field references

A reference names a member of a class by the descriptor of the class, the name of the member and
the descriptors of its types. Nothing is required of the parts: a reference may hold texts that
are no descriptors at all.

References are ordered part by part, each part by its 16-bit units. The printed form joins the
parts with the marks of the grammar; it does not escape them, so two references may print alike.
-/

set_option autoImplicit false

namespace DexCanon

structure MethodRef where
  owner : String
  name : String
  params : List String
  /-- Descriptor of the result, `V` for none. -/
  result : String
  deriving DecidableEq, Repr

structure FieldRef where
  owner : String
  name : String
  type : String
  deriving DecidableEq, Repr

/-- Descriptor by descriptor up to the first two that differ; if none do, the shorter list comes
first. -/
def compareTypes (a b : List String) : Ordering :=
  match (a.zipWith Text.compareUnits b).find? (· ≠ .eq) with
  | some order => order
  | none => Ord.compare a.length b.length

namespace MethodRef

/-- `class->name(params)result`, the parameters joined without separators. -/
def print (m : MethodRef) : String :=
  m.owner ++ "->" ++ m.name ++ "(" ++ String.join m.params ++ ")" ++ m.result

instance : ToString MethodRef := ⟨print⟩

/-- By class, name, result and then parameters; a parameter list that begins another comes first. -/
protected def compare (a b : MethodRef) : Ordering :=
  (Text.compareUnits a.owner b.owner).then <|
  (Text.compareUnits a.name b.name).then <|
  (Text.compareUnits a.result b.result).then <|
  compareTypes a.params b.params

instance : Ord MethodRef := ⟨MethodRef.compare⟩

def inspect (m : MethodRef) : String := "MethodRef(" ++ m.print ++ ")"

end MethodRef

namespace FieldRef

/-- `class->name:type`. -/
def print (f : FieldRef) : String := f.owner ++ "->" ++ f.name ++ ":" ++ f.type

instance : ToString FieldRef := ⟨print⟩

protected def compare (a b : FieldRef) : Ordering :=
  (Text.compareUnits a.owner b.owner).then <|
  (Text.compareUnits a.name b.name).then <|
  Text.compareUnits a.type b.type

instance : Ord FieldRef := ⟨FieldRef.compare⟩

def inspect (f : FieldRef) : String := "FieldRef(" ++ f.print ++ ")"

end FieldRef

end DexCanon
