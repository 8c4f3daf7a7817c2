import DexCanon.OrderedSet.Order
import DexCanon.Reference.Basic
import DexCanon.Value.Scalar

/-!
# Values, elements and annotations

A value is a constant of a container: a scalar, a reference to a member, an array of values or an
annotation. An annotation has a type and a set of elements, and an element gives a name to a value;
so values nest to any depth.

A value is ordered by its type code and within one type by what it holds, elements by name and then
value, annotations by type and then elements; arrays and sets of elements are ordered member by
member, and one that begins another comes first.
-/

set_option autoImplicit false

namespace DexCanon

mutual
inductive Value where
  | scalar (s : Scalar)
  | field (f : FieldRef)
  | method (m : MethodRef)
  /-- A constant of an enumeration, named by the field that holds it. -/
  | enum (f : FieldRef)
  | array (items : List Value)
  | annot (a : Annot)
structure Annot where
  type : String
  elements : OrderedSet Element
structure Element where
  name : String
  value : Value
end

abbrev ElementSet := OrderedSet Element

def Value.valueType : Value → ValueType
  | .scalar s => s.valueType
  | .field _ => .field
  | .method _ => .method
  | .enum _ => .enum
  | .array _ => .array
  | .annot _ => .annot

-- ---------------------------------------------------------------------------
-- Induction
-- ---------------------------------------------------------------------------

-- A value is handled by the values it holds: the items of an array, the values of elements.

@[elab_as_elim]
theorem Value.induction {P : Value → Prop} (scalar : ∀ s, P (.scalar s))
    (field : ∀ f, P (.field f)) (method : ∀ m, P (.method m)) (enum : ∀ f, P (.enum f))
    (array : ∀ items, (∀ item ∈ items, P item) → P (.array items))
    (annot : ∀ type members, (∀ element ∈ members, P element.value) →
      P (.annot ⟨type, ⟨members⟩⟩)) (value : Value) : P value :=
  @Value.rec P (fun a => P (.annot a)) (fun element => P element.value)
    (fun items => ∀ item ∈ items, P item)
    (fun set => ∀ element ∈ set.members, P element.value)
    (fun members => ∀ element ∈ members, P element.value)
    scalar field method enum array (fun _ ha => ha)
    (fun type set hs => annot type set.members hs) (fun _ _ hv => hv)
    (by simp) (fun _ _ hi hr => List.forall_mem_cons.mpr ⟨hi, hr⟩) (fun _ hm => hm)
    (by simp) (fun _ _ he hr => List.forall_mem_cons.mpr ⟨he, hr⟩) value

-- ---------------------------------------------------------------------------
-- Order
-- ---------------------------------------------------------------------------

mutual
protected def Value.compare : Value → Value → Ordering
  | .scalar a, .scalar b => a.compare b
  | .field a, .field b => a.compare b
  | .method a, .method b => a.compare b
  | .enum a, .enum b => a.compare b
  | .array a, .array b => compareItems a b
  | .annot a, .annot b => a.compare b
  | a, b => a.valueType.compare b.valueType
def compareItems : List Value → List Value → Ordering
  | [], [] => .eq
  | [], _ :: _ => .lt
  | _ :: _, [] => .gt
  | a :: as, b :: bs => (a.compare b).then (compareItems as bs)
protected def Annot.compare : Annot → Annot → Ordering
  | ⟨aType, aElements⟩, ⟨bType, bElements⟩ =>
    (Text.compareUnits aType bType).then (compareElementSets aElements bElements)
def compareElementSets : ElementSet → ElementSet → Ordering
  | ⟨a⟩, ⟨b⟩ => compareElements a b
def compareElements : List Element → List Element → Ordering
  | [], [] => .eq
  | [], _ :: _ => .lt
  | _ :: _, [] => .gt
  | a :: as, b :: bs => (a.compare b).then (compareElements as bs)
protected def Element.compare : Element → Element → Ordering
  | ⟨aName, aValue⟩, ⟨bName, bValue⟩ => (Text.compareUnits aName bName).then (aValue.compare bValue)
end

instance : Ord Value := ⟨Value.compare⟩
instance : Ord Element := ⟨Element.compare⟩
instance : Ord Annot := ⟨Annot.compare⟩
instance : Ord ElementSet := ⟨compareElementSets⟩

-- ---------------------------------------------------------------------------
-- Equality
-- ---------------------------------------------------------------------------

-- Values are the same if the order says so; what is made of them compares its parts.

protected def Value.beq (a b : Value) : Bool := a.compare b == .eq

instance : BEq Value := ⟨Value.beq⟩

protected def Element.beq (a b : Element) : Bool := a.name == b.name && a.value == b.value

instance : BEq Element := ⟨Element.beq⟩
instance : BEq ElementSet := ⟨fun a b => a.members == b.members⟩

protected def Annot.beq (a b : Annot) : Bool := a.type == b.type && a.elements == b.elements

instance : BEq Annot := ⟨Annot.beq⟩

-- ---------------------------------------------------------------------------
-- Elements of an annotation
-- ---------------------------------------------------------------------------

namespace Element

def byName : SetOrder Element where
  compare a b := Text.compareUnits a.name b.name
  key := name
  subject := "annotation value"

@[simp] theorem byName_compare (a b : Element) :
    byName.compare a b = Text.compareUnits a.name b.name := rfl

@[simp] theorem byName_key (e : Element) : byName.key e = e.name := rfl

@[simp] theorem byName_subject : byName.subject = "annotation value" := rfl

end Element

/-- The element of a name, in a set that is ordered by name. -/
def OrderedSet.named? (set : ElementSet) (name : String) : Option Element :=
  set.searchBy fun element => Text.compareUnits element.name name

def Annot.element? (a : Annot) (name : String) : Option Element := a.elements.named? name

end DexCanon
