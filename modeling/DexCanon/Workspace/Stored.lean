import DexCanon.Draft.Basic
import DexCanon.Workspace.Handle

/-!
# Values made of handles

Inside a canonical value, references and elements are again held through handles, and so is the set
of elements of an annotation. A handle that goes into a value keeps its identity there, and several
values may share it. Without its handles a stored value is a plain one, and what is told of values
elsewhere is told of that.
-/

set_option autoImplicit false

namespace DexCanon

mutual
inductive StoredValue where
  | scalar (s : Scalar)
  | field (f : Handle FieldRef)
  | method (m : MethodHandle)
  | enum (f : Handle FieldRef)
  | array (items : List StoredValue)
  | annot (type : String) (elements : Handle (OrderedSet (Handle StoredElement)))
structure StoredElement where
  name : String
  value : StoredValue
end

abbrev ElementHandle := Handle StoredElement

abbrev ElementHandles := Handle (OrderedSet ElementHandle)

abbrev MethodHandles := Handle (OrderedSet MethodHandle)

-- A draft as someone holds it: what is foreign in it may still be changed, what is canonical is
-- held through handles.

mutual
inductive StoredDraft where
  | scalar (s : Scalar)
  | field (f : Held FieldRef (Handle FieldRef))
  | method (m : Held MethodRef MethodHandle)
  | enum (f : Held FieldRef (Handle FieldRef))
  | array (items : List StoredDraft)
  | annot (type : String) (elements : List (Held ForeignElement ElementHandle))
  | canonical (value : StoredValue)
structure ForeignElement where
  name : String
  value : StoredDraft
end

-- ---------------------------------------------------------------------------
-- Induction
-- ---------------------------------------------------------------------------

@[elab_as_elim]
theorem StoredValue.induction {P : StoredValue → Prop} (scalar : ∀ s, P (.scalar s))
    (field : ∀ f, P (.field f)) (method : ∀ m, P (.method m)) (enum : ∀ f, P (.enum f))
    (array : ∀ items, (∀ item ∈ items, P item) → P (.array items))
    (annot : ∀ type elements, (∀ e ∈ elements.content.members, P e.content.value) →
      P (.annot type elements)) (value : StoredValue) : P value :=
  @StoredValue.rec P (fun element => P element.value) (fun items => ∀ item ∈ items, P item)
    (fun set => ∀ e ∈ set.content.members, P e.content.value)
    (fun set => ∀ e ∈ set.members, P e.content.value)
    (fun members => ∀ e ∈ members, P e.content.value) (fun e => P e.content.value)
    scalar field method enum array annot (fun _ _ hv => hv)
    (by simp) (fun _ _ hi hr => List.forall_mem_cons.mpr ⟨hi, hr⟩) (fun _ _ hs => hs)
    (fun _ hm => hm) (by simp) (fun _ _ he hr => List.forall_mem_cons.mpr ⟨he, hr⟩)
    (fun _ _ he => he) value

@[elab_as_elim]
theorem StoredDraft.induction {P : StoredDraft → Prop} (scalar : ∀ s, P (.scalar s))
    (field : ∀ f, P (.field f)) (method : ∀ m, P (.method m)) (enum : ∀ f, P (.enum f))
    (array : ∀ items, (∀ item ∈ items, P item) → P (.array items))
    (annot : ∀ type elements, (∀ e, .foreign e ∈ elements → P e.value) → P (.annot type elements))
    (canonical : ∀ value, P (.canonical value)) (draft : StoredDraft) : P draft :=
  @StoredDraft.rec P (fun e => P e.value) (fun items => ∀ item ∈ items, P item)
    (fun elements => ∀ e, .foreign e ∈ elements → P e.value)
    (fun element => ∀ e, element = .foreign e → P e.value)
    scalar field method enum array annot canonical (fun _ _ hv => hv)
    (by simp) (fun _ _ hi hr => List.forall_mem_cons.mpr ⟨hi, hr⟩)
    (by simp)
    (fun _ _ hh hr e he => (List.mem_cons.mp he).elim (fun h => hh e h.symm) (hr e))
    (fun _ hf _ he => Held.foreign.inj he ▸ hf) (fun _ _ he => nomatch he) draft

-- ---------------------------------------------------------------------------
-- Without handles
-- ---------------------------------------------------------------------------

/-- What is held, be it by a handle, as it would be supplied. -/
def Held.supplied {α κ : Type} (content : κ → α) : Held α κ → Supplied α
  | .foreign entity => .foreign entity
  | .canonical handle => .canonical (content handle)

mutual
def StoredValue.bare : StoredValue → Value
  | .scalar s => .scalar s
  | .field f => .field f.content
  | .method m => .method m.content
  | .enum f => .enum f.content
  | .array items => .array (bareItems items)
  | .annot type elements => .annot ⟨type, bareSet elements⟩
def bareItems : List StoredValue → List Value
  | [] => []
  | item :: rest => item.bare :: bareItems rest
def bareSet : ElementHandles → ElementSet
  | ⟨_, ⟨members⟩⟩ => ⟨bareElements members⟩
def bareElements : List ElementHandle → List Element
  | [] => []
  | ⟨_, element⟩ :: rest => element.bare :: bareElements rest
def StoredElement.bare : StoredElement → Element
  | ⟨name, value⟩ => ⟨name, value.bare⟩
end

mutual
def StoredDraft.bare : StoredDraft → Draft
  | .scalar s => .scalar s
  | .field f => .field (f.supplied (·.content))
  | .method m => .method (m.supplied (·.content))
  | .enum f => .enum (f.supplied (·.content))
  | .array items => .array (bareDrafts items)
  | .annot type elements => .annot type (bareDraftElements elements)
  | .canonical value => .canonical value.bare
def bareDrafts : List StoredDraft → List Draft
  | [] => []
  | item :: rest => item.bare :: bareDrafts rest
def bareDraftElements : List (Held ForeignElement ElementHandle) → List DraftElement
  | [] => []
  | element :: rest => element.element :: bareDraftElements rest
def Held.element : Held ForeignElement ElementHandle → DraftElement
  | .foreign e => e.draft
  | .canonical handle => .canonical handle.content.bare
def ForeignElement.draft : ForeignElement → DraftElement
  | ⟨name, value⟩ => .foreign name value.bare
end

theorem StoredElement.bare_eq (e : StoredElement) : e.bare = ⟨e.name, e.value.bare⟩ := by
  cases e
  rfl

theorem bareItems_eq (items : List StoredValue) : bareItems items = items.map StoredValue.bare := by
  induction items with
  | nil => rfl
  | cons item rest ih => rw [bareItems, ih, List.map_cons]

theorem bareElements_eq (members : List ElementHandle) :
    bareElements members = members.map fun e => e.content.bare := by
  induction members with
  | nil => rfl
  | cons e rest ih => rw [bareElements, ih, List.map_cons]

theorem bareSet_eq (set : ElementHandles) :
    bareSet set = ⟨set.content.members.map fun e => e.content.bare⟩ := by
  rw [bareSet, bareElements_eq]

theorem bareDrafts_eq (items : List StoredDraft) :
    bareDrafts items = items.map StoredDraft.bare := by
  induction items with
  | nil => rfl
  | cons item rest ih => rw [bareDrafts, ih, List.map_cons]

theorem bareDraftElements_eq (elements : List (Held ForeignElement ElementHandle)) :
    bareDraftElements elements = elements.map Held.element := by
  induction elements with
  | nil => rfl
  | cons element rest ih => rw [bareDraftElements, ih, List.map_cons]

-- ---------------------------------------------------------------------------
-- Order and equality
-- ---------------------------------------------------------------------------

def StoredValue.valueType : StoredValue → ValueType
  | .scalar s => s.valueType
  | .field _ => .field
  | .method _ => .method
  | .enum _ => .enum
  | .array _ => .array
  | .annot _ _ => .annot

-- The order of plain values, except that method references are looked at only if their identities
-- differ, at every depth.

mutual
protected def StoredValue.compare : StoredValue → StoredValue → Ordering
  | .scalar a, .scalar b => a.compare b
  | .field a, .field b => a.compare b
  | .method a, .method b => a.compare b
  | .enum a, .enum b => a.compare b
  | .array a, .array b => compareStoredItems a b
  | .annot aType a, .annot bType b => (Text.compareUnits aType bType).then (compareStoredSets a b)
  | a, b => a.valueType.compare b.valueType
termination_by structural a => a
def compareStoredItems : List StoredValue → List StoredValue → Ordering
  | [], [] => .eq
  | [], _ :: _ => .lt
  | _ :: _, [] => .gt
  | a :: as, b :: bs => (a.compare b).then (compareStoredItems as bs)
termination_by structural a => a
def compareStoredSets : ElementHandles → ElementHandles → Ordering
  | ⟨_, ⟨a⟩⟩, ⟨_, ⟨b⟩⟩ => compareStoredElements a b
termination_by structural a => a
def compareStoredElements : List ElementHandle → List ElementHandle → Ordering
  | [], [] => .eq
  | [], _ :: _ => .lt
  | _ :: _, [] => .gt
  | ⟨_, a⟩ :: as, ⟨_, b⟩ :: bs => (a.compare b).then (compareStoredElements as bs)
termination_by structural a => a
protected def StoredElement.compare : StoredElement → StoredElement → Ordering
  | ⟨aName, aValue⟩, ⟨bName, bValue⟩ => (Text.compareUnits aName bName).then (aValue.compare bValue)
termination_by structural a => a
end

instance : Ord StoredValue := ⟨StoredValue.compare⟩
instance : Ord StoredElement := ⟨StoredElement.compare⟩

protected def StoredValue.beq (a b : StoredValue) : Bool := a.compare b == .eq

instance : BEq StoredValue := ⟨StoredValue.beq⟩

protected def StoredElement.beq (a b : StoredElement) : Bool :=
  a.name == b.name && a.value == b.value

instance : BEq StoredElement := ⟨StoredElement.beq⟩

end DexCanon
