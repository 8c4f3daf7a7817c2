import DexCanon.Value.Basic

/-!
# Drafts

Entities come from outside in any representation. A draft is such an entity as it is handed in: a
foreign one, with its elements in any order and names repeated, or a canonical one, which is taken
as it is. Both kinds mix at every depth: a foreign entity may hold canonical ones.
-/

set_option autoImplicit false

namespace DexCanon

/-- An entity without parts that could be canonical themselves. -/
inductive Supplied (α : Type) where
  | foreign (content : α)
  | canonical (content : α)
  deriving DecidableEq, Repr

def Supplied.content {α : Type} : Supplied α → α
  | foreign content | canonical content => content

def Supplied.isForeign {α : Type} : Supplied α → Bool
  | foreign _ => true
  | canonical _ => false

mutual
inductive Draft where
  | scalar (s : Scalar)
  | field (f : Supplied FieldRef)
  | method (m : Supplied MethodRef)
  | enum (f : Supplied FieldRef)
  | array (items : List Draft)
  | annot (type : String) (elements : List DraftElement)
  | canonical (value : Value)
inductive DraftElement where
  | foreign (name : String) (value : Draft)
  | canonical (element : Element)
end

namespace Draft

def isCanonical : Draft → Bool
  | canonical _ => true
  | _ => false

/-- What a canonical value looks like to someone who only looks at its parts: the parts are
canonical, the value around them is not. -/
def ofParts : Value → Draft
  | .scalar s => scalar s
  | .field f => field (.canonical f)
  | .method m => method (.canonical m)
  | .enum f => enum (.canonical f)
  | .array items => array (items.map canonical)
  | .annot a => annot a.type (a.elements.members.map .canonical)

def opened : Draft → Draft
  | canonical value => ofParts value
  | draft => draft

def valueType : Draft → ValueType
  | scalar s => s.valueType
  | field _ => .field
  | method _ => .method
  | enum _ => .enum
  | array _ => .array
  | annot _ _ => .annot
  | canonical value => value.valueType

end Draft

namespace DraftElement

def isCanonical : DraftElement → Bool
  | canonical _ => true
  | foreign _ _ => false

def name : DraftElement → String
  | foreign name _ => name
  | canonical element => element.name

def value : DraftElement → Draft
  | foreign _ value => value
  | canonical element => .canonical element.value

end DraftElement

-- ---------------------------------------------------------------------------
-- Induction
-- ---------------------------------------------------------------------------

-- A draft is handled by the drafts it holds: the items of an array, the values of elements.

@[elab_as_elim]
theorem Draft.induction {P : Draft → Prop} (scalar : ∀ s, P (.scalar s))
    (field : ∀ f, P (.field f)) (method : ∀ m, P (.method m)) (enum : ∀ f, P (.enum f))
    (array : ∀ items, (∀ item ∈ items, P item) → P (.array items))
    (annot : ∀ type elements, (∀ element ∈ elements, P element.value) → P (.annot type elements))
    (canonical : ∀ value, P (.canonical value)) (draft : Draft) : P draft :=
  @Draft.rec P (fun element => P element.value) (fun items => ∀ item ∈ items, P item)
    (fun elements => ∀ element ∈ elements, P element.value)
    scalar field method enum array annot canonical
    (fun _ _ hv => hv) (fun element => canonical element.value)
    (by simp) (fun _ _ hi hr => List.forall_mem_cons.mpr ⟨hi, hr⟩)
    (by simp) (fun _ _ he hr => List.forall_mem_cons.mpr ⟨he, hr⟩) draft

-- ---------------------------------------------------------------------------
-- Foreign copies
-- ---------------------------------------------------------------------------

-- A value copied part by part to any depth, so that nothing in the copy is canonical.

mutual
def Value.toDraft : Value → Draft
  | .scalar s => .scalar s
  | .field f => .field (.foreign f)
  | .method m => .method (.foreign m)
  | .enum f => .enum (.foreign f)
  | .array items => .array (draftItems items)
  | .annot a => a.toDraft
def draftItems : List Value → List Draft
  | [] => []
  | item :: rest => item.toDraft :: draftItems rest
def Annot.toDraft : Annot → Draft
  | ⟨type, elements⟩ => .annot type (draftElementSet elements)
def draftElementSet : ElementSet → List DraftElement
  | ⟨members⟩ => draftElements members
def draftElements : List Element → List DraftElement
  | [] => []
  | element :: rest => element.toDraft :: draftElements rest
def Element.toDraft : Element → DraftElement
  | ⟨name, value⟩ => .foreign name value.toDraft
end

theorem draftItems_eq (items : List Value) : draftItems items = items.map Value.toDraft := by
  induction items with
  | nil => rfl
  | cons item rest ih => rw [draftItems, ih, List.map_cons]

theorem draftElements_eq (elements : List Element) :
    draftElements elements = elements.map Element.toDraft := by
  induction elements with
  | nil => rfl
  | cons element rest ih => rw [draftElements, ih, List.map_cons]

@[simp] theorem Value.toDraft_array (items : List Value) :
    (Value.array items).toDraft = .array (items.map Value.toDraft) := by
  rw [toDraft, draftItems_eq]

@[simp] theorem Value.toDraft_annot (type : String) (members : List Element) :
    (Value.annot ⟨type, ⟨members⟩⟩).toDraft = .annot type (members.map Element.toDraft) := by
  rw [toDraft, Annot.toDraft, draftElementSet, draftElements_eq]

-- ---------------------------------------------------------------------------
-- Foreign to any depth
-- ---------------------------------------------------------------------------

mutual
def Draft.isForeign : Draft → Bool
  | .scalar _ => true
  | .field f => f.isForeign
  | .method m => m.isForeign
  | .enum f => f.isForeign
  | .array items => itemsAreForeign items
  | .annot _ elements => elementsAreForeign elements
  | .canonical _ => false
def itemsAreForeign : List Draft → Bool
  | [] => true
  | item :: rest => item.isForeign && itemsAreForeign rest
def elementsAreForeign : List DraftElement → Bool
  | [] => true
  | element :: rest => element.isForeign && elementsAreForeign rest
def DraftElement.isForeign : DraftElement → Bool
  | .foreign _ value => value.isForeign
  | .canonical _ => false
end

theorem itemsAreForeign_iff {items : List Draft} :
    itemsAreForeign items = true ↔ ∀ item ∈ items, item.isForeign = true := by
  induction items with
  | nil => simp [itemsAreForeign]
  | cons item rest ih => simp [itemsAreForeign, ih]

theorem elementsAreForeign_iff {elements : List DraftElement} :
    elementsAreForeign elements = true ↔ ∀ element ∈ elements, element.isForeign = true := by
  induction elements with
  | nil => simp [elementsAreForeign]
  | cons element rest ih => simp [elementsAreForeign, ih]

end DexCanon
