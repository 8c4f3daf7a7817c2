import DexCanon.Draft.Canonicalize
import DexCanon.Workspace.Stored

/-!
# Work with handles

Work makes handles and reports to a sink. An entity that comes from outside is stored: what is
canonical in it goes under new handles. To canonicalize what is stored is to hand on the handles of
canonical entities as they are and to put copies of foreign ones under new handles, at every depth.
-/

set_option autoImplicit false

namespace DexCanon

/-- Work that makes handles and reports to a sink. The state is the next identity. -/
abbrev Work (σ : Type) := StateT Nat (StateM σ)

namespace Work

variable {σ : Type}

def mint : Work σ Nat := modifyGet fun next => (next, next + 1)

def grasp {α : Type} (content : α) : Work σ (Handle α) := do
  let identity ← mint
  return ⟨identity, content⟩

def graspMethod (m : MethodRef) : Work σ MethodHandle := do
  let handle ← grasp m
  let paramsIdentity ← mint
  return { handle with paramsIdentity }

-- ---------------------------------------------------------------------------
-- Storing
-- ---------------------------------------------------------------------------

/-- Stores a reference; `put` puts it under a handle. -/
def store {α κ : Type} (put : α → Work σ κ) : Supplied α → Work σ (Held α κ)
  | .foreign entity => return .foreign entity
  | .canonical entity => return .canonical (← put entity)

mutual
def storeValue : Value → Work σ StoredValue
  | .scalar s => return .scalar s
  | .field f => return .field (← grasp f)
  | .method m => return .method (← graspMethod m)
  | .enum f => return .enum (← grasp f)
  | .array items => return .array (← storeItems items)
  | .annot a => storeAnnot a
def storeItems : List Value → Work σ (List StoredValue)
  | [] => return []
  | item :: rest => return (← storeValue item) :: (← storeItems rest)
def storeAnnot : Annot → Work σ StoredValue
  | ⟨type, elements⟩ => return .annot type (← storeSet elements)
def storeSet : ElementSet → Work σ ElementHandles
  | ⟨members⟩ => do grasp ⟨← storeElements members⟩
def storeElements : List Element → Work σ (List ElementHandle)
  | [] => return []
  | element :: rest => return (← storeElement element) :: (← storeElements rest)
def storeElement : Element → Work σ ElementHandle
  | ⟨name, value⟩ => do grasp ⟨name, ← storeValue value⟩
end

mutual
def storeDraft : Draft → Work σ StoredDraft
  | .scalar s => return .scalar s
  | .field f => return .field (← store grasp f)
  | .method m => return .method (← store graspMethod m)
  | .enum f => return .enum (← store grasp f)
  | .array items => return .array (← storeDrafts items)
  | .annot type elements => return .annot type (← storeDraftElements elements)
  | .canonical value => return .canonical (← storeValue value)
def storeDrafts : List Draft → Work σ (List StoredDraft)
  | [] => return []
  | item :: rest => return (← storeDraft item) :: (← storeDrafts rest)
def storeDraftElements : List DraftElement → Work σ (List (Held ForeignElement ElementHandle))
  | [] => return []
  | element :: rest => return (← storeDraftElement element) :: (← storeDraftElements rest)
def storeDraftElement : DraftElement → Work σ (Held ForeignElement ElementHandle)
  | .foreign name value => return .foreign ⟨name, ← storeDraft value⟩
  | .canonical element => return .canonical (← storeElement element)
end

-- ---------------------------------------------------------------------------
-- Canonicalizing
-- ---------------------------------------------------------------------------

variable [Sink σ]

/-- The handle of the canonical form: the handle itself if the entity is canonical. -/
def method : Held MethodRef MethodHandle → Work σ MethodHandle
  | .canonical handle => return handle
  | .foreign m => graspMethod m

def field : Held FieldRef (Handle FieldRef) → Work σ (Handle FieldRef)
  | .canonical handle => return handle
  | .foreign f => grasp f

/-- Builds a set of handles by a rule for what they hold, under a handle of its own. -/
def collect {α κ : Type} (content : κ → α) (order : SetOrder α) (policy : SetPolicy)
    (candidates : List κ) : Work σ (Handle (OrderedSet κ)) := do
  let set ← StateT.lift (OrderedSet.collect (order.comap content) policy candidates)
  grasp set

mutual
def value : StoredDraft → Work σ StoredValue
  | .scalar s => return .scalar s
  | .field f => return .field (← field f)
  | .method m => return .method (← method m)
  | .enum f => return .enum (← field f)
  | .array items => return .array (← values items)
  | .annot type entities => do
    let candidates ← elements entities
    let set ← collect (·.content.bare) Element.byName {} candidates
    return .annot type set
  | .canonical value => return value
def values : List StoredDraft → Work σ (List StoredValue)
  | [] => return []
  | item :: rest => return (← value item) :: (← values rest)
def elements : List (Held ForeignElement ElementHandle) → Work σ (List ElementHandle)
  | [] => return []
  | entity :: rest => return (← element entity) :: (← elements rest)
def element : Held ForeignElement ElementHandle → Work σ ElementHandle
  | .canonical handle => return handle
  | .foreign e => foreignElement e
def foreignElement : ForeignElement → Work σ ElementHandle
  | ⟨name, draft⟩ => do grasp ⟨name, ← value draft⟩
end

def elementSet (order : SetOrder Element) (policy : SetPolicy)
    (entities : List (Held ForeignElement ElementHandle)) : Work σ ElementHandles := do
  let candidates ← entities.mapM element
  collect (·.content.bare) order policy candidates

def methodSet (order : SetOrder MethodRef) (policy : SetPolicy)
    (entities : List (Held MethodRef MethodHandle)) : Work σ MethodHandles := do
  let candidates ← entities.mapM method
  collect (·.content) order policy candidates

end Work

end DexCanon
