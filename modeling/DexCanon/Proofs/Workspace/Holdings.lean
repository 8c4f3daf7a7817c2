import DexCanon.Proofs.Value.Agreement
import DexCanon.Workspace.Stored

/-!
# What is held under an identity

An entity holds handles, in the open or deep inside a value. While an identity stands for one
content, looking at identities first answers what looking at the parts alone would: handles of one
identity are the same handle, and values, elements and references compare as they do without their
handles.
-/

set_option autoImplicit false

namespace DexCanon

/-- What is held under an identity, whatever its kind. -/
inductive Content where
  | method (m : MethodRef) (paramsIdentity : Nat)
  | field (f : FieldRef)
  | element (e : StoredElement)

abbrev Holding := Handle Content

namespace Holding

def method (h : MethodHandle) : Holding := ⟨h.identity, .method h.content h.paramsIdentity⟩

def field (h : Handle FieldRef) : Holding := ⟨h.identity, .field h.content⟩

def element (h : ElementHandle) : Holding := ⟨h.identity, .element h.content⟩

theorem method_injective {a b : MethodHandle} (h : method a = method b) : a = b := by
  obtain ⟨⟨_, _⟩, _⟩ := a
  obtain ⟨⟨_, _⟩, _⟩ := b
  cases h
  rfl

theorem element_injective {a b : ElementHandle} (h : element a = element b) : a = b := by
  obtain ⟨_, _⟩ := a
  obtain ⟨_, _⟩ := b
  cases h
  rfl

end Holding

-- ---------------------------------------------------------------------------
-- The handles of an entity
-- ---------------------------------------------------------------------------

mutual
def StoredValue.holdings : StoredValue → List Holding
  | .scalar _ => []
  | .field f | .enum f => [.field f]
  | .method m => [.method m]
  | .array items => itemHoldings items
  | .annot _ elements => setHoldings elements
def itemHoldings : List StoredValue → List Holding
  | [] => []
  | item :: rest => item.holdings ++ itemHoldings rest
def setHoldings : ElementHandles → List Holding
  | ⟨_, ⟨members⟩⟩ => memberHoldings members
def memberHoldings : List ElementHandle → List Holding
  | [] => []
  | member :: rest => elementHoldings member ++ memberHoldings rest
def elementHoldings : ElementHandle → List Holding
  | ⟨identity, ⟨name, value⟩⟩ => .element ⟨identity, ⟨name, value⟩⟩ :: value.holdings
end

/-- The handles that something held by a handle or not has, if those of a handle are known. -/
def Held.holdings {α κ : Type} (within : κ → List Holding) : Held α κ → List Holding
  | .foreign _ => []
  | .canonical handle => within handle

mutual
def StoredDraft.holdings : StoredDraft → List Holding
  | .scalar _ => []
  | .field f | .enum f => f.holdings fun h => [.field h]
  | .method m => m.holdings fun h => [.method h]
  | .array items => draftHoldings items
  | .annot _ elements => entityHoldings elements
  | .canonical value => value.holdings
def draftHoldings : List StoredDraft → List Holding
  | [] => []
  | item :: rest => item.holdings ++ draftHoldings rest
def entityHoldings : List (Held ForeignElement ElementHandle) → List Holding
  | [] => []
  | entity :: rest => heldElementHoldings entity ++ entityHoldings rest
def heldElementHoldings : Held ForeignElement ElementHandle → List Holding
  | .foreign e => foreignHoldings e
  | .canonical handle => elementHoldings handle
def foreignHoldings : ForeignElement → List Holding
  | ⟨_, value⟩ => value.holdings
end

theorem itemHoldings_eq (items : List StoredValue) :
    itemHoldings items = items.flatMap StoredValue.holdings := by
  induction items with
  | nil => rfl
  | cons item rest ih => rw [itemHoldings, ih, List.flatMap_cons]

theorem memberHoldings_eq (members : List ElementHandle) :
    memberHoldings members = members.flatMap elementHoldings := by
  induction members with
  | nil => rfl
  | cons member rest ih => rw [memberHoldings, ih, List.flatMap_cons]

theorem setHoldings_eq (set : ElementHandles) :
    setHoldings set = set.content.members.flatMap elementHoldings := by
  rw [setHoldings, memberHoldings_eq]

theorem elementHoldings_eq (e : ElementHandle) :
    elementHoldings e = .element e :: e.content.value.holdings := by
  obtain ⟨_, _, _⟩ := e
  rfl

theorem foreignHoldings_eq (e : ForeignElement) : foreignHoldings e = e.value.holdings := by
  cases e
  rfl

theorem draftHoldings_eq (items : List StoredDraft) :
    draftHoldings items = items.flatMap StoredDraft.holdings := by
  induction items with
  | nil => rfl
  | cons item rest ih => rw [draftHoldings, ih, List.flatMap_cons]

theorem entityHoldings_eq (entities : List (Held ForeignElement ElementHandle)) :
    entityHoldings entities = entities.flatMap heldElementHoldings := by
  induction entities with
  | nil => rfl
  | cons entity rest ih => rw [entityHoldings, ih, List.flatMap_cons]

-- ---------------------------------------------------------------------------
-- What is inside
-- ---------------------------------------------------------------------------

/-- Together with an element, all that is inside its value is held. -/
def Closed (held : List Holding) : Prop :=
  ∀ e, .element e ∈ held → e.content.value.holdings ⊆ held

namespace Closed

variable {β : Type}

theorem nil : Closed [] := by simp [Closed]

theorem append {first second : List Holding} (hf : Closed first) (hs : Closed second) :
    Closed (first ++ second) := by
  intro e he
  rcases List.mem_append.mp he with he | he
  · exact List.subset_append_of_subset_left second (hf e he)
  · exact List.subset_append_of_subset_right first (hs e he)

theorem flatMap {f : β → List Holding} {xs : List β} (h : ∀ x ∈ xs, Closed (f x)) :
    Closed (xs.flatMap f) := by
  intro e he
  obtain ⟨x, hx, he⟩ := List.mem_flatMap.mp he
  exact fun held hheld => List.mem_flatMap.mpr ⟨x, hx, h x hx e he hheld⟩

theorem element {e : ElementHandle} (h : Closed e.content.value.holdings) :
    Closed (elementHoldings e) := by
  rw [elementHoldings_eq]
  intro inner hinner
  rcases List.mem_cons.mp hinner with heq | hinner
  · obtain rfl := Holding.element_injective heq
    exact List.subset_cons_self _ _
  · exact List.subset_cons_of_subset _ (h inner hinner)

end Closed

theorem StoredValue.closed (v : StoredValue) : Closed v.holdings := by
  induction v using StoredValue.induction with
  | scalar s => exact .nil
  | field f | method m | enum f =>
    simp [Closed, holdings, Holding.element, Holding.field, Holding.method]
  | array items ih =>
    rw [holdings, itemHoldings_eq]
    exact .flatMap ih
  | annot type elements ih =>
    rw [holdings, setHoldings_eq]
    exact .flatMap fun e he => .element (ih e he)

theorem closed_elementHoldings (e : ElementHandle) : Closed (elementHoldings e) :=
  .element e.content.value.closed

theorem Held.closed {α κ : Type} {within : κ → List Holding} (h : ∀ k, Closed (within k))
    (entity : Held α κ) : Closed (entity.holdings within) := by
  cases entity with
  | foreign _ => exact .nil
  | canonical k => exact h k

theorem closed_field (f : Handle FieldRef) : Closed [.field f] := (StoredValue.field f).closed

theorem closed_method (m : MethodHandle) : Closed [.method m] := (StoredValue.method m).closed

theorem closed_heldElementHoldings {entity : Held ForeignElement ElementHandle}
    (h : ∀ e, entity = .foreign e → Closed e.value.holdings) :
    Closed (heldElementHoldings entity) := by
  cases entity with
  | foreign e =>
    rw [heldElementHoldings, foreignHoldings_eq]
    exact h e rfl
  | canonical handle => exact closed_elementHoldings handle

theorem StoredDraft.closed (d : StoredDraft) : Closed d.holdings := by
  induction d using StoredDraft.induction with
  | scalar s => exact .nil
  | field f | enum f => exact f.closed closed_field
  | method m => exact m.closed closed_method
  | array items ih =>
    rw [holdings, draftHoldings_eq]
    exact .flatMap ih
  | annot type elements ih =>
    rw [holdings, entityHoldings_eq]
    exact .flatMap fun entity hentity =>
      closed_heldElementHoldings fun e he => ih e (he ▸ hentity)
  | canonical value => exact value.closed

-- ---------------------------------------------------------------------------
-- Identities in use
-- ---------------------------------------------------------------------------

def Unused (held : List Holding) (identity : Nat) : Prop := ∀ h ∈ held, h.identity ≠ identity

/-- All identities of what is held are smaller than the next one, and each stands for one
holding. -/
structure Tracked (next : Nat) (held : List Holding) : Prop where
  below : ∀ h ∈ held, h.identity < next
  unique : ∀ a ∈ held, ∀ b ∈ held, a.identity = b.identity → a = b

namespace Tracked

variable {next after : Nat} {held : List Holding}

theorem nil (next : Nat) : Tracked next [] := ⟨by simp, by simp⟩

theorem mono (h : Tracked next held) (hle : next ≤ after) {some : List Holding}
    (hs : some ⊆ held) : Tracked after some where
  below a ha := Nat.lt_of_lt_of_le (h.below a (hs ha)) hle
  unique a ha b hb := h.unique a (hs ha) b (hs hb)

theorem subset (h : Tracked next held) {some : List Holding} (hs : some ⊆ held) :
    Tracked next some := h.mono (Nat.le_refl next) hs

theorem unused (h : Tracked next held) {identity : Nat} (hnew : next ≤ identity) :
    Unused held identity :=
  fun a ha => Nat.ne_of_lt (Nat.lt_of_lt_of_le (h.below a ha) hnew)

theorem cons (h : Tracked next held) {new : Holding} (hnew : next ≤ new.identity)
    (hafter : new.identity < after) : Tracked after (new :: held) where
  below := by
    intro a ha
    rcases List.mem_cons.mp ha with rfl | ha
    · exact hafter
    · exact Nat.lt_trans (Nat.lt_of_lt_of_le (h.below a ha) hnew) hafter
  unique := by
    have hunused : Unused held new.identity := h.unused hnew
    intro a ha b hb heq
    rw [List.mem_cons] at ha hb
    rcases ha with rfl | ha <;> rcases hb with rfl | hb
    · rfl
    · exact absurd heq.symm (hunused b hb)
    · exact absurd heq (hunused a ha)
    · exact h.unique a ha b hb heq

-- ---------------------------------------------------------------------------
-- Looking at identities first
-- ---------------------------------------------------------------------------

theorem method_eq (h : Tracked next held) {a b : MethodHandle} (ha : .method a ∈ held)
    (hb : .method b ∈ held) (hsame : a.identity = b.identity) : a = b :=
  Holding.method_injective (h.unique _ ha _ hb hsame)

theorem element_eq (h : Tracked next held) {a b : ElementHandle} (ha : .element a ∈ held)
    (hb : .element b ∈ held) (hsame : a.identity = b.identity) : a = b :=
  Holding.element_injective (h.unique _ ha _ hb hsame)

theorem compare_method (h : Tracked next held) {a b : MethodHandle} (ha : .method a ∈ held)
    (hb : .method b ∈ held) : a.compare b = a.content.compare b.content :=
  MethodHandle.compare_eq fun hsame => congrArg (·.content) (h.method_eq ha hb hsame)

theorem beq_method (h : Tracked next held) {a b : MethodHandle} (ha : .method a ∈ held)
    (hb : .method b ∈ held) : (a == b) = (a.content == b.content) :=
  Handle.beq_eq fun hsame => congrArg (·.content) (h.method_eq ha hb hsame)

end Tracked

theorem compareStoredItems_eq (as bs : List StoredValue) :
    compareStoredItems as bs = List.compareLex StoredValue.compare as bs := by
  refine eq_compareLex ?_ ?_ ?_ ?_ as bs <;> intros <;> rw [compareStoredItems]

theorem compareStoredElements_eq (as bs : List ElementHandle) :
    compareStoredElements as bs =
      List.compareLex (fun a b => a.content.compare b.content) as bs := by
  refine eq_compareLex ?_ ?_ ?_ ?_ as bs <;> intros <;> rw [compareStoredElements]

theorem StoredElement.compare_eq (a b : StoredElement) :
    a.compare b = (Text.compareUnits a.name b.name).then (a.value.compare b.value) := by
  cases a
  cases b
  rfl

namespace Tracked

variable {next : Nat} {held : List Holding}

theorem compare_value (h : Tracked next held) {v w : StoredValue} (hv : v.holdings ⊆ held)
    (hw : w.holdings ⊆ held) : v.compare w = v.bare.compare w.bare := by
  induction v using StoredValue.induction generalizing w with
  | scalar s =>
    cases w <;> simp [StoredValue.compare, StoredValue.bare, Value.compare, StoredValue.valueType,
        Value.valueType]
  | field f | enum f =>
    cases w <;> simp [StoredValue.compare, StoredValue.bare, Value.compare, StoredValue.valueType,
        Value.valueType, Handle.compare]
    rfl
  | method m =>
    cases w with
    | method n =>
      simp only [StoredValue.compare, StoredValue.bare, Value.compare]
      exact h.compare_method (hv List.mem_cons_self) (hw List.mem_cons_self)
    | _ => simp [StoredValue.compare, StoredValue.bare, Value.compare, StoredValue.valueType,
        Value.valueType]
  | array items ih =>
    cases w with
    | array others =>
      rw [StoredValue.holdings, itemHoldings_eq] at hv hw
      rw [StoredValue.compare, StoredValue.bare, StoredValue.bare, Value.compare, bareItems_eq,
        bareItems_eq, compareStoredItems_eq, compareItems_eq]
      refine compareLex_map fun a ha b hb => ih a ha ?_ ?_
      · exact fun x hx => hv (List.mem_flatMap_of_mem ha hx)
      · exact fun x hx => hw (List.mem_flatMap_of_mem hb hx)
    | _ => simp [StoredValue.compare, StoredValue.bare, Value.compare, StoredValue.valueType,
        Value.valueType]
  | annot type elements ih =>
    cases w with
    | annot other others =>
      rw [StoredValue.holdings, setHoldings_eq] at hv hw
      rw [StoredValue.compare, StoredValue.bare, StoredValue.bare, Value.compare, Annot.compare_eq,
        compareElementSets_eq, bareSet_eq, bareSet_eq, compareStoredSets, compareStoredElements_eq]
      refine congrArg _ (compareLex_map fun a ha b hb => ?_)
      have hin : a.content.value.compare b.content.value =
          a.content.value.bare.compare b.content.value.bare := by
        refine ih a ha (fun x hx => hv (List.mem_flatMap_of_mem ha ?_))
          (fun x hx => hw (List.mem_flatMap_of_mem hb ?_))
        · exact elementHoldings_eq a ▸ List.mem_cons_of_mem _ hx
        · exact elementHoldings_eq b ▸ List.mem_cons_of_mem _ hx
      rw [StoredElement.compare_eq, Element.compare_eq, hin, StoredElement.bare_eq,
        StoredElement.bare_eq]
    | _ => simp [StoredValue.compare, StoredValue.bare, Value.compare, StoredValue.valueType,
        Value.valueType]

theorem beq_value (h : Tracked next held) {v w : StoredValue} (hv : v.holdings ⊆ held)
    (hw : w.holdings ⊆ held) : (v == w) = (v.bare == w.bare) :=
  congrArg (· == .eq) (h.compare_value hv hw)

section

variable {a b : ElementHandle} (h : Tracked next held) (hc : Closed held)
  (ha : .element a ∈ held) (hb : .element b ∈ held)

include h hc ha hb

theorem compare_element : a.compare b = a.content.bare.compare b.content.bare := by
  have hvalue := h.compare_value (hc a ha) (hc b hb)
  calc
    a.compare b = a.content.compare b.content := rfl
    _ = a.content.bare.compare b.content.bare := by
      rw [StoredElement.compare_eq, Element.compare_eq, hvalue, StoredElement.bare_eq,
        StoredElement.bare_eq]

theorem beq_element : (a == b) = (a.content.bare == b.content.bare) := by
  have hcontent : (a.content == b.content) = (a.content.bare == b.content.bare) := by
    rw [StoredElement.bare_eq, StoredElement.bare_eq]
    exact congrArg (a.content.name == b.content.name && ·) (h.beq_value (hc a ha) (hc b hb))
  show (a.same b || a.content == b.content) = _
  rw [hcontent, Bool.or_eq_right_iff_imp]
  intro hsame
  obtain rfl := h.element_eq ha hb (beq_iff_eq.mp hsame)
  exact beq_self_eq_true _

end

end Tracked

end DexCanon
