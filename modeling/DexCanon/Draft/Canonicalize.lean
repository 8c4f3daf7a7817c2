import DexCanon.Draft.Basic
import DexCanon.OrderedSet.Build
import DexCanon.Sink.Report

/-!
# Canonical form

Canonicalization copies a foreign entity part by part and takes a canonical one as it is. The only
thing it changes is the elements of a foreign annotation: they are ordered by name, of several
elements of one name the first stays, and each of the others is reported. Elements are
canonicalized in the order of the input before any of them is dropped, so a dropped element still
reports what it holds.
-/

set_option autoImplicit false

namespace DexCanon

/-- Entities of type `δ` have a canonical form of type `α`. What is dropped on the way is reported
to a sink. -/
class Canonicalize (δ : Type) (α : outParam Type) where
  canonicalize {σ : Type} [Sink σ] : δ → StateM σ α
  /-- A sink is only written to, so it has no part in the form or in what is reported. -/
  oblivious (entity : δ) : ∃ form trace, Reports (canonicalize entity) form trace

section

variable {σ : Type} [Sink σ]

mutual
def Draft.canonicalize : Draft → StateM σ Value
  | .scalar s => pure (.scalar s)
  | .field f => pure (.field f.content)
  | .method m => pure (.method m.content)
  | .enum f => pure (.enum f.content)
  | .array items => do
    let items ← canonicalizeItems items
    return .array items
  | .annot type elements => do
    let elements ← canonicalizeElements elements
    let elements ← OrderedSet.collect Element.byName {} elements
    return .annot ⟨type, elements⟩
  | .canonical value => pure value
def canonicalizeItems : List Draft → StateM σ (List Value)
  | [] => pure []
  | item :: rest => do
    let item ← item.canonicalize
    let rest ← canonicalizeItems rest
    return item :: rest
def canonicalizeElements : List DraftElement → StateM σ (List Element)
  | [] => pure []
  | element :: rest => do
    let element ← element.canonicalize
    let rest ← canonicalizeElements rest
    return element :: rest
def DraftElement.canonicalize : DraftElement → StateM σ Element
  | .foreign name value => do
    let value ← value.canonicalize
    return ⟨name, value⟩
  | .canonical element => pure element
end

/-- The canonical form of a value as if the value itself were foreign, whatever it is. -/
def Draft.copy (draft : Draft) : StateM σ Value := draft.opened.canonicalize

end

theorem OrderedSet.collect_reports {α : Type} (order : SetOrder α) (policy : SetPolicy)
    (candidates : List α) :
    Reports (collect order policy candidates) ⟨(settle order policy.survivor candidates).kept⟩
      (complaints order policy (settle order policy.survivor candidates).dropped) := by
  intro σ _ sink
  rfl

mutual
theorem Draft.oblivious : (draft : Draft) → ∃ form trace, Reports draft.canonicalize form trace
  | .scalar s => ⟨.scalar s, [], .pure _⟩
  | .field f => ⟨.field f.content, [], .pure _⟩
  | .method m => ⟨.method m.content, [], .pure _⟩
  | .enum f => ⟨.enum f.content, [], .pure _⟩
  | .array items => by
    obtain ⟨forms, trace, hi⟩ := oblivious_items items
    exact ⟨.array forms, trace, hi.map Value.array⟩
  | .annot type elements => by
    obtain ⟨forms, trace, he⟩ := oblivious_elements elements
    have hc := OrderedSet.collect_reports Element.byName {} forms
    exact ⟨_, _, he.bind (hc.map fun elements => Value.annot ⟨type, elements⟩)⟩
  | .canonical value => ⟨value, [], .pure _⟩
theorem oblivious_items : (items : List Draft) →
    ∃ forms trace, Reports (canonicalizeItems items) forms trace
  | [] => ⟨[], [], .pure _⟩
  | item :: rest => by
    obtain ⟨form, trace, hi⟩ := item.oblivious
    obtain ⟨forms, traces, hr⟩ := oblivious_items rest
    exact ⟨form :: forms, trace ++ traces, hi.bind (hr.map fun rest => form :: rest)⟩
theorem oblivious_elements : (elements : List DraftElement) →
    ∃ forms trace, Reports (canonicalizeElements elements) forms trace
  | [] => ⟨[], [], .pure _⟩
  | element :: rest => by
    obtain ⟨form, trace, he⟩ := element.oblivious
    obtain ⟨forms, traces, hr⟩ := oblivious_elements rest
    exact ⟨form :: forms, trace ++ traces, he.bind (hr.map fun rest => form :: rest)⟩
theorem DraftElement.oblivious : (element : DraftElement) →
    ∃ form trace, Reports element.canonicalize form trace
  | .foreign name value => by
    obtain ⟨form, trace, hv⟩ := value.oblivious
    exact ⟨⟨name, form⟩, trace, hv.map (Element.mk name)⟩
  | .canonical element => ⟨element, [], .pure _⟩
end

instance {α : Type} : Canonicalize (Supplied α) α where
  canonicalize entity := pure entity.content
  oblivious entity := ⟨entity.content, [], .pure _⟩

instance : Canonicalize Draft Value := ⟨Draft.canonicalize, Draft.oblivious⟩
instance : Canonicalize DraftElement Element := ⟨DraftElement.canonicalize, DraftElement.oblivious⟩

section

variable {δ α : Type} [Canonicalize δ α]

def canonicalForm (entity : δ) : α :=
  ((Canonicalize.canonicalize entity : StateM Discard α).run {}).1

def trace (entity : δ) : List Diagnostic :=
  ((Canonicalize.canonicalize entity : StateM Collector α).run {}).2.diagnostics

variable {entity : δ} {form : α} {reported : List Diagnostic}

theorem canonicalForm_eq (h : Reports (Canonicalize.canonicalize entity) form reported) :
    canonicalForm entity = form := by
  rw [canonicalForm, h]

theorem trace_eq (h : Reports (Canonicalize.canonicalize entity) form reported) :
    trace entity = reported := h.collected

/-- With every sink, an entity has one canonical form and reports one trace. -/
theorem canonicalize_reports (entity : δ) :
    Reports (Canonicalize.canonicalize entity) (canonicalForm entity) (trace entity) := by
  obtain ⟨form, reported, h⟩ := Canonicalize.oblivious entity
  rw [canonicalForm_eq h, trace_eq h]
  exact h

theorem canonicalize_run_fst {σ : Type} [Sink σ] (entity : δ) (sink : σ) :
    ((Canonicalize.canonicalize entity).run sink).1 = canonicalForm entity :=
  congrArg Prod.fst (canonicalize_reports entity σ sink)

end

section

variable {δ α σ : Type} [Canonicalize δ α] [Sink σ]

def canonicalizeAll : List δ → StateM σ (List α)
  | [] => pure []
  | entity :: rest => do
    let entity ← Canonicalize.canonicalize entity
    let rest ← canonicalizeAll rest
    return entity :: rest

/-- Builds the set of the canonical forms of some entities. An absent collection counts as empty. -/
def OrderedSet.build (order : SetOrder α) (policy : SetPolicy) (entities : Option (List δ)) :
    StateM σ (OrderedSet α) := do
  let candidates ← canonicalizeAll (entities.getD [])
  OrderedSet.collect order policy candidates

end

section

variable {σ : Type} [Sink σ]

def ElementSet.build (elements : Option (List DraftElement)) : StateM σ ElementSet :=
  OrderedSet.build Element.byName {} elements

def Annot.build (type : String) (elements : Option (List DraftElement)) : StateM σ Annot := do
  let elements ← ElementSet.build elements
  return ⟨type, elements⟩

end

end DexCanon
