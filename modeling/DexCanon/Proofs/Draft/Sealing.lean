import DexCanon.Draft.Forms
import DexCanon.Proofs.OrderedSet.Sorted
import DexCanon.Proofs.Text.Units

/-!
# Canonical parts

An entity may hold canonical parts instead of foreign ones. A draft is sealed in some places when
the entities there are replaced by their canonical forms. That changes nothing about the canonical
form of the whole, and takes from its trace what the replaced entities report, and only that.
-/

set_option autoImplicit false

namespace DexCanon

/-- A stretch of a trace: reported from inside an entity that is replaced, or not. -/
inductive Passage where
  | own (diagnostics : List Diagnostic)
  | inside (diagnostics : List Diagnostic)

namespace Passage

def all : Passage → List Diagnostic
  | own diagnostics | inside diagnostics => diagnostics

def shown : Passage → List Diagnostic
  | own diagnostics => diagnostics
  | inside _ => []

end Passage

inductive Supplied.Sealing {α : Type} : Supplied α → Supplied α → Prop
  | kept (entity : Supplied α) : Sealing entity entity
  | sealed (content : α) : Sealing (.foreign content) (.canonical content)

/-- What an annotation reports of its own elements, apart from what they hold. -/
def duplicates (elements : List DraftElement) : List Diagnostic :=
  OrderedSet.complaints Element.byName {}
    (OrderedSet.settle Element.byName .first (elements.map canonicalForm)).dropped

mutual
/-- The second draft is the first one, sealed in some places, which divide the trace of the first
into passages. -/
inductive Sealing : Draft → Draft → List Passage → Prop
  | sealed (draft : Draft) :
      Sealing draft (.canonical (canonicalForm draft)) [.inside (trace draft)]
  | scalar (s : Scalar) : Sealing (.scalar s) (.scalar s) []
  | field {f other : Supplied FieldRef} (hf : f.Sealing other) :
      Sealing (.field f) (.field other) []
  | method {m other : Supplied MethodRef} (hm : m.Sealing other) :
      Sealing (.method m) (.method other) []
  | enum {f other : Supplied FieldRef} (hf : f.Sealing other) :
      Sealing (.enum f) (.enum other) []
  | array {items others : List Draft} {passages : List Passage}
      (hi : SealingItems items others passages) :
      Sealing (.array items) (.array others) passages
  | annot (type : String) {elements others : List DraftElement} {passages : List Passage}
      (he : SealingElements elements others passages) :
      Sealing (.annot type elements) (.annot type others)
        (passages ++ [.own (duplicates elements)])
inductive SealingItems : List Draft → List Draft → List Passage → Prop
  | nil : SealingItems [] [] []
  | cons {item other : Draft} {items others : List Draft} {first rest : List Passage}
      (hi : Sealing item other first) (hr : SealingItems items others rest) :
      SealingItems (item :: items) (other :: others) (first ++ rest)
inductive SealingElements : List DraftElement → List DraftElement → List Passage → Prop
  | nil : SealingElements [] [] []
  | cons {element other : DraftElement} {elements others : List DraftElement}
      {first rest : List Passage} (he : SealingElement element other first)
      (hr : SealingElements elements others rest) :
      SealingElements (element :: elements) (other :: others) (first ++ rest)
inductive SealingElement : DraftElement → DraftElement → List Passage → Prop
  | sealed (element : DraftElement) :
      SealingElement element (.canonical (canonicalForm element)) [.inside (trace element)]
  | foreign (name : String) {value other : Draft} {passages : List Passage}
      (hv : Sealing value other passages) :
      SealingElement (.foreign name value) (.foreign name other) passages
end

-- ---------------------------------------------------------------------------
-- Two runs
-- ---------------------------------------------------------------------------

section

variable {δ α : Type} [Canonicalize δ α]

structure Agree (entity other : δ) (passages : List Passage) : Prop where
  form : canonicalForm other = canonicalForm entity
  all : trace entity = passages.flatMap Passage.all
  shown : trace other = passages.flatMap Passage.shown

structure AgreeAll (entities others : List δ) (passages : List Passage) : Prop where
  forms : others.map canonicalForm = entities.map canonicalForm
  all : entities.flatMap trace = passages.flatMap Passage.all
  shown : others.flatMap trace = passages.flatMap Passage.shown

theorem AgreeAll.nil : AgreeAll ([] : List δ) [] [] := ⟨rfl, rfl, rfl⟩

theorem AgreeAll.cons {entity other : δ} {entities others : List δ} {first rest : List Passage}
    (h : Agree entity other first) (hr : AgreeAll entities others rest) :
    AgreeAll (entity :: entities) (other :: others) (first ++ rest) := by
  refine ⟨?_, ?_, ?_⟩
  · rw [List.map_cons, List.map_cons, h.form, hr.forms]
  · rw [List.flatMap_cons, List.flatMap_append, h.all, hr.all]
  · rw [List.flatMap_cons, List.flatMap_append, h.shown, hr.shown]

theorem Agree.run {σ : Type} [Sink σ] {entity other : δ} {passages : List Passage}
    (h : Agree entity other passages) (sink : σ) :
    (Canonicalize.canonicalize entity).run sink =
        (canonicalForm entity, Sink.emitAll (passages.flatMap Passage.all) sink) ∧
      (Canonicalize.canonicalize other).run sink =
        (canonicalForm entity, Sink.emitAll (passages.flatMap Passage.shown) sink) := by
  rw [canonicalize_reports entity σ sink, canonicalize_reports other σ sink, h.form, h.all, h.shown]
  exact ⟨rfl, rfl⟩

end

theorem Supplied.Sealing.content_eq {α : Type} {entity other : Supplied α}
    (h : entity.Sealing other) : other.content = entity.content := by
  cases h <;> rfl

theorem Agree.array {items others : List Draft} {passages : List Passage}
    (h : AgreeAll items others passages) :
    Agree (Draft.array items) (.array others) passages := by
  refine ⟨?_, ?_, ?_⟩
  · rw [canonicalForm_array, canonicalForm_array, h.forms]
  · rw [trace_array, h.all]
  · rw [trace_array, h.shown]

theorem Agree.annot (type : String) {elements others : List DraftElement}
    {passages : List Passage} (h : AgreeAll elements others passages) :
    Agree (Draft.annot type elements) (.annot type others)
      (passages ++ [.own (duplicates elements)]) := by
  -- Elements are compared and reported in their canonical forms, so which of them are canonical
  -- beforehand makes no difference to which stay.
  refine ⟨?_, ?_, ?_⟩
  · rw [canonicalForm_annot, canonicalForm_annot, h.forms]
  · rw [trace_annot, h.all, List.flatMap_append, List.flatMap_singleton]
    rfl
  · rw [trace_annot, h.shown, h.forms, List.flatMap_append, List.flatMap_singleton]
    rfl

mutual
theorem Sealing.agree {draft other : Draft} {passages : List Passage} :
    Sealing draft other passages → Agree draft other passages
  | .sealed draft => ⟨rfl, (List.append_nil _).symm, rfl⟩
  | .scalar s => ⟨rfl, rfl, rfl⟩
  | .field hf => ⟨congrArg Value.field hf.content_eq, rfl, rfl⟩
  | .method hm => ⟨congrArg Value.method hm.content_eq, rfl, rfl⟩
  | .enum hf => ⟨congrArg Value.enum hf.content_eq, rfl, rfl⟩
  | .array hi => .array hi.agree
  | .annot type he => .annot type he.agree
theorem SealingItems.agree {items others : List Draft} {passages : List Passage} :
    SealingItems items others passages → AgreeAll items others passages
  | .nil => .nil
  | .cons hi hr => .cons hi.agree hr.agree
theorem SealingElements.agree {elements others : List DraftElement} {passages : List Passage} :
    SealingElements elements others passages → AgreeAll elements others passages
  | .nil => .nil
  | .cons he hr => .cons he.agree hr.agree
theorem SealingElement.agree {element other : DraftElement} {passages : List Passage} :
    SealingElement element other passages → Agree element other passages
  | .sealed element => ⟨rfl, (List.append_nil _).symm, rfl⟩
  | .foreign name hv => by
    have h := hv.agree
    refine ⟨?_, ?_, ?_⟩
    · rw [canonicalForm_foreign, canonicalForm_foreign, h.form]
    · rw [trace_foreign, h.all]
    · rw [trace_foreign, h.shown]
end

/-- A draft and the same draft, sealed in some places, have one canonical form with every sink. The
diagnostics of the sealed one are those of the other in the same order, less what is reported from
inside the replaced entities. A draft that is sealed as a whole reports nothing. -/
theorem canonicalize_sealing {σ : Type} [Sink σ] (sink : σ) :
    (∀ {draft other : Draft} {passages : List Passage}, Sealing draft other passages →
      draft.canonicalize.run sink =
          (canonicalForm draft, Sink.emitAll (passages.flatMap Passage.all) sink) ∧
        other.canonicalize.run sink =
          (canonicalForm draft, Sink.emitAll (passages.flatMap Passage.shown) sink)) ∧
      (∀ {element other : DraftElement} {passages : List Passage},
        SealingElement element other passages →
        element.canonicalize.run sink =
            (canonicalForm element, Sink.emitAll (passages.flatMap Passage.all) sink) ∧
          other.canonicalize.run sink =
            (canonicalForm element, Sink.emitAll (passages.flatMap Passage.shown) sink)) ∧
      (∀ draft : Draft,
        let value := (draft.canonicalize.run sink).1
        (Draft.canonical value).canonicalize.run sink = (value, sink)) ∧
      ∀ element : DraftElement,
        let result := (element.canonicalize.run sink).1
        (DraftElement.canonical result).canonicalize.run sink = (result, sink) := by
  refine ⟨?_, ?_, ?_, ?_⟩
  · intro draft other passages h
    exact h.agree.run sink
  · intro element other passages h
    exact h.agree.run sink
  · intro draft value
    have hvalue : value = canonicalForm draft := canonicalize_run_fst draft sink
    have h := ((Sealing.sealed draft).agree.run sink).2
    rwa [← hvalue] at h
  · intro element result
    have hresult : result = canonicalForm element := canonicalize_run_fst element sink
    have h := ((SealingElement.sealed element).agree.run sink).2
    rwa [← hresult] at h

/-- One element that loses to no other and one item of an array are replaced: what is inside them is
not reported any more, the repeated name still is. -/
theorem canonicalize_sealing_nested :
    let twice : List DraftElement := [.foreign "x" (.scalar .null), .foreign "x" (.scalar .null)]
    let annot : Draft := .annot "LA;" twice
    let draft : Draft := .annot "LB;" [.foreign "b" annot, .foreign "b" annot,
      .foreign "a" (.array [annot, .scalar .null])]
    let other : Draft := .annot "LB;" [.canonical (canonicalForm (DraftElement.foreign "b" annot)),
      .foreign "b" annot, .foreign "a" (.array [.canonical (canonicalForm annot), .scalar .null])]
    (draft.canonicalize.run ({} : Collector)).2.messages.length = 4 ∧
      (other.canonicalize.run ({} : Collector)).2.messages =
        ["Ignoring duplicate annotation value for name: x",
          "Ignoring duplicate annotation value for name: b"] ∧
      (other.canonicalize.run ({} : Collector)).1 =
        (draft.canonicalize.run ({} : Collector)).1 := by
  intro twice annot draft other
  have hfirst : SealingElement (.foreign "b" annot)
      (.canonical (canonicalForm (DraftElement.foreign "b" annot))) _ := .sealed _
  have hsecond : SealingElement (.foreign "b" annot) (.foreign "b" annot) _ :=
    .foreign _ (.annot _ (.cons (.foreign _ (.scalar _)) (.cons (.foreign _ (.scalar _)) .nil)))
  have hthird : SealingElement (.foreign "a" (.array [annot, .scalar .null]))
      (.foreign "a" (.array [.canonical (canonicalForm annot), .scalar .null])) _ :=
    .foreign _ (.array (.cons (.sealed _) (.cons (.scalar _) .nil)))
  have h : Sealing draft other _ := .annot "LB;" (.cons hfirst (.cons hsecond (.cons hthird .nil)))
  obtain ⟨hdraft, hother⟩ := (canonicalize_sealing ({} : Collector)).1 h
  have hab : Text.compareUnits "a" "b" = .lt := rfl
  refine ⟨?_, ?_, ?_⟩
  · rw [show draft.canonicalize.run ({} : Collector) = _ from
      (canonicalize_reports draft).run_collector]
    simp [draft, annot, twice, trace_annot, OrderedSet.settle, OrderedSet.complaints, hab,
      Collector.messages]
  · rw [show other.canonicalize.run ({} : Collector) = _ from
      (canonicalize_reports other).run_collector]
    simp [other, annot, twice, trace_annot, OrderedSet.settle, OrderedSet.complaints, hab,
      Collector.messages, Diagnostic.duplicate, Diagnostic.warning]
  · rw [hdraft, hother]

end DexCanon
