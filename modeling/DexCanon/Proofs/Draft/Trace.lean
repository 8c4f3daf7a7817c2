import Mathlib.Algebra.GroupWithZero.Nat
import Mathlib.Data.Finset.Card
import DexCanon.Draft.Forms
import DexCanon.Proofs.OrderedSet.Settle
import DexCanon.Proofs.Text.Units

/-!
# The stream of diagnostics

Building a set reports first what each entity reports, in the order of the input, and then, if the
policy says so, each candidate that did not enter the set: class by class in the order of the set
and within a class in the order of the input. A canonical entity reports nothing, and a foreign
annotation reports as the building of its element set does. In all there is one diagnostic for each
element of a foreign annotation that repeats a name, unless something canonical is around it.
-/

set_option autoImplicit false

namespace DexCanon

open OrderedSet

-- ---------------------------------------------------------------------------
-- Annotations that are not inside anything canonical
-- ---------------------------------------------------------------------------

mutual
/-- The element lists of the foreign annotations of a draft that are not inside anything canonical,
from the outside in. -/
def Draft.openAnnots : Draft → List (List DraftElement)
  | .scalar _ | .field _ | .method _ | .enum _ | .canonical _ => []
  | .array items => openAnnotsOfItems items
  | .annot _ elements => elements :: openAnnotsOfElements elements
def openAnnotsOfItems : List Draft → List (List DraftElement)
  | [] => []
  | item :: rest => item.openAnnots ++ openAnnotsOfItems rest
def openAnnotsOfElements : List DraftElement → List (List DraftElement)
  | [] => []
  | element :: rest => element.openAnnots ++ openAnnotsOfElements rest
def DraftElement.openAnnots : DraftElement → List (List DraftElement)
  | .foreign _ value => value.openAnnots
  | .canonical _ => []
end

theorem openAnnotsOfItems_eq (items : List Draft) :
    openAnnotsOfItems items = items.flatMap Draft.openAnnots := by
  induction items with
  | nil => rfl
  | cons item rest ih => rw [openAnnotsOfItems, ih, List.flatMap_cons]

theorem openAnnotsOfElements_eq (elements : List DraftElement) :
    openAnnotsOfElements elements = elements.flatMap fun element => element.value.openAnnots := by
  induction elements with
  | nil => rfl
  | cons element rest ih =>
    rw [openAnnotsOfElements, ih, List.flatMap_cons]
    cases element <;> rfl

/-- How many elements repeat a name. -/
def surplus (elements : List DraftElement) : Nat :=
  elements.length - (elements.map DraftElement.name).toFinset.card

-- ---------------------------------------------------------------------------
-- The law
-- ---------------------------------------------------------------------------

section

variable {δ α : Type} [Canonicalize δ α]

def announced (order : SetOrder α) (policy : SetPolicy) (entities : List δ) (set : OrderedSet α) :
    List Diagnostic :=
  entities.flatMap trace ++
    if policy.report then
      (set.members.flatMap fun member =>
        policy.survivor.losers (rivals order.compare (entities.map canonicalForm) member)).map
          fun x =>
            ⟨.warning, "Ignoring duplicate " ++ order.subject ++ " for name: " ++ order.key x⟩
    else []

/-- What an entity reports, from what its parts report. -/
structure TraceLaw : Prop where
  method (m : Supplied MethodRef) : trace m = []
  field (f : Supplied FieldRef) : trace f = []
  scalarValue (s : Scalar) : trace (Draft.scalar s) = []
  fieldValue (f : Supplied FieldRef) : trace (Draft.field f) = []
  methodValue (m : Supplied MethodRef) : trace (Draft.method m) = []
  enumValue (f : Supplied FieldRef) : trace (Draft.enum f) = []
  arrayValue (items : List Draft) : trace (Draft.array items) = items.flatMap trace
  annotValue (type : String) (elements : List DraftElement) : ∃ set : ElementSet,
    canonicalForm (Draft.annot type elements) = .annot ⟨type, set⟩ ∧
      trace (Draft.annot type elements) =
        announced Element.byName { survivor := .first, report := true } elements set
  canonicalValue (value : Value) : trace (Draft.canonical value) = []
  foreignElement (name : String) (value : Draft) :
    trace (DraftElement.foreign name value) = trace value
  canonicalElement (element : Element) : trace (DraftElement.canonical element) = []

variable (order : SetOrder α) [Std.TransCmp order.compare] (policy : SetPolicy)

theorem announced_settle (entities : List δ) :
    let swept := settle order policy.survivor (entities.map canonicalForm)
    announced order policy entities ⟨swept.kept⟩ =
      entities.flatMap trace ++ complaints order policy swept.dropped := by
  intro swept
  rw [announced, complaints, dropped_eq]
  rfl

omit [Std.TransCmp order.compare] in
theorem length_complaints (candidates : List α) :
    (complaints order policy (settle order policy.survivor candidates).dropped).length =
      if policy.report then
        candidates.length - (settle order policy.survivor candidates).kept.length
      else 0 := by
  have hlength := length_settle order policy.survivor candidates
  unfold complaints
  split
  · rw [List.length_map]
    omega
  · rfl

end

theorem traceLaw : TraceLaw where
  method _ := rfl
  field _ := rfl
  scalarValue _ := rfl
  fieldValue _ := rfl
  methodValue _ := rfl
  enumValue _ := rfl
  arrayValue := trace_array
  annotValue type elements := by
    refine ⟨_, canonicalForm_annot type elements, ?_⟩
    rw [trace_annot]
    exact (announced_settle Element.byName {} elements).symm
  canonicalValue _ := rfl
  foreignElement := trace_foreign
  canonicalElement _ := rfl

-- ---------------------------------------------------------------------------
-- The number of diagnostics
-- ---------------------------------------------------------------------------

theorem trace_element (element : DraftElement) : trace element = trace element.value := by
  cases element with
  | foreign name value => exact trace_foreign name value
  | canonical element => rfl

theorem openAnnots_element (element : DraftElement) :
    element.openAnnots = element.value.openAnnots := by
  cases element <;> rfl

theorem length_kept_byName (survivor : Survivor) (elements : List Element) :
    (settle Element.byName survivor elements).kept.length =
      (elements.map Element.name).toFinset.card := by
  have hordered : (settle Element.byName survivor elements).kept.Pairwise fun a b =>
      Text.compareUnits a.name b.name = .lt :=
    pairwise_kept Element.byName survivor elements
  have hnodup := nodup_map_of_pairwise_lt Element.name hordered
  have hnames : ((settle Element.byName survivor elements).kept.map Element.name).toFinset =
      (elements.map Element.name).toFinset := by
    ext name
    simp only [List.mem_toFinset, List.mem_map]
    constructor
    · rintro ⟨element, he, rfl⟩
      exact ⟨element, mem_of_mem_kept _ _ _ he, rfl⟩
    · rintro ⟨element, he, rfl⟩
      obtain ⟨member, hm, heq⟩ := exists_kept Element.byName survivor elements he
      exact ⟨member, hm, Element.byName_eq_iff.mp heq⟩
  rw [← hnames, List.toFinset_card_of_nodup hnodup, List.length_map]

theorem length_flatMap_trace {δ : Type} (parts : List δ) (trace : δ → List Diagnostic)
    (annots : δ → List (List DraftElement))
    (h : ∀ part ∈ parts, (trace part).length = ((annots part).map surplus).sum) :
    (parts.flatMap trace).length = ((parts.flatMap annots).map surplus).sum := by
  induction parts with
  | nil => rfl
  | cons part rest ih =>
    have hp := h part (by simp)
    have hr := ih fun other ho => h other (List.mem_cons_of_mem _ ho)
    rw [List.flatMap_cons, List.flatMap_cons, List.length_append, List.map_append, List.sum_append,
      hp, hr]

theorem length_trace (draft : Draft) :
    (trace draft).length = (draft.openAnnots.map surplus).sum := by
  induction draft using Draft.induction with
  | scalar s => rfl
  | field f => rfl
  | method m => rfl
  | enum f => rfl
  | array items ih =>
    rw [trace_array, Draft.openAnnots, openAnnotsOfItems_eq]
    exact length_flatMap_trace items trace _ ih
  | annot type elements ih =>
    have hparts : (elements.flatMap trace).length =
        ((openAnnotsOfElements elements).map surplus).sum := by
      rw [openAnnotsOfElements_eq]
      apply length_flatMap_trace
      intro element he
      rw [trace_element, ih element he]
    have hnames : (elements.map canonicalForm).map Element.name =
        elements.map DraftElement.name := by
      simp
    have hown := length_complaints Element.byName {} (elements.map canonicalForm)
    rw [length_kept_byName, hnames] at hown
    rw [trace_annot, List.length_append, hparts, hown, Draft.openAnnots, List.map_cons,
      List.sum_cons, surplus, List.length_map]
    exact Nat.add_comm _ _
  | canonical value => rfl

-- ---------------------------------------------------------------------------
-- Building a set
-- ---------------------------------------------------------------------------

/-- The diagnostics are the announced ones. How many there are is told by the entities and the
annotations in them. -/
theorem OrderedSet.build_announces {δ α σ : Type} [Canonicalize δ α] [Sink σ] (order : SetOrder α)
    [Std.TransCmp order.compare] (policy : SetPolicy) (entities : Option (List δ)) (sink : σ) :
    let result := (build order policy entities).run sink
    result.2 = Sink.emitAll (announced order policy (entities.getD []) result.1) sink ∧
      (announced order policy (entities.getD []) result.1).length =
        ((entities.getD []).map fun entity => (trace entity).length).sum +
          (if policy.report then (entities.getD []).length - result.1.size else 0) ∧
      TraceLaw ∧
      (∀ draft : Draft, (trace draft).length = (draft.openAnnots.map surplus).sum) ∧
      ∀ element : DraftElement,
        (trace element).length = (element.openAnnots.map surplus).sum := by
  intro result
  have hresult := build_reports order policy entities σ sink
  have hset : result.1 =
      ⟨(settle order policy.survivor ((entities.getD []).map canonicalForm)).kept⟩ := by
    simp only [result, hresult]
  refine ⟨?_, ?_, traceLaw, length_trace, ?_⟩
  · rw [hset, announced_settle]
    simp only [result, hresult]
  · rw [hset, announced_settle, List.length_append, length_complaints, List.length_flatMap,
      List.length_map, size]
  · intro element
    rw [trace_element, openAnnots_element, length_trace]

/-- The elements inside a dropped annotation are reported before it, those inside a canonical one
not at all. -/
theorem OrderedSet.build_announces_nested :
    let twice : List DraftElement := [.foreign "x" (.scalar .null), .foreign "x" (.scalar .null)]
    let entities : List DraftElement := [.foreign "b" (.annot "LA;" twice),
      .foreign "a" (.array [.annot "LB;" twice,
        .canonical (canonicalForm (Draft.annot "LC;" twice))]),
      .foreign "b" (.scalar .null)]
    let policy : SetPolicy := { survivor := .last }
    let result := (build Element.byName policy (some entities)).run ({} : Collector)
    result.2.messages = ["Ignoring duplicate annotation value for name: x",
        "Ignoring duplicate annotation value for name: x",
        "Ignoring duplicate annotation value for name: b"] ∧
      result.2 = Sink.emitAll (announced Element.byName policy entities result.1) {} := by
  intro twice entities policy result
  refine ⟨?_, (build_announces Element.byName policy (some entities) ({} : Collector)).1⟩
  have hab : Text.compareUnits "a" "b" = .lt := rfl
  have hba := Std.OrientedCmp.gt_of_lt hab
  rw [show result = _ from (build_reports Element.byName policy (some entities)).run_collector]
  simp [entities, twice, policy, settle, trace_annot, complaints, hab, hba, Collector.messages,
    Diagnostic.duplicate, Diagnostic.warning]

end DexCanon
