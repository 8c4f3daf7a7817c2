import DexCanon.Proofs.Draft.Trace

/-!
# The normal form of a foreign value

The normal form of a foreign value has the elements of each annotation, at every depth, replaced by
the first elements of each name in the order of the names, and is the same in everything else. It
is unique, and it is what the canonical form of the value looks like when it is read part by part.
-/

set_option autoImplicit false

namespace DexCanon

open OrderedSet

mutual
/-- The second draft is the normal form of the first. -/
inductive NormalForm : Draft → Draft → Prop
  | scalar (s : Scalar) : NormalForm (.scalar s) (.scalar s)
  | field (f : FieldRef) : NormalForm (.field (.foreign f)) (.field (.foreign f))
  | method (m : MethodRef) : NormalForm (.method (.foreign m)) (.method (.foreign m))
  | enum (f : FieldRef) : NormalForm (.enum (.foreign f)) (.enum (.foreign f))
  | array {items normal : List Draft} (hi : NormalItems items normal) :
      NormalForm (.array items) (.array normal)
  | annot {type : String} {elements firsts normal : List DraftElement}
      (sorted : firsts.Pairwise fun a b => Text.compareUnits a.name b.name = .lt)
      (complete : ∀ e, e ∈ firsts ↔ elements.find? (fun other => other.name = e.name) = some e)
      (he : NormalElements firsts normal) :
      NormalForm (.annot type elements) (.annot type normal)
inductive NormalItems : List Draft → List Draft → Prop
  | nil : NormalItems [] []
  | cons {item normal : Draft} {items normals : List Draft} (hi : NormalForm item normal)
      (hr : NormalItems items normals) : NormalItems (item :: items) (normal :: normals)
inductive NormalElements : List DraftElement → List DraftElement → Prop
  | nil : NormalElements [] []
  | cons (name : String) {value normal : Draft} {elements normals : List DraftElement}
      (hv : NormalForm value normal) (hr : NormalElements elements normals) :
      NormalElements (.foreign name value :: elements) (.foreign name normal :: normals)
end

-- ---------------------------------------------------------------------------
-- Uniqueness
-- ---------------------------------------------------------------------------

theorem NormalItems.unique {items first second : List Draft}
    (ih : ∀ item ∈ items, ∀ a b, NormalForm item a → NormalForm item b → a = b)
    (ha : NormalItems items first) (hb : NormalItems items second) : first = second := by
  induction items generalizing first second with
  | nil =>
    cases ha
    cases hb
    rfl
  | cons item rest ihr =>
    cases ha with
    | cons ha har =>
      cases hb with
      | cons hb hbr =>
        rw [ih item (by simp) _ _ ha hb,
          ihr (fun other ho => ih other (List.mem_cons_of_mem _ ho)) har hbr]

theorem NormalElements.unique {elements first second : List DraftElement}
    (ih : ∀ element ∈ elements, ∀ a b, NormalForm element.value a → NormalForm element.value b →
      a = b)
    (ha : NormalElements elements first) (hb : NormalElements elements second) :
    first = second := by
  induction elements generalizing first second with
  | nil =>
    cases ha
    cases hb
    rfl
  | cons element rest ihr =>
    cases ha with
    | cons name ha har =>
      cases hb with
      | cons _ hb hbr =>
        rw [ih (.foreign name _) (by simp) _ _ ha hb,
          ihr (fun other ho => ih other (List.mem_cons_of_mem _ ho)) har hbr]

theorem NormalForm.unique (draft : Draft) :
    ∀ a b, NormalForm draft a → NormalForm draft b → a = b := by
  induction draft using Draft.induction with
  | scalar s => rintro a b ⟨⟩ ⟨⟩; rfl
  | field f => rintro a b ⟨⟩ ⟨⟩; rfl
  | method m => rintro a b ⟨⟩ ⟨⟩; rfl
  | enum f => rintro a b ⟨⟩ ⟨⟩; rfl
  | array items ih =>
    rintro a b ⟨⟩ ⟨⟩
    rename_i first ha second hb
    rw [ha.unique ih hb]
  | annot type elements ih =>
    intro a b ha hb
    cases ha with
    | @annot _ _ firstsA normalA sortedA completeA heA =>
      cases hb with
      | @annot _ _ firstsB normalB sortedB completeB heB =>
        have hfirsts : firstsA = firstsB := by
          apply eq_of_pairwise_lt_of_mem_iff DraftElement.name sortedA sortedB
          intro element
          rw [completeA, completeB]
        subst hfirsts
        have hparts : ∀ element ∈ firstsA, element ∈ elements := by
          intro element he
          exact List.mem_of_find?_eq_some ((completeA element).mp he)
        rw [heA.unique (fun element he => ih element (hparts element he)) heB]
  | canonical value => rintro a b ⟨⟩

-- ---------------------------------------------------------------------------
-- Reading the canonical form
-- ---------------------------------------------------------------------------

theorem normalItems_map {items : List Draft} (normal : Draft → Draft)
    (h : ∀ item ∈ items, NormalForm item (normal item)) :
    NormalItems items (items.map normal) := by
  induction items with
  | nil => exact .nil
  | cons item rest ih =>
    exact .cons (h item (by simp)) (ih fun other ho => h other (List.mem_cons_of_mem _ ho))

theorem normalElements_map {elements : List DraftElement}
    (hf : ∀ element ∈ elements, element.isForeign = true)
    (h : ∀ element ∈ elements, NormalForm element.value (canonicalForm element.value).toDraft) :
    NormalElements elements (elements.map fun element => (canonicalForm element).toDraft) := by
  induction elements with
  | nil => exact .nil
  | cons element rest ih =>
    have hr := ih (fun other ho => hf other (List.mem_cons_of_mem _ ho))
      (fun other ho => h other (List.mem_cons_of_mem _ ho))
    cases element with
    | foreign name value =>
      rw [List.map_cons, canonicalForm_foreign]
      exact .cons name (h (.foreign name value) (by simp)) hr
    | canonical element => simp [DraftElement.isForeign] at hf

theorem normalForm_toDraft (draft : Draft) :
    draft.isForeign = true → NormalForm draft (canonicalForm draft).toDraft := by
  induction draft using Draft.induction with
  | scalar s => exact fun _ => .scalar s
  | field f =>
    intro hf
    cases f with
    | foreign f => exact .field f
    | canonical f => cases hf
  | method m =>
    intro hf
    cases m with
    | foreign m => exact .method m
    | canonical m => cases hf
  | enum f =>
    intro hf
    cases f with
    | foreign f => exact .enum f
    | canonical f => cases hf
  | array items ih =>
    intro hf
    rw [Draft.isForeign, itemsAreForeign_iff] at hf
    rw [canonicalForm_array, Value.toDraft_array, List.map_map]
    exact .array (normalItems_map _ fun item hi => ih item hi (hf item hi))
  | annot type elements ih =>
    intro hf
    rw [Draft.isForeign, elementsAreForeign_iff] at hf
    -- The members come from the elements that stay when the elements themselves are compared.
    let order := Element.byName.comap (canonicalForm (δ := DraftElement))
    have hname : ∀ a b : DraftElement,
        order.compare a b = Text.compareUnits a.name b.name := by
      intro a b
      show Text.compareUnits (canonicalForm a).name (canonicalForm b).name = _
      rw [name_canonicalForm, name_canonicalForm]
    have hrival : ∀ a b : DraftElement, order.compare a b = .eq ↔ b.name = a.name := by
      intro a b
      rw [hname, Std.LawfulEqCmp.compare_eq_iff_eq, eq_comm]
    rw [canonicalForm_annot, settle_map, Value.toDraft_annot, List.map_map]
    apply @NormalForm.annot type elements (settle order .first elements).kept
    · exact (pairwise_kept order .first elements).imp fun h => by rwa [hname] at h
    · intro element
      rw [mem_kept, Survivor.pick, rivals, List.head?_filter]
      simp only [hrival]
    · have hparts : ∀ element ∈ (settle order .first elements).kept, element ∈ elements :=
        fun element he => mem_of_mem_kept order .first elements he
      apply normalElements_map
      · exact fun element he => hf element (hparts element he)
      · intro element he
        apply ih element (hparts element he)
        have := hf element (hparts element he)
        cases element with
        | foreign name value => exact this
        | canonical element => cases this
  | canonical value =>
    intro hf
    cases hf

-- ---------------------------------------------------------------------------
-- Annotations of a normal form
-- ---------------------------------------------------------------------------

theorem NormalElements.names {elements normal : List DraftElement}
    (h : NormalElements elements normal) :
    normal.map DraftElement.name = elements.map DraftElement.name := by
  induction elements generalizing normal with
  | nil =>
    cases h
    rfl
  | cons element rest ih =>
    cases h with
    | cons name hv hr =>
      rw [List.map_cons, List.map_cons, ih hr]
      rfl

def Ordered (normal : Draft) : Prop :=
  normal.isForeign = true ∧ ∀ elements ∈ normal.openAnnots,
    elements.Pairwise fun a b => Text.compareUnits a.name b.name = .lt

mutual
theorem NormalForm.ordered {draft normal : Draft} : NormalForm draft normal → Ordered normal
  | .scalar s => ⟨rfl, by simp [Draft.openAnnots]⟩
  | .field f => ⟨rfl, by simp [Draft.openAnnots]⟩
  | .method m => ⟨rfl, by simp [Draft.openAnnots]⟩
  | .enum f => ⟨rfl, by simp [Draft.openAnnots]⟩
  | .array hi => by
    obtain ⟨hf, hs⟩ := hi.ordered
    exact ⟨hf, hs⟩
  | .annot sorted _ he => by
    obtain ⟨hf, hs⟩ := he.ordered
    refine ⟨hf, ?_⟩
    rw [Draft.openAnnots, List.forall_mem_cons]
    refine ⟨?_, hs⟩
    rw [← List.pairwise_map (f := DraftElement.name)
      (R := fun a b => Text.compareUnits a b = .lt)] at sorted ⊢
    rwa [he.names]
theorem NormalItems.ordered {items normal : List Draft} : NormalItems items normal →
    itemsAreForeign normal = true ∧ ∀ elements ∈ openAnnotsOfItems normal,
      elements.Pairwise fun a b => Text.compareUnits a.name b.name = .lt
  | .nil => ⟨rfl, by simp [openAnnotsOfItems]⟩
  | .cons hi hr => by
    obtain ⟨hfi, hsi⟩ := hi.ordered
    obtain ⟨hfr, hsr⟩ := hr.ordered
    refine ⟨by simp [itemsAreForeign, hfi, hfr], ?_⟩
    rw [openAnnotsOfItems, List.forall_mem_append]
    exact ⟨hsi, hsr⟩
theorem NormalElements.ordered {elements normal : List DraftElement} :
    NormalElements elements normal →
    elementsAreForeign normal = true ∧ ∀ elements ∈ openAnnotsOfElements normal,
      elements.Pairwise fun a b => Text.compareUnits a.name b.name = .lt
  | .nil => ⟨rfl, by simp [openAnnotsOfElements]⟩
  | .cons name hv hr => by
    obtain ⟨hfv, hsv⟩ := hv.ordered
    obtain ⟨hfr, hsr⟩ := hr.ordered
    refine ⟨by simp [elementsAreForeign, DraftElement.isForeign, hfv, hfr], ?_⟩
    rw [openAnnotsOfElements, List.forall_mem_append]
    exact ⟨hsv, hsr⟩
end

theorem NormalForm.valueType_eq {draft normal : Draft} (h : NormalForm draft normal) :
    normal.valueType = draft.valueType := by
  cases h <;> rfl

theorem Value.valueType_toDraft (value : Value) : value.toDraft.valueType = value.valueType := by
  cases value with
  | annot a =>
    obtain ⟨type, ⟨members⟩⟩ := a
    rfl
  | _ => rfl

-- ---------------------------------------------------------------------------
-- Canonicalization
-- ---------------------------------------------------------------------------

/-- With every sink, the canonical value of a foreign one reads back as its normal form, and every
annotation in it has its elements in the order of their names, no name twice. -/
theorem canonicalize_normalForm {σ : Type} [Sink σ] (draft : Draft)
    (h : draft.isForeign = true) (sink : σ) :
    let value := (draft.canonicalize.run sink).1
    (∀ normal, NormalForm draft normal ↔ value.toDraft = normal) ∧
      value.valueType = draft.valueType ∧
      value.toDraft.isForeign = true ∧
      ∀ elements ∈ value.toDraft.openAnnots,
        (elements.Pairwise fun a b => Text.compareUnits a.name b.name = .lt) ∧
          (elements.map DraftElement.name).Nodup := by
  intro value
  have hvalue : value = canonicalForm draft := canonicalize_run_fst draft sink
  have hnormal : NormalForm draft value.toDraft := by
    rw [hvalue]
    exact normalForm_toDraft draft h
  obtain ⟨hforeign, hordered⟩ := hnormal.ordered
  refine ⟨?_, ?_, hforeign, ?_⟩
  · intro normal
    constructor
    · exact fun hn => NormalForm.unique draft _ _ hnormal hn
    · rintro rfl
      exact hnormal
  · rw [← hnormal.valueType_eq, Value.valueType_toDraft]
  · intro elements he
    exact ⟨hordered elements he, nodup_map_of_pairwise_lt DraftElement.name (hordered elements he)⟩

/-- Names are put in order and repeated ones dropped in the inner annotation as in the outer. -/
theorem canonicalize_normalForm_nested :
    let inner : List DraftElement := [.foreign "y" (.scalar (.int 1)),
      .foreign "x" (.field (.foreign ⟨"LA;", "f", "I"⟩)), .foreign "y" (.scalar (.int 2))]
    let draft : Draft := .annot "LB;" [.foreign "b" (.array [.annot "LA;" inner, .scalar .null]),
      .foreign "a" (.scalar (.string "s")), .foreign "b" (.scalar .null)]
    let normal : Draft := .annot "LB;" [.foreign "a" (.scalar (.string "s")),
      .foreign "b" (.array [.annot "LA;" [.foreign "x" (.field (.foreign ⟨"LA;", "f", "I"⟩)),
        .foreign "y" (.scalar (.int 1))], .scalar .null])]
    draft.isForeign = true ∧ (draft.canonicalize.run ({} : Collector)).1.toDraft = normal ∧
      NormalForm draft normal := by
  intro inner draft normal
  have hforeign : draft.isForeign = true := rfl
  have hab : Text.compareUnits "a" "b" = .lt := rfl
  have hba := Std.OrientedCmp.gt_of_lt hab
  have hxy : Text.compareUnits "x" "y" = .lt := rfl
  have hyx := Std.OrientedCmp.gt_of_lt hxy
  have hvalue : (draft.canonicalize.run ({} : Collector)).1.toDraft = normal := by
    rw [show draft.canonicalize.run ({} : Collector) = _ from
      (canonicalize_reports draft).run_collector]
    simp [draft, inner, normal, canonicalForm_annot, OrderedSet.settle, hab, hba, hxy, hyx,
      Supplied.content, Value.toDraft, Annot.toDraft, Element.toDraft, draftItems, draftElementSet,
      draftElements]
  exact ⟨hforeign, hvalue,
    ((canonicalize_normalForm draft hforeign ({} : Collector)).1 normal).mpr hvalue⟩

end DexCanon
