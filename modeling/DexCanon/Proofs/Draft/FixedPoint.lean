import DexCanon.Proofs.Draft.NormalForm

/-!
# Copies of canonical values

A value is copied, with nothing in the copy canonical or with canonical parts in a foreign whole,
and the copy is canonicalized. It comes back as it was, and nothing is reported, exactly if the
elements of the annotations that were copied are in the order of their names. The canonical values
of foreign drafts have them in this order at every depth.
-/

set_option autoImplicit false

namespace DexCanon

open OrderedSet

-- ---------------------------------------------------------------------------
-- One level
-- ---------------------------------------------------------------------------

theorem Draft.array_copies {copy : Value → Draft} {items : List Value}
    (h : ∀ item ∈ items, Reports (copy item).canonicalize item []) :
    Reports (array (items.map copy)).canonicalize (.array items) [] := by
  have harray := array_reports (items.map copy)
  rwa [map_canonicalForm_copies h, flatMap_trace_copies h] at harray

theorem Draft.annot_copies (type : String) {copy : Element → DraftElement} {members : List Element}
    (h : ∀ member ∈ members, Reports (copy member).canonicalize member [])
    (hs : members.Pairwise fun a b => Text.compareUnits a.name b.name = .lt) :
    Reports (annot type (members.map copy)).canonicalize (.annot ⟨type, ⟨members⟩⟩) [] := by
  have hannot := annot_reports type (members.map copy)
  rwa [map_canonicalForm_copies h, flatMap_trace_copies h,
    settle_of_pairwise Element.byName .first members hs] at hannot

-- ---------------------------------------------------------------------------
-- Every level
-- ---------------------------------------------------------------------------

theorem Element.toDraft_eq (element : Element) :
    element.toDraft = .foreign element.name element.value.toDraft := by
  cases element
  rfl

theorem Value.isForeign_toDraft (value : Value) : value.toDraft.isForeign = true := by
  induction value using Value.induction with
  | scalar s => rfl
  | field f => rfl
  | method m => rfl
  | enum f => rfl
  | array items ih =>
    rw [toDraft_array, Draft.isForeign, itemsAreForeign_iff, List.forall_mem_map]
    exact ih
  | annot type members ih =>
    rw [toDraft_annot, Draft.isForeign, elementsAreForeign_iff, List.forall_mem_map]
    intro member hm
    rw [Element.toDraft_eq]
    exact ih member hm

/-- The elements of each annotation in the value are in the order of their names. -/
def Value.NameOrdered (value : Value) : Prop :=
  ∀ elements ∈ value.toDraft.openAnnots,
    elements.Pairwise fun a b => Text.compareUnits a.name b.name = .lt

namespace Value.NameOrdered

theorem item {items : List Value} (h : (Value.array items).NameOrdered) {item : Value}
    (hi : item ∈ items) : item.NameOrdered := by
  intro elements he
  apply h
  rw [toDraft_array, Draft.openAnnots, openAnnotsOfItems_eq, List.flatMap_map]
  exact List.mem_flatMap.mpr ⟨item, hi, he⟩

variable {type : String} {members : List Element}

theorem pairwise (h : (Value.annot ⟨type, ⟨members⟩⟩).NameOrdered) :
    members.Pairwise fun a b => Text.compareUnits a.name b.name = .lt := by
  have hown := h (members.map Element.toDraft) (by simp [Draft.openAnnots])
  simpa only [List.pairwise_map, Element.toDraft_eq, DraftElement.name] using hown

theorem value (h : (Value.annot ⟨type, ⟨members⟩⟩).NameOrdered) {member : Element}
    (hm : member ∈ members) : member.value.NameOrdered := by
  intro elements he
  apply h
  rw [toDraft_annot, Draft.openAnnots, openAnnotsOfElements_eq, List.flatMap_map]
  refine List.mem_cons_of_mem _ (List.mem_flatMap.mpr ⟨member, hm, ?_⟩)
  rwa [Element.toDraft_eq]

end Value.NameOrdered

theorem Value.reports_toDraft (value : Value) :
    value.NameOrdered → Reports value.toDraft.canonicalize value [] := by
  induction value using Value.induction with
  | scalar s => exact fun _ => .pure _
  | field f => exact fun _ => .pure _
  | method m => exact fun _ => .pure _
  | enum f => exact fun _ => .pure _
  | array items ih =>
    intro h
    rw [toDraft_array]
    exact Draft.array_copies fun item hi => ih item hi (h.item hi)
  | annot type members ih =>
    intro h
    have hmembers : ∀ member ∈ members, Reports member.toDraft.canonicalize member [] := by
      rintro ⟨name, value⟩ hm
      exact (ih ⟨name, value⟩ hm (h.value hm)).map (Element.mk name)
    rw [toDraft_annot]
    exact Draft.annot_copies type hmembers h.pairwise

theorem Value.reports_copy (value : Value) (h : value.NameOrdered) :
    Reports (Draft.canonical value).copy value [] := by
  cases value with
  | scalar s => exact .pure _
  | field f => exact .pure _
  | method m => exact .pure _
  | enum f => exact .pure _
  | array items => exact Draft.array_copies fun _ _ => .pure _
  | annot a =>
    -- The parts are canonical, so only the elements of the value itself are put in order again.
    obtain ⟨type, ⟨members⟩⟩ := a
    exact Draft.annot_copies type (fun _ _ => .pure _) h.pairwise

theorem Value.reports_toDraft_iff (value : Value) :
    Reports value.toDraft.canonicalize value [] ↔ value.NameOrdered := by
  constructor
  · intro h
    have hnormal := normalForm_toDraft value.toDraft value.isForeign_toDraft
    rw [canonicalForm_eq h] at hnormal
    exact hnormal.ordered.2
  · exact value.reports_toDraft

theorem Value.nameOrdered_canonicalForm {draft : Draft} (h : draft.isForeign = true) :
    (canonicalForm draft).NameOrdered := (normalForm_toDraft draft h).ordered.2

-- ---------------------------------------------------------------------------
-- Canonicalization
-- ---------------------------------------------------------------------------

/-- With every sink, a copy of the canonical value of a foreign draft comes back as that value and
reports nothing: a copy in which nothing is canonical, and one whose parts are. -/
theorem canonicalize_copy {σ : Type} [Sink σ] (draft : Draft) (h : draft.isForeign = true)
    (sink : σ) :
    let value := (draft.canonicalize.run sink).1
    value.toDraft.isForeign = true ∧ Reports value.toDraft.canonicalize value [] ∧
      Reports (Draft.canonical value).copy value [] := by
  intro value
  have hvalue : value = canonicalForm draft := canonicalize_run_fst draft sink
  have hordered : value.NameOrdered := by
    rw [hvalue]
    exact Value.nameOrdered_canonicalForm h
  exact ⟨value.isForeign_toDraft, value.reports_toDraft_iff.mpr hordered,
    value.reports_copy hordered⟩

/-- The first run drops an element of the outer annotation and one of the inner, the later runs
none. -/
theorem canonicalize_copy_nested :
    let inner : List DraftElement := [.foreign "y" (.scalar (.int 1)),
      .foreign "x" (.method (.foreign ⟨"LA;", "m", ["I", "[J"], "V"⟩)),
      .foreign "y" (.scalar (.int 2))]
    let draft : Draft := .annot "LB;" [.foreign "b" (.array [.annot "LA;" inner, .scalar .null]),
      .foreign "a" (.scalar (.float 0x7fc00001)), .foreign "b" (.scalar .null)]
    let first := draft.canonicalize.run ({} : Collector)
    draft.isForeign = true ∧ first.2.size = 2 ∧
      first.1.toDraft.canonicalize.run ({} : Collector) = (first.1, {}) ∧
      (Draft.canonical first.1).copy.run ({} : Collector) = (first.1, {}) := by
  intro inner draft first
  have hforeign : draft.isForeign = true := rfl
  obtain ⟨-, htoDraft, hcopy⟩ := canonicalize_copy draft hforeign ({} : Collector)
  have hab : Text.compareUnits "a" "b" = .lt := rfl
  have hba := Std.OrientedCmp.gt_of_lt hab
  have hxy : Text.compareUnits "x" "y" = .lt := rfl
  have hyx := Std.OrientedCmp.gt_of_lt hxy
  have htwo : first.2.size = 2 := by
    rw [show first = _ from (canonicalize_reports draft).run_collector]
    simp [draft, inner, trace_annot, OrderedSet.settle, OrderedSet.complaints, hab, hba, hxy, hyx,
      Collector.size]
  exact ⟨hforeign, htwo, htoDraft Collector {}, hcopy Collector {}⟩

end DexCanon
