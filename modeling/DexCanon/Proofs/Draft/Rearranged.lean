import DexCanon.Proofs.Draft.NameOrder
import DexCanon.Proofs.Draft.Trace

/-!
# Elements in another order

The elements of an annotation may be handed in in any order. As long as those of one name keep
theirs, the canonical form is the same, and the same diagnostics are reported in some order; and
this holds for all annotations of a draft at once, at whatever depth they are. Where no name comes
twice, every order will do.
-/

set_option autoImplicit false

namespace DexCanon

open OrderedSet

/-- The same elements, those of one name in the same order. -/
structure Reordered (elements others : List DraftElement) : Prop where
  perm : elements.Perm others
  sameName : ∀ name,
    others.filter (fun element => element.name = name) =
      elements.filter fun element => element.name = name

mutual
/-- The second draft is the first one with the elements of its annotations moved, at any depth. -/
inductive Rearranged (move : List DraftElement → List DraftElement → Prop) : Draft → Draft → Prop
  | kept (draft : Draft) : Rearranged move draft draft
  | array {items others : List Draft} (hi : RearrangedItems move items others) :
      Rearranged move (.array items) (.array others)
  | annot (type : String) {elements inner others : List DraftElement}
      (he : RearrangedElements move elements inner) (hm : move inner others) :
      Rearranged move (.annot type elements) (.annot type others)
inductive RearrangedItems (move : List DraftElement → List DraftElement → Prop) :
    List Draft → List Draft → Prop
  | nil : RearrangedItems move [] []
  | cons {item other : Draft} {items others : List Draft} (hi : Rearranged move item other)
      (hr : RearrangedItems move items others) :
      RearrangedItems move (item :: items) (other :: others)
inductive RearrangedElements (move : List DraftElement → List DraftElement → Prop) :
    List DraftElement → List DraftElement → Prop
  | nil : RearrangedElements move [] []
  | kept (element : DraftElement) {elements others : List DraftElement}
      (hr : RearrangedElements move elements others) :
      RearrangedElements move (element :: elements) (element :: others)
  | foreign (name : String) {value other : Draft} {elements others : List DraftElement}
      (hv : Rearranged move value other) (hr : RearrangedElements move elements others) :
      RearrangedElements move (.foreign name value :: elements) (.foreign name other :: others)
end

-- ---------------------------------------------------------------------------
-- One annotation
-- ---------------------------------------------------------------------------

namespace Reordered

variable {elements others : List DraftElement}

theorem swap {first second : DraftElement} (h : first.name ≠ second.name)
    (rest : List DraftElement) :
    Reordered (first :: second :: rest) (second :: first :: rest) where
  perm := .swap second first rest
  sameName name := by
    by_cases hname : first.name = name
    · have hother : second.name ≠ name := fun hs => h (hname.trans hs.symm)
      simp [hname, hother]
    · simp [List.filter_cons, hname]

theorem of_nodup (h : (elements.map DraftElement.name).Nodup) (hp : elements.Perm others) :
    Reordered elements others where
  perm := hp
  sameName name := by
    have hdistinct : ∀ {list : List DraftElement}, (list.map DraftElement.name).Nodup →
        (list.filter fun element => element.name = name).Pairwise fun a b => a.name ≠ b.name :=
      fun hl => (List.pairwise_map.mp hl).sublist List.filter_sublist
    have hothers : (others.map DraftElement.name).Nodup := (hp.map _).nodup_iff.mp h
    refine (hp.symm.filter _).eq_of_pairwise ?_ (hdistinct hothers) (hdistinct h)
    intro a b ha hb hne _
    have hnames : a.name = b.name :=
      (of_decide_eq_true (List.mem_filter.mp ha).2).trans
        (of_decide_eq_true (List.mem_filter.mp hb).2).symm
    exact absurd hnames hne

theorem settle_eq (h : Reordered elements others) :
    settle Element.byName .first (others.map canonicalForm) =
      settle Element.byName .first (elements.map canonicalForm) := by
  apply settle_congr
  intro x
  rw [rivals_byName, rivals_byName, h.sameName]

end Reordered

-- ---------------------------------------------------------------------------
-- Two runs
-- ---------------------------------------------------------------------------

section

variable {δ α : Type} [Canonicalize δ α]

/-- One canonical form, and the same diagnostics in some order. -/
structure SameUpToOrder (entity other : δ) : Prop where
  form : canonicalForm other = canonicalForm entity
  trace : (trace entity).Perm (trace other)

structure AllSameUpToOrder (entities others : List δ) : Prop where
  forms : others.map canonicalForm = entities.map canonicalForm
  traces : (entities.flatMap trace).Perm (others.flatMap trace)

theorem SameUpToOrder.refl (entity : δ) : SameUpToOrder entity entity := ⟨rfl, .refl _⟩

theorem AllSameUpToOrder.nil : AllSameUpToOrder ([] : List δ) [] := ⟨rfl, .refl _⟩

theorem AllSameUpToOrder.cons {entity other : δ} {entities others : List δ}
    (h : SameUpToOrder entity other) (hr : AllSameUpToOrder entities others) :
    AllSameUpToOrder (entity :: entities) (other :: others) where
  forms := by rw [List.map_cons, List.map_cons, h.form, hr.forms]
  traces := by
    rw [List.flatMap_cons, List.flatMap_cons]
    exact h.trace.append hr.traces

end

namespace SameUpToOrder

theorem array {items others : List Draft} (h : AllSameUpToOrder items others) :
    SameUpToOrder (Draft.array items) (.array others) where
  form := by rw [canonicalForm_array, canonicalForm_array, h.forms]
  trace := by
    rw [trace_array, trace_array]
    exact h.traces

theorem annot (type : String) {elements inner others : List DraftElement}
    (he : AllSameUpToOrder elements inner) (hm : Reordered inner others) :
    SameUpToOrder (Draft.annot type elements) (.annot type others) where
  form := by rw [canonicalForm_annot, canonicalForm_annot, hm.settle_eq, he.forms]
  trace := by
    -- Which elements are dropped, and in which order, does not change either; only what they hold
    -- is reported in another order.
    have hparts : (elements.flatMap DexCanon.trace).Perm (others.flatMap DexCanon.trace) :=
      he.traces.trans (hm.perm.flatMap_right _)
    rw [trace_annot, trace_annot, hm.settle_eq, he.forms]
    exact hparts.append_right _

theorem foreign (name : String) {value other : Draft} (h : SameUpToOrder value other) :
    SameUpToOrder (DraftElement.foreign name value) (.foreign name other) where
  form := by rw [canonicalForm_foreign, canonicalForm_foreign, h.form]
  trace := by
    rw [trace_foreign, trace_foreign]
    exact h.trace

end SameUpToOrder

mutual
theorem Rearranged.same {draft other : Draft} :
    Rearranged Reordered draft other → SameUpToOrder draft other
  | .kept draft => .refl draft
  | .array hi => .array hi.same
  | .annot type he hm => .annot type he.same hm
theorem RearrangedItems.same {items others : List Draft} :
    RearrangedItems Reordered items others → AllSameUpToOrder items others
  | .nil => .nil
  | .cons hi hr => .cons hi.same hr.same
theorem RearrangedElements.same {elements others : List DraftElement} :
    RearrangedElements Reordered elements others → AllSameUpToOrder elements others
  | .nil => .nil
  | .kept element hr => .cons (.refl element) hr.same
  | .foreign name hv hr => .cons (.foreign name hv.same) hr.same
end

-- ---------------------------------------------------------------------------
-- No name twice
-- ---------------------------------------------------------------------------

def NoRepeats (annots : List (List DraftElement)) : Prop :=
  ∀ elements ∈ annots, (elements.map DraftElement.name).Nodup

theorem RearrangedElements.names {move : List DraftElement → List DraftElement → Prop}
    {elements others : List DraftElement} (h : RearrangedElements move elements others) :
    others.map DraftElement.name = elements.map DraftElement.name := by
  induction elements generalizing others with
  | nil =>
    cases h
    rfl
  | cons element rest ih =>
    cases h with
    | kept _ hr => rw [List.map_cons, List.map_cons, ih hr]
    | foreign name hv hr =>
      rw [List.map_cons, List.map_cons, ih hr]
      rfl

mutual
theorem Rearranged.reordered {draft other : Draft} :
    Rearranged List.Perm draft other → NoRepeats draft.openAnnots →
      Rearranged Reordered draft other
  | .kept draft => fun _ => .kept draft
  | .array hi => fun hn => .array (hi.reordered hn)
  | .annot type he hm => fun hn => by
    obtain ⟨hnames, hinner⟩ := List.forall_mem_cons.mp hn
    exact .annot type (he.reordered hinner) (.of_nodup (he.names ▸ hnames) hm)
theorem RearrangedItems.reordered {items others : List Draft} :
    RearrangedItems List.Perm items others → NoRepeats (openAnnotsOfItems items) →
      RearrangedItems Reordered items others
  | .nil => fun _ => .nil
  | .cons hi hr => fun hn => by
    obtain ⟨hitem, hrest⟩ := List.forall_mem_append.mp hn
    exact .cons (hi.reordered hitem) (hr.reordered hrest)
theorem RearrangedElements.reordered {elements others : List DraftElement} :
    RearrangedElements List.Perm elements others → NoRepeats (openAnnotsOfElements elements) →
      RearrangedElements Reordered elements others
  | .nil => fun _ => .nil
  | .kept element hr => fun hn =>
    .kept element (hr.reordered (List.forall_mem_append.mp hn).2)
  | .foreign name hv hr => fun hn => by
    obtain ⟨hvalue, hrest⟩ := List.forall_mem_append.mp hn
    exact .foreign name (hv.reordered hvalue) (hr.reordered hrest)
end

theorem trace_eq_nil_of_noRepeats {draft : Draft} (h : NoRepeats draft.openAnnots) :
    trace draft = [] := by
  have hsurplus : ∀ elements ∈ draft.openAnnots, surplus elements = 0 := by
    intro elements he
    rw [surplus, List.toFinset_card_of_nodup (h elements he), List.length_map, Nat.sub_self]
  rw [← List.length_eq_zero_iff, length_trace, List.sum_eq_zero_iff_forall_eq_nat,
    List.forall_mem_map]
  exact hsurplus

-- ---------------------------------------------------------------------------
-- Canonicalization
-- ---------------------------------------------------------------------------

/-- With every sink, a draft and the same draft with elements moved past others of other names, in
any of its annotations, have one canonical form and report the same diagnostics in some order. If no
name comes twice in any annotation, the elements may be moved at will, and nothing is reported. -/
theorem canonicalize_rearranged :
    (∀ draft other : Draft, Rearranged Reordered draft other →
      ∃ value first second, Reports draft.canonicalize value first ∧
        Reports other.canonicalize value second ∧ first.Perm second) ∧
      ∀ draft other : Draft, NoRepeats draft.openAnnots → Rearranged List.Perm draft other →
        ∃ value, Reports draft.canonicalize value [] ∧ Reports other.canonicalize value [] := by
  have hruns : ∀ draft other : Draft, Rearranged Reordered draft other →
      Reports draft.canonicalize (canonicalForm draft) (trace draft) ∧
        Reports other.canonicalize (canonicalForm draft) (trace other) ∧
        (trace draft).Perm (trace other) := by
    intro draft other h
    obtain ⟨hform, htrace⟩ := h.same
    refine ⟨canonicalize_reports draft, ?_, htrace⟩
    rw [← hform]
    exact canonicalize_reports other
  refine ⟨?_, ?_⟩
  · intro draft other h
    exact ⟨_, _, _, hruns draft other h⟩
  · intro draft other hn h
    obtain ⟨hdraft, hother, htrace⟩ := hruns draft other (h.reordered hn)
    rw [trace_eq_nil_of_noRepeats hn] at hdraft htrace
    rw [htrace.nil_eq.symm] at hother
    exact ⟨_, hdraft, hother⟩

/-- An element is moved past another one whose inner annotation is rearranged as well, and what the
two hold is reported the other way round. Without repeated names a list may be reversed. -/
theorem canonicalize_rearranged_nested :
    let x : DraftElement := .foreign "x" (.scalar .null)
    let y : DraftElement := .foreign "y" (.scalar (.int 1))
    let later : DraftElement := .foreign "y" (.scalar (.int 2))
    let outer (inner : List DraftElement) : DraftElement :=
      .foreign "a" (.array [.annot "LC;" inner])
    let moved : DraftElement := .foreign "b" (.annot "LA;" [x, x])
    let last : DraftElement := .foreign "b" (.scalar .null)
    let draft : Draft := .annot "LB;" [moved, outer [y, x, later], last]
    let other : Draft := .annot "LB;" [outer [x, y, later], moved, last]
    (draft.canonicalize.run ({} : Collector)).2.messages =
        ["Ignoring duplicate annotation value for name: x",
          "Ignoring duplicate annotation value for name: y",
          "Ignoring duplicate annotation value for name: b"] ∧
      (other.canonicalize.run ({} : Collector)).2.messages =
        ["Ignoring duplicate annotation value for name: y",
          "Ignoring duplicate annotation value for name: x",
          "Ignoring duplicate annotation value for name: b"] ∧
      (other.canonicalize.run ({} : Collector)).1 = (draft.canonicalize.run ({} : Collector)).1 ∧
      ∃ value, Reports (Draft.annot "LB;" [x, last, y]).canonicalize value [] ∧
        Reports (Draft.annot "LB;" [y, last, x]).canonicalize value [] := by
  intro x y later outer moved last draft other
  have hinner : Rearranged Reordered (.annot "LC;" [y, x, later]) (.annot "LC;" [x, y, later]) :=
    .annot "LC;" (.kept y (.kept x (.kept later .nil))) (.swap (by decide) [later])
  have houter : Rearranged Reordered draft other :=
    .annot "LB;" (.kept moved (.foreign "a" (.array (.cons hinner .nil)) (.kept last .nil)))
      (.swap (by decide) [last])
  obtain ⟨value, first, second, hdraft, hother, -⟩ := canonicalize_rearranged.1 draft other houter
  have hnames : NoRepeats (Draft.annot "LB;" [x, last, y]).openAnnots := by
    show ∀ elements ∈ [[x, last, y]], (elements.map DraftElement.name).Nodup
    simp [x, last, y, DraftElement.name]
  have hreversed : Rearranged List.Perm (.annot "LB;" [x, last, y]) (.annot "LB;" [y, last, x]) :=
    .annot "LB;" (.kept x (.kept last (.kept y .nil))) (List.reverse_perm [y, last, x])
  have hab : Text.compareUnits "a" "b" = .lt := rfl
  have hba := Std.OrientedCmp.gt_of_lt hab
  have hxy : Text.compareUnits "x" "y" = .lt := rfl
  have hyx := Std.OrientedCmp.gt_of_lt hxy
  refine ⟨?_, ?_, ?_, canonicalize_rearranged.2 _ _ hnames hreversed⟩
  · rw [show draft.canonicalize.run ({} : Collector) = _ from
      (canonicalize_reports draft).run_collector]
    simp [draft, outer, moved, last, later, x, y, trace_annot, OrderedSet.settle,
      OrderedSet.complaints, hab, hba, hxy, hyx, Collector.messages, Diagnostic.duplicate,
      Diagnostic.warning]
  · rw [show other.canonicalize.run ({} : Collector) = _ from
      (canonicalize_reports other).run_collector]
    simp [other, outer, moved, last, later, x, y, trace_annot, OrderedSet.settle,
      OrderedSet.complaints, hab, hba, hxy, hyx, Collector.messages, Diagnostic.duplicate,
      Diagnostic.warning]
  · rw [hdraft, hother]

end DexCanon
