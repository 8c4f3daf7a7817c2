import DexCanon.Draft.Forms
import DexCanon.OrderedSet.Catalogue
import DexCanon.Proofs.OrderedSet.Search
import DexCanon.Proofs.OrderedSet.Settle
import DexCanon.Proofs.Text.Units

/-!
# Annotations in name order

An annotation is looked up by name, which takes its elements to be in the order of their names. The
loose way to make an annotation puts them in that order. The other way takes a set as it is; so what
it makes is in name order, equal to what the loose way makes of the same elements and fit to be
looked up only if the rule that the set was built with puts names in order.
-/

set_option autoImplicit false

namespace DexCanon

/-- The names strictly increase; so none comes twice. -/
def OrderedSet.NameOrdered (set : ElementSet) : Prop :=
  set.members.Pairwise fun a b => Text.compareUnits a.name b.name = .lt

theorem OrderedSet.NameOrdered.nodup {set : ElementSet} (h : set.NameOrdered) :
    (set.members.map Element.name).Nodup :=
  nodup_map_of_pairwise_lt Element.name h

theorem OrderedSet.rivals_byName (elements : List DraftElement) (x : Element) :
    rivals Element.byName.compare (elements.map canonicalForm) x =
      (elements.filter fun element => element.name = x.name).map canonicalForm := by
  rw [rivals, List.filter_map]
  congr 1
  refine List.filter_congr ?_
  intro element _
  rw [Function.comp_apply, decide_eq_decide, Element.byName_eq_iff, name_canonicalForm, eq_comm]

theorem Annot.element?_eq_some_iff {a : Annot} (h : a.elements.NameOrdered) {name : String}
    {e : Element} : a.element? name = some e ↔ e ∈ a.elements ∧ e.name = name := by
  let target : Element := ⟨name, .scalar .null⟩
  have hname : Element.byName.compare e target = .eq ↔ e.name = name := Element.byName_eq_iff
  have hordered : a.elements.members.Pairwise fun a b => Element.byName.compare a b = .lt := h
  rw [← hname]
  show a.elements.find Element.byName target = some e ↔ _
  exact OrderedSet.find_eq_some_iff hordered

-- ---------------------------------------------------------------------------
-- The two ways
-- ---------------------------------------------------------------------------

theorem Annot.build_reports (type : String) (elements : Option (List DraftElement)) :
    let swept := OrderedSet.settle Element.byName .first ((elements.getD []).map canonicalForm)
    Reports (Annot.build type elements) ⟨type, ⟨swept.kept⟩⟩
      ((elements.getD []).flatMap trace ++
        OrderedSet.complaints Element.byName {} swept.dropped) :=
  (OrderedSet.build_reports Element.byName {} elements).map (Annot.mk type)

theorem Annot.nameOrdered_build {σ : Type} [Sink σ] (type : String)
    (elements : Option (List DraftElement)) (sink : σ) :
    ((Annot.build type elements).run sink).1.elements.NameOrdered := by
  rw [build_reports]
  exact OrderedSet.pairwise_kept Element.byName .first _

theorem Annot.build_reports_iff (type : String) (set : ElementSet) :
    Reports (Annot.build type (some (set.members.map .canonical))) ⟨type, set⟩ [] ↔
      set.NameOrdered := by
  constructor
  · intro h
    have hordered := Annot.nameOrdered_build type (some (set.members.map .canonical)) ({} : Discard)
    rw [h] at hordered
    exact hordered
  · intro h
    have hcopies : ∀ e ∈ set.members,
        Reports (Canonicalize.canonicalize (DraftElement.canonical e)) e [] := fun _ _ => .pure _
    have hbuild := build_reports type (some (set.members.map .canonical))
    rw [Option.getD_some, map_canonicalForm_copies hcopies, flatMap_trace_copies hcopies,
      OrderedSet.settle_of_pairwise Element.byName .first set.members h] at hbuild
    exact hbuild

-- ---------------------------------------------------------------------------
-- The rules that put names in order
-- ---------------------------------------------------------------------------

/-- The annotations that are made of sets as they are behave as those made in the loose way for
just the rules that put names in order. -/
theorem annot_of_set_iff {σ : Type} [Sink σ] (order : SetOrder Element)
    [Std.TransCmp order.compare] (policy : SetPolicy) (sink : σ) :
    (∀ a b : Element, order.compare a b = .lt → Text.compareUnits a.name b.name = .lt) ↔
      ∀ (entities : Option (List DraftElement)) (type : String),
        let set := ((OrderedSet.build order policy entities).run sink).1
        let annot : Annot := ⟨type, set⟩
        set.NameOrdered ∧ (set.members.map Element.name).Nodup ∧
          Reports (Annot.build type (some (set.members.map .canonical))) annot [] ∧
          ∀ e ∈ set, annot.element? e.name = some e := by
  constructor
  · intro horder entities type set annot
    have hset : set.NameOrdered := by
      simp only [set, OrderedSet.build_reports order policy entities σ sink]
      exact (OrderedSet.pairwise_kept order policy.survivor _).imp fun hlt => horder _ _ hlt
    refine ⟨hset, hset.nodup, (Annot.build_reports_iff type set).mpr hset, ?_⟩
    intro e he
    exact (Annot.element?_eq_some_iff hset).mpr ⟨he, rfl⟩
  · intro h a b hlt
    -- Two elements that the rule puts in order come to stand in this order in a set of their own.
    have hpair : [a, b].Pairwise fun a b => order.compare a b = .lt := by simpa using hlt
    have hset := (h (some [.canonical a, .canonical b]) "").1
    simp only [OrderedSet.build_reports order policy _ σ sink, Option.getD_some, List.map_cons,
      List.map_nil, canonicalForm_canonicalElement,
      OrderedSet.settle_of_pairwise order policy.survivor [a, b] hpair] at hset
    simpa [OrderedSet.NameOrdered] using hset

/-- The rule by name puts names in order: the later of two elements of one name stays and is
found. -/
theorem annot_of_set_iff_byName :
    let later : Element := ⟨"b", .scalar (.int 2)⟩
    let entities : List DraftElement :=
      [.foreign "b" (.scalar (.int 1)), .foreign "a" (.scalar .null), .canonical later]
    let policy : SetPolicy := { survivor := .last }
    let set := ((OrderedSet.build Element.byName policy (some entities)).run ({} : Collector)).1
    set.NameOrdered ∧ later ∈ set ∧ (Annot.mk "LA;" set).element? "b" = some later := by
  intro later entities policy set
  have hset : ((OrderedSet.build Element.byName policy (some entities)).run ({} : Collector)).1 =
      ⟨[⟨"a", .scalar .null⟩, later]⟩ := by
    have hab : Text.compareUnits "a" "b" = .lt := rfl
    have hba := Std.OrientedCmp.gt_of_lt hab
    rw [OrderedSet.build_reports Element.byName policy (some entities) Collector]
    simp [entities, later, policy, OrderedSet.settle, hab, hba]
  have hlater : later ∈ set := by
    show later ∈ set.members
    simp [set, hset]
  obtain ⟨hordered, -, -, hfound⟩ :=
    (annot_of_set_iff Element.byName policy ({} : Collector)).mp (fun _ _ => id) (some entities)
      "LA;"
  exact ⟨hordered, hlater, hfound later hlater⟩

/-- Under the reversed rule the set keeps names in reversed order, and so does the annotation made
of it: the loose way makes something else of the same elements, and a name that occurs is not
found. -/
theorem annot_of_set_reversed :
    let order := ElementOrder.nameReversed.rule "element"
    let first : Element := ⟨"a", .scalar .null⟩
    let second : Element := ⟨"b", .scalar .null⟩
    let entities : List DraftElement := [.canonical first, .canonical second]
    let set := ((OrderedSet.build order {} (some entities)).run ({} : Collector)).1
    let annot : Annot := ⟨"LA;", set⟩
    Std.TransCmp order.compare ∧ ¬ set.NameOrdered ∧
      ¬ Reports (Annot.build "LA;" (some (set.members.map .canonical))) annot [] ∧
      second ∈ set ∧ annot.element? second.name = none := by
  intro order first second entities set annot
  have htrans : Std.TransCmp order.compare :=
    show Std.TransCmp fun a b => Element.byName.compare b a from Std.TransCmp.opposite
  have hcompare : ∀ a b, order.compare a b = Text.compareUnits b.name a.name := fun _ _ => rfl
  have hab : Text.compareUnits "a" "b" = .lt := rfl
  have hba := Std.OrientedCmp.gt_of_lt hab
  have hset : ((OrderedSet.build order {} (some entities)).run ({} : Collector)).1 =
      ⟨[second, first]⟩ := by
    rw [OrderedSet.build_reports order {} (some entities) Collector]
    simp [entities, first, second, OrderedSet.settle, hcompare, hab]
  have hnot : ¬ set.NameOrdered := by
    simp [set, hset, OrderedSet.NameOrdered, first, second, hba]
  refine ⟨htrans, hnot, fun h => hnot ((Annot.build_reports_iff "LA;" set).mp h), ?_, ?_⟩
  · show second ∈ set.members
    simp [set, hset]
  · simp [annot, set, hset, Annot.element?, OrderedSet.named?, OrderedSet.searchBy, bisect,
      first, second, hab]

end DexCanon
