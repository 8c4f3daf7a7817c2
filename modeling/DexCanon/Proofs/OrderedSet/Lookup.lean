import DexCanon.Draft.Forms
import DexCanon.Proofs.Draft.NameOrder
import DexCanon.Proofs.OrderedSet.Search
import DexCanon.Proofs.OrderedSet.Settle

/-!
# Looking up in a built set

Halving search in a set that was built finds what going through the members one by one would find,
and it finds nothing only if nothing in that place was put in. So an annotation that is made in the
loose way answers a name with the first of the elements it was made of that has this name.
-/

set_option autoImplicit false

namespace DexCanon

namespace OrderedSet

variable {δ α σ : Type} [Canonicalize δ α] [Sink σ]

/-- Of a built set, halving search finds the only member in the place of a target, as every other
search that keeps the contract does, and nothing exactly if no entity was in the place. Where a
place is pointed out along the set, such a search finds one of the members there. It is the only one
if no two are there, and none means that no entity was there if entities of one place are pointed
out alike. -/
theorem build_lookup (order : SetOrder α) [Std.TransCmp order.compare] (policy : SetPolicy)
    (entities : Option (List δ)) (sink : σ) :
    let set := ((build order policy entities).run sink).1
    (∀ target,
      let locate := fun x => order.compare x target
      FindsOnly locate set.members (set.find order target) ∧
      (set.find order target = none ↔
        ∀ entity ∈ entities.getD [], order.compare (canonicalForm entity) target ≠ .eq) ∧
      ∀ search, SearchContract search → search locate set.members = set.find order target) ∧
    (∃ search, SearchContract search ∧ ∀ locate, set.searchBy locate = search locate set.members) ∧
    ∀ search, SearchContract search → ∀ locate, Located locate set.members →
      let found := search locate set.members
      (∀ member, found = some member → member ∈ set ∧ locate member = .eq) ∧
      (found = none ↔ ∀ member ∈ set, locate member ≠ .eq) ∧
      ((∀ a b, order.compare a b = .eq → locate a = locate b) →
        (found = none ↔ ∀ entity ∈ entities.getD [], locate (canonicalForm entity) ≠ .eq)) ∧
      (Pinpoints locate set.members →
        FindsOnly locate set.members found ∧ found = set.searchBy locate) := by
  intro set
  have hset : set.members =
      (settle order policy.survivor ((entities.getD []).map canonicalForm)).kept := by
    simp only [set, build_reports order policy entities σ sink]
  have hordered : set.members.Pairwise fun a b => order.compare a b = .lt := by
    rw [hset]
    exact pairwise_kept order policy.survivor _
  have habsent : ∀ locate : α → Ordering,
      (∀ a b, order.compare a b = .eq → locate a = locate b) →
      ((∀ member ∈ set.members, locate member ≠ .eq) ↔
        ∀ entity ∈ entities.getD [], locate (canonicalForm entity) ≠ .eq) := by
    intro locate hlocate
    rw [hset, forall_kept_iff, List.forall_mem_map]
    intro a b hab
    rw [hlocate a b hab]
  refine ⟨?_, ⟨bisect, bisect_contract, fun _ => rfl⟩, ?_⟩
  · intro target locate
    -- A target points its place out, and entities of one place compare to it alike.
    have hpin : Pinpoints locate set.members := pinpoints_of_pairwise_lt hordered target
    have hfound := bisect_contract.findsOnly hpin
    refine ⟨hfound, hfound.none_iff.trans (habsent locate ?_), ?_⟩
    · exact fun a b hab => Std.TransCmp.congr_left hab
    · exact fun search hsearch => hsearch.eq_search bisect_contract hpin
  · intro search hsearch locate hlocate found
    have hnone := hsearch.eq_none_iff hlocate
    refine ⟨?_, hnone, fun hrule => hnone.trans (habsent locate hrule), fun hpin => ?_⟩
    · exact fun member => hsearch.sound locate _ member hlocate
    · exact ⟨hsearch.findsOnly hpin, hsearch.eq_search bisect_contract hpin⟩

/-- Names of one length are one place, so a name is found under another of its length, and of two in
a place the later is there. -/
theorem build_lookup_nameLength :
    let order := ElementOrder.nameLength.rule "element"
    let later : Element := ⟨"c", .scalar (.int 2)⟩
    let entities : List DraftElement :=
      [.foreign "bb" (.scalar .null), .foreign "a" (.scalar (.int 1)), .canonical later]
    let set := ((build order { survivor := .last } (some entities)).run ({} : Collector)).1
    let atTwo : Element → Ordering := fun e => Ord.compare e.name.utf8ByteSize 2
    let scan := fun (locate : Element → Ordering) (members : List Element) =>
      members.find? fun member => locate member = .eq
    Std.TransCmp order.compare ∧ SearchContract scan ∧ Pinpoints atTwo set.members ∧
      Located atTwo set.members ∧
      set.find order ⟨"z", .scalar .null⟩ = some later ∧
      scan (fun e => order.compare e ⟨"z", .scalar .null⟩) set.members = some later ∧
      set.find order ⟨"zzz", .scalar .null⟩ = none ∧
      set.searchBy atTwo = some ⟨"bb", .scalar .null⟩ ∧
      scan atTwo set.members = set.searchBy atTwo ∧ set.searchBy atTwo ≠ none := by
  intro order later entities set atTwo scan
  have htrans : Std.TransCmp order.compare :=
    comap_transCmp (fun e : Element => e.name.utf8ByteSize)
      { compare := Ord.compare, key := toString, subject := "element" }
  have hcompare : ∀ a b, order.compare a b = Ord.compare a.name.utf8ByteSize b.name.utf8ByteSize :=
    fun _ _ => rfl
  have hsizes : "a".utf8ByteSize = 1 ∧ "c".utf8ByteSize = 1 ∧ "bb".utf8ByteSize = 2 :=
    ⟨rfl, rfl, rfl⟩
  have hset : ((build order { survivor := .last } (some entities)).run ({} : Collector)).1 =
      ⟨[later, ⟨"bb", .scalar .null⟩]⟩ := by
    rw [build_reports order { survivor := .last } (some entities) Collector]
    simp [entities, later, settle, hcompare, hsizes, Nat.compare_eq_lt]
  have hlater : later ∈ set.members := by simp [set, hset]
  have hbb : (⟨"bb", .scalar .null⟩ : Element) ∈ set.members := by simp [set, hset]
  have hpin : Pinpoints atTwo set.members := by
    simp only [set, hset]
    exact List.pairwise_pair.mpr (.inl rfl)
  obtain ⟨hfind, -, hsearch⟩ :=
    build_lookup order { survivor := .last } (some entities) ({} : Collector)
  obtain ⟨-, -, hrule, hpinned⟩ := hsearch bisect bisect_contract atTwo hpin.located
  obtain ⟨hfound, -⟩ := hpinned hpin
  have hsame := ((hsearch scan .scan atTwo hpin.located).2.2.2 hpin).2
  have hz : set.find order ⟨"z", .scalar .null⟩ = some later :=
    ((hfind ⟨"z", .scalar .null⟩).1.some_iff later).mpr ⟨hlater, rfl⟩
  have hone := (hfound.some_iff ⟨"bb", .scalar .null⟩).mpr ⟨hbb, rfl⟩
  refine ⟨htrans, .scan, hpin, hpin.located, hz, ?_, ?_, hone, hsame, ?_⟩
  · exact ((hfind ⟨"z", .scalar .null⟩).2.2 scan .scan).trans hz
  · refine (hfind ⟨"zzz", .scalar .null⟩).2.1.mpr ?_
    simp only [entities, Option.getD_some, List.forall_mem_cons]
    decide
  · intro hnone
    have hsize : ∀ a b, order.compare a b = .eq → atTwo a = atTwo b := by
      intro a b hab
      exact congrArg (Ord.compare · 2) (Nat.compare_eq_eq.mp hab)
    refine (hrule hsize).mp hnone (.foreign "bb" (.scalar .null)) (by simp [entities]) ?_
    rfl

/-- A place may be pointed out that is not one of the rule's own. Then nothing may be found although
an entity was there, which had to make way for another; or two members may be there, of which only
one is found. -/
theorem build_lookup_imprecise :
    (let order := ElementOrder.nameLength.rule "element"
      let entities : List DraftElement :=
        [.foreign "bb" (.scalar .null), .foreign "cc" (.scalar .null)]
      let set := ((build order {} (some entities)).run ({} : Collector)).1
      let locate : Element → Ordering := fun e => Text.compareUnits e.name "cc"
      Std.TransCmp order.compare ∧ Located locate set.members ∧ set.searchBy locate = none ∧
        ∃ entity ∈ entities, locate (canonicalForm entity) = .eq) ∧
    (let entities : List DraftElement :=
        [.foreign "a" (.scalar .null), .foreign "b" (.scalar .null)]
      let set := ((build Element.byName {} (some entities)).run ({} : Collector)).1
      let locate : Element → Ordering := fun _ => .eq
      Std.TransCmp Element.byName.compare ∧ Located locate set.members ∧
        ⟨"a", .scalar .null⟩ ∈ set ∧ locate ⟨"a", .scalar .null⟩ = .eq ∧
        set.searchBy locate = some ⟨"b", .scalar .null⟩) := by
  constructor
  · intro order entities set locate
    have htrans : Std.TransCmp order.compare :=
      comap_transCmp (fun e : Element => e.name.utf8ByteSize)
        { compare := Ord.compare, key := toString, subject := "element" }
    have heq : order.compare ⟨"bb", .scalar .null⟩ ⟨"cc", .scalar .null⟩ = .eq := rfl
    have heq' := Std.OrientedCmp.eq_symm heq
    have hset : ((build order {} (some entities)).run ({} : Collector)).1 =
        ⟨[⟨"bb", .scalar .null⟩]⟩ := by
      rw [build_reports order {} (some entities) Collector]
      simp [entities, settle, heq, heq']
    refine ⟨htrans, ?_, ?_, .foreign "cc" (.scalar .null), by simp [entities], ?_⟩
    · simp only [set, hset]
      exact List.pairwise_singleton _ _
    · have hlt : Text.compareUnits "bb" "cc" = .lt := rfl
      simp [set, hset, locate, searchBy, bisect, hlt]
    · rfl
  · intro entities set locate
    have hset : ((build Element.byName {} (some entities)).run ({} : Collector)).1 =
        ⟨[⟨"a", .scalar .null⟩, ⟨"b", .scalar .null⟩]⟩ := by
      have hab : Text.compareUnits "a" "b" = .lt := rfl
      rw [build_reports Element.byName {} (some entities) Collector]
      simp [entities, settle, hab, Std.OrientedCmp.gt_of_lt hab]
    refine ⟨inferInstance, ?_, ?_, rfl, ?_⟩
    · exact List.pairwise_of_forall fun _ _ => ⟨id, id⟩
    · simp only [set, hset]
      exact List.mem_cons_self
    · simp [set, hset, locate, searchBy, bisect]

end OrderedSet

-- ---------------------------------------------------------------------------
-- Names
-- ---------------------------------------------------------------------------

theorem OrderedSet.mem_kept_byName (elements : List DraftElement) {name : String} {e : Element} :
    (e ∈ (settle Element.byName .first (elements.map canonicalForm)).kept ∧ e.name = name) ↔
      (elements.find? fun element => element.name = name).map canonicalForm = some e := by
  rw [mem_kept, rivals_byName, Survivor.pick, List.head?_map, List.head?_filter]
  constructor
  · rintro ⟨hfirst, rfl⟩
    exact hfirst
  · intro hfirst
    obtain ⟨element, helement, rfl⟩ := Option.map_eq_some_iff.mp hfirst
    have hname : (canonicalForm element).name = name := by simpa using List.find?_some helement
    exact ⟨by rw [hname, hfirst], hname⟩

/-- An annotation answers a name with the canonical form of the first element that was given under
this name, and with nothing exactly if none was. -/
theorem Annot.element?_build {σ : Type} [Sink σ] (type : String)
    (elements : Option (List DraftElement)) (name : String) (sink : σ) :
    let annot := ((Annot.build type elements).run sink).1
    annot.type = type ∧
      annot.element? name =
        ((elements.getD []).find? fun element => element.name = name).map canonicalForm ∧
      (annot.element? name = none ↔ ∀ element ∈ elements.getD [], element.name ≠ name) := by
  intro annot
  have hannot : annot = ⟨type, ⟨(OrderedSet.settle Element.byName .first
      ((elements.getD []).map canonicalForm)).kept⟩⟩ := by
    simp only [annot, Annot.build_reports type elements σ sink]
  have hordered : annot.elements.NameOrdered := Annot.nameOrdered_build type elements sink
  have hfirst : annot.element? name =
      ((elements.getD []).find? fun element => element.name = name).map canonicalForm := by
    apply Option.ext
    intro e
    have hkept : e ∈ annot.elements ↔ e ∈ (OrderedSet.settle Element.byName .first
        ((elements.getD []).map canonicalForm)).kept := by
      rw [hannot]
      rfl
    rw [Annot.element?_eq_some_iff hordered, hkept, OrderedSet.mem_kept_byName]
  refine ⟨by rw [hannot], hfirst, ?_⟩
  rw [hfirst, Option.map_eq_none_iff, List.find?_eq_none]
  simp

/-- A supplementary name stands before one from U+E000 to U+FFFF, though its code point is greater,
and each is found. -/
theorem Annot.element?_build_supplementary :
    let elements : List DraftElement := [.foreign "ｅ" (.scalar (.int 1)),
      .foreign "😀" (.scalar (.int 2)), .canonical ⟨"a", .scalar .null⟩,
      .foreign "😀" (.scalar (.int 3))]
    let annot := ((Annot.build "LA;" (some elements)).run ({} : Collector)).1
    Text.compareUnits "😀" "ｅ" = .lt ∧ Text.compareCodePoints "😀" "ｅ" = .gt ∧
      annot.element? "😀" = some ⟨"😀", .scalar (.int 2)⟩ ∧
      annot.element? "ｅ" = some ⟨"ｅ", .scalar (.int 1)⟩ ∧ annot.element? "b" = none := by
  intro elements annot
  have hfound := fun name => (element?_build "LA;" (some elements) name ({} : Collector)).2
  refine ⟨by decide +kernel, by decide +kernel, ?_, ?_, ?_⟩
  · exact (hfound "😀").1.trans (by simp [elements, DraftElement.name])
  · exact (hfound "ｅ").1.trans (by simp [elements, DraftElement.name])
  · refine (hfound "b").2.mpr ?_
    simp [elements, DraftElement.name]

end DexCanon
