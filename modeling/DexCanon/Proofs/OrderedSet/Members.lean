import Mathlib.Data.Set.Card
import DexCanon.Draft.Forms
import DexCanon.Proofs.OrderedSet.Settle
import DexCanon.Proofs.Text.Units

/-!
# Members of a built set

A set that is built from entities has one member for each class of them, in the order of the rule:
the canonical form of the first or of the last entity of the class, by the policy. This holds for
every rule that compares by a total preorder, for canonical and foreign entities alike.
-/

set_option autoImplicit false

namespace DexCanon.OrderedSet

section

variable {δ α : Type} [Canonicalize δ α]

/-- `x` is the canonical form of the first, or the last, of the entities that have its place. -/
def Elected (order : SetOrder α) (entities : List δ) (x : α) : Survivor → Prop
  | .first => ∃ before entity after, entities = before ++ entity :: after ∧
      canonicalForm entity = x ∧ ∀ other ∈ before, order.compare (canonicalForm other) x ≠ .eq
  | .last => ∃ before entity after, entities = before ++ entity :: after ∧
      canonicalForm entity = x ∧ ∀ other ∈ after, order.compare (canonicalForm other) x ≠ .eq

def classes (order : SetOrder α) (entities : List δ) : Set (Set δ) :=
  { c | ∃ entity ∈ entities, c = { other | other ∈ entities ∧
      order.compare (canonicalForm other) (canonicalForm entity) = .eq } }

variable (order : SetOrder α) [Std.TransCmp order.compare]

omit [Std.TransCmp order.compare] in
theorem Elected.exists_entity {order : SetOrder α} {entities : List δ} {x : α}
    {survivor : Survivor} (h : Elected order entities x survivor) :
    ∃ entity ∈ entities, canonicalForm entity = x := by
  cases survivor with
  | first =>
    obtain ⟨before, entity, after, rfl, hform, -⟩ := h
    exact ⟨entity, by simp, hform⟩
  | last =>
    obtain ⟨before, entity, after, rfl, hform, -⟩ := h
    exact ⟨entity, by simp, hform⟩

theorem pick_forms (survivor : Survivor) (entities : List δ) (x : α) :
    survivor.pick (rivals order.compare (entities.map canonicalForm) x) = some x ↔
      Elected order entities x survivor := by
  rw [pick_rivals]
  constructor
  · rintro ⟨before, after, hsplit, hspared⟩
    obtain ⟨before, rest, rfl, rfl, hrest⟩ := List.map_eq_append_iff.mp hsplit
    obtain ⟨entity, after, rfl, rfl, rfl⟩ := List.map_eq_cons_iff.mp hrest
    rw [spared_map] at hspared
    cases survivor <;> exact ⟨before, entity, after, rfl, rfl, hspared⟩
  · intro h
    cases survivor with
    | first =>
      obtain ⟨before, entity, after, rfl, rfl, hbefore⟩ := h
      exact ⟨_, _, by simp, (spared_map canonicalForm order before after entity .first).mpr hbefore⟩
    | last =>
      obtain ⟨before, entity, after, rfl, rfl, hafter⟩ := h
      exact ⟨_, _, by simp, (spared_map canonicalForm order before after entity .last).mpr hafter⟩

theorem ncard_classes (survivor : Survivor) (entities : List δ) :
    (classes order entities).ncard =
      (settle order survivor (entities.map canonicalForm)).kept.length := by
  classical
  let kept := (settle order survivor (entities.map canonicalForm)).kept
  let classOf : α → Set δ := fun m =>
    { other | other ∈ entities ∧ order.compare (canonicalForm other) m = .eq }
  have hrepresented : ∀ m ∈ kept, ∃ entity ∈ entities, canonicalForm entity = m := by
    intro m hm
    have hpick := (mem_kept order survivor _).mp hm
    rw [pick_forms] at hpick
    exact hpick.exists_entity
  -- A class is known by the member that stands for it, so classes are counted by members.
  have himage : classes order entities = classOf '' { m | m ∈ kept } := by
    ext c
    simp only [classes, Set.mem_ofPred_eq, Set.mem_image]
    constructor
    · rintro ⟨entity, he, rfl⟩
      obtain ⟨m, hm, heq⟩ := exists_kept order survivor _ (List.mem_map_of_mem he)
      refine ⟨m, hm, ?_⟩
      ext other
      simp only [classOf, Set.mem_ofPred_eq, Std.TransCmp.congr_right heq]
    · rintro ⟨m, hm, rfl⟩
      obtain ⟨entity, he, rfl⟩ := hrepresented m hm
      exact ⟨entity, he, rfl⟩
  have hinj : Set.InjOn classOf { m | m ∈ kept } := by
    intro a ha b hb hab
    obtain ⟨entity, he, rfl⟩ := hrepresented a ha
    have hself : entity ∈ classOf (canonicalForm entity) := ⟨he, Std.ReflCmp.compare_self⟩
    rw [hab] at hself
    exact kept_inj order survivor _ ha hb hself.2
  have hnodup : kept.Nodup := by
    have h : (kept.map id).Nodup :=
      nodup_map_of_pairwise_lt id (pairwise_kept order survivor (entities.map canonicalForm))
    rwa [List.map_id] at h
  have hset : { m | m ∈ kept } = (kept.toFinset : Set α) := by
    ext m
    simp
  rw [himage, hinj.ncard_image, hset, Set.ncard_coe_finset, List.toFinset_card_of_nodup hnodup]

end

-- ---------------------------------------------------------------------------
-- The members
-- ---------------------------------------------------------------------------

section

variable {δ α σ : Type} [Canonicalize δ α] [Sink σ]

/-- The members are in order and are the elected ones, and each class of the entities has exactly
one of them. -/
theorem build_members (order : SetOrder α) [Std.TransCmp order.compare] (policy : SetPolicy)
    (entities : Option (List δ)) (sink : σ) :
    let set := ((build order policy entities).run sink).1
    set.members.Pairwise (fun a b => order.compare a b = .lt) ∧
      (∀ x, x ∈ set ↔ Elected order (entities.getD []) x policy.survivor) ∧
      (∀ entity ∈ entities.getD [],
        ∃! x, x ∈ set ∧ order.compare x (canonicalForm entity) = .eq) ∧
      set.size = (classes order (entities.getD [])).ncard := by
  intro set
  have hset : set.members =
      (settle order policy.survivor ((entities.getD []).map canonicalForm)).kept := by
    simp only [set, build_reports order policy entities σ sink]
  have hmem : ∀ x, x ∈ set ↔
      x ∈ (settle order policy.survivor ((entities.getD []).map canonicalForm)).kept := by
    intro x
    rw [← hset]
    rfl
  refine ⟨?_, ?_, ?_, ?_⟩
  · rw [hset]
    exact pairwise_kept order policy.survivor _
  · intro x
    rw [hmem, mem_kept, pick_forms]
  · intro entity he
    obtain ⟨m, hm, heq⟩ := exists_kept order policy.survivor _ (List.mem_map_of_mem he)
    refine ⟨m, ⟨(hmem m).mpr hm, heq⟩, ?_⟩
    rintro x ⟨hx, hxe⟩
    have hxm := Std.TransCmp.eq_trans hxe (Std.OrientedCmp.eq_symm heq)
    exact kept_inj order policy.survivor _ ((hmem x).mp hx) hm hxm
  · rw [size, hset, ncard_classes order policy.survivor]

end

/-- Of two elements with one name the later stays, be it foreign or canonical. -/
theorem build_members_repeated_name :
    let entities : List DraftElement := [.foreign "b" (.scalar (.int 1)),
      .canonical ⟨"a", .scalar .null⟩, .foreign "b" (.scalar (.int 2))]
    let members : List Element := [⟨"a", .scalar .null⟩, ⟨"b", .scalar (.int 2)⟩]
    ((build Element.byName { survivor := .last } (some entities)).run ({} : Collector)).1 =
        ⟨members⟩ ∧
      (∀ x, x ∈ members ↔ Elected Element.byName entities x .last) ∧
      (classes Element.byName entities).ncard = 2 := by
  intro entities members
  have hset : ((build Element.byName { survivor := .last } (some entities)).run
      ({} : Collector)).1 = ⟨members⟩ := by
    have hab : Text.compareUnits "a" "b" = .lt := rfl
    have hba := Std.OrientedCmp.gt_of_lt hab
    rw [build_reports Element.byName { survivor := .last } (some entities) Collector]
    simp [entities, members, settle, hab, hba]
  obtain ⟨-, hmem, -, hsize⟩ :=
    build_members Element.byName { survivor := .last } (some entities) ({} : Collector)
  rw [hset] at hmem hsize
  exact ⟨hset, hmem, hsize.symm⟩

end DexCanon.OrderedSet
