import DexCanon.Draft.Forms
import DexCanon.Proofs.OrderedSet.Settle
import DexCanon.Proofs.Workspace.Holdings

/-!
# How entities are taken in

A canonical entity is taken in by its own handle, and a foreign one by the handle of a copy whose
identity nothing has at that time. It is the same for what an entity is made of, at every depth. A
set that is built keeps the very handles of the entities it spares: it adds no copy of a canonical
entity, and it does not put an equal one in its place.
-/

set_option autoImplicit false

namespace DexCanon

/-- One step after the other, each from an entity to its result. -/
inductive InTurn {S α β : Type} (R : S → α → β → S → Prop) : S → List α → List β → S → Prop
  | nil {s} : InTurn R s [] [] s
  | cons {s middle after a b as bs} : R s a b middle → InTurn R middle as bs after →
      InTurn R s (a :: as) (b :: bs) after

theorem InTurn.forall₂ {S α β : Type} {R : S → α → β → S → Prop} {P : α → β → Prop}
    (hP : ∀ s a b after, R s a b after → P a b) {s after : S} {as : List α} {bs : List β}
    (h : InTurn R s as bs after) : List.Forall₂ P as bs := by
  induction h with
  | nil => exact .nil
  | cons hfirst _ ih => exact .cons (hP _ _ _ _ hfirst) ih

namespace Held

def field (f : Held FieldRef (Handle FieldRef)) : Supplied FieldRef := f.supplied (·.content)

def method (m : Held MethodRef MethodHandle) : Supplied MethodRef := m.supplied (·.content)

end Held

-- ---------------------------------------------------------------------------
-- Sets
-- ---------------------------------------------------------------------------

/-- Which handles a set has that is built from entities by a rule for their canonical forms. -/
structure KeepsSpared {δ φ κ α : Type} [Canonicalize δ α] (entity : Held φ κ → δ) (content : κ → α)
    (order : SetOrder α) (survivor : Survivor) (entities : List (Held φ κ))
    (handles members : List κ) : Prop where
  alike : handles.map content = entities.map fun e => canonicalForm (entity e)
  /-- A member is the handle of an entity that is spared. -/
  origin : ∀ k ∈ members, ∃ before e after, entities.zip handles = before ++ (e, k) :: after ∧
    OrderedSet.Spared (order.comap fun e => canonicalForm (entity e)) (before.map Prod.fst)
      (after.map Prod.fst) e survivor
  /-- The handle of a canonical entity that is spared is the only member in its place. -/
  spared : ∀ before h after, entities = before ++ .canonical h :: after →
    OrderedSet.Spared (order.comap fun e => canonicalForm (entity e)) before after (.canonical h)
      survivor →
    h ∈ members ∧ ∀ k ∈ members, order.compare (content k) (content h) = .eq → k = h

namespace KeepsSpared

variable {δ φ κ α : Type} [Canonicalize δ α] {entity : Held φ κ → δ} {content : κ → α}

theorem spared_iff (order : SetOrder α) {survivor : Survivor} {before after : List (Held φ κ × κ)}
    {p : Held φ κ × κ}
    (h : ∀ q ∈ before ++ p :: after, content q.2 = canonicalForm (entity q.1)) :
    OrderedSet.Spared (order.comap content) (before.map Prod.snd) (after.map Prod.snd) p.2
        survivor ↔
      OrderedSet.Spared (order.comap fun e => canonicalForm (entity e)) (before.map Prod.fst)
        (after.map Prod.fst) p.1 survivor := by
  obtain ⟨hbefore, hp, hafter⟩ := (List.forall_mem_append.trans
    (and_congr_right fun _ => List.forall_mem_cons)).mp h
  rw [← OrderedSet.spared_map content, ← OrderedSet.spared_map fun e => canonicalForm (entity e),
    List.map_map, List.map_map, List.map_map, List.map_map, hp]
  have hleft : before.map (content ∘ Prod.snd) =
      before.map ((fun e => canonicalForm (entity e)) ∘ Prod.fst) := List.map_congr_left hbefore
  have hright : after.map (content ∘ Prod.snd) =
      after.map ((fun e => canonicalForm (entity e)) ∘ Prod.fst) := List.map_congr_left hafter
  rw [hleft, hright]

theorem of_settle {R : List Holding → Held φ κ → κ → List Holding → Prop}
    (hcanonical : ∀ held h k after, R held (.canonical h) k after → k = h) (order : SetOrder α)
    [Std.TransCmp order.compare] (survivor : Survivor) {entities : List (Held φ κ)}
    {handles : List κ}
    (halike : handles.map content = entities.map fun e => canonicalForm (entity e))
    {held after : List Holding} (htaken : InTurn R held entities handles after) :
    KeepsSpared entity content order survivor entities handles
      (OrderedSet.settle (order.comap content) survivor handles).kept := by
  have hsame : List.Forall₂ (fun e k => ∀ h, e = .canonical h → k = h) entities handles := by
    refine htaken.forall₂ ?_
    rintro held e k after ht h rfl
    exact hcanonical held h k after ht
  -- Entity and handle go in pairs, so that a split of one list is a split of the other.
  obtain ⟨hlen, hzip⟩ := List.forall₂_iff_zip.mp hsame
  obtain ⟨taken, hpairs⟩ : ∃ taken, entities.zip handles = taken := ⟨_, rfl⟩
  have hfst : entities = taken.map Prod.fst :=
    hpairs ▸ (List.map_fst_zip (Nat.le_of_eq hlen)).symm
  have hsnd : handles = taken.map Prod.snd :=
    hpairs ▸ (List.map_snd_zip (Nat.le_of_eq hlen.symm)).symm
  have hforms : ∀ q ∈ taken, content q.2 = canonicalForm (entity q.1) := by
    rw [hfst, hsnd, List.map_map, List.map_map] at halike
    exact List.map_inj_left.mp halike
  refine ⟨halike, ?_, ?_⟩
  · intro k hk
    rw [hsnd] at hk
    obtain ⟨before, after, hsplit, hspared⟩ :=
      (OrderedSet.mem_kept_iff_spared _ survivor _).mp hk
    obtain ⟨before, rest, rfl, rfl, hrest⟩ := List.map_eq_append_iff.mp hsplit
    obtain ⟨p, after, rfl, rfl, rfl⟩ := List.map_eq_cons_iff.mp hrest
    exact ⟨before, p.1, after, hpairs, (spared_iff order hforms).mp hspared⟩
  · intro before handle after hsplit hspared
    rw [hfst] at hsplit
    obtain ⟨before, rest, rfl, rfl, hrest⟩ := List.map_eq_append_iff.mp hsplit
    obtain ⟨⟨e, k⟩, after, rfl, he, rfl⟩ := List.map_eq_cons_iff.mp hrest
    obtain rfl : e = .canonical handle := he
    have hpair : (.canonical handle, k) ∈ entities.zip handles := by simp [hpairs]
    obtain rfl : k = handle := hzip hpair handle rfl
    have hk : k ∈ (OrderedSet.settle (order.comap content) survivor handles).kept := by
      rw [hsnd]
      exact (OrderedSet.mem_kept_iff_spared (order.comap content) survivor _).mpr
        ⟨_, _, by simp, (spared_iff order hforms).mpr hspared⟩
    exact ⟨hk, fun other ho heq => OrderedSet.kept_inj (order.comap content) survivor _ ho hk heq⟩

end KeepsSpared

-- ---------------------------------------------------------------------------
-- Entities
-- ---------------------------------------------------------------------------

/-- How a reference is taken in: by its handle if it is canonical, and else by one of its own. The
lists say what is held before and after. -/
inductive Takes {α κ : Type} (content : κ → α) (holding : κ → Holding) :
    List Holding → Held α κ → κ → List Holding → Prop
  | foreign {held e k} : content k = e → Unused held (holding k).identity →
      Takes content holding held (.foreign e) k (holding k :: held)
  | canonical {held k} : Takes content holding held (.canonical k) k held

abbrev TakesField := Takes (fun f : Handle FieldRef => f.content) Holding.field

abbrev TakesMethod := Takes (fun m : MethodHandle => m.content) Holding.method

mutual
/-- How a value becomes a canonical one: what is canonical in it stays as it is, under its handles,
and everything else is copied. -/
inductive Becomes : List Holding → StoredDraft → StoredValue → List Holding → Prop
  | scalar {held s} : Becomes held (.scalar s) (.scalar s) held
  | field {held f k after} : TakesField held f k after → Becomes held (.field f) (.field k) after
  | method {held m k after} : TakesMethod held m k after →
      Becomes held (.method m) (.method k) after
  | enum {held f k after} : TakesField held f k after → Becomes held (.enum f) (.enum k) after
  | array {held items values after} : InTurn Becomes held items values after →
      Becomes held (.array items) (.array values) after
  | annot {held type elements handles set after} :
      InTurn TakesElement held elements handles after →
      KeepsSpared Held.element (fun h => h.content.bare) Element.byName .first elements handles
        set.content.members →
      Becomes held (.annot type elements) (.annot type set) after
  | canonical {held v} : Becomes held (.canonical v) v held
inductive TakesElement :
    List Holding → Held ForeignElement ElementHandle → ElementHandle → List Holding → Prop
  | foreign {held name draft value identity after} : Becomes held draft value after →
      Unused after identity →
      TakesElement held (.foreign ⟨name, draft⟩) ⟨identity, ⟨name, value⟩⟩
        (.element ⟨identity, ⟨name, value⟩⟩ :: after)
  | canonical {held h} : TakesElement held (.canonical h) h held
end

theorem Takes.eq_of_canonical {α κ : Type} {content : κ → α} {holding : κ → Holding}
    {held after : List Holding} {k h : κ} (ht : Takes content holding held (.canonical h) k after) :
    k = h := by
  cases ht
  rfl

theorem TakesElement.eq_of_canonical {held after : List Holding} {k h : ElementHandle}
    (ht : TakesElement held (.canonical h) k after) : k = h := by
  cases ht
  rfl

end DexCanon
