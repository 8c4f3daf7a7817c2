import Mathlib.Data.Set.Card
import Std.Data.HashSet.Lemmas
import DexCanon.Listing

/-!
# Which entities are new

Entities that are entered into a table one by one are new unless an equal one is in the table
already, whatever the hashes are, as long as equal entities have one hash. The table ends up with
as many entries as there are different entities.
-/

set_option autoImplicit false

namespace DexCanon.Listing

variable {α : Type} [BEq α] [Hashable α]

theorem length_enroll (table : Std.HashSet α) (entities : List α) :
    (enroll table entities).1.length = entities.length := by
  induction entities generalizing table with
  | nil => rfl
  | cons x rest ih => simp [enroll, ih]

variable [LawfulBEq α]

theorem mem_enroll {table : Std.HashSet α} {entities : List α} {y : α} :
    y ∈ (enroll table entities).2 ↔ y ∈ table ∨ y ∈ entities := by
  induction entities generalizing table with
  | nil => simp [enroll]
  | cons x rest ih =>
    simp only [enroll, ih, Std.HashSet.mem_insert, beq_iff_eq, List.mem_cons]
    tauto

theorem enroll_append_cons (table : Std.HashSet α) (before : List α) (x : α) (after : List α) :
    (enroll table (before ++ x :: after)).1[before.length]? = some true ↔
      x ∉ table ∧ x ∉ before := by
  induction before generalizing table with
  | nil => simp [enroll]
  | cons y before ih =>
    simp only [List.cons_append, enroll, List.length_cons, List.getElem?_cons_succ, ih,
      Std.HashSet.mem_insert, beq_iff_eq, List.mem_cons]
    tauto

theorem ncard_table (table : Std.HashSet α) : { x | x ∈ table }.ncard = table.size := by
  classical
  have hnodup : table.toList.Nodup := by
    refine table.distinct_toList.imp ?_
    intro a b hab
    simpa using hab
  have hset : { x | x ∈ table } = (table.toList.toFinset : Set α) := by
    ext x
    simp
  rw [hset, Set.ncard_coe_finset, List.toFinset_card_of_nodup hnodup, Std.HashSet.length_toList]

/-- An entity is new if and only if it does not stand before itself. -/
theorem census_append_cons (before : List α) (x : α) (after : List α) :
    (census (before ++ x :: after)).1[before.length]? = some true ↔ x ∉ before := by
  show (enroll ∅ (before ++ x :: after)).1[before.length]? = some true ↔ x ∉ before
  rw [enroll_append_cons]
  simp

theorem census_size (entities : List α) : (census entities).2 = { x | x ∈ entities }.ncard := by
  show (enroll ∅ entities).2.size = { x | x ∈ entities }.ncard
  rw [← ncard_table]
  simp [mem_enroll]

end DexCanon.Listing
