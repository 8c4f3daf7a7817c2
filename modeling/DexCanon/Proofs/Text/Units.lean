import DexCanon.Proofs.Comparison
import DexCanon.Value.Basic

/-!
# The order by 16-bit units is linear

By units, characters stand in the order of a rank of their own, and so texts stand as their
characters do; and between texts of ASCII the code points say the same as the units. The comparison
by units is therefore a linear order in which only a text and itself are equal, and the comparison
of elements by name is a total preorder.
-/

set_option autoImplicit false

namespace DexCanon

namespace Text

-- ---------------------------------------------------------------------------
-- Characters
-- ---------------------------------------------------------------------------

theorem toNat_not_surrogate (c : Char) : c.toNat < 0xD800 ∨ 0xDFFF < c.toNat ∧ c.toNat < 0x110000 :=
  c.valid

/-- The place of a character in the order by units: U+E000 to U+FFFF are behind all others. -/
def unitRank (c : Char) : Nat :=
  if c.toNat < 0xE000 then c.toNat
  else if c.toNat < 0x10000 then c.toNat + 0x100000
  else c.toNat - 0x2000

theorem unitRank_inj {c d : Char} (h : unitRank c = unitRank d) : c = d := by
  have hc := toNat_not_surrogate c
  have hd := toNat_not_surrogate d
  unfold unitRank at h
  apply Char.toNat_inj.mp
  repeat' split at h
  all_goals omega

def compareRank (c d : Char) : Ordering := compare (unitRank c) (unitRank d)

instance : Std.TransCmp compareRank where
  eq_swap := Std.OrientedCmp.eq_swap (α := Nat)
  isLE_trans := Std.TransCmp.isLE_trans (α := Nat)

instance : Std.LawfulEqCmp compareRank where
  compare_self := Std.ReflCmp.compare_self (α := Nat)
  eq_of_compare h := unitRank_inj (Nat.compare_eq_eq.mp h)

theorem unitsOf_ne_nil (c : Char) : unitsOf c ≠ [] := by
  unfold unitsOf
  split <;> simp

theorem compareLex_unitsOf {c d : Char} (h : compareRank c d = .lt) (as bs : List Nat) :
    List.compareLex compare (unitsOf c ++ as) (unitsOf d ++ bs) = .lt := by
  have hc := toNat_not_surrogate c
  have hd := toNat_not_surrogate d
  rw [compareRank, Nat.compare_eq_lt] at h
  unfold unitRank at h
  unfold unitsOf
  split <;> split <;> simp only [List.cons_append, List.nil_append, List.compareLex_cons_cons,
    Ordering.then_eq_lt, Nat.compare_eq_lt, Nat.compare_eq_eq]
  all_goals
    repeat' split at h
    all_goals omega

theorem compareLex_units (a b : String) : List.compareLex compare (units a) (units b) =
    List.compareLex compareRank a.toList b.toList :=
  compareLex_flatMap unitsOf_ne_nil (fun _ _ => compareLex_unitsOf) _ _

-- ---------------------------------------------------------------------------
-- Texts of ASCII
-- ---------------------------------------------------------------------------

theorem compareCodePoints_eq (a b : String) :
    compareCodePoints a b = List.compareLex compare a.toList b.toList := by
  have hlt : compareCodePoints a b = .lt ↔ List.compareLex compare a.toList b.toList = .lt := by
    have hchar : ∀ c d : Char, compare c d = .lt ↔ c < d := fun _ _ => compareOfLessAndEq_eq_lt
    rw [compareLex_eq_lt_iff]
    simp only [hchar]
    exact compareOfLessAndEq_eq_lt
  have heq : compareCodePoints a b = .eq ↔ List.compareLex compare a.toList b.toList = .eq := by
    rw [compareCodePoints, Std.LawfulEqOrd.compare_eq_iff_eq, Std.LawfulEqCmp.compare_eq_iff_eq,
      String.toList_inj]
  cases ha : compareCodePoints a b <;>
    cases hb : List.compareLex compare a.toList b.toList <;> simp_all

theorem compare_toNat (c d : Char) : compare c.toNat d.toNat = compare c d := by
  have hlt : c.toNat < d.toNat ↔ c < d := Iff.rfl
  show compareOfLessAndEq c.toNat d.toNat = compareOfLessAndEq c d
  simp only [compareOfLessAndEq, hlt, Char.toNat_inj]

theorem compareLex_map_toNat (as bs : List Char) :
    List.compareLex compare (as.map Char.toNat) (bs.map Char.toNat) =
      List.compareLex compare as bs := by
  induction as generalizing bs with
  | nil => cases bs <;> rfl
  | cons c as ih =>
    cases bs with
    | nil => rfl
    | cons d bs =>
      rw [List.map_cons, List.map_cons, List.compareLex_cons_cons, List.compareLex_cons_cons, ih,
        compare_toNat]

theorem units_of_isAscii {text : String} (h : isAscii text) :
    units text = text.toList.map Char.toNat := by
  simp only [isAscii, List.all_eq_true, decide_eq_true_eq] at h
  unfold units
  generalize text.toList = chars at h
  induction chars with
  | nil => rfl
  | cons c rest ih =>
    obtain ⟨hc, hr⟩ := List.forall_mem_cons.mp h
    have hpair : c.toNat < 0x10000 := by omega
    rw [List.flatMap_cons, ih hr, unitsOf, if_pos hpair]
    rfl

theorem compareUnits_eq (a b : String) :
    compareUnits a b = List.compareLex compare (units a) (units b) := by
  unfold compareUnits
  split
  · next h =>
    rw [Bool.and_eq_true] at h
    rw [compareCodePoints_eq, units_of_isAscii h.1, units_of_isAscii h.2, compareLex_map_toNat]
  · rfl

-- ---------------------------------------------------------------------------
-- Laws
-- ---------------------------------------------------------------------------

theorem compareUnits_eq_compareRank (a b : String) :
    compareUnits a b = List.compareLex compareRank a.toList b.toList :=
  (compareUnits_eq a b).trans (compareLex_units a b)

instance : Std.TransCmp compareUnits where
  eq_swap {a b} := by
    rw [compareUnits_eq_compareRank, compareUnits_eq_compareRank]
    exact Std.OrientedCmp.eq_swap
  isLE_trans {a b c} hab hbc := by
    rw [compareUnits_eq_compareRank] at hab hbc ⊢
    exact Std.TransCmp.isLE_trans hab hbc

instance : Std.LawfulEqCmp compareUnits where
  compare_self {a} := by
    rw [compareUnits_eq_compareRank]
    exact Std.ReflCmp.compare_self
  eq_of_compare {a b} h := by
    rw [compareUnits_eq_compareRank] at h
    exact String.toList_injective (Std.LawfulEqCmp.eq_of_compare h)

@[simp] theorem compareUnits_self (a : String) : compareUnits a a = .eq := Std.ReflCmp.compare_self

end Text

instance : Std.TransCmp Element.byName.compare where
  eq_swap {a b} := by
    show Text.compareUnits a.name b.name = (Text.compareUnits b.name a.name).swap
    exact Std.OrientedCmp.eq_swap
  isLE_trans {a b c} hab hbc := by
    show (Text.compareUnits a.name c.name).isLE = true
    exact Std.TransCmp.isLE_trans hab hbc

theorem Element.byName_eq_iff {a b : Element} :
    byName.compare a b = .eq ↔ a.name = b.name := by
  show Text.compareUnits a.name b.name = .eq ↔ a.name = b.name
  exact Std.LawfulEqCmp.compare_eq_iff_eq

end DexCanon
