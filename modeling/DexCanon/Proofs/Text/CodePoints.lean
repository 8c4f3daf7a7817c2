import Mathlib.Tactic.SplitIfs
import DexCanon.Proofs.Text.Units

/-!
# Order by units and order by code points

By units as by code points, two texts stand as the first characters in which they differ, and one
that begins another comes first. The two orders part at characters only: by units, U+E000 to U+FFFF
come behind all characters from U+10000 up. Bytes in UTF-8 say the same as code points.
-/

set_option autoImplicit false

namespace DexCanon.Text

-- ---------------------------------------------------------------------------
-- Characters
-- ---------------------------------------------------------------------------

/-- One of the two is at or above U+10000 and the other one of U+E000 to U+FFFF. -/
def Crossing (c d : Char) : Prop :=
  (0x10000 ≤ c.toNat ∧ 0xE000 ≤ d.toNat ∧ d.toNat ≤ 0xFFFF) ∨
    (0x10000 ≤ d.toNat ∧ 0xE000 ≤ c.toNat ∧ c.toNat ≤ 0xFFFF)

instance (c d : Char) : Decidable (Crossing c d) := by
  unfold Crossing
  infer_instance

theorem crossing_comm (c d : Char) : Crossing c d ↔ Crossing d c := or_comm

theorem unitRank_lt_iff (c d : Char) :
    unitRank c < unitRank d ↔ if Crossing c d then d.toNat < c.toNat else c.toNat < d.toNat := by
  have hc := toNat_not_surrogate c
  have hd := toNat_not_surrogate d
  by_cases h : Crossing c d
  · rw [if_pos h]
    unfold Crossing at h
    unfold unitRank
    split_ifs <;> omega
  · rw [if_neg h]
    unfold Crossing at h
    unfold unitRank
    split_ifs <;> omega

theorem compareRank_eq (c d : Char) :
    compareRank c d = if Crossing c d then (compare c d).swap else compare c d := by
  rw [← compare_toNat, Nat.compare_swap]
  simp only [compareRank, Nat.compare_eq_ite_lt, unitRank_lt_iff, crossing_comm d c]
  by_cases h : Crossing c d <;> simp only [h, ↓reduceIte]

theorem compareLex_utf8EncodeChar {c d : Char} (h : compare c d = .lt) (as bs : List UInt8) :
    List.compareLex compare (String.utf8EncodeChar c ++ as) (String.utf8EncodeChar d ++ bs) =
      .lt := by
  have hvalid := toNat_not_surrogate d
  have hbyte : ∀ a b : UInt8, compare a b = .lt ↔ a.toNat < b.toNat :=
    fun _ _ => compareOfLessAndEq_eq_lt
  have hsame : ∀ a b : UInt8, compare a b = .eq ↔ a.toNat = b.toNat := by
    intro a b
    rw [Std.LawfulEqCmp.compare_eq_iff_eq, UInt8.toNat_inj]
  rw [← compare_toNat, Nat.compare_eq_lt] at h
  unfold String.utf8EncodeChar
  have hval : ∀ c : Char, c.val.toNat = c.toNat := fun _ => rfl
  simp only [hval]
  generalize c.toNat = m at h ⊢
  generalize d.toNat = n at h hvalid ⊢
  -- The digits to base 64, written so that each is seen as a digit of the one before.
  have hsecond : ∀ k : Nat, k / 4096 = k / 64 / 64 := by
    intro k
    omega
  have hthird : ∀ k : Nat, k / 262144 = k / 64 / 64 / 64 := by
    intro k
    omega
  split_ifs <;> simp (disch := omega) only [List.cons_append, List.nil_append,
    List.compareLex_cons_cons, Ordering.then_eq_lt, hbyte, hsame, UInt8.toNat_ofNat',
    Nat.mod_eq_of_lt, Nat.reducePow, hsecond, hthird]
  all_goals omega

-- ---------------------------------------------------------------------------
-- Texts
-- ---------------------------------------------------------------------------

theorem toList_toUTF8 (a : String) :
    a.toUTF8.data.toList = a.toList.flatMap String.utf8EncodeChar := by
  rw [String.toUTF8_eq_toByteArray, ← String.utf8Encode_toList, List.utf8Encode]
  simp

theorem compareCodePoints_eq_bytes (a b : String) : compareCodePoints a b =
    List.compareLex compare a.toUTF8.data.toList b.toUTF8.data.toList := by
  rw [compareCodePoints_eq, toList_toUTF8, toList_toUTF8]
  refine (compareLex_flatMap ?_ ?_ a.toList b.toList).symm
  · exact fun _ => String.utf8EncodeChar_ne_nil
  · exact fun _ _ => compareLex_utf8EncodeChar

/-- The texts differ, and the first characters in which they do cross. -/
def crossFirst (a b : String) : Bool :=
  match firstDifference a.toList b.toList with
  | some (c, d) => Crossing c d
  | none => false

theorem compareUnits_eq_ite (a b : String) : compareUnits a b =
    if crossFirst a b then (compareCodePoints a b).swap else compareCodePoints a b := by
  rw [compareUnits_eq_compareRank, compareCodePoints_eq, compareLex_eq_firstDifference,
    compareLex_eq_firstDifference, crossFirst]
  cases firstDifference a.toList b.toList with
  | none => rfl
  | some pair => simp [compareRank_eq]

theorem compareCodePoints_ne_eq_of_crossFirst {a b : String} (h : crossFirst a b) :
    compareCodePoints a b ≠ .eq := by
  rw [compareCodePoints_eq, compareLex_eq_firstDifference]
  unfold crossFirst at h
  cases hdiff : firstDifference a.toList b.toList with
  | none => simp [hdiff] at h
  | some pair =>
    rw [ne_eq, Std.LawfulEqCmp.compare_eq_iff_eq]
    exact ne_of_firstDifference hdiff

/-- Texts are ordered as their sequences of units, lexicographically and with a proper beginning
first; this is a linear order. It is the order of the code points, and so of the bytes in UTF-8,
unless the first characters in which the texts differ cross, and then it is the opposite. -/
theorem compareUnits_and_codePoints :
    (∀ a b, compareUnits a b = List.compareLex compare (units a) (units b)) ∧
    (∀ a b, compareUnits a b = .lt ↔ List.Lex (· < ·) (units a) (units b)) ∧
    Linear compareUnits ∧
    (∀ a b, compareCodePoints a b =
      List.compareLex compare a.toUTF8.data.toList b.toUTF8.data.toList) ∧
    (∀ a b, compareUnits a b =
      if crossFirst a b then (compareCodePoints a b).swap else compareCodePoints a b) ∧
    ∀ a b, compareUnits a b ≠ compareCodePoints a b ↔ crossFirst a b := by
  refine ⟨compareUnits_eq, ?_, .of_lawful _, compareCodePoints_eq_bytes, compareUnits_eq_ite, ?_⟩
  · intro a b
    rw [compareUnits_eq, compareLex_eq_lt_iff]
    simp only [Nat.compare_eq_lt]
  · intro a b
    rw [compareUnits_eq_ite]
    by_cases h : crossFirst a b
    · have hne := compareCodePoints_ne_eq_of_crossFirst h
      rw [if_pos h]
      cases hpoints : compareCodePoints a b with
      | lt => simp [h]
      | eq => exact absurd hpoints hne
      | gt => simp [h]
    · simp [h]

example : crossFirst "x😀" "xｅ" ∧ compareUnits "x😀" "xｅ" = .lt ∧
    ¬ crossFirst "a" "😀" ∧ ¬ crossFirst "ｅ" "a" := by
  decide +kernel

end DexCanon.Text
