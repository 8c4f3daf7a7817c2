import DexCanon.Proofs.Listing
import DexCanon.Proofs.Value.Order
import DexCanon.Value.Fingerprint

/-!
# Equality, order and hashing agree

Equality is stated by the order for values, part by part for what is made of them, and by identity
or content for handles. All of them call equal what the order calls equal, and equal entities have
one fingerprint; so tables of entities count what the order tells apart.
-/

set_option autoImplicit false

namespace DexCanon

/-- Equality and fingerprint of a type go with its order. -/
structure Agreement (α : Type) [Ord α] [BEq α] (fingerprint : α → List Token) : Prop where
  beq_iff : ∀ a b : α, a == b ↔ compare a b = .eq
  fingerprint_eq : ∀ a b : α, a == b → fingerprint a = fingerprint b
  census : ∀ (digest : List Token → UInt64) (entities : List α),
    let _ : Hashable α := ⟨fun x => digest (fingerprint x)⟩
    (Listing.census entities).1.length = entities.length ∧
    (∀ before x after, entities = before ++ x :: after →
      ((Listing.census entities).1[before.length]? = some true ↔
        ∀ y ∈ before, compare y x ≠ .eq)) ∧
    (Listing.census entities).2 = { x | x ∈ entities }.ncard

theorem Agreement.of_lawful {α : Type} [Ord α] [BEq α] [LawfulBEq α]
    (h : ∀ a : α, LinearAt compare a) (fingerprint : α → List Token) : Agreement α fingerprint where
  beq_iff a b := beq_iff_eq.trans ((h a).eq_iff b).symm
  fingerprint_eq _ _ hab := congrArg fingerprint (eq_of_beq hab)
  census digest entities := by
    let _ : Hashable α := ⟨fun x => digest (fingerprint x)⟩
    refine ⟨Listing.length_enroll ∅ entities, ?_, Listing.census_size entities⟩
    rintro before x after rfl
    rw [Listing.census_append_cons]
    simp only [ne_eq, (h _).eq_iff]
    constructor
    · rintro hx y hy rfl
      exact hx hy
    · intro hne hx
      exact hne x hx rfl

-- ---------------------------------------------------------------------------
-- Equality
-- ---------------------------------------------------------------------------

theorem lawfulBEq_of_iff {α : Type} [BEq α] (h : ∀ a b : α, a == b ↔ a = b) : LawfulBEq α where
  rfl {a} := (h a a).mpr rfl
  eq_of_beq {a b} := (h a b).mp

instance : LawfulBEq Value := by
  refine lawfulBEq_of_iff fun a b => ?_
  show (a.compare b == .eq) = true ↔ a = b
  rw [beq_iff_eq, a.linearAt.eq_iff]

instance : LawfulBEq Element := by
  refine lawfulBEq_of_iff ?_
  rintro ⟨_, _⟩ ⟨_, _⟩
  show (_ && _) = true ↔ _
  simp

instance : LawfulBEq ElementSet := by
  refine lawfulBEq_of_iff ?_
  rintro ⟨a⟩ ⟨b⟩
  show (a == b) = true ↔ _
  simp

instance : LawfulBEq Annot := by
  refine lawfulBEq_of_iff ?_
  rintro ⟨_, _⟩ ⟨_, _⟩
  show (_ && _) = true ↔ _
  simp

-- ---------------------------------------------------------------------------
-- Handles
-- ---------------------------------------------------------------------------

theorem Handle.beq_iff {α : Type} [BEq α] [LawfulBEq α] {a b : Handle α}
    (h : a.identity = b.identity → a.content = b.content) : a == b ↔ a.content = b.content := by
  show (a.same b || a.content == b.content) = true ↔ a.content = b.content
  rw [Bool.or_eq_true, beq_iff_eq]
  constructor
  · rintro (hsame | hcontent)
    · exact h (beq_iff_eq.mp hsame)
    · exact hcontent
  · exact Or.inr

theorem Handle.beq_eq {α : Type} [BEq α] [LawfulBEq α] {a b : Handle α}
    (h : a.identity = b.identity → a.content = b.content) :
    (a == b) = (a.content == b.content) := by
  rw [Bool.eq_iff_iff, Handle.beq_iff h, beq_iff_eq]

-- ---------------------------------------------------------------------------
-- Agreement of entities
-- ---------------------------------------------------------------------------

/-- On all entities the three agree, and on handles that hold the same under the same identity. -/
theorem entities_agree :
    Agreement Value Value.fingerprint ∧ Agreement Element Element.fingerprint ∧
    Agreement Annot Annot.fingerprint ∧ Agreement ElementSet fingerprintElementSet ∧
    Agreement MethodRef MethodRef.fingerprint ∧ Agreement FieldRef FieldRef.fingerprint ∧
    (∀ a b : MethodHandle, (a.identity = b.identity → a.content = b.content) →
      (a == b ↔ a.compare b = .eq) ∧
      (a == b → a.content.fingerprint = b.content.fingerprint)) ∧
    (∀ a b : Handle Element, (a.identity = b.identity → a.content = b.content) →
      (a == b ↔ a.compare b = .eq) ∧
      (a == b → a.content.fingerprint = b.content.fingerprint)) := by
  refine ⟨.of_lawful Value.linearAt _, .of_lawful Element.linearAt _, .of_lawful Annot.linearAt _,
    .of_lawful ElementSet.linearAt _, .of_lawful MethodRef.linearAt _,
    .of_lawful FieldRef.linearAt _, ?_, ?_⟩
  · intro a b h
    have hbeq : a == b ↔ a.content = b.content := Handle.beq_iff h
    rw [hbeq, MethodHandle.compare_eq h, a.content.linearAt.eq_iff]
    exact ⟨Iff.rfl, congrArg MethodRef.fingerprint⟩
  · intro a b h
    rw [Handle.beq_iff h]
    exact ⟨(a.content.linearAt.eq_iff b.content).symm, congrArg Element.fingerprint⟩

/-- Zero and minus zero are two values, a value that comes again is not new, and two handles of
one reference are equal. -/
theorem entities_agree_zeros :
    let zero : Value := .scalar (.float 0)
    let minusZero : Value := .scalar (.float 0x80000000)
    let flags := (Listing.census [zero, minusZero, zero]).1
    let one : MethodHandle := ⟨⟨0, ⟨"LA;", "f", [], "V"⟩⟩, 1⟩
    let other : MethodHandle := ⟨⟨2, ⟨"LA;", "f", [], "V"⟩⟩, 1⟩
    flags[1]? = some true ∧ flags[2]? ≠ some true ∧
    (one.identity = other.identity → one.content = other.content) ∧ one == other := by
  intro zero minusZero flags one other
  obtain ⟨hvalue, -, -, -, -, -, hmethod, -⟩ := entities_agree
  obtain ⟨-, hnew, -⟩ := hvalue.census hash [zero, minusZero, zero]
  have hzeros : zero.compare minusZero = .gt := by decide +kernel
  have hself : zero.compare zero = .eq := by decide +kernel
  refine ⟨(hnew [zero] minusZero [zero] rfl).mpr ?_, ?_, fun _ => rfl, ?_⟩
  · rintro y hy
    obtain rfl := List.mem_singleton.mp hy
    exact fun heq => Ordering.noConfusion (hzeros.symm.trans heq)
  · intro hflag
    exact (hnew [zero, minusZero] zero [] rfl).mp hflag zero (by simp) hself
  · have hcompare : one.compare other = .eq := by decide +kernel
    exact (hmethod one other fun _ => rfl).1.mpr hcompare

end DexCanon
