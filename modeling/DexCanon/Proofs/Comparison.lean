/-!
# Linear comparisons

A comparison is linear if it orders every two things, one way or the other, and calls only a thing
and itself equal. Comparing part by part, each part by a linear comparison, is linear again; for
nested data this goes by induction on one of the two, so linearity is also stated at a single point.
-/

set_option autoImplicit false

namespace DexCanon

structure Linear {α : Type} (cmp : α → α → Ordering) : Prop where
  total : ∀ a b, (cmp a b).isLE ∨ (cmp b a).isLE
  swap : ∀ a b, cmp b a = (cmp a b).swap
  trans : ∀ a b c, (cmp a b).isLE → (cmp b c).isLE → (cmp a c).isLE
  eq_iff : ∀ a b, cmp a b = .eq ↔ a = b

/-- The comparison is a linear order as far as `a` is compared with anything. -/
structure LinearAt {α : Type} (cmp : α → α → Ordering) (a : α) : Prop where
  swap : ∀ b, cmp b a = (cmp a b).swap
  trans : ∀ b c, (cmp a b).isLE → (cmp b c).isLE → (cmp a c).isLE
  eq_iff : ∀ b, cmp a b = .eq ↔ a = b

variable {α β : Type} {cmp : α → α → Ordering} {cmp' : β → β → Ordering}

theorem Linear.of_lawful (cmp : α → α → Ordering) [Std.TransCmp cmp] [Std.LawfulEqCmp cmp] :
    Linear cmp where
  total a b := by
    have hswap : cmp b a = (cmp a b).swap := Std.OrientedCmp.eq_swap
    rw [hswap]
    cases cmp a b <;> simp
  swap _ _ := Std.OrientedCmp.eq_swap
  trans _ _ _ := Std.TransCmp.isLE_trans
  eq_iff _ _ := Std.LawfulEqCmp.compare_eq_iff_eq

-- ---------------------------------------------------------------------------
-- At one point
-- ---------------------------------------------------------------------------

namespace LinearAt

theorem of_lawful [Std.TransCmp cmp] [Std.LawfulEqCmp cmp] (a : α) : LinearAt cmp a where
  swap _ := Std.OrientedCmp.eq_swap
  trans _ _ := Std.TransCmp.isLE_trans
  eq_iff _ := Std.LawfulEqCmp.compare_eq_iff_eq

theorem transCmp (h : ∀ a, LinearAt cmp a) : Std.TransCmp cmp where
  eq_swap {a b} := (h b).swap a
  isLE_trans {a b c} := (h a).trans b c

theorem lawfulEqCmp (h : ∀ a, LinearAt cmp a) : Std.LawfulEqCmp cmp where
  compare_self {a} := ((h a).eq_iff a).mpr rfl
  eq_of_compare {a b} := ((h a).eq_iff b).mp

theorem lt_of_lt_of_isLE {a b c : α} (h : LinearAt cmp a) (hab : cmp a b = .lt)
    (hbc : (cmp b c).isLE) : cmp a c = .lt := by
  have hac : (cmp a c).isLE := h.trans b c (by simp [hab]) hbc
  rcases Ordering.isLE_iff_eq_lt_or_eq_eq.mp hac with hlt | heq
  · exact hlt
  · have hc : a = c := (h.eq_iff c).mp heq
    rw [← hc, h.swap b, hab] at hbc
    simp at hbc

theorem comap {f : β → α} (hf : ∀ x y, f x = f y → x = y) {b : β} (h : LinearAt cmp (f b)) :
    LinearAt (fun x y => cmp (f x) (f y)) b where
  swap y := h.swap (f y)
  trans y z := h.trans (f y) (f z)
  eq_iff y := (h.eq_iff (f y)).trans ⟨hf b y, congrArg f⟩

theorem prod {a : α} {b : β} (ha : LinearAt cmp a) (hb : LinearAt cmp' b) :
    LinearAt (fun p q : α × β => (cmp p.1 q.1).then (cmp' p.2 q.2)) (a, b) where
  swap := by
    rintro ⟨x, y⟩
    simp only [ha.swap x, hb.swap y, Ordering.swap_then]
  trans := by
    rintro ⟨x, y⟩ ⟨u, v⟩ hxy huv
    rcases Ordering.isLE_then_iff_or.mp hxy with hlt | ⟨heq, hle⟩
    · have hxu : (cmp x u).isLE := Ordering.isLE_left_of_isLE_then huv
      exact Ordering.isLE_then_iff_or.mpr (.inl (ha.lt_of_lt_of_isLE hlt hxu))
    · obtain rfl := (ha.eq_iff x).mp heq
      rcases Ordering.isLE_then_iff_or.mp huv with hlt' | ⟨heq', hle'⟩
      · exact Ordering.isLE_then_iff_or.mpr (.inl hlt')
      · exact Ordering.isLE_then_iff_or.mpr (.inr ⟨heq', hb.trans y v hle hle'⟩)
  eq_iff := by
    rintro ⟨x, y⟩
    simp only [Ordering.then_eq_eq, ha.eq_iff, hb.eq_iff, Prod.mk.injEq]

theorem list {as : List α} (h : ∀ a ∈ as, LinearAt cmp a) :
    LinearAt (List.compareLex cmp) as := by
  induction as with
  | nil =>
    refine ⟨?_, ?_, ?_⟩
    · intro bs
      cases bs <;> rfl
    · intro bs cs _ _
      exact List.isLE_compareLex_nil_left
    · intro bs
      cases bs <;> simp [List.compareLex]
  | cons a as ih =>
    -- Lists that are not empty are compared as pairs of head and tail.
    have hpair := (h a (by simp)).prod (ih fun x hx => h x (List.mem_cons_of_mem _ hx))
    refine ⟨?_, ?_, ?_⟩
    · intro bs
      cases bs with
      | nil => rfl
      | cons b bs =>
        rw [List.compareLex_cons_cons, List.compareLex_cons_cons]
        exact hpair.swap (b, bs)
    · intro bs cs hab hbc
      cases bs with
      | nil => simp [List.compareLex] at hab
      | cons b bs =>
        cases cs with
        | nil => simp [List.compareLex] at hbc
        | cons c cs =>
          rw [List.compareLex_cons_cons] at hab hbc ⊢
          exact hpair.trans (b, bs) (c, cs) hab hbc
    · intro bs
      cases bs with
      | nil => simp [List.compareLex]
      | cons b bs =>
        rw [List.compareLex_cons_cons, List.cons.injEq, ← Prod.mk.injEq]
        exact hpair.eq_iff (b, bs)

/-- Things of one kind are compared by `cmp'` and things of different kinds by their ranks. -/
theorem ranked {rank : α → Nat} {make : β → α} {x : β}
    (hrank : ∀ a b, rank a ≠ rank b → cmp a b = compare (rank a) (rank b))
    (hmake : ∀ b, rank b = rank (make x) → ∃ y, make y = b) (hinj : ∀ y z, make y = make z → y = z)
    (hcmp : ∀ y z, cmp (make y) (make z) = cmp' y z) (h : LinearAt cmp' x) :
    LinearAt cmp (make x) := by
  -- What does not come after another has no higher rank.
  have hle : ∀ a b, (cmp a b).isLE → rank a ≤ rank b := by
    intro a b hab
    by_cases hr : rank a = rank b
    · exact Nat.le_of_eq hr
    · rw [hrank a b hr] at hab
      exact Nat.isLE_compare.mp hab
  refine ⟨?_, ?_, ?_⟩
  · intro b
    by_cases hr : rank b = rank (make x)
    · obtain ⟨y, rfl⟩ := hmake b hr
      rw [hcmp, hcmp]
      exact h.swap y
    · rw [hrank _ _ hr, hrank _ _ (Ne.symm hr)]
      exact Std.OrientedCmp.eq_swap
  · intro b c hab hbc
    have hrab := hle _ _ hab
    have hrbc := hle _ _ hbc
    by_cases hr : rank c = rank (make x)
    · obtain ⟨z, rfl⟩ := hmake c hr
      obtain ⟨y, rfl⟩ := hmake b (by omega)
      rw [hcmp] at hab hbc ⊢
      exact h.trans y z hab hbc
    · rw [hrank _ _ (Ne.symm hr)]
      exact Nat.isLE_compare.mpr (by omega)
  · intro b
    by_cases hr : rank b = rank (make x)
    · obtain ⟨y, rfl⟩ := hmake b hr
      rw [hcmp, h.eq_iff]
      exact ⟨congrArg make, hinj x y⟩
    · rw [hrank _ _ (Ne.symm hr), Nat.compare_eq_eq]
      constructor
      · exact fun heq => absurd heq.symm hr
      · rintro rfl
        exact absurd rfl hr

end LinearAt

-- ---------------------------------------------------------------------------
-- Lists
-- ---------------------------------------------------------------------------

theorem eq_compareLex {f : List α → List α → Ordering} (nil_nil : f [] [] = .eq)
    (nil_cons : ∀ b bs, f [] (b :: bs) = .lt) (cons_nil : ∀ a as, f (a :: as) [] = .gt)
    (cons_cons : ∀ a as b bs, f (a :: as) (b :: bs) = (cmp a b).then (f as bs)) (as bs : List α) :
    f as bs = List.compareLex cmp as bs := by
  induction as generalizing bs with
  | nil =>
    cases bs with
    | nil => exact nil_nil
    | cons b bs => exact nil_cons b bs
  | cons a as ih =>
    cases bs with
    | nil => exact cons_nil a as
    | cons b bs => rw [cons_cons, List.compareLex_cons_cons, ih]

theorem compareLex_eq_lt_iff [Std.LawfulEqCmp cmp] {as bs : List α} :
    List.compareLex cmp as bs = .lt ↔ List.Lex (fun a b => cmp a b = .lt) as bs := by
  induction as generalizing bs with
  | nil => cases bs <;> simp [List.compareLex]
  | cons a as ih =>
    cases bs with
    | nil => simp [List.compareLex]
    | cons b bs =>
      rw [List.compareLex_cons_cons, Ordering.then_eq_lt, ih, List.cons_lex_cons_iff,
        Std.LawfulEqCmp.compare_eq_iff_eq]

theorem compareLex_map {f : β → α} {cmp' : β → β → Ordering} {xs ys : List β}
    (h : ∀ x ∈ xs, ∀ y ∈ ys, cmp' x y = cmp (f x) (f y)) :
    List.compareLex cmp' xs ys = List.compareLex cmp (xs.map f) (ys.map f) := by
  induction xs generalizing ys with
  | nil => cases ys <;> rfl
  | cons x xs ih =>
    cases ys with
    | nil => rfl
    | cons y ys =>
      have hrest := ih fun x hx y hy =>
        h x (List.mem_cons_of_mem _ hx) y (List.mem_cons_of_mem _ hy)
      rw [List.map_cons, List.map_cons, List.compareLex_cons_cons, List.compareLex_cons_cons, hrest,
        h x List.mem_cons_self y List.mem_cons_self]

theorem compareLex_append_left [Std.ReflCmp cmp] (front as bs : List α) :
    List.compareLex cmp (front ++ as) (front ++ bs) = List.compareLex cmp as bs := by
  induction front with
  | nil => rfl
  | cons a front ih =>
    have hself : cmp a a = .eq := Std.ReflCmp.compare_self
    rw [List.cons_append, List.cons_append, List.compareLex_cons_cons, ih, hself]
    rfl

/-- Where the codes of two things are ordered as the things are, whatever follows, so are the coded
lists. -/
theorem compareLex_flatMap [Std.OrientedCmp cmp] [Std.OrientedCmp cmp'] [Std.LawfulEqCmp cmp']
    {code : β → List α} (hne : ∀ b, code b ≠ [])
    (hlt : ∀ x y, cmp' x y = .lt → ∀ as bs, List.compareLex cmp (code x ++ as) (code y ++ bs) = .lt)
    (xs ys : List β) :
    List.compareLex cmp (xs.flatMap code) (ys.flatMap code) = List.compareLex cmp' xs ys := by
  induction xs generalizing ys with
  | nil =>
    cases ys with
    | nil => rfl
    | cons y ys =>
      obtain ⟨a, as, hy⟩ := List.exists_cons_of_ne_nil (hne y)
      rw [List.flatMap_cons, hy]
      rfl
  | cons x xs ih =>
    cases ys with
    | nil =>
      obtain ⟨a, as, hx⟩ := List.exists_cons_of_ne_nil (hne x)
      rw [List.flatMap_cons, hx]
      rfl
    | cons y ys =>
      rw [List.flatMap_cons, List.flatMap_cons, List.compareLex_cons_cons]
      cases hxy : cmp' x y with
      | lt => exact hlt x y hxy _ _
      | eq =>
        obtain rfl := Std.LawfulEqCmp.eq_of_compare hxy
        rw [compareLex_append_left, ih]
        rfl
      | gt => exact Std.OrientedCmp.gt_of_lt (hlt y x (Std.OrientedCmp.lt_of_gt hxy) _ _)

-- ---------------------------------------------------------------------------
-- The first difference
-- ---------------------------------------------------------------------------

/-- What two lists hold in the first place where they differ, if both of them reach it. -/
def firstDifference [DecidableEq α] : List α → List α → Option (α × α)
  | a :: as, b :: bs => if a = b then firstDifference as bs else some (a, b)
  | _, _ => none

theorem ne_of_firstDifference [DecidableEq α] {as bs : List α} {a b : α}
    (h : firstDifference as bs = some (a, b)) : a ≠ b := by
  fun_induction firstDifference as bs with
  | case1 c as bs ih => exact ih h
  | case2 c as d bs hne =>
    obtain ⟨rfl, rfl⟩ := Prod.mk.inj (Option.some.inj h)
    exact hne
  | case3 => cases h

theorem compare_succ_succ (m n : Nat) : compare (m + 1) (n + 1) = compare m n := by
  simp only [Nat.compare_eq_ite_lt, Nat.add_lt_add_iff_right]

theorem compareLex_eq_firstDifference [DecidableEq α] [Std.LawfulEqCmp cmp] (as bs : List α) :
    List.compareLex cmp as bs =
      match firstDifference as bs with
      | some (a, b) => cmp a b
      | none => compare as.length bs.length := by
  induction as generalizing bs with
  | nil =>
    cases bs with
    | nil => rfl
    | cons b bs => exact (Nat.compare_eq_lt.mpr (Nat.succ_pos _)).symm
  | cons a as ih =>
    cases bs with
    | nil => exact (Nat.compare_eq_gt.mpr (Nat.succ_pos _)).symm
    | cons b bs =>
      rw [List.compareLex_cons_cons, firstDifference]
      by_cases hab : a = b
      · have heq : cmp a b = .eq := Std.LawfulEqCmp.compare_eq_iff_eq.mpr hab
        rw [if_pos hab, heq, ih, List.length_cons, List.length_cons, compare_succ_succ]
        rfl
      · rw [if_neg hab]
        show (cmp a b).then _ = cmp a b
        cases h : cmp a b with
        | lt => rfl
        | eq => exact absurd (Std.LawfulEqCmp.eq_of_compare h) hab
        | gt => rfl

end DexCanon
