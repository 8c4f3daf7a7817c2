import DexCanon.OrderedSet.Build

/-!
# The stable sort

Sorting changes neither which candidates there are nor, among the candidates for one place, their
order. It looks at the candidates through the rule only.
-/

set_option autoImplicit false

namespace DexCanon.OrderedSet

variable {α β : Type} {compare : α → α → Ordering}

/-- The candidates for the place of `x`, in the order of the input. -/
def rivals (compare : α → α → Ordering) (candidates : List α) (x : α) : List α :=
  candidates.filter fun y => compare x y = .eq

@[simp] theorem mem_rivals {candidates : List α} {x y : α} :
    y ∈ rivals compare candidates x ↔ y ∈ candidates ∧ compare x y = .eq := by
  simp [rivals]

@[simp] theorem sorted_nil : sorted compare [] = [] := List.mergeSort_nil

theorem sorted_perm (compare : α → α → Ordering) (candidates : List α) :
    (sorted compare candidates).Perm candidates :=
  List.mergeSort_perm _ _

@[simp] theorem mem_sorted {candidates : List α} {x : α} :
    x ∈ sorted compare candidates ↔ x ∈ candidates :=
  (sorted_perm compare candidates).mem_iff

theorem sorted_map (f : β → α) (candidates : List β) :
    sorted compare (candidates.map f) =
      (sorted (fun a b => compare (f a) (f b)) candidates).map f := by
  unfold sorted
  rw [List.map_mergeSort]
  intro a _ b _
  rfl

theorem nodup_map_of_pairwise_lt [Std.ReflCmp compare] (key : β → α) {entities : List β}
    (hs : entities.Pairwise fun a b => compare (key a) (key b) = .lt) :
    (entities.map key).Nodup := by
  rw [List.Nodup, List.pairwise_map]
  refine hs.imp ?_
  intro a b hlt heq
  have hself : compare (key b) (key b) = .eq := Std.ReflCmp.compare_self
  rw [heq, hself] at hlt
  cases hlt

theorem eq_of_pairwise_lt_of_mem_iff [Std.OrientedCmp compare] (key : β → α)
    {first second : List β} (hfirst : first.Pairwise fun a b => compare (key a) (key b) = .lt)
    (hsecond : second.Pairwise fun a b => compare (key a) (key b) = .lt)
    (hmem : ∀ x, x ∈ first ↔ x ∈ second) : first = second := by
  have hnodup : ∀ {entities : List β},
      entities.Pairwise (fun a b => compare (key a) (key b) = .lt) → entities.Nodup := by
    intro entities h
    refine List.Pairwise.of_map key ?_ (nodup_map_of_pairwise_lt key h)
    exact fun _ _ hne heq => hne (congrArg key heq)
  have hperm : first.Perm second :=
    (List.perm_ext_iff_of_nodup (hnodup hfirst) (hnodup hsecond)).mpr hmem
  refine hperm.eq_of_pairwise ?_ hfirst hsecond
  intro a b _ _ hab hba
  rw [Std.OrientedCmp.gt_of_lt hab] at hba
  cases hba

variable [Std.TransCmp compare]

theorem isLE_total (a b : α) : ((compare a b).isLE || (compare b a).isLE) = true := by
  have hswap : compare b a = (compare a b).swap := Std.OrientedCmp.eq_swap
  rw [hswap]
  cases compare a b <;> rfl

theorem pairwise_sorted (compare : α → α → Ordering) [Std.TransCmp compare] (candidates : List α) :
    (sorted compare candidates).Pairwise fun a b => (compare a b).isLE :=
  List.pairwise_mergeSort (fun _ _ _ => Std.TransCmp.isLE_trans) isLE_total candidates

/-- A candidate handed in first comes to stand before the first that does not precede it. -/
@[simp] theorem sorted_cons (x : α) (rest : List α) :
    sorted compare (x :: rest) = (sorted compare rest).takeWhile (fun y => compare y x = .lt) ++
      x :: (sorted compare rest).dropWhile fun y => compare y x = .lt := by
  have htrans : ∀ a b c, (compare a b).isLE → (compare b c).isLE → (compare a c).isLE :=
    fun _ _ _ => Std.TransCmp.isLE_trans
  obtain ⟨before, after, hcons, hrest, hbefore⟩ := List.mergeSort_cons htrans isLE_total x rest
  have hlt : ∀ y ∈ before, compare y x = .lt := by
    intro y hy
    have hswap : compare y x = (compare x y).swap := Std.OrientedCmp.eq_swap
    rw [hswap]
    cases h : compare x y with
    | gt => rfl
    | lt | eq => simpa [h] using hbefore y hy
  have hle : ∀ y ∈ after.head?, compare y x ≠ .lt := by
    intro y hy h
    have hpair := pairwise_sorted compare (x :: rest)
    rw [sorted, hcons, List.pairwise_append, List.pairwise_cons] at hpair
    have hxy := hpair.2.1.1 y (List.mem_of_mem_head? hy)
    rw [Std.OrientedCmp.gt_of_lt h] at hxy
    cases hxy
  rw [sorted, hcons, sorted, hrest, List.takeWhile_append_of_pos (by simpa using hlt),
    List.dropWhile_append_of_pos (by simpa using hlt)]
  cases after with
  | nil => simp
  | cons y after => simp [hle y rfl]

theorem rivals_congr {x y : α} (h : compare x y = .eq) (candidates : List α) :
    rivals compare candidates x = rivals compare candidates y := by
  unfold rivals
  congr 1
  funext z
  rw [Std.TransCmp.congr_left h]

theorem rivals_sorted (candidates : List α) (x : α) :
    rivals compare (sorted compare candidates) x = rivals compare candidates x := by
  have hle : (rivals compare candidates x).Pairwise fun a b => (compare a b).isLE := by
    rw [List.pairwise_iff_forall_sublist]
    intro a b hab
    have ha := (mem_rivals.mp (hab.subset (by simp : a ∈ [a, b]))).2
    have hb := (mem_rivals.mp (hab.subset (by simp : b ∈ [a, b]))).2
    rw [← Std.TransCmp.congr_left ha, hb]
    rfl
  have hsub : (rivals compare candidates x).Sublist (sorted compare candidates) :=
    List.sublist_mergeSort (fun _ _ _ => Std.TransCmp.isLE_trans) isLE_total hle
      List.filter_sublist
  have hfilter := hsub.filter fun y => compare x y = .eq
  simp only [rivals, List.filter_filter, Bool.and_self] at hfilter
  exact (hfilter.eq_of_length ((sorted_perm compare candidates).filter _).length_eq.symm).symm

end DexCanon.OrderedSet
