import Mathlib.Data.List.Basic
import DexCanon.Proofs.OrderedSet.Runs

/-!
# Who enters the set

The decision about the candidates in terms of the input alone: of the candidates for a place, in
the order of the input, the policy picks one, and the others are given up place by place. Neither
the sort nor the pass over the sorted candidates is mentioned any more.
-/

set_option autoImplicit false

namespace DexCanon.OrderedSet

variable {α β : Type}

theorem settle_map (f : β → α) (order : SetOrder α) (survivor : Survivor) (candidates : List β) :
    settle order survivor (candidates.map f) =
      { kept := (settle (order.comap f) survivor candidates).kept.map f
        dropped := (settle (order.comap f) survivor candidates).dropped.map f } := by
  have hafter : ∀ (rest : List β) (last : β),
      sweepAfter order.compare survivor (f last) (rest.map f) =
        { kept := (sweepAfter (order.comap f).compare survivor last rest).kept.map f
          dropped := (sweepAfter (order.comap f).compare survivor last rest).dropped.map f } := by
    intro rest
    induction rest with
    | nil => exact fun _ => rfl
    | cons x rest ih =>
      intro last
      by_cases heq : order.compare (f last) (f x) = .eq
      · have heq' : (order.comap f).compare last x = .eq := heq
        cases survivor <;> simp [sweepAfter, heq, heq', ih, Sweep.drop]
      · have heq' : ¬ (order.comap f).compare last x = .eq := heq
        simp [sweepAfter, heq, heq', ih, Sweep.keep]
  unfold settle
  rw [sorted_map]
  show sweep order.compare survivor ((sorted (order.comap f).compare candidates).map f) = _
  cases sorted (order.comap f).compare candidates with
  | nil => rfl
  | cons x rest => exact hafter rest x

instance comap_transCmp (f : β → α) (order : SetOrder α) [Std.TransCmp order.compare] :
    Std.TransCmp (order.comap f).compare where
  eq_swap := Std.OrientedCmp.eq_swap (α := α)
  isLE_trans := Std.TransCmp.isLE_trans (α := α)

-- ---------------------------------------------------------------------------
-- Whatever the rule
-- ---------------------------------------------------------------------------

/-- No candidate for the place of `x` stands before it, or after it, so the policy does not prefer
another one. -/
def Spared (order : SetOrder α) (before after : List α) (x : α) : Survivor → Prop
  | .first => ∀ y ∈ before, order.compare y x ≠ .eq
  | .last => ∀ y ∈ after, order.compare y x ≠ .eq

theorem spared_map (f : β → α) (order : SetOrder α) (before after : List β) (x : β)
    (survivor : Survivor) : Spared order (before.map f) (after.map f) (f x) survivor ↔
      Spared (order.comap f) before after x survivor := by
  cases survivor <;> simp [Spared, SetOrder.comap]

section

variable (order : SetOrder α) (survivor : Survivor) (candidates : List α)

theorem settle_perm : ((settle order survivor candidates).kept ++
    (settle order survivor candidates).dropped).Perm candidates :=
  (sweep_perm survivor _).trans (sorted_perm order.compare candidates)

theorem mem_of_mem_kept {x : α} (hx : x ∈ (settle order survivor candidates).kept) :
    x ∈ candidates :=
  (settle_perm order survivor candidates).mem_iff.mp (List.mem_append_left _ hx)

theorem length_settle : (settle order survivor candidates).kept.length +
    (settle order survivor candidates).dropped.length = candidates.length := by
  rw [← List.length_append, (settle_perm order survivor candidates).length_eq]

end

-- ---------------------------------------------------------------------------
-- Under a total preorder
-- ---------------------------------------------------------------------------

variable (order : SetOrder α) [Std.TransCmp order.compare] (survivor : Survivor)
  (candidates : List α)

theorem settle_eq : settle order survivor candidates =
    sweepRuns survivor (runs order.compare (sorted order.compare candidates)) :=
  sweep_eq survivor _

theorem rivals_head {run : Run α}
    (hr : run ∈ runs order.compare (sorted order.compare candidates)) :
    rivals order.compare candidates run.head = run.toList := by
  rw [← rivals_sorted]
  exact rivals_head_of_mem_runs (pairwise_sorted _ _) hr

theorem rivals_kept {run : Run α}
    (hr : run ∈ runs order.compare (sorted order.compare candidates)) :
    rivals order.compare candidates (run.kept survivor) = run.toList := by
  have heq := compare_head_of_mem_runs hr (run.kept_mem_toList survivor)
  rw [← rivals_congr heq, rivals_head order candidates hr]

theorem pairwise_kept :
    (settle order survivor candidates).kept.Pairwise fun a b => order.compare a b = .lt := by
  rw [settle_eq, sweepRuns, List.pairwise_map]
  have hruns := pairwise_runs (pairwise_sorted order.compare candidates)
  refine hruns.imp_of_mem ?_
  intro a b ha hb hlt
  have hea := compare_head_of_mem_runs ha (a.kept_mem_toList survivor)
  have heb := compare_head_of_mem_runs hb (b.kept_mem_toList survivor)
  rwa [← Std.TransCmp.congr_left hea, ← Std.TransCmp.congr_right heb]

theorem mem_kept {x : α} : x ∈ (settle order survivor candidates).kept ↔
    survivor.pick (rivals order.compare candidates x) = some x := by
  rw [settle_eq]
  simp only [sweepRuns, List.mem_map]
  constructor
  · rintro ⟨run, hr, rfl⟩
    rw [rivals_kept order survivor candidates hr, Run.pick_toList]
  · intro hx
    -- The one picked is a candidate, so it is in one of the runs, and that run is its class.
    have hmem := Survivor.mem_of_pick hx
    have hsorted : x ∈ sorted order.compare candidates := mem_sorted.mpr (mem_rivals.mp hmem).1
    rw [← flatMap_runs order.compare (sorted order.compare candidates)] at hsorted
    obtain ⟨run, hr, hxr⟩ := List.mem_flatMap.mp hsorted
    refine ⟨run, hr, ?_⟩
    rw [← rivals_congr (compare_head_of_mem_runs hr hxr), rivals_head order candidates hr,
      Run.pick_toList] at hx
    exact Option.some.inj hx

theorem head?_rivals {x : α} : (rivals order.compare candidates x).head? = some x ↔
    ∃ before after, candidates = before ++ x :: after ∧
      ∀ y ∈ before, order.compare y x ≠ .eq := by
  simp only [rivals, List.head?_filter, List.find?_eq_some_iff_append, decide_eq_true_eq,
    Bool.not_eq_true', decide_eq_false_iff_not, Std.OrientedCmp.eq_comm (a := x), ne_eq,
    Std.ReflCmp.compare_self, true_and]

theorem pick_rivals {x : α} : survivor.pick (rivals order.compare candidates x) = some x ↔
    ∃ before after, candidates = before ++ x :: after ∧
      Spared order before after x survivor := by
  cases survivor with
  | first => exact head?_rivals order candidates
  | last =>
    -- The last candidate for a place is the first one from behind.
    have hreverse : (rivals order.compare candidates x).getLast? =
        (rivals order.compare candidates.reverse x).head? := by
      rw [List.getLast?_eq_head?_reverse, rivals, ← List.filter_reverse, rivals]
    rw [Survivor.pick, hreverse, head?_rivals]
    constructor
    · rintro ⟨before, after, hsplit, hbefore⟩
      refine ⟨after.reverse, before.reverse, ?_, fun y hy => hbefore y (List.mem_reverse.mp hy)⟩
      rw [← List.reverse_reverse candidates, hsplit]
      simp
    · rintro ⟨before, after, rfl, hafter⟩
      exact ⟨after.reverse, before.reverse, by simp, fun y hy => hafter y (List.mem_reverse.mp hy)⟩

theorem mem_kept_iff_spared {x : α} : x ∈ (settle order survivor candidates).kept ↔
    ∃ before after, candidates = before ++ x :: after ∧
      Spared order before after x survivor := by
  rw [mem_kept, pick_rivals]

theorem dropped_eq : (settle order survivor candidates).dropped =
    (settle order survivor candidates).kept.flatMap fun x =>
      survivor.losers (rivals order.compare candidates x) := by
  rw [settle_eq]
  simp only [sweepRuns, List.flatMap_map]
  refine List.flatMap_congr ?_
  intro run hr
  rw [rivals_kept order survivor candidates hr]

theorem kept_congr {first second : List α}
    (h : ∀ x, survivor.pick (rivals order.compare first x) =
      survivor.pick (rivals order.compare second x)) :
    (settle order survivor first).kept = (settle order survivor second).kept := by
  apply eq_of_pairwise_lt_of_mem_iff id (pairwise_kept order survivor first)
    (pairwise_kept order survivor second)
  intro x
  rw [mem_kept, mem_kept, h]

theorem settle_congr {others : List α}
    (h : ∀ x, rivals order.compare others x = rivals order.compare candidates x) :
    settle order survivor others = settle order survivor candidates := by
  have hkept : (settle order survivor others).kept = (settle order survivor candidates).kept :=
    kept_congr order survivor fun x => by rw [h]
  have hdropped :
      (settle order survivor others).dropped = (settle order survivor candidates).dropped := by
    simp only [dropped_eq, hkept, h]
  calc
    settle order survivor others =
        ⟨(settle order survivor others).kept, (settle order survivor others).dropped⟩ := rfl
    _ = settle order survivor candidates := by rw [hkept, hdropped]

theorem rivals_settle (x : α) :
    rivals order.compare (settle order survivor candidates).kept x =
      (survivor.pick (rivals order.compare candidates x)).toList := by
  have hkept : (rivals order.compare (settle order survivor candidates).kept x).Pairwise
      fun a b => order.compare a b = .lt :=
    (pairwise_kept order survivor candidates).sublist List.filter_sublist
  have hpick : (survivor.pick (rivals order.compare candidates x)).toList.Pairwise
      fun a b => order.compare a b = .lt := by
    cases survivor.pick (rivals order.compare candidates x) <;> simp
  apply eq_of_pairwise_lt_of_mem_iff id hkept hpick
  intro y
  rw [mem_rivals, mem_kept, Option.mem_toList]
  constructor
  · rintro ⟨hy, hxy⟩
    rwa [rivals_congr hxy]
  · intro hy
    have hxy := (mem_rivals.mp (Survivor.mem_of_pick hy)).2
    exact ⟨by rwa [← rivals_congr hxy], hxy⟩

theorem exists_kept {x : α} (hx : x ∈ candidates) :
    ∃ m ∈ (settle order survivor candidates).kept, order.compare m x = .eq := by
  have hsorted : x ∈ sorted order.compare candidates := mem_sorted.mpr hx
  rw [← flatMap_runs order.compare (sorted order.compare candidates)] at hsorted
  obtain ⟨run, hr, hxr⟩ := List.mem_flatMap.mp hsorted
  refine ⟨run.kept survivor, ?_, ?_⟩
  · rw [settle_eq]
    exact List.mem_map.mpr ⟨run, hr, rfl⟩
  · have hk := compare_head_of_mem_runs hr (run.kept_mem_toList survivor)
    rw [← Std.TransCmp.congr_left hk]
    exact compare_head_of_mem_runs hr hxr

theorem forall_kept_iff {P : α → Prop}
    (hP : ∀ a b, order.compare a b = .eq → (P a ↔ P b)) :
    (∀ m ∈ (settle order survivor candidates).kept, P m) ↔ ∀ x ∈ candidates, P x := by
  constructor
  · intro h x hx
    obtain ⟨m, hm, heq⟩ := exists_kept order survivor candidates hx
    exact (hP m x heq).mp (h m hm)
  · intro h m hm
    exact h m (mem_of_mem_kept order survivor candidates hm)

omit [Std.TransCmp order.compare] in
theorem settle_of_pairwise (h : candidates.Pairwise fun a b => order.compare a b = .lt) :
    settle order survivor candidates = { kept := candidates } := by
  have hafter : ∀ (rest : List α) (x : α),
      (x :: rest).Pairwise (fun a b => order.compare a b = .lt) →
      sweepAfter order.compare survivor x rest = { kept := x :: rest } := by
    intro rest
    induction rest with
    | nil => exact fun _ _ => rfl
    | cons y rest ih =>
      intro x h
      obtain ⟨hx, hrest⟩ := List.pairwise_cons.mp h
      simp [sweepAfter, hx y List.mem_cons_self, ih y hrest, Sweep.keep]
  have hsorted : sorted order.compare candidates = candidates :=
    List.mergeSort_of_pairwise (h.imp fun hlt => by simp [hlt])
  rw [settle, hsorted]
  cases candidates with
  | nil => rfl
  | cons x rest => exact hafter rest x h

theorem kept_inj {a b : α} (ha : a ∈ (settle order survivor candidates).kept)
    (hb : b ∈ (settle order survivor candidates).kept) (h : order.compare a b = .eq) : a = b := by
  rw [mem_kept] at ha hb
  rw [rivals_congr h, hb] at ha
  exact (Option.some.inj ha).symm

end DexCanon.OrderedSet
