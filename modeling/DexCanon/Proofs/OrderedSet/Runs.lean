import DexCanon.Proofs.OrderedSet.Sorted

/-!
# Runs

A run is a stretch of candidates for one place. The pass that builds a set keeps one candidate of
each run and gives up the others, and over sorted candidates a run holds all candidates for its
place.
-/

set_option autoImplicit false

namespace DexCanon

/-- The one of several candidates for a place that stays. -/
def Survivor.pick {α : Type} : Survivor → List α → Option α
  | .first, candidates => candidates.head?
  | .last, candidates => candidates.getLast?

/-- The others, in the order of the input. -/
def Survivor.losers {α : Type} : Survivor → List α → List α
  | .first, candidates => candidates.tail
  | .last, candidates => candidates.dropLast

theorem Survivor.mem_of_pick {α : Type} {survivor : Survivor} {candidates : List α} {x : α}
    (h : survivor.pick candidates = some x) : x ∈ candidates := by
  cases survivor with
  | first => exact List.mem_of_mem_head? h
  | last => exact List.mem_of_getLast? h

/-- Candidates for one place that stand side by side. There is at least one. -/
structure Run (α : Type) where
  head : α
  tail : List α

namespace Run

variable {α : Type}

def toList (run : Run α) : List α := run.head :: run.tail

def kept (run : Run α) : Survivor → α
  | .first => run.head
  | .last => run.tail.getLastD run.head

@[simp] theorem head_mem_toList (run : Run α) : run.head ∈ run.toList := by simp [toList]

@[simp] theorem pick_toList (run : Run α) (survivor : Survivor) :
    survivor.pick run.toList = some (run.kept survivor) := by
  cases survivor with
  | first => rfl
  | last => simp [Survivor.pick, toList, kept, List.getLast?_cons, List.getLastD_eq_getLast?]

theorem kept_mem_toList (run : Run α) (survivor : Survivor) :
    run.kept survivor ∈ run.toList :=
  Survivor.mem_of_pick (run.pick_toList survivor)

end Run

namespace OrderedSet

variable {α : Type} {compare : α → α → Ordering}

/-- Puts a candidate in front of runs: into the first run if it has the same place, else into a
run of its own. -/
def joinRuns (compare : α → α → Ordering) (x : α) : List (Run α) → List (Run α)
  | [] => [⟨x, []⟩]
  | run :: runs =>
    if compare x run.head = .eq then ⟨x, run.toList⟩ :: runs else ⟨x, []⟩ :: run :: runs

def runs (compare : α → α → Ordering) : List α → List (Run α)
  | [] => []
  | x :: rest => joinRuns compare x (runs compare rest)

theorem flatMap_joinRuns (x : α) (runs : List (Run α)) :
    (joinRuns compare x runs).flatMap Run.toList = x :: runs.flatMap Run.toList := by
  cases runs with
  | nil => rfl
  | cons run runs =>
    simp only [joinRuns]
    split <;> simp [Run.toList]

theorem flatMap_runs (compare : α → α → Ordering) (candidates : List α) :
    (runs compare candidates).flatMap Run.toList = candidates := by
  induction candidates with
  | nil => rfl
  | cons x rest ih => rw [runs, flatMap_joinRuns, ih]

theorem runs_cons (compare : α → α → Ordering) (x : α) (rest : List α) :
    ∃ tail more, runs compare (x :: rest) = ⟨x, tail⟩ :: more := by
  rw [runs]
  cases runs compare rest with
  | nil => exact ⟨[], [], rfl⟩
  | cons run more =>
    simp only [joinRuns]
    split
    · exact ⟨run.toList, more, rfl⟩
    · exact ⟨[], run :: more, rfl⟩

def sweepRuns (survivor : Survivor) (runs : List (Run α)) : Sweep α where
  kept := runs.map (·.kept survivor)
  dropped := runs.flatMap fun run => survivor.losers run.toList

-- ---------------------------------------------------------------------------
-- The pass, whatever the rule
-- ---------------------------------------------------------------------------

theorem sweepAfter_perm (survivor : Survivor) (last : α) (rest : List α) :
    ((sweepAfter compare survivor last rest).kept ++
      (sweepAfter compare survivor last rest).dropped).Perm (last :: rest) := by
  induction rest generalizing last with
  | nil => exact .refl _
  | cons x rest ih =>
    by_cases heq : compare last x = .eq
    · cases survivor with
      | first =>
        simp only [sweepAfter, heq, ↓reduceIte, Sweep.drop]
        exact List.perm_middle.trans (((ih last).cons x).trans (.swap last x rest))
      | last =>
        simp only [sweepAfter, heq, ↓reduceIte, Sweep.drop]
        exact List.perm_middle.trans ((ih x).cons last)
    · simp only [sweepAfter, heq, ↓reduceIte, Sweep.keep]
      exact (ih x).cons last

theorem sweep_perm (survivor : Survivor) (candidates : List α) :
    ((sweep compare survivor candidates).kept ++
      (sweep compare survivor candidates).dropped).Perm candidates := by
  cases candidates with
  | nil => exact .refl _
  | cons x rest => exact sweepAfter_perm survivor x rest

variable [Std.TransCmp compare]

theorem sweepAfter_eq (survivor : Survivor) (last : α) (rest : List α) :
    sweepAfter compare survivor last rest = sweepRuns survivor (runs compare (last :: rest)) := by
  induction rest generalizing last with
  | nil => cases survivor <;> rfl
  | cons x rest ih =>
    obtain ⟨tail, more, hx⟩ := runs_cons compare x rest
    have hruns : runs compare (last :: x :: rest) = joinRuns compare last (⟨x, tail⟩ :: more) := by
      rw [runs, hx]
    rw [hruns, joinRuns]
    by_cases heq : compare last x = .eq
    · cases survivor with
      | first =>
        -- With `last` in the place of `x`, the rest falls into the same runs.
        have hlast : runs compare (last :: rest) = ⟨last, tail⟩ :: more := by
          rw [runs] at hx ⊢
          cases hr : runs compare rest with
          | nil =>
            rw [hr] at hx
            cases hx
            rfl
          | cons run runs =>
            rw [hr] at hx
            simp only [joinRuns, Std.TransCmp.congr_left heq] at hx ⊢
            split at hx <;> next h => cases hx; simp [h]
        simp only [sweepAfter, heq, ↓reduceIte, ih, hlast]
        rfl
      | last =>
        -- `x` is kept last from here on, and `last` heads its run without being kept.
        simp only [sweepAfter, heq, ↓reduceIte, ih, hx]
        simp [sweepRuns, Sweep.drop, Run.kept, Run.toList, Survivor.losers,
          List.getLastD_eq_getLast?, List.getLast?_cons]
    · simp only [sweepAfter, heq, ↓reduceIte, ih, hx]
      cases survivor <;> simp [sweepRuns, Sweep.keep, Run.kept, Run.toList, Survivor.losers]

theorem sweep_eq (survivor : Survivor) (candidates : List α) :
    sweep compare survivor candidates = sweepRuns survivor (runs compare candidates) := by
  cases candidates with
  | nil => rfl
  | cons x rest => exact sweepAfter_eq survivor x rest

-- ---------------------------------------------------------------------------
-- Runs of sorted candidates
-- ---------------------------------------------------------------------------

theorem compare_head_of_mem_runs {candidates : List α} {run : Run α}
    (hr : run ∈ runs compare candidates) {x : α} (hx : x ∈ run.toList) :
    compare run.head x = .eq := by
  induction candidates generalizing run x with
  | nil => simp [runs] at hr
  | cons y rest ih =>
    rw [runs] at hr
    cases hruns : runs compare rest with
    | nil =>
      simp only [hruns, joinRuns, List.mem_singleton] at hr
      subst hr
      simp only [Run.toList, List.mem_singleton] at hx
      subst hx
      exact Std.ReflCmp.compare_self
    | cons first more =>
      rw [hruns] at ih hr
      simp only [joinRuns] at hr
      split at hr
      · next heq =>
        rcases List.mem_cons.mp hr with rfl | hr
        · rcases List.mem_cons.mp hx with rfl | hx
          · exact Std.ReflCmp.compare_self
          · exact Std.TransCmp.eq_trans heq (ih (by simp) hx)
        · exact ih (List.mem_cons_of_mem _ hr) hx
      · rcases List.mem_cons.mp hr with rfl | hr
        · simp only [Run.toList, List.mem_singleton] at hx
          subst hx
          exact Std.ReflCmp.compare_self
        · exact ih hr hx

theorem pairwise_runs {candidates : List α}
    (hs : candidates.Pairwise fun a b => (compare a b).isLE) :
    (runs compare candidates).Pairwise fun a b => compare a.head b.head = .lt := by
  induction candidates with
  | nil => simp [runs]
  | cons x rest ih =>
    obtain ⟨hx, hrest⟩ := List.pairwise_cons.mp hs
    have ih := ih hrest
    have hle : ∀ run ∈ runs compare rest, (compare x run.head).isLE := by
      intro run hr
      apply hx
      rw [← flatMap_runs compare rest]
      exact List.mem_flatMap.mpr ⟨run, hr, run.head_mem_toList⟩
    rw [runs]
    cases hruns : runs compare rest with
    | nil => simp [joinRuns]
    | cons first more =>
      rw [hruns] at ih hle
      obtain ⟨hfirst, hmore⟩ := List.pairwise_cons.mp ih
      simp only [joinRuns]
      split
      · next heq =>
        refine List.pairwise_cons.mpr ⟨?_, hmore⟩
        intro run hr
        exact Std.TransCmp.lt_of_eq_of_lt heq (hfirst run hr)
      · next hne =>
        have hlt : compare x first.head = .lt := by
          have := hle first (by simp)
          cases h : compare x first.head <;> simp_all
        refine List.pairwise_cons.mpr ⟨?_, ih⟩
        intro run hr
        rcases List.mem_cons.mp hr with rfl | hr
        · exact hlt
        · exact Std.TransCmp.lt_trans hlt (hfirst run hr)

theorem rivals_head_of_mem_runs {candidates : List α}
    (hs : candidates.Pairwise fun a b => (compare a b).isLE) {run : Run α}
    (hr : run ∈ runs compare candidates) : rivals compare candidates run.head = run.toList := by
  obtain ⟨before, after, hsplit⟩ := List.append_of_mem hr
  have hpair := pairwise_runs hs
  rw [hsplit, List.pairwise_append, List.pairwise_cons] at hpair
  obtain ⟨-, ⟨hafter, -⟩, hbefore⟩ := hpair
  -- The other runs are before or behind this one, so none of their members has its place.
  have hother : ∀ other ∈ runs compare candidates, compare run.head other.head ≠ .eq →
      other.toList.filter (fun x => compare run.head x = .eq) = [] := by
    intro other ho hne
    rw [List.filter_eq_nil_iff]
    intro x hx
    have hox := compare_head_of_mem_runs ho hx
    rw [Std.TransCmp.congr_right hox] at hne
    simpa using hne
  have hown : run.toList.filter (fun x => compare run.head x = .eq) = run.toList := by
    rw [List.filter_eq_self]
    intro x hx
    simpa using compare_head_of_mem_runs hr hx
  calc
    rivals compare candidates run.head
      = ((runs compare candidates).flatMap Run.toList).filter
          fun x => compare run.head x = .eq := by
        rw [flatMap_runs, rivals]
    _ = run.toList := by
      rw [List.filter_flatMap, hsplit, List.flatMap_append, List.flatMap_cons, hown,
        List.flatMap_eq_nil_iff.mpr, List.flatMap_eq_nil_iff.mpr, List.nil_append, List.append_nil]
      · intro other ho
        apply hother other (by simp [hsplit, ho])
        simp [hafter other ho]
      · intro other ho
        apply hother other (by simp [hsplit, ho])
        rw [Std.OrientedCmp.gt_of_lt (hbefore other ho run (by simp))]
        decide

end OrderedSet

end DexCanon
