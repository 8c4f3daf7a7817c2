import DexCanon.Draft.Forms
import DexCanon.Proofs.OrderedSet.Settle
import DexCanon.Proofs.Text.Units

/-!
# Sets built step by step

A set need not be built from all of its candidates at once. Those of one part may be settled first
and its members put in the place of that part: of the candidates for a place the same one stays, and
what is given up in the two steps is what would have been given up in one. So a set that is built
from its own members is the same set, and nothing is given up.
-/

set_option autoImplicit false

namespace DexCanon

namespace Survivor

variable {α : Type} (survivor : Survivor) (first second : List α)

theorem pick_toList_pick : survivor.pick (survivor.pick first).toList = survivor.pick first := by
  cases survivor.pick first <;> cases survivor <;> rfl

theorem pick_append_left :
    survivor.pick ((survivor.pick first).toList ++ second) = survivor.pick (first ++ second) := by
  have hfirst := survivor.pick_toList_pick first
  cases survivor with
  | first =>
    simp only [pick, List.head?_append] at hfirst ⊢
    rw [hfirst]
  | last =>
    simp only [pick, List.getLast?_append] at hfirst ⊢
    rw [hfirst]

theorem pick_append_right :
    survivor.pick (first ++ (survivor.pick second).toList) = survivor.pick (first ++ second) := by
  have hsecond := survivor.pick_toList_pick second
  cases survivor with
  | first =>
    simp only [pick, List.head?_append] at hsecond ⊢
    rw [hsecond]
  | last =>
    simp only [pick, List.getLast?_append] at hsecond ⊢
    rw [hsecond]

end Survivor

namespace OrderedSet

variable {δ α : Type}

-- ---------------------------------------------------------------------------
-- One part settled first
-- ---------------------------------------------------------------------------

section

variable (order : SetOrder α) (survivor : Survivor) (xs ys : List α)

theorem rivals_append (compare : α → α → Ordering) (x : α) :
    rivals compare (xs ++ ys) x = rivals compare xs x ++ rivals compare ys x :=
  List.filter_append xs ys

variable [Std.TransCmp order.compare]

theorem kept_append_left :
    (settle order survivor ((settle order survivor xs).kept ++ ys)).kept =
      (settle order survivor (xs ++ ys)).kept := by
  apply kept_congr
  intro x
  rw [rivals_append, rivals_append, rivals_settle, Survivor.pick_append_left]

theorem kept_append_right :
    (settle order survivor (xs ++ (settle order survivor ys).kept)).kept =
      (settle order survivor (xs ++ ys)).kept := by
  apply kept_congr
  intro x
  rw [rivals_append, rivals_append, rivals_settle, Survivor.pick_append_right]

omit [Std.TransCmp order.compare] in
/-- Who is given up in one step, if the same stay as in two. -/
theorem perm_of_parts {part others members early kept late all : List α}
    (hpart : (members ++ early).Perm part) (hrest : (kept ++ late).Perm (members ++ others))
    (hall : (kept ++ all).Perm (part ++ others)) : (early ++ late).Perm all := by
  rw [← List.perm_append_left_iff kept]
  calc
    (kept ++ (early ++ late)).Perm (early ++ (kept ++ late)) := by
      rw [← List.append_assoc, ← List.append_assoc]
      exact List.perm_append_comm.append_right late
    _ |>.Perm (early ++ (members ++ others)) := hrest.append_left early
    _ |>.Perm (members ++ early ++ others) := by
      rw [← List.append_assoc]
      exact List.perm_append_comm.append_right others
    _ |>.Perm (part ++ others) := hpart.append_right others
    _ |>.Perm (kept ++ all) := hall.symm

theorem dropped_append_left :
    ((settle order survivor xs).dropped ++
      (settle order survivor ((settle order survivor xs).kept ++ ys)).dropped).Perm
        (settle order survivor (xs ++ ys)).dropped := by
  have hparts := settle_perm order survivor ((settle order survivor xs).kept ++ ys)
  rw [kept_append_left] at hparts
  exact perm_of_parts (settle_perm order survivor xs) hparts (settle_perm order survivor _)

theorem dropped_append_right :
    ((settle order survivor ys).dropped ++
      (settle order survivor (xs ++ (settle order survivor ys).kept)).dropped).Perm
        (settle order survivor (xs ++ ys)).dropped := by
  have hparts := settle_perm order survivor (xs ++ (settle order survivor ys).kept)
  have hall := settle_perm order survivor (xs ++ ys)
  rw [kept_append_right] at hparts
  exact perm_of_parts (settle_perm order survivor ys) (hparts.trans List.perm_append_comm)
    (hall.trans List.perm_append_comm)

end

-- ---------------------------------------------------------------------------
-- Building
-- ---------------------------------------------------------------------------

variable [Canonicalize δ α]

/-- A set that is built from the members of a set and further candidates, these behind or in front
of the members, is the set of all candidates that went into it, and what is given up in both steps
is what is given up in one. Built from its own members a set is the same again, and nothing is given
up. -/
theorem build_incremental (order : SetOrder α) [Std.TransCmp order.compare] (policy : SetPolicy)
    (handle : α → δ) (hhandle : ∀ x, Reports (Canonicalize.canonicalize (handle x)) x [])
    (xs ys : List α) :
    let swept := settle order policy.survivor
    (∀ candidates, Reports (build order policy (some (candidates.map handle)))
      ⟨(swept candidates).kept⟩ (complaints order policy (swept candidates).dropped)) ∧
    (swept ((swept xs).kept ++ ys)).kept = (swept (xs ++ ys)).kept ∧
    (swept (xs ++ (swept ys).kept)).kept = (swept (xs ++ ys)).kept ∧
    ((swept xs).dropped ++ (swept ((swept xs).kept ++ ys)).dropped).Perm
      (swept (xs ++ ys)).dropped ∧
    ((swept ys).dropped ++ (swept (xs ++ (swept ys).kept)).dropped).Perm
      (swept (xs ++ ys)).dropped ∧
    (swept xs).dropped.length + (swept ((swept xs).kept ++ ys)).dropped.length =
      (swept (xs ++ ys)).dropped.length ∧
    swept (swept xs).kept = { kept := (swept xs).kept, dropped := [] } := by
  intro swept
  have hdropped := dropped_append_left order policy.survivor xs ys
  refine ⟨?_, kept_append_left order policy.survivor xs ys,
    kept_append_right order policy.survivor xs ys, hdropped,
    dropped_append_right order policy.survivor xs ys, ?_, ?_⟩
  · intro candidates
    have hbuild := build_reports order policy (some (candidates.map handle))
    rwa [Option.getD_some, map_canonicalForm_copies fun x _ => hhandle x,
      flatMap_trace_copies fun x _ => hhandle x] at hbuild
  · rw [← List.length_append]
    exact hdropped.length_eq
  · exact settle_of_pairwise order policy.survivor _ (pairwise_kept order policy.survivor xs)

/-- The last element of a name stays, be it in both parts, in the first or in the second, and each
of the two that are given up is given up in one of the steps. -/
theorem build_incremental_last :
    let named (name : String) (n : Int32) : Element := ⟨name, .scalar (.int n)⟩
    let built (elements : List Element) : OrderedSet Element × Collector :=
      (build Element.byName { survivor := .last } (some (elements.map DraftElement.canonical))).run
        {}
    let xs := [named "b" 1, named "a" 2, named "b" 3]
    let ys := [named "c" 4, named "b" 5]
    let early := (built xs).1.members
    (∀ e, Reports (Canonicalize.canonicalize (DraftElement.canonical e)) e []) ∧
    early = [named "a" 2, named "b" 3] ∧
    (built (early ++ ys)).1 = ⟨[named "a" 2, named "b" 5, named "c" 4]⟩ ∧
    (built (early ++ ys)).1 = (built (xs ++ ys)).1 ∧
    (built (xs ++ (built ys).1.members)).1 = (built (xs ++ ys)).1 ∧
    (built xs).2.size + (built (early ++ ys)).2.size = (built (xs ++ ys)).2.size ∧
    (built (xs ++ ys)).2.size = 2 ∧ built early = ({ members := early }, {}) := by
  intro named built xs ys early
  have hhandle : ∀ e, Reports (Canonicalize.canonicalize (DraftElement.canonical e)) e [] :=
    fun _ => .pure _
  obtain ⟨hbuilt, hleft, hright, -, -, hcount, hagain⟩ :=
    build_incremental Element.byName { survivor := .last } DraftElement.canonical hhandle xs ys
  have hrun : ∀ elements, built elements =
      (⟨(settle Element.byName .last elements).kept⟩,
        ⟨complaints Element.byName {} (settle Element.byName .last elements).dropped⟩) := by
    intro elements
    simp only [built, hbuilt elements Collector {}, Sink.emitAll_collector]
    rfl
  have hsize : ∀ elements, (built elements).2.size =
      (settle Element.byName .last elements).dropped.length := by
    intro elements
    rw [hrun]
    exact List.length_map ..
  have hmembers : early = (settle Element.byName .last xs).kept := by
    simp only [early, hrun]
  have hab : Text.compareUnits "a" "b" = .lt := rfl
  have hba := Std.OrientedCmp.gt_of_lt hab
  have hbc : Text.compareUnits "b" "c" = .lt := rfl
  have hearly : early = [named "a" 2, named "b" 3] := by
    rw [hmembers]
    simp [xs, named, settle, hab, hba]
  have hlate : (built (early ++ ys)).1 = ⟨[named "a" 2, named "b" 5, named "c" 4]⟩ := by
    rw [hearly, hrun]
    simp [ys, named, settle, hab, hba, hbc]
  have htwo : (built (xs ++ ys)).2.size = 2 := by
    rw [hsize]
    simp [xs, ys, named, settle, hab, hba, hbc]
  refine ⟨hhandle, hearly, hlate, ?_, ?_, ?_, htwo, ?_⟩
  · rw [hrun, hrun, hmembers, hleft]
  · rw [hrun, hrun, hrun, hright]
  · rw [hsize, hsize, hsize, hmembers, hcount]
  · rw [hrun, hmembers, hagain]
    rfl

end OrderedSet

end DexCanon
