import Mathlib.Data.List.Pairwise
import DexCanon.OrderedSet.Order

/-!
# Halving search

Whatever the window, a member that is found is in it and in the place that is sought. Where the
members stand before that place, then in it and then after it, one is found if there is one. In a
set that is ordered by the rule it is looked up with, that is the only one.
-/

set_option autoImplicit false

namespace DexCanon

variable {α : Type} {locate : α → Ordering} {window : List α}

/-- Along the window the members come to stand before, in and after the place that is sought. -/
def Located (locate : α → Ordering) (window : List α) : Prop :=
  window.Pairwise fun a b =>
    (locate b = .lt → locate a = .lt) ∧ (locate a = .gt → locate b = .gt)

namespace Located

variable {front tail : List α} {middle member : α}

theorem mem_front (h : Located locate (front ++ middle :: tail)) (hmiddle : locate middle = .gt)
    (hm : member ∈ front ++ middle :: tail) (heq : locate member = .eq) : member ∈ front := by
  obtain ⟨-, hrest, -⟩ := List.pairwise_append.mp h
  rcases List.mem_append.mp hm with hfront | hback
  · exact hfront
  · have hgt : locate member = .gt := by
      rcases List.mem_cons.mp hback with rfl | htail
      · exact hmiddle
      · exact ((List.pairwise_cons.mp hrest).1 member htail).2 hmiddle
    rw [hgt] at heq
    cases heq

theorem exists_back (h : Located locate (front ++ middle :: tail)) (hmiddle : locate middle ≠ .gt)
    (hm : ∃ member ∈ front ++ middle :: tail, locate member = .eq) :
    ∃ member ∈ middle :: tail, locate member = .eq := by
  obtain ⟨-, -, hcross⟩ := List.pairwise_append.mp h
  obtain ⟨member, hm, heq⟩ := hm
  rcases List.mem_append.mp hm with hfront | hback
  · have hnot : locate middle ≠ .lt := by
      intro hlt
      have hbefore := (hcross member hfront middle List.mem_cons_self).1 hlt
      rw [hbefore] at heq
      cases heq
    refine ⟨middle, List.mem_cons_self, ?_⟩
    cases hplace : locate middle with
    | lt => exact absurd hplace hnot
    | eq => rfl
    | gt => exact absurd hplace hmiddle
  · exact ⟨member, hback, heq⟩

end Located

theorem bisect_sound {member : α} (h : bisect locate window = some member) :
    member ∈ window ∧ locate member = .eq := by
  fun_induction bisect locate window with
  | case1 => cases h
  | case2 x heq =>
    obtain rfl := Option.some.inj h
    exact ⟨List.mem_singleton_self _, heq⟩
  | case3 => cases h
  | case4 first second rest half upper hafter ih =>
    obtain ⟨hm, heq⟩ := ih h
    exact ⟨List.mem_of_mem_take hm, heq⟩
  | case5 first second rest half upper hafter ih =>
    obtain ⟨hm, heq⟩ := ih h
    exact ⟨List.mem_of_mem_drop hm, heq⟩

theorem exists_middle {half : Nat} (h : half < window.length) : ∃ middle tail,
    window.drop half = middle :: tail ∧ window = window.take half ++ middle :: tail := by
  have hdrop := List.drop_eq_getElem_cons h
  refine ⟨_, _, hdrop, ?_⟩
  rw [← hdrop, List.take_append_drop]

theorem bisect_complete (hw : Located locate window)
    (h : ∃ member ∈ window, locate member = .eq) :
    ∃ member, bisect locate window = some member := by
  fun_induction bisect locate window with
  | case1 => simp at h
  | case2 x heq => exact ⟨x, rfl⟩
  | case3 x hne => simp [hne] at h
  | case4 first second rest half upper hafter ih =>
    have hhalf : half < (first :: second :: rest).length := by
      simp only [List.length_cons]
      omega
    obtain ⟨middle, tail, hupper, hsplit⟩ := exists_middle hhalf
    have hmiddle : locate middle = .gt := by
      rw [show upper = middle :: tail from hupper] at hafter
      exact Option.some.inj hafter
    obtain ⟨member, hm, heq⟩ := h
    have hfront := (hsplit ▸ hw).mem_front hmiddle (hsplit ▸ hm) heq
    -- What is left takes in the lower half, and the middle too if the length is odd.
    have hle : half ≤ rest.length + 2 - half := by omega
    have hkept := (List.take_sublist_take_left hle).subset hfront
    exact ih (hw.sublist (List.take_sublist _ _)) ⟨member, hkept, heq⟩
  | case5 first second rest half upper hafter ih =>
    have hhalf : half < (first :: second :: rest).length := by
      simp only [List.length_cons]
      omega
    obtain ⟨middle, tail, hupper, hsplit⟩ := exists_middle hhalf
    have hmiddle : locate middle ≠ .gt := by
      intro hgt
      rw [show upper = middle :: tail from hupper] at hafter
      exact hafter (congrArg some hgt)
    have hback := (hsplit ▸ hw).exists_back hmiddle (hsplit ▸ h)
    rw [← hupper] at hback
    exact ih (hw.sublist (List.drop_sublist _ _)) hback

-- ---------------------------------------------------------------------------
-- What a search has to promise
-- ---------------------------------------------------------------------------

/-- The promise of a search: where members stand before the place, in it and after it, what is found
is in the place, and something is found if anything is there. Which of several members in the place
is found is left open. -/
structure SearchContract (search : (α → Ordering) → List α → Option α) : Prop where
  sound : ∀ locate window member, Located locate window → search locate window = some member →
    member ∈ window ∧ locate member = .eq
  complete : ∀ locate window, Located locate window → (∃ member ∈ window, locate member = .eq) →
    ∃ member, search locate window = some member

theorem bisect_contract : SearchContract (bisect (α := α)) where
  sound _ _ _ _ := bisect_sound
  complete _ _ := bisect_complete

/-- Along the window the members come to stand before, in and after the place that is sought, and no
two of them are in it. -/
def Pinpoints (locate : α → Ordering) (window : List α) : Prop :=
  window.Pairwise fun a b => locate a = .lt ∨ locate b = .gt

namespace Pinpoints

theorem located (h : Pinpoints locate window) : Located locate window := by
  refine h.imp ?_
  rintro a b (ha | hb)
  · simp [ha]
  · simp [hb]

theorem unique (h : Pinpoints locate window) {a b : α} (ha : a ∈ window) (hb : b ∈ window)
    (hea : locate a = .eq) (heb : locate b = .eq) : a = b := by
  have hapart : window.Pairwise fun a b => ¬ (locate a = .eq ∧ locate b = .eq) := by
    refine h.imp ?_
    rintro a b (ha | hb)
    · simp [ha]
    · simp [hb]
  have : Std.Symm fun a b => ¬ (locate a = .eq ∧ locate b = .eq) :=
    ⟨fun _ _ hab hba => hab hba.symm⟩
  by_contra hne
  exact hapart.forall ha hb hne ⟨hea, heb⟩

end Pinpoints

/-- What is found is what going through the members one by one finds: the only one in the place, or
nothing if none is there. -/
structure FindsOnly (locate : α → Ordering) (window : List α) (found : Option α) : Prop where
  eq_scan : found = window.find? fun member => locate member = .eq
  some_iff : ∀ member, found = some member ↔ member ∈ window ∧ locate member = .eq
  unique : ∀ a ∈ window, ∀ b ∈ window, locate a = .eq → locate b = .eq → a = b
  none_iff : found = none ↔ ∀ member ∈ window, locate member ≠ .eq

namespace SearchContract

variable {search : (α → Ordering) → List α → Option α}

theorem eq_none_iff (hs : SearchContract search) (h : Located locate window) :
    search locate window = none ↔ ∀ member ∈ window, locate member ≠ .eq := by
  constructor
  · intro hnone member hm heq
    obtain ⟨found, hfound⟩ := hs.complete locate window h ⟨member, hm, heq⟩
    rw [hnone] at hfound
    cases hfound
  · intro habsent
    cases hfound : search locate window with
    | none => rfl
    | some found =>
      obtain ⟨hm, heq⟩ := hs.sound locate window found h hfound
      exact absurd heq (habsent found hm)

theorem eq_some_iff (hs : SearchContract search) (h : Pinpoints locate window) {member : α} :
    search locate window = some member ↔ member ∈ window ∧ locate member = .eq := by
  constructor
  · exact hs.sound locate window member h.located
  · rintro ⟨hm, heq⟩
    obtain ⟨found, hfound⟩ := hs.complete locate window h.located ⟨member, hm, heq⟩
    obtain ⟨hfm, hfeq⟩ := hs.sound locate window found h.located hfound
    rw [h.unique hm hfm heq hfeq]
    exact hfound

theorem scan : SearchContract fun locate (window : List α) =>
    window.find? fun member => locate member = .eq where
  sound locate window member _ h := by
    exact ⟨List.mem_of_find?_eq_some h, by simpa using List.find?_some h⟩
  complete locate window _ h := by
    obtain ⟨member, hm, heq⟩ := h
    rw [← Option.isSome_iff_exists, List.find?_isSome]
    exact ⟨member, hm, by simpa using heq⟩

theorem eq_search {other : (α → Ordering) → List α → Option α} (hs : SearchContract search)
    (ho : SearchContract other) (h : Pinpoints locate window) :
    search locate window = other locate window := by
  apply Option.ext
  intro member
  rw [hs.eq_some_iff h, ho.eq_some_iff h]

theorem findsOnly (hs : SearchContract search) (h : Pinpoints locate window) :
    FindsOnly locate window (search locate window) where
  eq_scan := hs.eq_search scan h
  some_iff _ := hs.eq_some_iff h
  unique _ ha _ hb := h.unique ha hb
  none_iff := hs.eq_none_iff h.located

end SearchContract

-- ---------------------------------------------------------------------------
-- Sets in order
-- ---------------------------------------------------------------------------

namespace OrderedSet

variable {set : OrderedSet α} {order : SetOrder α} [Std.TransCmp order.compare]

theorem pinpoints_of_pairwise_lt (h : set.members.Pairwise fun a b => order.compare a b = .lt)
    (target : α) : Pinpoints (fun x => order.compare x target) set.members := by
  refine h.imp ?_
  intro a b hab
  cases hb : order.compare b target with
  | lt => exact .inl (Std.TransCmp.lt_trans hab hb)
  | eq => exact .inl (Std.TransCmp.lt_of_lt_of_eq hab hb)
  | gt => exact .inr hb

theorem find_eq_some_iff (h : set.members.Pairwise fun a b => order.compare a b = .lt)
    {target member : α} : set.find order target = some member ↔
      member ∈ set.members ∧ order.compare member target = .eq :=
  bisect_contract.eq_some_iff (pinpoints_of_pairwise_lt h target)

end OrderedSet

end DexCanon
