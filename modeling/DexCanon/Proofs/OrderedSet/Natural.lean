import Mathlib.Data.List.Dedup
import DexCanon.Draft.Forms
import DexCanon.Proofs.OrderedSet.Settle
import DexCanon.Proofs.Value.Order

/-!
# Sets under a linear order

Where the rule calls equal only what is the same, it does not matter which of several candidates for
a place stays. A set is then known by what was put in, in whatever order and however often; it is
the sorted list of that without repeats. Candidates in another order are also reported alike. This
applies to references under their own order, which looks at their parts and not at how they print.
-/

set_option autoImplicit false

namespace DexCanon

namespace OrderedSet

variable {α : Type}

section

variable (order : SetOrder α) [Std.LawfulEqCmp order.compare]

theorem rivals_eq_replicate (candidates : List α) (x : α) :
    rivals order.compare candidates x =
      List.replicate (rivals order.compare candidates x).length x := by
  apply List.eq_replicate_of_mem
  intro y hy
  exact (Std.LawfulEqCmp.eq_of_compare (mem_rivals.mp hy).2).symm

theorem rivals_eq_of_perm {xs ys : List α} (h : xs.Perm ys) (x : α) :
    rivals order.compare xs x = rivals order.compare ys x := by
  have hperm : (rivals order.compare xs x).Perm (rivals order.compare ys x) := h.filter _
  rw [rivals_eq_replicate, hperm.length_eq, ← rivals_eq_replicate]

theorem losers_rivals (survivor other : Survivor) (candidates : List α) (x : α) :
    survivor.losers (rivals order.compare candidates x) =
      other.losers (rivals order.compare candidates x) := by
  rw [rivals_eq_replicate]
  cases survivor <;> cases other <;> simp [Survivor.losers]

variable [Std.TransCmp order.compare]

theorem mem_kept_iff (survivor : Survivor) (candidates : List α) {x : α} :
    x ∈ (settle order survivor candidates).kept ↔ x ∈ candidates := by
  constructor
  · exact mem_of_mem_kept order survivor candidates
  · intro hx
    obtain ⟨m, hm, heq⟩ := exists_kept order survivor candidates hx
    rwa [← Std.LawfulEqCmp.eq_of_compare heq]

theorem kept_eq_iff (survivor other : Survivor) (xs ys : List α) :
    (settle order survivor xs).kept = (settle order other ys).kept ↔ ∀ x, x ∈ xs ↔ x ∈ ys := by
  constructor
  · intro h x
    rw [← mem_kept_iff order survivor xs, h, mem_kept_iff]
  · intro h
    apply eq_of_pairwise_lt_of_mem_iff id (pairwise_kept order survivor xs)
      (pairwise_kept order other ys)
    intro x
    rw [mem_kept_iff, mem_kept_iff, h]

theorem settle_eq_of_perm (survivor other : Survivor) {xs ys : List α} (h : xs.Perm ys) :
    settle order survivor xs = settle order other ys := by
  have hkept : (settle order survivor xs).kept = (settle order other ys).kept :=
    (kept_eq_iff order survivor other xs ys).mpr fun _ => h.mem_iff
  have hdropped : (settle order survivor xs).dropped = (settle order other ys).dropped := by
    simp only [dropped_eq, hkept, rivals_eq_of_perm order h, losers_rivals order survivor other]
  calc
    settle order survivor xs =
        ⟨(settle order survivor xs).kept, (settle order survivor xs).dropped⟩ := rfl
    _ = settle order other ys := by rw [hkept, hdropped]

theorem kept_eq_dedup [DecidableEq α] (survivor : Survivor) (candidates : List α) :
    (settle order survivor candidates).kept = (sorted order.compare candidates).dedup := by
  have hle : (sorted order.compare candidates).dedup.Pairwise fun a b => (order.compare a b).isLE :=
    (pairwise_sorted order.compare candidates).sublist (List.dedup_sublist _)
  have hlt : (sorted order.compare candidates).dedup.Pairwise fun a b =>
      order.compare a b = .lt := by
    refine (hle.and (List.nodup_dedup _)).imp ?_
    rintro a b ⟨hab, hne⟩
    rcases Ordering.isLE_iff_eq_lt_or_eq_eq.mp hab with hlt | heq
    · exact hlt
    · exact absurd (Std.LawfulEqCmp.eq_of_compare heq) hne
  apply eq_of_pairwise_lt_of_mem_iff id (pairwise_kept order survivor candidates) hlt
  intro x
  rw [mem_kept_iff, List.mem_dedup, mem_sorted]

end

-- ---------------------------------------------------------------------------
-- References
-- ---------------------------------------------------------------------------

/-- What building sets of entities under their own order comes to. -/
structure Extensional (α : Type) [Ord α] [ToString α] [DecidableEq α] : Prop where
  members_eq : ∀ {σ : Type} [Sink σ] (policy : SetPolicy) (entities : List (Supplied α)) (sink : σ),
    ((build .natural policy (some entities)).run sink).1.members =
      (sorted compare (entities.map Supplied.content)).dedup
  eq_iff : ∀ {σ τ : Type} [Sink σ] [Sink τ] (policy other : SetPolicy) (xs ys : List (Supplied α))
    (sink : σ) (next : τ),
    ((build .natural policy (some xs)).run sink).1 = ((build .natural other (some ys)).run next).1 ↔
      ∀ x, x ∈ xs.map Supplied.content ↔ x ∈ ys.map Supplied.content
  perm_reports : ∀ (policy other : SetPolicy) (xs ys : List (Supplied α)),
    policy.report = other.report →
      (xs.map Supplied.content).Perm (ys.map Supplied.content) →
        ∃ set diagnostics, Reports (build .natural policy (some xs)) set diagnostics ∧
          Reports (build .natural other (some ys)) set diagnostics

theorem Extensional.of_linear {α : Type} [Ord α] [ToString α] [DecidableEq α]
    (h : ∀ a : α, LinearAt compare a) : Extensional α := by
  let natural : SetOrder α := .natural
  have : Std.TransCmp natural.compare := LinearAt.transCmp h
  have : Std.LawfulEqCmp natural.compare := LinearAt.lawfulEqCmp h
  have hbuild : ∀ (policy : SetPolicy) (entities : List (Supplied α)),
      let swept := settle natural policy.survivor (entities.map Supplied.content)
      Reports (build natural policy (some entities)) ⟨swept.kept⟩
        (complaints natural policy swept.dropped) := by
    intro policy entities
    have hreports := build_reports natural policy (some entities)
    have hsilent : entities.flatMap trace = [] := List.flatMap_eq_nil_iff.mpr fun _ _ => rfl
    rwa [Option.getD_some, hsilent] at hreports
  refine ⟨?_, ?_, ?_⟩
  · intro σ _ policy entities sink
    rw [hbuild policy entities σ sink]
    exact kept_eq_dedup natural policy.survivor _
  · intro σ τ _ _ policy other xs ys sink next
    rw [hbuild policy xs σ sink, hbuild other ys τ next, OrderedSet.mk.injEq, kept_eq_iff]
  · intro policy other xs ys hreport hperm
    have hother := hbuild other ys
    rw [← settle_eq_of_perm natural policy.survivor other.survivor hperm] at hother
    refine ⟨_, _, hbuild policy xs, ?_⟩
    rwa [complaints, hreport]

/-- Sets of references, of methods or of fields, are the same if and only if they were built from
the same references, whichever of several stays; they are these references in order, each once. From
the same references in another order the same is reported. -/
theorem natural_extensional : Extensional MethodRef ∧ Extensional FieldRef :=
  ⟨.of_linear MethodRef.linearAt, .of_linear FieldRef.linearAt⟩

/-- Two references that print alike are two members, foreign or canonical, and only what is the same
in every part is a repeat. -/
theorem natural_extensional_print_alike :
    let joined : MethodRef := ⟨"LA;", "f", ["IJ"], "V"⟩
    let parted : MethodRef := ⟨"LA;", "f", ["I", "J"], "V"⟩
    let xs : List (Supplied MethodRef) := [.foreign joined, .canonical parted, .foreign joined]
    let moved : List (Supplied MethodRef) := [.canonical joined, .canonical joined, .foreign parted]
    let once : List (Supplied MethodRef) := [.foreign parted, .foreign joined]
    let last : SetPolicy := { survivor := .last }
    let built := (build .natural {} (some xs)).run ({} : Collector)
    joined.print = parted.print ∧ built.1.members = [parted, joined] ∧
      built.2.messages = ["Ignoring duplicate element for name: LA;->f(IJ)V"] ∧
      built.1 = ((build .natural last (some once)).run ({} : Discard)).1 ∧
      ∃ set diagnostics, Reports (build .natural {} (some xs)) set diagnostics ∧
        Reports (build .natural last (some moved)) set diagnostics := by
  intro joined parted xs moved once last built
  have htrans : Std.TransCmp (SetOrder.natural : SetOrder MethodRef).compare :=
    LinearAt.transCmp MethodRef.linearAt
  have hself : SetOrder.natural.compare joined joined = .eq := Std.ReflCmp.compare_self
  have hlt : SetOrder.natural.compare parted joined = .lt := by decide +kernel
  have hsettle :
      settle .natural .first [joined, parted, joined] = ⟨[parted, joined], [joined]⟩ := by
    simp [settle, hself, hlt, Std.OrientedCmp.gt_of_lt hlt, Sweep.keep, Sweep.drop]
  have hbuilt : built = (⟨[parted, joined]⟩, ⟨[.duplicate "element" joined.print]⟩) := by
    calc
      built = (⟨(settle .natural .first [joined, parted, joined]).kept⟩,
          ⟨complaints .natural {} (settle .natural .first [joined, parted, joined]).dropped⟩) :=
        (build_reports .natural {} (some xs)).run_collector
      _ = (⟨[parted, joined]⟩, ⟨[.duplicate "element" joined.print]⟩) := by
        rw [hsettle]
        rfl
  have hsame : ∀ x, x ∈ xs.map Supplied.content ↔ x ∈ once.map Supplied.content := by
    intro x
    simp [xs, once, Supplied.content, or_comm]
  have hperm : (xs.map Supplied.content).Perm (moved.map Supplied.content) :=
    .cons joined (.swap joined parted [])
  refine ⟨by decide, by rw [hbuilt], by rw [hbuilt]; rfl, ?_, ?_⟩
  · exact (natural_extensional.1.eq_iff {} last xs once ({} : Collector) ({} : Discard)).mpr hsame
  · exact natural_extensional.1.perm_reports {} last xs moved rfl hperm

end OrderedSet

end DexCanon
