import DexCanon.OrderedSet.Order
import DexCanon.Sink.Basic

/-!
# Building ordered sets

The candidates are sorted by the rule. The sort is stable, so candidates for one place come to
stand side by side, in the order of the input. One pass over the sorted candidates compares each
with the one kept last: of two for one place the earlier or the later stays, by the policy. The
others are dropped, and reported in the order of the pass if the policy says so. Building never
fails.
-/

set_option autoImplicit false

namespace DexCanon

structure Sweep (α : Type) where
  kept : List α := []
  dropped : List α := []
  deriving DecidableEq, Repr

namespace Sweep

variable {α : Type}

def keep (x : α) (sweep : Sweep α) : Sweep α := { sweep with kept := x :: sweep.kept }

def drop (x : α) (sweep : Sweep α) : Sweep α := { sweep with dropped := x :: sweep.dropped }

variable (x : α) (sweep : Sweep α)

@[simp] theorem kept_keep : (sweep.keep x).kept = x :: sweep.kept := rfl

@[simp] theorem dropped_keep : (sweep.keep x).dropped = sweep.dropped := rfl

@[simp] theorem kept_drop : (sweep.drop x).kept = sweep.kept := rfl

@[simp] theorem dropped_drop : (sweep.drop x).dropped = x :: sweep.dropped := rfl

end Sweep

namespace OrderedSet

variable {α : Type}

/-- Goes on with a pass in which `last` is the candidate kept last. A later candidate for the same
place gives way to it or takes its place, and is then what the rest is compared with. -/
@[simp] def sweepAfter (compare : α → α → Ordering) (survivor : Survivor) (last : α) :
    List α → Sweep α
  | [] => { kept := [last] }
  | x :: rest =>
    if compare last x = .eq then
      match survivor with
      | .first => (sweepAfter compare survivor last rest).drop x
      | .last => (sweepAfter compare survivor x rest).drop last
    else (sweepAfter compare survivor x rest).keep last

@[simp] def sweep (compare : α → α → Ordering) (survivor : Survivor) : List α → Sweep α
  | [] => {}
  | x :: rest => sweepAfter compare survivor x rest

/-- The candidates in order, those for one place in the order of the input. -/
def sorted (compare : α → α → Ordering) (candidates : List α) : List α :=
  candidates.mergeSort fun a b => (compare a b).isLE

def settle (order : SetOrder α) (survivor : Survivor) (candidates : List α) : Sweep α :=
  sweep order.compare survivor (sorted order.compare candidates)

def complaints (order : SetOrder α) (policy : SetPolicy) (dropped : List α) : List Diagnostic :=
  if policy.report then dropped.map fun x => .duplicate order.subject (order.key x) else []

def collect {σ : Type} [Sink σ] (order : SetOrder α) (policy : SetPolicy) (candidates : List α) :
    StateM σ (OrderedSet α) := do
  let swept := settle order policy.survivor candidates
  Sink.reportAll (complaints order policy swept.dropped)
  return ⟨swept.kept⟩

end OrderedSet

end DexCanon
