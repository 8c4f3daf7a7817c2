import DexCanon.Sink.Basic

/-!
# What an action reports

An action that works with every sink cannot look at the one at hand. What it comes to is therefore
one value and one list of diagnostics, and a sink that is handed the list is in the same state as
one that saw the action.
-/

set_option autoImplicit false

namespace DexCanon

/-- With every sink, the action answers `value` and hands over `diagnostics`, in this order. -/
def Reports {α : Type} (action : {σ : Type} → [Sink σ] → StateM σ α) (value : α)
    (diagnostics : List Diagnostic) : Prop :=
  ∀ (σ : Type) [Sink σ] (sink : σ), action.run sink = (value, Sink.emitAll diagnostics sink)

namespace Sink

variable {σ : Type} [Sink σ]

@[simp] theorem emitAll_nil (sink : σ) : emitAll [] sink = sink := rfl

@[simp] theorem emitAll_append (first second : List Diagnostic) (sink : σ) :
    emitAll (first ++ second) sink = emitAll second (emitAll first sink) :=
  List.foldl_append

theorem emitAll_collector (diagnostics : List Diagnostic) (collector : Collector) :
    emitAll diagnostics collector = ⟨collector.diagnostics ++ diagnostics⟩ := by
  induction diagnostics generalizing collector with
  | nil => simp
  | cons d rest ih =>
    rw [← List.singleton_append, emitAll_append, ih]
    simp [emitAll, emit]

end Sink

namespace Reports

variable {α β : Type}

theorem pure (value : α) : Reports (Pure.pure value) value [] := fun _ _ _ => rfl

variable {action : {σ : Type} → [Sink σ] → StateM σ α} {value : α}
  {first second : List Diagnostic}

theorem bind {next : {σ : Type} → [Sink σ] → α → StateM σ β} {result : β}
    (ha : Reports action value first) (hn : Reports (next value) result second) :
    Reports (action >>= next) result (first ++ second) := by
  intro σ _ sink
  calc
    (action >>= next).run sink = (next (action.run sink).1).run (action.run sink).2 := rfl
    _ = (result, Sink.emitAll (first ++ second) sink) := by
      rw [ha σ sink, hn, Sink.emitAll_append]

theorem map (f : α → β) (ha : Reports action value first) :
    Reports (action >>= fun x => Pure.pure (f x)) (f value) first := by
  intro σ _ sink
  calc
    (action >>= fun x => Pure.pure (f x)).run sink =
        (f (action.run sink).1, (action.run sink).2) := rfl
    _ = (f value, Sink.emitAll first sink) := by rw [ha σ sink]

theorem run_collector (ha : Reports action value first) :
    (action : StateM Collector α).run {} = (value, ⟨first⟩) := by
  rw [ha]
  simp [Sink.emitAll_collector]

theorem collected (ha : Reports action value first) :
    ((action : StateM Collector α).run {}).2.diagnostics = first := by
  rw [ha.run_collector]

end Reports

end DexCanon
