import DexCanon.Draft.Forms
import DexCanon.Proofs.OrderedSet.Sorted
import DexCanon.Proofs.Text.Units
import DexCanon.Sink.Relay
import DexCanon.Sink.Terminal

/-!
# Capturing and replaying

Whoever canonicalizes or builds a set may hand over any sink, directly or behind hops. It has no
part in the answer, and it ends up as if the diagnostics had been captured first and replayed to it
afterwards. What it held before stays in front.
-/

set_option autoImplicit false

namespace DexCanon

variable {α : Type}

def capture (action : {σ : Type} → [Sink σ] → StateM σ α) : α × Collector := action.run {}

/-- Every sink sees what a fresh collector captures, and the answer is the same with each. -/
structure Replayable (action : {σ : Type} → [Sink σ] → StateM σ α) : Prop where
  direct : ∀ (σ : Type) [Sink σ] (sink : σ),
    action.run sink = ((capture action).1, (capture action).2.replay sink)
  relayed : ∀ (σ : Type) [Sink σ] (relay : Relay σ),
    (action.run relay).1 = (capture action).1 ∧
      (action.run relay).2.base = (capture action).2.replay relay.base
  appended : ∀ relay : Relay Collector, (action.run relay).2.base.diagnostics =
    relay.base.diagnostics ++ (capture action).2.diagnostics

theorem Reports.capture_eq {action : {σ : Type} → [Sink σ] → StateM σ α} {value : α}
    {diagnostics : List Diagnostic} (h : Reports action value diagnostics) :
    capture action = (value, ⟨diagnostics⟩) := by
  rw [capture, h, Sink.emitAll_collector]
  rfl

theorem Reports.replayable {action : {σ : Type} → [Sink σ] → StateM σ α} {value : α}
    {diagnostics : List Diagnostic} (h : Reports action value diagnostics) :
    Replayable action where
  direct σ _ sink := by
    rw [h.capture_eq, h σ sink]
    rfl
  relayed σ _ relay := by
    rw [h.capture_eq, h (Relay σ) relay, Relay.base_emitAll]
    exact ⟨rfl, rfl⟩
  appended relay := by
    rw [h.capture_eq, h (Relay Collector) relay, Relay.base_emitAll, Sink.emitAll_collector]

/-- Of whatever kind the entity is, and whatever the rule and the policy of a set that is built, the
sink has no part in the result and ends up as if it had been handed what was captured. -/
theorem every_sink_alike :
    (∀ (α : Type) (entity : Supplied α), Replayable (Canonicalize.canonicalize entity)) ∧
      (∀ draft : Draft, Replayable draft.canonicalize) ∧
      (∀ element : DraftElement, Replayable element.canonicalize) ∧
      ∀ (δ α : Type) [Canonicalize δ α] (order : SetOrder α) (policy : SetPolicy)
        (entities : Option (List δ)), Replayable (OrderedSet.build order policy entities) := by
  refine ⟨?_, ?_, ?_, ?_⟩
  · intro α entity
    exact (canonicalize_reports entity).replayable
  · intro draft
    exact (canonicalize_reports draft).replayable
  · intro element
    exact (canonicalize_reports element).replayable
  · intro δ α _ order policy entities
    exact (OrderedSet.build_reports order policy entities).replayable

/-- A colored terminal behind three hops writes the line that a collector captures. -/
theorem every_sink_alike_terminal :
    let draft : Draft := .annot "LA;" [.foreign "x" (.scalar .null), .foreign "x" (.scalar .null)]
    let terminal := Terminal.start .always false []
    let relay := Relay.along [.lent, .shared, .owned] terminal
    (draft.canonicalize.run relay).2.base = (capture draft.canonicalize).2.replay terminal ∧
      (draft.canonicalize.run relay).2.base.device.text =
        "\x1b[1;33mIgnoring duplicate annotation value for name: x\x1b[0m\n" := by
  intro draft terminal relay
  have hreplay := ((every_sink_alike.2.1 draft).relayed Terminal relay).2
  have hbase : relay.base = terminal := Relay.base_along _ terminal
  have htrace : trace draft = [.duplicate "annotation value" "x"] := by
    simp [draft, trace_annot, OrderedSet.settle, OrderedSet.complaints]
  have hcaptured : (capture draft.canonicalize).2 = ⟨[.duplicate "annotation value" "x"]⟩ := by
    rw [← htrace, show capture draft.canonicalize = _ from (canonicalize_reports draft).capture_eq]
  rw [hbase] at hreplay
  refine ⟨hreplay, ?_⟩
  rw [hreplay, hcaptured]
  rfl

end DexCanon
