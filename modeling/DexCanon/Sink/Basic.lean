import DexCanon.Diagnostic

/-!
# Sinks

Whoever has something to report does not print it: it hands each diagnostic to a sink that the
caller chose. A sink is a state that takes diagnostics in; what it makes of them is its own matter,
and a producer cannot see it.
-/

set_option autoImplicit false

namespace DexCanon

class Sink (σ : Type) where
  emit : Diagnostic → σ → σ
  /-- Writes out what is held back. Most sinks hold nothing back. -/
  flush : σ → σ := id

namespace Sink

variable {σ : Type} [Sink σ]

def emitAll (diagnostics : List Diagnostic) (sink : σ) : σ :=
  diagnostics.foldl (fun state d => emit d state) sink

def report (d : Diagnostic) : StateM σ Unit := modify (emit d)

def reportAll (diagnostics : List Diagnostic) : StateM σ Unit := modify (emitAll diagnostics)

end Sink

structure Discard where
  deriving DecidableEq, Repr

instance : Sink Discard where
  emit _ sink := sink

/-- The sink that keeps every diagnostic, oldest first. -/
structure Collector where
  diagnostics : List Diagnostic := []
  deriving DecidableEq, Repr

namespace Collector

instance : Sink Collector where
  emit d collector := ⟨collector.diagnostics ++ [d]⟩

def size (c : Collector) : Nat := c.diagnostics.length

def isEmpty (c : Collector) : Bool := c.diagnostics.isEmpty

def messages (c : Collector) : List String := c.diagnostics.map (·.message)

def warningCount (c : Collector) : Nat := c.diagnostics.countP (·.isWarning)

def take (c : Collector) : List Diagnostic × Collector := (c.diagnostics, {})

def replay {σ : Type} [Sink σ] (c : Collector) (sink : σ) : σ := Sink.emitAll c.diagnostics sink

end Collector

end DexCanon
