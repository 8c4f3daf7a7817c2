import DexCanon.Sink.Basic

/-!
# Sinks behind sinks

A sink can be handed on: lent out for a while, given away, or shared among several owners, and each
of these again. Every hop forwards each diagnostic and each flush to the sink behind it and adds
nothing.
-/

set_option autoImplicit false

namespace DexCanon

inductive Hop where
  | lent
  | owned
  | shared
  deriving DecidableEq, Repr

inductive Relay (σ : Type) where
  | direct (sink : σ)
  | behind (hop : Hop) (inner : Relay σ)
  deriving DecidableEq, Repr

namespace Relay

variable {σ : Type}

def base : Relay σ → σ
  | direct sink => sink
  | behind _ inner => inner.base

/-- A sink behind some hops, the outermost first. -/
def along (hops : List Hop) (sink : σ) : Relay σ := hops.foldr behind (direct sink)

@[simp] theorem base_along (hops : List Hop) (sink : σ) : (along hops sink).base = sink := by
  induction hops with
  | nil => rfl
  | cons hop rest ih => exact ih

def forward (action : σ → σ) : Relay σ → Relay σ
  | direct sink => direct (action sink)
  | behind hop inner => behind hop (inner.forward action)

instance [Sink σ] : Sink (Relay σ) where
  emit d := forward (Sink.emit d)
  flush := forward Sink.flush

@[simp] theorem base_forward (action : σ → σ) (r : Relay σ) :
    (r.forward action).base = action r.base := by
  induction r with
  | direct sink => rfl
  | behind hop inner ih => exact ih

@[simp] theorem base_emitAll [Sink σ] (diagnostics : List Diagnostic) (r : Relay σ) :
    (Sink.emitAll diagnostics r).base = Sink.emitAll diagnostics r.base := by
  induction diagnostics generalizing r with
  | nil => rfl
  | cons d rest ih =>
    calc
      (Sink.emitAll (d :: rest) r).base = Sink.emitAll rest (Sink.emit d r).base := ih _
      _ = Sink.emitAll (d :: rest) r.base := congrArg (Sink.emitAll rest) (base_forward _ r)

end Relay

end DexCanon
