import DexCanon.Reference.Basic

/-!
# Handles

A canonical entity is held through a handle. A handle has an identity: copies of a handle share
it, and every entity that is made gets a new one. Handles of one identity hold the same entity, so
telling whether they are equal need not look at the entity at all.
-/

set_option autoImplicit false

namespace DexCanon

structure Handle (α : Type) where
  identity : Nat
  content : α
  deriving DecidableEq, Repr

namespace Handle

variable {α : Type}

def same (a b : Handle α) : Bool := a.identity == b.identity

/-- Equality of what is held; looks only if the identities differ. -/
protected def beq [BEq α] (a b : Handle α) : Bool := a.same b || a.content == b.content

protected def compare [Ord α] (a b : Handle α) : Ordering := Ord.compare a.content b.content

instance [BEq α] : BEq (Handle α) := ⟨Handle.beq⟩
instance [Ord α] : Ord (Handle α) := ⟨Handle.compare⟩

end Handle

/-- A method reference under its handle. The list of its parameters has an identity of its own,
which other references may share. -/
structure MethodHandle extends Handle MethodRef where
  paramsIdentity : Nat
  deriving DecidableEq, Repr

namespace MethodHandle

def sameParams (a b : MethodHandle) : Bool := a.paramsIdentity == b.paramsIdentity

/-- The order of what is held; looks only if the identities differ. -/
protected def compare (a b : MethodHandle) : Ordering :=
  if a.toHandle.same b.toHandle then .eq else a.toHandle.compare b.toHandle

instance : BEq MethodHandle := ⟨fun a b => a.toHandle == b.toHandle⟩
instance : Ord MethodHandle := ⟨MethodHandle.compare⟩

end MethodHandle

/-- An entity that someone holds: a foreign one, which its holder may change, or a canonical one. -/
inductive Held (φ κ : Type) where
  | foreign (content : φ)
  | canonical (handle : κ)
  deriving Repr

end DexCanon
