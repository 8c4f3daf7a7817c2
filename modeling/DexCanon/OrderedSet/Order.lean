import DexCanon.OrderedSet.Basic

/-!
# Rules for ordered sets

A rule says which members come first and which have the same place, how a member is called when it
is reported, and what kind of thing the members are. Members of the same place may differ in
everything else.
-/

set_option autoImplicit false

namespace DexCanon

structure SetOrder (α : Type) where
  compare : α → α → Ordering
  key : α → String
  subject : String := "element"

namespace SetOrder

variable {α β : Type}

/-- The order of the members themselves, called by their printed form. -/
def natural [Ord α] [ToString α] : SetOrder α where
  compare := Ord.compare
  key := toString

def comap (f : β → α) (order : SetOrder α) : SetOrder β where
  compare a b := order.compare (f a) (f b)
  key b := order.key (f b)
  subject := order.subject

end SetOrder

inductive Survivor where
  | first
  | last
  deriving DecidableEq, Repr

instance : Inhabited Survivor := ⟨.first⟩

structure SetPolicy where
  survivor : Survivor := .first
  report : Bool := true
  deriving DecidableEq, Repr

/-- Halving search for the member in the place of `target`, under the rule the set was built
with. -/
def OrderedSet.find {α : Type} (set : OrderedSet α) (order : SetOrder α) (target : α) : Option α :=
  set.searchBy fun member => order.compare member target

end DexCanon
