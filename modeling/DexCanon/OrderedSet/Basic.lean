/-!
# Ordered sets

An ordered set is a sequence of members. It keeps the order it was built with but not the rule
behind that order, so whoever searches it brings the rule along.
-/

set_option autoImplicit false

namespace DexCanon

structure OrderedSet (α : Type) where
  members : List α
  deriving DecidableEq, Repr

/-- Searches a sorted window by halving. `locate` says where a member stands with respect to what is
sought. The window is narrowed to a single member without regard to early hits; only that member
is tested. -/
def bisect {α : Type} (locate : α → Ordering) (window : List α) : Option α :=
  match window with
  | [] => none
  | [member] => if locate member = .eq then some member else none
  | first :: second :: rest =>
    let half := (rest.length + 2) / 2
    let upper := (first :: second :: rest).drop half
    if upper.head?.map locate = some .gt then
      bisect locate ((first :: second :: rest).take (rest.length + 2 - half))
    else bisect locate upper
termination_by window.length
decreasing_by
  · simp only [List.length_take, List.length_cons]; omega
  · simp only [List.length_drop, List.length_cons]; omega

namespace OrderedSet

variable {α : Type}

def empty : OrderedSet α := ⟨[]⟩

instance : Inhabited (OrderedSet α) := ⟨empty⟩

instance : Membership α (OrderedSet α) := ⟨fun set x => x ∈ set.members⟩

def size (set : OrderedSet α) : Nat := set.members.length

def isEmpty (set : OrderedSet α) : Bool := set.members.isEmpty

def get? (set : OrderedSet α) (index : Nat) : Option α := set.members[index]?

def map {β : Type} (f : α → β) (set : OrderedSet α) : OrderedSet β := ⟨set.members.map f⟩

/-- Halving search. `locate` has to be less, equal and greater along the set, in this order. -/
def searchBy (set : OrderedSet α) (locate : α → Ordering) : Option α := bisect locate set.members

protected def compareBy (compare : α → α → Ordering) (a b : OrderedSet α) : Ordering :=
  List.compareLex compare a.members b.members

end OrderedSet

end DexCanon
