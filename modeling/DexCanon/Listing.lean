import Std.Data.HashSet.Basic

/-!
# Lists of entities

What can be said of a list of entities that have an order, an equality and a hash: how it is
sorted, and which of its members repeat an earlier one.
-/

set_option autoImplicit false

namespace DexCanon.Listing

variable {α : Type}

def ranking [Ord α] (entities : List α) : List Nat :=
  (entities.zipIdx.mergeSort fun a b => (compare a.1 b.1).isLE).map (·.2)

/-- Adds members to a table one by one: whether each was new, and the table at the end. -/
def enroll [BEq α] [Hashable α] (table : Std.HashSet α) :
    List α → List Bool × Std.HashSet α
  | [] => ([], table)
  | x :: rest =>
    let (flags, final) := enroll (table.insert x) rest
    ((!table.contains x) :: flags, final)

def census [BEq α] [Hashable α] (entities : List α) : List Bool × Nat :=
  let (flags, final) := enroll ∅ entities
  (flags, final.size)

def countdown : List α → List Nat
  | [] => [0]
  | entities@(_ :: rest) => entities.length :: countdown rest

structure OutOfRange where
  size : Nat
  index : Nat
  deriving DecidableEq, Repr

def OutOfRange.message (fault : OutOfRange) : String :=
  "index out of bounds: the len is " ++ toString fault.size ++ " but the index is " ++
    toString fault.index

def at? (entities : List α) (index : Nat) : Except OutOfRange α :=
  match entities[index]? with
  | some x => .ok x
  | none => .error ⟨entities.length, index⟩

end DexCanon.Listing
