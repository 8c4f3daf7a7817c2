import DexCanon.Reference.ParseError
import DexCanon.Sink.Relay
import DexCanon.Sink.Terminal
import DexCanon.Workspace.Work

/-!
# Workspaces

A workspace holds entities and sinks under names. An entity is foreign and may be changed in place,
or canonical and held through a handle. A sink is reached through the hops at which it was handed
on; two names that share a sink reach the same outlet.
-/

set_option autoImplicit false

namespace DexCanon

inductive Outlet where
  | collector (c : Collector)
  | terminal (t : Terminal)
  | discard
  deriving DecidableEq, Repr

namespace Outlet

instance : Sink Outlet where
  emit d
    | collector c => collector (Sink.emit d c)
    | terminal t => terminal (Sink.emit d t)
    | discard => discard
  flush
    | collector c => collector (Sink.flush c)
    | terminal t => terminal (Sink.flush t)
    | discard => discard

end Outlet

inductive Entry where
  | method (m : Held MethodRef MethodHandle)
  | field (f : Held FieldRef (Handle FieldRef))
  | value (v : StoredDraft)
  | element (e : Held ForeignElement ElementHandle)
  | elementSet (set : ElementHandles)
  | methodSet (set : MethodHandles)
  /-- An annotation; it is made from a set and shares its identity. -/
  | annot (type : String) (elements : ElementHandles)
  | sink (hops : List Hop) (outlet : Nat)

/-- The entities that a canonical value is made of. -/
def StoredValue.parts : StoredValue → List Entry
  | .scalar _ => []
  | .field f | .enum f => [.field (.canonical f)]
  | .method m => [.method (.canonical m)]
  | .array items => items.map fun item => .value (.canonical item)
  | .annot _ elements => elements.content.members.map fun e => .element (.canonical e)

def StoredDraft.parts : StoredDraft → List Entry
  | .scalar _ => []
  | .field f | .enum f => [.field f]
  | .method m => [.method m]
  | .array items => items.map .value
  | .annot _ elements => elements.map .element
  | .canonical value => value.parts

structure Workspace where
  entries : List (String × Entry) := []
  outlets : List Outlet := []
  /-- The next identity. All identities in use are smaller. -/
  fresh : Nat := 0

inductive Fault where
  | unknownName (name : String)
  | unsuitable (name : String)
  | unreadable (cause : ParseError)
  deriving DecidableEq, Repr

def Fault.message : Fault → String
  | unknownName name => "nothing is called " ++ name
  | unsuitable name => name ++ " cannot be used here"
  | unreadable cause => cause.message

inductive Shown where
  | method (m : MethodRef) (isCanonical : Bool)
  | field (f : FieldRef) (isCanonical : Bool)
  | value (v : Draft)
  | element (e : DraftElement)
  | elementSet (set : ElementSet)
  | methodSet (set : OrderedSet MethodRef)
  | annot (a : Annot)
  | outlet (o : Outlet)

namespace Workspace

/-- A step of a workspace: it changes the workspace, or fails and leaves it alone. -/
abbrev Action := StateT Workspace (Except Fault)

def entry (name : String) : Action Entry := do
  match (← get).entries.lookup name with
  | some entry => return entry
  | none => throw (.unknownName name)

/-- Gives a name to an entry; what had the name before loses it. -/
def define (name : String) (entry : Entry) : Action Unit :=
  modify fun ws => { ws with entries := (name, entry) :: ws.entries.filter (·.1 != name) }

def sinkOf (name : String) : Action (List Hop × Nat × Outlet) := do
  match ← entry name with
  | .sink hops index =>
    match (← get).outlets[index]? with
    | some outlet => return (hops, index, outlet)
    | none => throw (.unknownName name)
  | _ => throw (.unsuitable name)

/-- Acts on a named sink through all hops that lead to it, those of `via` first. -/
def actOn {α : Type} (name : String) (via : List Hop) (action : StateM (Relay Outlet) α) :
    Action α := do
  let (hops, index, outlet) ← sinkOf name
  let (result, relay) := action.run (Relay.along (via ++ hops) outlet)
  modify fun ws => { ws with outlets := ws.outlets.set index relay.base }
  return result

def perform {α : Type} (sink : Option String) (work : {σ : Type} → [Sink σ] → Work σ α) :
    Action α := do
  let next := (← get).fresh
  let (result, fresh) ←
    match sink with
    | none => pure ((work.run next).run ({} : Discard)).1
    | some name => actOn name [] (work.run next)
  modify fun ws => { ws with fresh }
  return result

def shown (ws : Workspace) : Entry → Shown
  | .method (.foreign m) => .method m false
  | .method (.canonical h) => .method h.content true
  | .field (.foreign f) => .field f false
  | .field (.canonical h) => .field h.content true
  | .value v => .value v.bare
  | .element e => .element e.element
  | .elementSet set => .elementSet (bareSet set)
  | .methodSet set => .methodSet (set.content.map (·.content))
  | .annot type elements => .annot ⟨type, bareSet elements⟩
  | .sink _ index => .outlet (ws.outlets[index]?.getD .discard)

end Workspace

end DexCanon
