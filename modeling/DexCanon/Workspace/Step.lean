import DexCanon.Reference.Parser
import DexCanon.Workspace.Basic

/-!
# Steps of a workspace

Each step makes, canonicalizes, combines, looks up or compares entities, or acts on a sink. It takes
what it needs by name, puts what it makes under a name, and answers what there is to see. A step
that fails answers why and leaves the workspace as it was.
-/

set_option autoImplicit false

namespace DexCanon

/-- How a foreign entity is changed in place. What an entity does not have is not changed. -/
structure Amendment where
  name : Option String := none
  params : Option (List String) := none
  value : Option Draft := none
  item : Option Draft := none
  element : Option DraftElement := none

inductive Step where
  | method (under : String) (m : Supplied MethodRef)
  | field (under : String) (f : Supplied FieldRef)
  | value (under : String) (v : Draft)
  | element (under : String) (e : DraftElement)
  | parseMethod (under text : String)
  | parseField (under text : String)
  /-- A method reference that shares the parameters of another one. -/
  | assemble (under paramsOf owner name result : String)
  | canonicalize (under source : String) (sink : Option String)
  | amend (target : String) (change : Amendment)
  | same (a b : String)
  | compare (a b : String)
  | look (target : String)
  /-- The set of some elements and of the members of some sets; of nothing if there is no list. -/
  | elementSet (under : String) (sources : Option (List String)) (order : SetOrder Element)
      (policy : SetPolicy) (sink : Option String)
  | methodSet (under : String) (sources : Option (List String)) (order : SetOrder MethodRef)
      (policy : SetPolicy) (sink : Option String)
  | annot (under type : String) (sources : Option (List String)) (sink : Option String)
  | annotOfSet (under type set : String)
  | annotValue (under source : String)
  | annotElement (under source name : String)
  | get (under source : String) (index : Nat)
  | find (under source probe : String) (order : SetOrder Element)
  | search (under source name : String)
  /-- The value of an element, or another entity as a value. -/
  | valueOf (under source : String)
  /-- A foreign element that gives a name to such a value. -/
  | wrap (under name source : String)
  /-- Adds such a value to a foreign array, or an element to a foreign annotation. -/
  | push (target source : String)
  /-- One of the entities that a value is made of. -/
  | part (under source : String) (index : Nat)
  | sink (under : String) (hops : List Hop) (outlet : Outlet)
  /-- A further name for an entity. A shared sink stays shared; any other is copied. -/
  | clone (under source : String)
  | emit (sink : String) (via : List Hop) (diagnostics : List Diagnostic)
  | flush (sink : String) (via : List Hop)
  | take (sink : String)
  | replay (source into : String)
  | equalSinks (a b : String)

inductive Reply where
  | shown (s : Shown)
  | absent
  | same (identical : Bool)
  | sameMethod (identical sameParams : Bool)
  | ordering (order : Ordering) (equal : Bool)
  | taken (diagnostics : List Diagnostic) (rest : Shown)
  | equal (isEqual : Bool)
  | failed (fault : Fault)

namespace Workspace

def put (name : String) (entry : Entry) : Action Reply := do
  define name entry
  return .shown ((← get).shown entry)

def look (name : String) : Action Reply := do
  let entry ← entry name
  return .shown ((← get).shown entry)

def putFound {α : Type} (name : String) (wrap : α → Entry) : Option α → Action Reply
  | none => return .absent
  | some found => put name (wrap found)

def elementsOf (name : String) : Action (List (Held ForeignElement ElementHandle)) := do
  match ← entry name with
  | .element e => return [e]
  | .elementSet set => return set.content.members.map .canonical
  | _ => throw (.unsuitable name)

def methodsOf (name : String) : Action (List (Held MethodRef MethodHandle)) := do
  match ← entry name with
  | .method m => return [m]
  | .methodSet set => return set.content.members.map .canonical
  | _ => throw (.unsuitable name)

def elementSetOf (name : String) : Action ElementHandles := do
  match ← entry name with
  | .elementSet set => return set
  | _ => throw (.unsuitable name)

def collectorOf (name : String) : Action Collector := do
  match ← sinkOf name with
  | (_, _, .collector c) => return c
  | _ => throw (.unsuitable name)

def gather (sources : Option (List String)) (order : SetOrder Element) (policy : SetPolicy)
    (sink : Option String) : Action ElementHandles := do
  let entities ← (sources.getD []).mapM elementsOf
  perform sink (Work.elementSet order policy entities.flatten)

def amended (name : String) (change : Amendment) : Entry → Action Entry
  | .method (.foreign m) =>
    return .method (.foreign
      { m with name := change.name.getD m.name, params := change.params.getD m.params })
  | .field (.foreign f) => return .field (.foreign { f with name := change.name.getD f.name })
  | .element (.foreign e) => do
    let value ← perform none (Work.storeDrafts change.value.toList)
    return .element (.foreign ⟨change.name.getD e.name, value.headD e.value⟩)
  | .value (.array items) => do
    let more ← perform none (Work.storeDrafts change.item.toList)
    return .value (.array (items ++ more))
  | .value (.annot type elements) => do
    let more ← perform none (Work.storeDraftElements change.element.toList)
    return .value (.annot type (elements ++ more))
  | _ => throw (.unsuitable name)

def valueOf (name : String) : Entry → Action StoredDraft
  | .method m => return .method m
  | .field f => return .field f
  | .value v => return v
  | .element (.foreign e) => return e.value
  | .element (.canonical handle) => return .canonical handle.content.value
  | .annot type elements => return .canonical (.annot type elements)
  | _ => throw (.unsuitable name)

def pushed (target source : String) : Entry → Entry → Action Entry
  | .value (.array items), other => return .value (.array (items ++ [← valueOf source other]))
  | .value (.annot type elements), .element e => return .value (.annot type (elements ++ [e]))
  | .value (.annot _ _), _ => throw (.unsuitable source)
  | _, _ => throw (.unsuitable target)

def partsOf (name : String) : Entry → Action (List Entry)
  | .value v => return v.parts
  | _ => throw (.unsuitable name)

def canonicalized (name : String) (sink : Option String) : Entry → Action Entry
  | .method m => return .method (.canonical (← perform sink (Work.method m)))
  | .field f => return .field (.canonical (← perform sink (Work.field f)))
  | .element e => return .element (.canonical (← perform sink (Work.element e)))
  | .value v => return .value (.canonical (← perform sink (Work.value v)))
  | _ => throw (.unsuitable name)

def sameEntries (b : String) : Entry → Entry → Action Reply
  | .method (.canonical x), .method (.canonical y) =>
    return .sameMethod (x.toHandle.same y.toHandle) (x.sameParams y)
  | .field (.canonical x), .field (.canonical y) => return .same (x.same y)
  | .element (.canonical x), .element (.canonical y) => return .same (x.same y)
  | .methodSet x, .methodSet y => return .same (x.same y)
  | .elementSet x, .elementSet y | .elementSet x, .annot _ y
  | .annot _ x, .elementSet y | .annot _ x, .annot _ y => return .same (x.same y)
  | _, _ => throw (.unsuitable b)

def compareEntries (b : String) : Entry → Entry → Action Reply
  | .method (.canonical x), .method (.canonical y) =>
    return .ordering (Ord.compare x y) (x == y)
  | .field (.canonical x), .field (.canonical y) => return .ordering (Ord.compare x y) (x == y)
  | .element (.canonical x), .element (.canonical y) => return .ordering (Ord.compare x y) (x == y)
  | .value (.canonical x), .value (.canonical y) => return .ordering (Ord.compare x y) (x == y)
  | .methodSet x, .methodSet y =>
    return .ordering (x.content.compareBy Ord.compare y.content)
      (x.content.members == y.content.members)
  | .elementSet x, .elementSet y =>
    return .ordering (x.content.compareBy Ord.compare y.content)
      (x.content.members == y.content.members)
  | .annot s x, .annot t y =>
    return .ordering ((Text.compareUnits s t).then (x.content.compareBy Ord.compare y.content))
      (s == t && x.content.members == y.content.members)
  | _, _ => throw (.unsuitable b)

def cloned : Entry → Action Entry
  | .sink hops index => do
    if .shared ∈ hops then return .sink hops index
    let ws ← get
    set { ws with outlets := ws.outlets ++ [ws.outlets[index]?.getD .discard] }
    return .sink hops ws.outlets.length
  | entry => return entry

def run : Step → Action Reply
  | .method under m => do
    let m ← perform none (Work.store Work.graspMethod m)
    put under (.method m)
  | .field under f => do
    let f ← perform none (Work.store Work.grasp f)
    put under (.field f)
  | .value under v => do
    let v ← perform none (Work.storeDraft v)
    put under (.value v)
  | .element under e => do
    let e ← perform none (Work.storeDraftElement e)
    put under (.element e)
  | .parseMethod under text =>
    match MethodRef.parse text with
    | .error cause => throw (.unreadable cause)
    | .ok m => do
      let handle ← perform none (Work.graspMethod m)
      put under (.method (.canonical handle))
  | .parseField under text =>
    match FieldRef.parse text with
    | .error cause => throw (.unreadable cause)
    | .ok f => do
      let handle ← perform none (Work.grasp f)
      put under (.field (.canonical handle))
  | .assemble under paramsOf owner name result => do
    match ← entry paramsOf with
    | .method (.canonical lender) =>
      let handle ← perform none
        (Work.grasp (⟨owner, name, lender.content.params, result⟩ : MethodRef))
      put under (.method (.canonical { handle with paramsIdentity := lender.paramsIdentity }))
    | _ => throw (.unsuitable paramsOf)
  | .canonicalize under source sink => do
    let entry ← canonicalized source sink (← entry source)
    put under entry
  | .amend target change => do
    let entry ← amended target change (← entry target)
    put target entry
  | .same a b => do sameEntries b (← entry a) (← entry b)
  | .compare a b => do compareEntries b (← entry a) (← entry b)
  | .look target => look target
  | .elementSet under sources order policy sink => do
    let set ← gather sources order policy sink
    put under (.elementSet set)
  | .methodSet under sources order policy sink => do
    let entities ← (sources.getD []).mapM methodsOf
    let set ← perform sink (Work.methodSet order policy entities.flatten)
    put under (.methodSet set)
  | .annot under type sources sink => do
    let elements ← gather sources Element.byName {} sink
    put under (.annot type elements)
  | .annotOfSet under type set => do
    let elements ← elementSetOf set
    put under (.annot type elements)
  | .annotValue under source => do
    match ← entry source with
    | .annot type elements => put under (.value (.canonical (.annot type elements)))
    | _ => throw (.unsuitable source)
  | .annotElement under source name => do
    match ← entry source with
    | .annot _ elements =>
      putFound under (fun e => .element (.canonical e))
        (elements.content.searchBy fun e => Text.compareUnits e.content.name name)
    | _ => throw (.unsuitable source)
  | .get under source index => do
    match ← entry source with
    | .elementSet set => putFound under (fun e => .element (.canonical e)) (set.content.get? index)
    | .methodSet set => putFound under (fun m => .method (.canonical m)) (set.content.get? index)
    | _ => throw (.unsuitable source)
  | .find under source probe order => do
    let set ← elementSetOf source
    match ← entry probe with
    | .element (.canonical target) =>
      putFound under (fun e => .element (.canonical e))
        (set.content.find (order.comap (·.content.bare)) target)
    | _ => throw (.unsuitable probe)
  | .search under source name => do
    let set ← elementSetOf source
    putFound under (fun e => .element (.canonical e))
      (set.content.searchBy fun e => Text.compareUnits e.content.name name)
  | .valueOf under source => do
    let value ← valueOf source (← entry source)
    put under (.value value)
  | .wrap under name source => do
    let value ← valueOf source (← entry source)
    put under (.element (.foreign ⟨name, value⟩))
  | .push target source => do
    let entry ← pushed target source (← entry target) (← entry source)
    put target entry
  | .part under source index => do
    let parts ← partsOf source (← entry source)
    putFound under id parts[index]?
  | .sink under hops outlet => do
    let ws ← get
    set { ws with outlets := ws.outlets ++ [outlet] }
    put under (.sink hops ws.outlets.length)
  | .clone under source => do
    let entry ← cloned (← entry source)
    put under entry
  | .emit sink via diagnostics => do
    actOn sink via (Sink.reportAll diagnostics)
    look sink
  | .flush sink via => do
    actOn sink via (modify Sink.flush)
    look sink
  | .take sink => do
    let (diagnostics, rest) := (← collectorOf sink).take
    let (_, index, _) ← sinkOf sink
    modify fun ws => { ws with outlets := ws.outlets.set index (.collector rest) }
    return .taken diagnostics (.outlet (.collector rest))
  | .replay source into => do
    let collector ← collectorOf source
    actOn into [] (modify collector.replay)
    look into
  | .equalSinks a b => return .equal ((← collectorOf a) == (← collectorOf b))

def step (ws : Workspace) (step : Step) : Reply × Workspace :=
  match (run step).run ws with
  | .ok result => result
  | .error fault => (.failed fault, ws)

def steps (ws : Workspace) : List Step → List Reply × Workspace
  | [] => ([], ws)
  | first :: rest =>
    let (reply, ws) := ws.step first
    let (replies, ws) := steps ws rest
    (reply :: replies, ws)

end Workspace

end DexCanon
