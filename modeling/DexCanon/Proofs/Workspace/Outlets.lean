import DexCanon.Proofs.Workspace.Change

/-!
# Outlets after a step

A step that acts on a sink hands what it tells over to the outlet behind it. What that is can be
said beforehand: it depends on what the names of the step lead to and on nothing else. A step that
cannot use what it names fails and hands over nothing.
-/

set_option autoImplicit false

namespace DexCanon

def Entry.trace? : Entry → Option (List Diagnostic)
  | .method m => some (trace m.method)
  | .field _ => some []
  | .value v => some (trace v.bare)
  | .element e => some (trace e.element)
  | .elementSet _ | .methodSet _ | .annot _ _ | .sink _ _ => none

namespace Workspace

variable {α β : Type} {ws : Workspace}

-- ---------------------------------------------------------------------------
-- What names lead to
-- ---------------------------------------------------------------------------

def sink? (ws : Workspace) (name : String) : Option (List Hop × Nat × Outlet) :=
  match ws.entries.lookup name with
  | some (.sink hops outlet) => (ws.outlets[outlet]?).map fun o => (hops, outlet, o)
  | _ => none

theorem sink?_eq_some_iff {name : String} {hops : List Hop} {outlet : Nat} {o : Outlet} :
    ws.sink? name = some (hops, outlet, o) ↔
      ws.entries.lookup name = some (.sink hops outlet) ∧ ws.outlets[outlet]? = some o := by
  rw [sink?]
  constructor
  · intro h
    split at h
    · next hlookup =>
      obtain ⟨o', ho, hfound⟩ := Option.map_eq_some_iff.mp h
      cases hfound
      exact ⟨hlookup, ho⟩
    · cases h
  · rintro ⟨hlookup, ho⟩
    rw [hlookup]
    exact Option.map_eq_some_iff.mpr ⟨o, ho, rfl⟩

def collector? (ws : Workspace) (name : String) : Option Collector :=
  match ws.sink? name with
  | some (_, _, .collector c) => some c
  | _ => none

/-- The elements that a name gives to a set: one of its own, or the members of a set. -/
def elements? (ws : Workspace) (name : String) :
    Option (List (Held ForeignElement ElementHandle)) :=
  match ws.entries.lookup name with
  | some (.element e) => some [e]
  | some (.elementSet set) => some (set.content.members.map .canonical)
  | _ => none

def methods? (ws : Workspace) (name : String) : Option (List (Held MethodRef MethodHandle)) :=
  match ws.entries.lookup name with
  | some (.method m) => some [m]
  | some (.methodSet set) => some (set.content.members.map .canonical)
  | _ => none

def elementSetReport? (ws : Workspace) (sources : Option (List String)) (order : SetOrder Element)
    (policy : SetPolicy) : Option (List Diagnostic) :=
  ((sources.getD []).mapM ws.elements?).map fun entities =>
    OrderedSet.reported order policy (entities.flatten.map Held.element)

/-- What the step reports to the sink it acts on, if it can use what it names. A take reports
nothing; what it needs is a collector. -/
def told? (ws : Workspace) : Step → Option (List Diagnostic)
  | .emit _ _ diagnostics => some diagnostics
  | .replay source _ => (ws.collector? source).map Collector.diagnostics
  | .canonicalize _ source _ => (ws.entries.lookup source).bind Entry.trace?
  | .elementSet _ sources order policy _ => ws.elementSetReport? sources order policy
  | .annot _ _ sources _ => ws.elementSetReport? sources Element.byName {}
  | .methodSet _ sources order policy _ =>
    ((sources.getD []).mapM ws.methods?).map fun entities =>
      OrderedSet.reported order policy (entities.flatten.map Held.method)
  | .take name => (ws.collector? name).map fun _ => []
  | _ => some []

-- ---------------------------------------------------------------------------
-- Readers
-- ---------------------------------------------------------------------------

namespace Finds

theorem entry (name : String) : Finds (Workspace.entry name) ws (ws.entries.lookup name) := by
  rw [Finds, Workspace.entry, outcome_bind]
  simp only [outcome_get, Option.bind_some]
  cases ws.entries.lookup name <;> rfl

theorem sinkOf (name : String) : Finds (Workspace.sinkOf name) ws (ws.sink? name) := by
  rw [Finds, Workspace.sinkOf, outcome_bind, Finds.entry, sink?]
  cases ws.entries.lookup name with
  | none => rfl
  | some e =>
    cases e with
    | sink hops outlet =>
      simp only [Option.map_some, Option.bind_some, outcome_bind, outcome_get]
      cases ws.outlets[outlet]? <;> rfl
    | _ => rfl

theorem collectorOf (name : String) :
    Finds (Workspace.collectorOf name) ws (ws.collector? name) := by
  rw [Finds, Workspace.collectorOf, outcome_bind, Finds.sinkOf, collector?]
  rcases ws.sink? name with - | ⟨hops, outlet, o⟩
  · rfl
  · cases o <;> rfl

theorem elementsOf (name : String) : Finds (Workspace.elementsOf name) ws (ws.elements? name) := by
  rw [Finds, Workspace.elementsOf, outcome_bind, Finds.entry, elements?]
  cases ws.entries.lookup name with
  | none => rfl
  | some e => cases e <;> rfl

theorem methodsOf (name : String) : Finds (Workspace.methodsOf name) ws (ws.methods? name) := by
  rw [Finds, Workspace.methodsOf, outcome_bind, Finds.entry, methods?]
  cases ws.entries.lookup name with
  | none => rfl
  | some e => cases e <;> rfl

end Finds

-- ---------------------------------------------------------------------------
-- Outlets after a step
-- ---------------------------------------------------------------------------

def outletsAfter (action : Action α) (ws : Workspace) : Option (List Outlet) :=
  (outcome action ws).map (·.2.outlets)

/-- The outlets once what is behind the named sink has changed. -/
def outletsWith (ws : Workspace) (name : String) (change : Outlet → Outlet) :
    Option (List Outlet) :=
  (ws.sink? name).map fun (_, outlet, o) => ws.outlets.set outlet (change o)

theorem Finds.outletsAfter_bind {first : Action α} {found : Option α} (h : Finds first ws found)
    (next : α → Action β) :
    outletsAfter (first >>= next) ws = found.bind fun a => outletsAfter (next a) ws := by
  rw [outletsAfter, outcome_bind, h]
  cases found <;> rfl

theorem outletsAfter_bind {first : Action α} {next : α → Action β}
    (h : ∀ a middle, outletsAfter (next a) middle = some middle.outlets) (ws : Workspace) :
    outletsAfter (first >>= next) ws = outletsAfter first ws := by
  rw [outletsAfter, outcome_bind, outletsAfter]
  cases outcome first ws with
  | none => rfl
  | some p => exact h p.1 p.2

theorem put_outletsAfter (name : String) (e : Entry) (ws : Workspace) :
    outletsAfter (put name e) ws = some ws.outlets := rfl

theorem actOn_outcome (name : String) (via : List Hop) (action : StateM (Relay Outlet) α) :
    outcome (actOn name via action) ws = (ws.sink? name).map fun (hops, outlet, o) =>
      let result := action.run (Relay.along (via ++ hops) o)
      (result.1, { ws with outlets := ws.outlets.set outlet result.2.base }) := by
  rw [actOn, outcome_bind, Finds.sinkOf]
  cases ws.sink? name <;> rfl

theorem actOn_outletsAfter (name : String) (via : List Hop) {action : StateM (Relay Outlet) α}
    {change : Outlet → Outlet} (h : ∀ relay, (action.run relay).2.base = change relay.base) :
    outletsAfter (actOn name via action) ws = ws.outletsWith name change := by
  rw [outletsAfter, actOn_outcome, outletsWith, Option.map_map]
  refine congrArg (Option.map · _) (funext fun found => ?_)
  simp only [Function.comp_apply, h, Relay.base_along]

theorem look_outcome {name : String} {e : Entry} (h : ws.entries.lookup name = some e) :
    outcome (look name) ws = some (.shown (ws.shown e), ws) := by
  rw [look, outcome_bind, Finds.entry, h]
  rfl

theorem look_outletsAfter {name : String} {e : Entry} (h : ws.entries.lookup name = some e) :
    outletsAfter (look name) ws = some ws.outlets := by
  rw [outletsAfter, look_outcome h]
  rfl

theorem actOn_look_outletsAfter (name : String) (via : List Hop) {change : Outlet → Outlet}
    {action : StateM (Relay Outlet) Unit}
    (h : ∀ relay, (action.run relay).2.base = change relay.base) :
    outletsAfter (do actOn name via action; look name) ws = ws.outletsWith name change := by
  rw [← actOn_outletsAfter name via h, outletsAfter, outletsAfter, outcome_bind, actOn_outcome]
  cases hsink : ws.sink? name with
  | none => rfl
  | some found =>
    rw [Option.map_some, Option.bind_some]
    exact look_outletsAfter (sink?_eq_some_iff.mp hsink).1

theorem perform_outletsAfter {work : {σ : Type} → [Sink σ] → Work σ α}
    {diagnostics : List Diagnostic} {post : α → Nat → Prop}
    (h : Work.Tells work ws.fresh diagnostics post) (name : String) :
    outletsAfter (perform (some name) work) ws =
      ws.outletsWith name (Sink.emitAll diagnostics) := by
  obtain ⟨a, after, -, hreports⟩ := h
  have hbase (relay : Relay Outlet) :
      ((work.run ws.fresh).run relay).2.base = Sink.emitAll diagnostics relay.base := by
    rw [hreports, Relay.base_emitAll]
  rw [← actOn_outletsAfter name [] hbase, outletsAfter, perform, outcome_bind, outcome_get,
    Option.bind_some, ← outletsAfter]
  exact outletsAfter_bind (fun _ _ => rfl) ws

/-- What the step makes of the outlet that it acts on. -/
def heard (diagnostics : List Diagnostic) : Step → Outlet → Outlet
  | .flush _ _ => Sink.flush
  | .take _ => fun _ => .collector {}
  | _ => Sink.emitAll diagnostics

theorem gather_outletsAfter (sources : Option (List String)) (order : SetOrder Element)
    (policy : SetPolicy) (name : String) :
    outletsAfter (gather sources order policy (some name)) ws =
      (ws.elementSetReport? sources order policy).bind fun diagnostics =>
        ws.outletsWith name (Sink.emitAll diagnostics) := by
  rw [gather, (Finds.mapM Finds.elementsOf).outletsAfter_bind, elementSetReport?, Option.bind_map]
  exact congrArg _ (funext fun entities =>
    perform_outletsAfter (Work.elementSet_tells order policy entities.flatten ws.fresh) name)

theorem canonicalized_outletsAfter (source name : String) (e : Entry) :
    outletsAfter (canonicalized source (some name) e) ws =
      e.trace?.bind fun diagnostics => ws.outletsWith name (Sink.emitAll diagnostics) := by
  cases e with
  | method m =>
    rw [canonicalized, outletsAfter_bind fun _ _ => rfl]
    exact perform_outletsAfter (Work.method_tells m ws.fresh) name
  | field f =>
    rw [canonicalized, outletsAfter_bind fun _ _ => rfl]
    exact perform_outletsAfter (Work.field_tells f ws.fresh) name
  | value v =>
    rw [canonicalized, outletsAfter_bind fun _ _ => rfl]
    exact perform_outletsAfter (Work.value_law v ws.fresh) name
  | element e =>
    rw [canonicalized, outletsAfter_bind fun _ _ => rfl]
    exact perform_outletsAfter (Work.element_law e ws.fresh) name
  | _ => rfl

/-- A step that acts on a sink changes nothing but what is behind it, which hears what the step
tells. -/
theorem run_outletsAfter (step : Step) {name : String} (hname : step.sink? = some name) :
    outletsAfter (run step) ws =
      (ws.told? step).bind fun diagnostics => ws.outletsWith name (heard diagnostics step) := by
  cases step with
  | canonicalize under source sink =>
    obtain rfl : sink = some name := hname
    rw [run, (Finds.entry source).outletsAfter_bind, told?, Option.bind_assoc]
    refine congrArg _ (funext fun e => ?_)
    rw [outletsAfter_bind fun _ _ => put_outletsAfter under _ _]
    exact canonicalized_outletsAfter source name e
  | elementSet under sources order policy sink =>
    obtain rfl : sink = some name := hname
    rw [run, outletsAfter_bind fun _ _ => put_outletsAfter under _ _]
    exact gather_outletsAfter sources order policy name
  | methodSet under sources order policy sink =>
    obtain rfl : sink = some name := hname
    rw [run, (Finds.mapM Finds.methodsOf).outletsAfter_bind, told?, Option.bind_map]
    refine congrArg _ (funext fun entities => ?_)
    rw [outletsAfter_bind fun _ _ => put_outletsAfter under _ _]
    exact perform_outletsAfter (Work.methodSet_tells order policy entities.flatten ws.fresh) name
  | annot under type sources sink =>
    obtain rfl : sink = some name := hname
    rw [run, outletsAfter_bind fun _ _ => put_outletsAfter under _ _]
    exact gather_outletsAfter sources Element.byName {} name
  | emit sink via diagnostics =>
    obtain rfl : sink = name := Option.some.inj hname
    exact actOn_look_outletsAfter sink via fun relay => Relay.base_emitAll diagnostics relay
  | flush sink via =>
    obtain rfl : sink = name := Option.some.inj hname
    exact actOn_look_outletsAfter sink via fun relay => Relay.base_forward Sink.flush relay
  | take sink =>
    obtain rfl : sink = name := Option.some.inj hname
    rw [run, (Finds.collectorOf sink).outletsAfter_bind, told?, Option.bind_map]
    refine congrArg _ (funext fun c => ?_)
    refine ((Finds.sinkOf sink).outletsAfter_bind _).trans ?_
    rw [Function.comp_apply, outletsWith, Option.map_eq_bind]
    rfl
  | replay source into =>
    obtain rfl : into = name := Option.some.inj hname
    rw [run, (Finds.collectorOf source).outletsAfter_bind, told?, Option.bind_map]
    refine congrArg _ (funext fun c => ?_)
    exact actOn_look_outletsAfter into [] fun relay => Relay.base_emitAll c.diagnostics relay
  | _ => cases hname

-- ---------------------------------------------------------------------------
-- Steps
-- ---------------------------------------------------------------------------

theorem step_outlets (step : Step) :
    (ws.step step).2.outlets = (outletsAfter (run step) ws).getD ws.outlets := by
  rw [Workspace.step, outletsAfter, outcome]
  cases (run step).run ws <;> rfl

end Workspace

end DexCanon
