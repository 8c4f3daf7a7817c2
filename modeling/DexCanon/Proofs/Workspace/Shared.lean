import Mathlib.Data.List.DropRight
import DexCanon.Proofs.Workspace.Outlets

/-!
# Shared collectors

A shared sink may go under many names: clones of it, and clones of those. Whatever is handed over
under one of them is handed over to the one collector behind them all, once and in order. Taking a
batch empties the collector, so the batches and what is left make up all that was handed over.
-/

set_option autoImplicit false

namespace DexCanon

def Reply.batch? : Reply → Option (List Diagnostic)
  | .taken diagnostics _ => some diagnostics
  | _ => none

namespace Workspace

variable {ws : Workspace} {name : String} {hops : List Hop} {outlet : Nat} {c : Collector}

-- ---------------------------------------------------------------------------
-- One step
-- ---------------------------------------------------------------------------

def outletOf? (ws : Workspace) (name : String) : Option Nat := (ws.sink? name).map (·.2.1)

/-- What the step hands over to the outlet: what it tells, if its sink leads there. -/
def handed (ws : Workspace) (outlet : Nat) (step : Step) : List Diagnostic :=
  if step.sink?.bind ws.outletOf? = some outlet then (ws.told? step).getD [] else []

def batch? (ws : Workspace) (outlet : Nat) : Step → Option (List Diagnostic)
  | .take name =>
    if ws.outletOf? name = some outlet then (ws.step (.take name)).1.batch? else none
  | _ => none

theorem outletOf?_eq_some (hc : ws.outlets[outlet]? = some (.collector c))
    (h : ws.outletOf? name = some outlet) :
    ∃ hops, ws.sink? name = some (hops, outlet, .collector c) := by
  obtain ⟨⟨hops, index, o⟩, hsink, rfl⟩ := Option.map_eq_some_iff.mp h
  obtain ⟨hlookup, -⟩ := sink?_eq_some_iff.mp hsink
  exact ⟨hops, sink?_eq_some_iff.mpr ⟨hlookup, hc⟩⟩

theorem step_outlet_of_ne (step : Step) {o : Outlet} (ho : ws.outlets[outlet]? = some o)
    (h : step.sink?.bind ws.outletOf? ≠ some outlet) :
    (ws.step step).2.outlets[outlet]? = some o := by
  -- Without a sink an outlet may be added; with one, another outlet may change.
  cases hname : step.sink? with
  | none =>
    have hchange := ws.step_change step []
    rw [hname] at hchange
    obtain ⟨more, hmore⟩ := hchange.outlets_prefix
    rw [← hmore, List.getElem?_append_left (List.getElem?_eq_some_iff.mp ho).1]
    exact ho
  | some name =>
    rw [hname, Option.bind_some, outletOf?] at h
    rw [step_outlets, run_outletsAfter step hname]
    simp only [outletsWith]
    cases ws.told? step with
    | none => exact ho
    | some diagnostics =>
      cases hsink : ws.sink? name with
      | none => exact ho
      | some found =>
        have hne : found.2.1 ≠ outlet := by simpa [hsink] using h
        simpa [List.getElem?_set_ne hne] using ho

theorem step_outlet (step : Step) {o : Outlet} (hname : step.sink? = some name)
    (hsink : ws.sink? name = some (hops, outlet, o)) : (ws.step step).2.outlets[outlet]? =
      some (((ws.told? step).map fun diagnostics => heard diagnostics step o).getD o) := by
  have ho : ws.outlets[outlet]? = some o := (sink?_eq_some_iff.mp hsink).2
  rw [step_outlets, run_outletsAfter step hname]
  simp only [outletsWith, hsink]
  cases ws.told? step with
  | none => exact ho
  | some diagnostics => exact List.getElem?_set_self (List.getElem?_eq_some_iff.mp ho).1

theorem emitAll_outlet (diagnostics : List Diagnostic) (c : Collector) :
    Sink.emitAll diagnostics (Outlet.collector c) = .collector ⟨c.diagnostics ++ diagnostics⟩ := by
  rw [← Sink.emitAll_collector]
  induction diagnostics generalizing c with
  | nil => rfl
  | cons d rest ih => exact ih (Sink.emit d c)

theorem heard_collector {step : Step} (htake : ∀ name, step ≠ .take name)
    {diagnostics : List Diagnostic} (h : ws.told? step = some diagnostics) (c : Collector) :
    heard diagnostics step (.collector c) = .collector ⟨c.diagnostics ++ diagnostics⟩ := by
  cases step with
  | flush sink via =>
    obtain rfl : [] = diagnostics := Option.some.inj h
    rw [List.append_nil]
    rfl
  | take name => exact absurd rfl (htake name)
  | _ => exact emitAll_outlet diagnostics c

theorem look_reply (hc : ws.outlets[outlet]? = some (.collector c))
    (h : ws.outletOf? name = some outlet) :
    (ws.step (.look name)).1 = .shown (.outlet (.collector c)) := by
  obtain ⟨hops, hsink⟩ := outletOf?_eq_some hc h
  have houtcome : outcome (run (.look name)) ws = _ := look_outcome (sink?_eq_some_iff.mp hsink).1
  rw [step_of_outcome houtcome, shown, hc]
  rfl

theorem take_reply (h : ws.sink? name = some (hops, outlet, .collector c)) :
    (ws.step (.take name)).1 = .taken c.diagnostics (.outlet (.collector {})) := by
  have hcollector : ws.collector? name = some c := by rw [collector?, h]
  have houtcome : outcome (run (.take name)) ws =
      some (.taken c.diagnostics (.outlet (.collector {})),
        { ws with outlets := ws.outlets.set outlet (.collector {}) }) := by
    rw [run, outcome_bind, Finds.collectorOf, hcollector]
    show outcome (sinkOf name >>= _) ws = _
    rw [outcome_bind, Finds.sinkOf, h]
    rfl
  rw [step_of_outcome houtcome]

theorem take_collector (hc : ws.outlets[outlet]? = some (.collector c))
    (h : ws.outletOf? name = some outlet) :
    (ws.step (.take name)).2.outlets[outlet]? = some (.collector {}) ∧
      ws.batch? outlet (.take name) = some c.diagnostics ∧ ws.handed outlet (.take name) = [] := by
  obtain ⟨hops, hsink⟩ := outletOf?_eq_some hc h
  have htold : ws.told? (.take name) = some [] := by rw [told?, collector?, hsink]; rfl
  refine ⟨?_, ?_, ?_⟩
  · rw [step_outlet (.take name) rfl hsink, htold]
    rfl
  · rw [batch?, if_pos h, take_reply hsink]
    rfl
  · rw [handed, htold]
    exact ite_self []

theorem step_collector (hc : ws.outlets[outlet]? = some (.collector c)) {step : Step}
    (htake : ∀ name, step ≠ .take name) : (ws.step step).2.outlets[outlet]? =
      some (.collector ⟨c.diagnostics ++ ws.handed outlet step⟩) := by
  by_cases hreach : step.sink?.bind ws.outletOf? = some outlet
  · obtain ⟨name, hname, hout⟩ := Option.bind_eq_some_iff.mp hreach
    obtain ⟨hops, hsink⟩ := outletOf?_eq_some hc hout
    rw [step_outlet step hname hsink, handed, if_pos hreach]
    cases htold : ws.told? step with
    | none => simp
    | some diagnostics => simp [heard_collector htake htold]
  · rw [step_outlet_of_ne step hc hreach, handed, if_neg hreach, List.append_nil]

theorem step_cases (hc : ws.outlets[outlet]? = some (.collector c)) (step : Step) :
    ∃ rest : Collector, (ws.step step).2.outlets[outlet]? = some (.collector rest) ∧
      ((ws.batch? outlet step = some c.diagnostics ∧ ws.handed outlet step = [] ∧ rest = {}) ∨
        (ws.batch? outlet step = none ∧
          rest.diagnostics = c.diagnostics ++ ws.handed outlet step)) := by
  cases step with
  | take name =>
    by_cases h : ws.outletOf? name = some outlet
    · obtain ⟨hrest, hbatch, hhanded⟩ := take_collector hc h
      exact ⟨{}, hrest, .inl ⟨hbatch, hhanded, rfl⟩⟩
    · have hhanded : ws.handed outlet (.take name) = [] := if_neg h
      refine ⟨c, step_outlet_of_ne _ hc h, .inr ⟨if_neg h, ?_⟩⟩
      rw [hhanded, List.append_nil]
  | _ => exact ⟨_, step_collector hc nofun, .inr ⟨rfl, rfl⟩⟩

-- ---------------------------------------------------------------------------
-- Names of a shared sink
-- ---------------------------------------------------------------------------

/-- The name leads to the outlet, and so will every clone of it. -/
def Shares (ws : Workspace) (outlet : Nat) (name : String) : Prop :=
  ∃ hops, .shared ∈ hops ∧ ws.entries.lookup name = some (.sink hops outlet)

/-- Names of a shared sink after a step: a clone has one more, and a name that is given to anything
else no longer counts. -/
def clonesAfter (names : List String) : Step → List String
  | .clone under source => if source ∈ names then under :: names else names.filter (· ≠ under)
  | step => names.filter fun name => step.under? ≠ some name

def clones (names : List String) (steps : List Step) : List String := steps.foldl clonesAfter names

theorem Shares.outletOf? (h : ws.Shares outlet name)
    (hc : ws.outlets[outlet]? = some (.collector c)) : ws.outletOf? name = some outlet := by
  obtain ⟨hops, -, hlookup⟩ := h
  rw [Workspace.outletOf?, sink?_eq_some_iff.mpr ⟨hlookup, hc⟩]
  rfl

theorem Shares.step (h : ws.Shares outlet name) {step : Step} (hname : step.under? ≠ some name) :
    (ws.step step).2.Shares outlet name := by
  obtain ⟨hops, hshared, hlookup⟩ := h
  exact ⟨hops, hshared, ((ws.step_change step []).lookup hname).trans hlookup⟩

theorem Shares.clone (h : ws.Shares outlet name) (under : String) :
    (ws.step (.clone under name)).2.Shares outlet under := by
  obtain ⟨hops, hshared, hlookup⟩ := h
  have houtcome : outcome (run (.clone under name)) ws =
      outcome (put under (.sink hops outlet)) ws := by
    rw [run, outcome_bind, Finds.entry, hlookup]
    show outcome (cloned (.sink hops outlet) >>= _) ws = _
    rw [cloned, if_pos hshared]
    rfl
  rw [step_of_outcome houtcome]
  exact ⟨hops, hshared, List.lookup_cons_self⟩

theorem forall_shares_step {names : List String} (h : ∀ name ∈ names, ws.Shares outlet name)
    (step : Step) : ∀ name ∈ clonesAfter names step, (ws.step step).2.Shares outlet name := by
  intro name hmem
  cases step with
  | clone under source =>
    rw [clonesAfter] at hmem
    split at hmem
    · next hsource =>
      by_cases hunder : under = name
      · exact hunder ▸ (h source hsource).clone under
      · have hold : name ∈ names := (List.mem_cons.mp hmem).resolve_left fun heq => hunder heq.symm
        exact (h name hold).step fun heq => hunder (Option.some.inj heq)
    · obtain ⟨hold, hunder⟩ := List.mem_filter.mp hmem
      exact (h name hold).step fun heq => of_decide_eq_true hunder (Option.some.inj heq).symm
  | _ =>
    obtain ⟨hold, hunder⟩ := List.mem_filter.mp hmem
    exact (h name hold).step (of_decide_eq_true hunder)

-- ---------------------------------------------------------------------------
-- Runs
-- ---------------------------------------------------------------------------

def moments (ws : Workspace) : List Step → List (Workspace × Step)
  | [] => []
  | step :: rest => (ws, step) :: moments (ws.step step).2 rest

theorem moments_concat (steps : List Step) (step : Step) :
    ws.moments (steps ++ [step]) = ws.moments steps ++ [((ws.steps steps).2, step)] := by
  induction steps generalizing ws with
  | nil => rfl
  | cons first rest ih => exact congrArg _ ih

theorem steps_concat (steps : List Step) (step : Step) :
    (ws.steps (steps ++ [step])).2 = ((ws.steps steps).2.step step).2 := by
  induction steps generalizing ws with
  | nil => rfl
  | cons first rest ih => exact ih

def handedOver (outlet : Nat) (moments : List (Workspace × Step)) : List Diagnostic :=
  moments.flatMap fun moment => moment.1.handed outlet moment.2

def batches (outlet : Nat) (moments : List (Workspace × Step)) : List (List Diagnostic) :=
  moments.filterMap fun moment => moment.1.batch? outlet moment.2

def sinceTaken (outlet : Nat) (moments : List (Workspace × Step)) : List (Workspace × Step) :=
  moments.rtakeWhile fun moment => moment.1.batch? outlet moment.2 = none

/-- The state of a collector in the course of a run: with the batches that were taken it makes up
all that was handed over, and it holds what came since. -/
structure Holds (outlet : Nat) (moments : List (Workspace × Step)) (c : Collector) : Prop where
  all : (batches outlet moments).flatten ++ c.diagnostics = handedOver outlet moments
  since : c.diagnostics = handedOver outlet (sinceTaken outlet moments)

section

variable (moments : List (Workspace × Step)) (ws : Workspace) (step : Step)

theorem handedOver_concat : handedOver outlet (moments ++ [(ws, step)]) =
    handedOver outlet moments ++ ws.handed outlet step := by
  simp [handedOver]

theorem batches_concat : batches outlet (moments ++ [(ws, step)]) =
    batches outlet moments ++ (ws.batch? outlet step).toList := by
  rw [batches, List.filterMap_append, batches]
  cases hbatch : ws.batch? outlet step <;> simp [hbatch]

theorem sinceTaken_concat : sinceTaken outlet (moments ++ [(ws, step)]) =
    if ws.batch? outlet step = none then sinceTaken outlet moments ++ [(ws, step)] else [] := by
  simp [sinceTaken, List.rtakeWhile_concat]

end

theorem Holds.step {moments : List (Workspace × Step)} (h : Holds outlet moments c)
    (hc : ws.outlets[outlet]? = some (.collector c)) (step : Step) : ∃ rest : Collector,
      (ws.step step).2.outlets[outlet]? = some (.collector rest) ∧
      Holds outlet (moments ++ [(ws, step)]) rest := by
  obtain ⟨rest, hrest, ⟨hbatch, hhanded, rfl⟩ | ⟨hbatch, hadded⟩⟩ := step_cases hc step
  · refine ⟨{}, hrest, ?_, ?_⟩
    · rw [batches_concat, handedOver_concat, hbatch, hhanded, ← h.all]
      simp
    · rw [sinceTaken_concat, if_neg (by simp [hbatch])]
      rfl
  · refine ⟨rest, hrest, ?_, ?_⟩
    · rw [batches_concat, handedOver_concat, hbatch, hadded, ← h.all]
      simp
    · rw [sinceTaken_concat, if_pos hbatch, handedOver_concat, hadded, h.since]

theorem exists_collector_steps (hc : ws.outlets[outlet]? = some (.collector {}))
    (steps : List Step) : ∃ rest : Collector,
      (ws.steps steps).2.outlets[outlet]? = some (.collector rest) ∧
      Holds outlet (ws.moments steps) rest := by
  -- What came since the last batch is found from the back, so that is where steps are added.
  induction steps using List.reverseRecOn with
  | nil => exact ⟨{}, hc, ⟨rfl, rfl⟩⟩
  | append_singleton steps step ih =>
    obtain ⟨rest, hrest, hholds⟩ := ih
    rw [moments_concat, steps_concat]
    exact hholds.step hrest step

theorem forall_shares_steps {names : List String} (h : ∀ name ∈ names, ws.Shares outlet name)
    (steps : List Step) :
    ∀ name ∈ clones names steps, (ws.steps steps).2.Shares outlet name := by
  induction steps generalizing ws names with
  | nil => exact h
  | cons first rest ih => exact ih (forall_shares_step h first)

/-- In the course of any run the batches that were taken from a shared collector, one after the
other, and what it holds at last are all that was handed over to it, in order. Every name that leads
to it shows the same, and clones of clones lead to it: what was handed over since the last batch. -/
theorem shared_collector_conserves (ws : Workspace) (name : String) (hops : List Hop)
    (hshared : .shared ∈ hops) (steps : List Step) :
    let outlet := ws.outlets.length
    let start := (ws.step (.sink name hops (.collector {}))).2
    let finish := (start.steps steps).2
    let moments := start.moments steps
    let since := handedOver outlet (sinceTaken outlet moments)
    ∃ rest : Collector,
      (batches outlet moments).flatten ++ rest.diagnostics = handedOver outlet moments ∧
      rest.diagnostics = since ∧ rest.size = since.length ∧
      rest.messages = since.map (·.message) ∧ rest.warningCount = since.countP (·.isWarning) ∧
      (∀ clone ∈ clones [name] steps, finish.outletOf? clone = some outlet) ∧
      ∀ clone, finish.outletOf? clone = some outlet →
        (finish.step (.look clone)).1 = .shown (.outlet (.collector rest)) := by
  intro outlet start finish moments since
  have hc : start.outlets[outlet]? = some (.collector {}) := List.getElem?_concat_length
  have hname : ∀ clone ∈ [name], start.Shares outlet clone := by
    intro clone hclone
    obtain rfl : clone = name := List.mem_singleton.mp hclone
    exact ⟨hops, hshared, List.lookup_cons_self⟩
  obtain ⟨rest, hrest, hholds⟩ := exists_collector_steps hc steps
  have hsince : rest.diagnostics = since := hholds.since
  refine ⟨rest, hholds.all, hsince, ?_, ?_, ?_, ?_, ?_⟩
  · rw [Collector.size, hsince]
  · rw [Collector.messages, hsince]
  · rw [Collector.warningCount, hsince]
  · exact fun clone hclone => (forall_shares_steps hname steps clone hclone).outletOf? hrest
  · intro clone hclone
    exact look_reply hrest hclone

/-- A boxed shared collector with a clone and a clone of it. -/
theorem shared_collector_conserves_clones :
    let early := Diagnostic.note "early"
    let late := Diagnostic.warning "late"
    let steps : List Step := [.clone "t" "s", .clone "u" "t", .emit "t" [.lent] [early],
      .element "e" (.foreign "x" (.scalar .null)),
      .elementSet "set" (some ["e", "e"]) Element.byName {} (some "u"),
      .sink "other" [] (.collector ⟨[late]⟩), .take "t", .flush "u" [], .replay "other" "s"]
    let start := (Workspace.step {} (.sink "s" [.owned, .shared] (.collector {}))).2
    let moments := start.moments steps
    batches 0 moments = [[early, .duplicate "annotation value" "x"]] ∧
      clones ["s"] steps = ["u", "t", "s"] ∧
      ∀ clone ∈ ["u", "t", "s"], ((start.steps steps).2.step (.look clone)).1 =
        .shown (.outlet (.collector ⟨[late]⟩)) := by
  intro early late steps start moments
  let entity : Held ForeignElement ElementHandle := .foreign ⟨"x", .scalar .null⟩
  let entries : List (String × Entry) := [("e", .element entity), ("u", .sink [.owned, .shared] 0),
    ("t", .sink [.owned, .shared] 0), ("s", .sink [.owned, .shared] 0)]
  let build : Step := .elementSet "set" (some ["e", "e"]) Element.byName {} (some "u")
  let before : Workspace := { entries, outlets := [.collector ⟨[early]⟩] }
  -- Building the set sorts, which does not come out by computing. What it reports is known.
  obtain ⟨set, fresh, -, hwork⟩ := Work.elementSet_tells Element.byName {} [entity, entity] 0
  have htold : OrderedSet.reported Element.byName {} ([entity, entity].map Held.element) =
      [.duplicate "annotation value" "x"] := by
    show OrderedSet.reported Element.byName {} [DraftElement.foreign "x" (.scalar .null),
      .foreign "x" (.scalar .null)] = _
    simp [OrderedSet.reported, OrderedSet.settle, OrderedSet.complaints]
  rw [htold] at hwork
  let after : Workspace :=
    { entries := ("set", .elementSet set) :: entries
      outlets := [.collector ⟨[early, .duplicate "annotation value" "x"]⟩]
      fresh }
  have hbuild : (before.step build).2 = after := by
    let relay := Relay.along [.owned, .shared] (Outlet.collector ⟨[early]⟩)
    calc
      (before.step build).2 =
          let made := ((Work.elementSet Element.byName {} [entity, entity]).run 0).run relay
          { entries := ("set", .elementSet made.1.1) :: entries
            outlets := [made.2.base]
            fresh := made.1.2 } := rfl
      _ = after := by
        rw [show (((Work.elementSet Element.byName {} [entity, entity]).run 0).run relay) = _ from
          hwork (Relay Outlet) relay]
        rfl
  have hmoments : moments =
      start.moments (steps.take 4) ++ (before, build) :: after.moments (steps.drop 5) := by
    rw [← hbuild]
    rfl
  have hbatches : batches 0 moments = [[early, .duplicate "annotation value" "x"]] := by
    rw [hmoments]
    rfl
  have hclones : clones ["s"] steps = ["u", "t", "s"] := by decide +kernel
  have hsince : handedOver 0 (sinceTaken 0 moments) = [late] := by
    rw [hmoments]
    rfl
  obtain ⟨rest, -, hrest, -, -, -, hlead, hlook⟩ :=
    shared_collector_conserves {} "s" [.owned, .shared] (by decide) steps
  rw [hclones] at hlead
  obtain rfl : rest = ⟨[late]⟩ := congrArg Collector.mk (hrest.trans hsince)
  exact ⟨hbatches, hclones, fun clone hclone => hlook clone (hlead clone hclone)⟩

end Workspace

end DexCanon
