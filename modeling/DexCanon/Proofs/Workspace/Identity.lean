import DexCanon.Proofs.Workspace.Change

/-!
# Identity in a workspace

In the course of any run an identity stands for one entity: handles that are held at any time, at
any depth, and share their identity are the same handle. Steps of all kinds keep it so, since each
hands on handles that are held or puts new ones under new identities.
-/

set_option autoImplicit false

namespace DexCanon

theorem Entry.closed (e : Entry) : Closed e.holdings := by
  cases e with
  | method m => exact m.closed closed_method
  | field f => exact f.closed closed_field
  | value v => exact v.closed
  | element e => exact closed_heldElementHoldings fun e _ => e.value.closed
  | elementSet set | annot _ set => exact (StoredValue.annot "" set).closed
  | methodSet set => exact .flatMap fun m _ => closed_method m
  | sink _ _ => exact .nil

namespace Workspace

/-- What is held before a run, between its steps or after it. -/
def held (ws : Workspace) : List Step → List Holding
  | [] => ws.holdings
  | first :: rest => ws.holdings ++ held (ws.step first).2 rest

theorem closed_holdings (ws : Workspace) : Closed ws.holdings :=
  .flatMap fun named _ => named.2.closed

theorem closed_held (ws : Workspace) (steps : List Step) : Closed (ws.held steps) := by
  induction steps generalizing ws with
  | nil => exact ws.closed_holdings
  | cons first rest ih => exact ws.closed_holdings.append (ih _)

theorem holdings_subset_held (ws : Workspace) (steps : List Step) :
    (ws.steps steps).2.holdings ⊆ ws.held steps := by
  induction steps generalizing ws with
  | nil => exact List.Subset.refl _
  | cons first rest ih => exact List.subset_append_of_subset_right _ (ih _)

theorem tracked_steps {ws : Workspace} {loose : List Holding}
    (ht : Tracked ws.fresh (ws.holdings ++ loose)) (steps : List Step) :
    Tracked (ws.steps steps).2.fresh (ws.held steps ++ loose) := by
  induction steps generalizing ws loose with
  | nil => exact ht
  | cons first rest ih =>
    have hboth : Tracked ws.fresh (ws.holdings ++ (ws.holdings ++ loose)) :=
      ht.subset (List.append_subset.mpr ⟨List.subset_append_left _ _, List.Subset.refl _⟩)
    refine (ih ((ws.step_change first _).tracked hboth)).subset ?_
    intro x hx
    simp only [held, List.mem_append] at hx ⊢
    tauto

theorem tracked_held (steps : List Step) :
    Tracked (Workspace.steps {} steps).2.fresh (held {} steps) :=
  (tracked_steps (Tracked.nil 0) steps).subset (List.subset_append_left _ [])

/-- Handles that are held at any time of a run, in the open or inside of values, and share their
identity are the same, so looking at identities first does not change what equality and order
answer, at any depth. At the end of the run a canonical entity is taken in by its own handle and a
foreign one by a copy of an identity that is not in use, together with all they are made of; and the
members of a set that is built are the handles of the entities it spares. -/
theorem identity_kept (steps : List Step) :
    let ws := (Workspace.steps {} steps).2
    let known := held {} steps
    (∀ a b : MethodHandle, .method a ∈ known → .method b ∈ known →
      (a.toHandle.same b.toHandle → a = b) ∧ (a == b) = (a.content == b.content) ∧
      a.compare b = a.content.compare b.content) ∧
    (∀ a b : ElementHandle, .element a ∈ known → .element b ∈ known →
      (a.same b → a = b) ∧ (a == b) = (a.content.bare == b.content.bare) ∧
      a.compare b = a.content.bare.compare b.content.bare) ∧
    (∀ v w : StoredValue, v.holdings ⊆ known → w.holdings ⊆ known →
      (v == w) = (v.bare == w.bare) ∧ v.compare w = v.bare.compare w.bare) ∧
    ∀ (σ : Type) [Sink σ] (sink : σ),
      (∀ entities, ∃ after, InTurn TakesMethod known entities
        (((entities.mapM Work.method).run ws.fresh).run sink).1.1 after) ∧
      (∀ entities, ∃ after, InTurn TakesElement known entities
        (((entities.mapM Work.element).run ws.fresh).run sink).1.1 after) ∧
      (∀ drafts, ∃ after, InTurn Becomes known drafts
        (((drafts.mapM Work.value).run ws.fresh).run sink).1.1 after) ∧
      (∀ (order : SetOrder MethodRef) [Std.TransCmp order.compare] (policy : SetPolicy) entities,
        ∃ handles after, InTurn TakesMethod known entities handles after ∧
          KeepsSpared Held.method (fun h => h.content) order policy.survivor entities handles
            (((Work.methodSet order policy entities).run ws.fresh).run
              sink).1.1.content.members) ∧
      ∀ (order : SetOrder Element) [Std.TransCmp order.compare] (policy : SetPolicy) entities,
        ∃ handles after, InTurn TakesElement known entities handles after ∧
          KeepsSpared Held.element (fun h => h.content.bare) order policy.survivor entities handles
            (((Work.elementSet order policy entities).run ws.fresh).run
              sink).1.1.content.members := by
  intro ws known
  have ht : Tracked ws.fresh known := tracked_held steps
  have hc : Closed known := closed_held {} steps
  refine ⟨?_, ?_, ?_, fun σ _ sink => ⟨?_, ?_, ?_, ?_, ?_⟩⟩
  · intro a b ha hb
    exact ⟨fun hsame => ht.method_eq ha hb (beq_iff_eq.mp hsame), ht.beq_method ha hb,
      ht.compare_method ha hb⟩
  · intro a b ha hb
    exact ⟨fun hsame => ht.element_eq ha hb (beq_iff_eq.mp hsame), ht.beq_element hc ha hb,
      ht.compare_element hc ha hb⟩
  · intro v w hv hw
    exact ⟨ht.beq_value hv hw, ht.compare_value hv hw⟩
  · intro entities
    have htells := Work.Tells.mapM (R := TakesMethod)
      (fun m (_ : m ∈ entities) => Work.method_tells m) ws.fresh
    obtain ⟨after, htakes, -⟩ := (htells.answer sink).2 known ht
    exact ⟨after, htakes⟩
  · intro entities
    have htells := Work.Tells.mapM (R := TakesElement)
      (fun e (_ : e ∈ entities) => Work.element_law e) ws.fresh
    obtain ⟨after, htakes, -⟩ := (htells.answer sink).2 known ht
    exact ⟨after, htakes⟩
  · intro drafts
    have htells := Work.Tells.mapM (R := Becomes)
      (fun d (_ : d ∈ drafts) => Work.value_law d) ws.fresh
    obtain ⟨after, htakes, -⟩ := (htells.answer sink).2 known ht
    exact ⟨after, htakes⟩
  · intro order _ policy entities
    obtain ⟨handles, halike, hmembers, hgrows⟩ :=
      (Work.methodSet_tells order policy entities ws.fresh).answer sink
    obtain ⟨after, htaken, -⟩ := hgrows known ht
    have hspared : KeepsSpared Held.method _ order policy.survivor entities handles _ :=
      .of_settle (fun _ _ _ _ => Takes.eq_of_canonical) order policy.survivor halike htaken
    exact ⟨handles, after, htaken, hmembers ▸ hspared⟩
  · intro order _ policy entities
    obtain ⟨handles, halike, hmembers, hgrows⟩ :=
      (Work.elementSet_tells order policy entities ws.fresh).answer sink
    obtain ⟨after, htaken, -⟩ := hgrows known ht
    have hspared : KeepsSpared Held.element _ order policy.survivor entities handles _ :=
      .of_settle (fun _ _ _ _ => TakesElement.eq_of_canonical) order policy.survivor halike htaken
    exact ⟨handles, after, htaken, hmembers ▸ hspared⟩

/-- Two handles of one reference are equal but not the same, and a set keeps the later of them. Two
elements that are made of one value share the reference in it, and are equal. -/
theorem identity_kept_last :
    let m : MethodRef := ⟨"LA;", "f", ["I"], "V"⟩
    let a : MethodHandle := ⟨⟨0, m⟩, 1⟩
    let b : MethodHandle := ⟨⟨2, m⟩, 3⟩
    let k : ElementHandle := ⟨4, ⟨"x", .method a⟩⟩
    let l : ElementHandle := ⟨5, ⟨"x", .method a⟩⟩
    let steps : List Step := [.method "a" (.canonical m), .method "b" (.canonical m),
      .wrap "e" "x" "a", .canonicalize "k" "e" none, .canonicalize "l" "e" none]
    let ws := (Workspace.steps {} steps).2
    let known := held {} steps
    let entities : List (Held MethodRef MethodHandle) := [.canonical a, .foreign m, .canonical b]
    let members := (((Work.methodSet .natural { survivor := .last } entities).run ws.fresh).run
      ({} : Discard)).1.1.content.members
    .method a ∈ known ∧ .method b ∈ known ∧ .element k ∈ known ∧ .element l ∈ known ∧
      a.toHandle.same b.toHandle = false ∧ a == b ∧ a.compare b = .eq ∧ b ∈ members ∧ a ∉ members ∧
      k.same l = false ∧ k == l ∧
      (StoredValue.method a).compare (.method b) = .eq := by
  intro m a b k l steps ws known entities members
  have hentries : ws.entries = [("l", .element (.canonical l)), ("k", .element (.canonical k)),
      ("e", .element (.foreign ⟨"x", .method (.canonical a)⟩)), ("b", .method (.canonical b)),
      ("a", .method (.canonical a))] := rfl
  have hheld : [.element l, .element k, .method b, .method a] ⊆ known := by
    refine List.Subset.trans ?_ (holdings_subset_held {} steps)
    show _ ⊆ ws.holdings
    simp [holdings, hentries, Entry.holdings, heldElementHoldings, elementHoldings_eq,
      Held.holdings, k, l]
  simp only [List.cons_subset] at hheld
  obtain ⟨hl, hk, hb, ha, -⟩ := hheld
  have : Std.TransCmp (SetOrder.natural (α := MethodRef)).compare :=
    inferInstanceAs (Std.TransCmp MethodRef.compare)
  have hself : m.compare m = .eq := (m.linearAt.eq_iff m).mpr rfl
  obtain ⟨hmethods, helements, hvalues, hwork⟩ := identity_kept steps
  obtain ⟨-, hbeq, hcmp⟩ := hmethods a b ha hb
  obtain ⟨-, hkl, -⟩ := helements k l hk hl
  obtain ⟨-, hvalue⟩ := hvalues (.method a) (.method b)
    (List.cons_subset.mpr ⟨ha, List.nil_subset _⟩) (List.cons_subset.mpr ⟨hb, List.nil_subset _⟩)
  obtain ⟨-, -, -, hset, -⟩ := hwork Discard {}
  obtain ⟨handles, after, -, hspared⟩ := hset .natural { survivor := .last } entities
  obtain ⟨hmem, hunique⟩ := hspared.spared [.canonical a, .foreign m] b [] rfl
    (by simp [OrderedSet.Spared])
  refine ⟨ha, hb, hk, hl, rfl, hbeq.trans (beq_self_eq_true m), hcmp.trans hself, hmem, ?_, rfl,
    hkl.trans (beq_self_eq_true _), hvalue.trans ?_⟩
  · intro h
    have hab := congrArg (fun handle : MethodHandle => handle.identity) (hunique a h hself)
    exact Nat.zero_ne_add_one 1 hab
  · rw [StoredValue.bare, StoredValue.bare, Value.compare]
    exact hself

end Workspace

end DexCanon
