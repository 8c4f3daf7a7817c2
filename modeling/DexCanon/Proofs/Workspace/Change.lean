import DexCanon.Proofs.Workspace.Action
import DexCanon.Proofs.Workspace.Canonicalizing
import DexCanon.Proofs.Workspace.Storing
import DexCanon.Proofs.OrderedSet.Search

/-!
# What a step changes

A step gives at most one name to something new and acts on at most one sink. Every other name stands
for what it stood for before, and a step that acts on no sink leaves all outlets as they are, though
it may add one. What it gives a name to is made of handles that are held and of new ones, so that no
identity comes to stand for two things.
-/

set_option autoImplicit false

namespace DexCanon

namespace Step

def under? : Step → Option String
  | method under _ | field under _ | value under _ | element under _ | parseMethod under _
  | parseField under _ | assemble under _ _ _ _ | canonicalize under _ _ | elementSet under _ _ _ _
  | methodSet under _ _ _ _ | annot under _ _ _ | annotOfSet under _ _ | annotValue under _
  | annotElement under _ _ | get under _ _ | find under _ _ _ | search under _ _ | valueOf under _
  | wrap under _ _ | part under _ _ | sink under _ _ | clone under _ => some under
  | amend target _ | push target _ => some target
  | same _ _ | compare _ _ | look _ | emit _ _ _ | flush _ _ | take _ | replay _ _
  | equalSinks _ _ => none

def sink? : Step → Option String
  | canonicalize _ _ into | elementSet _ _ _ _ into | methodSet _ _ _ _ into
  | annot _ _ _ into => into
  | emit into _ _ | flush into _ | take into | replay _ into => some into
  | _ => none

end Step

def Entry.holdings : Entry → List Holding
  | .method m => m.holdings fun h => [.method h]
  | .field f => f.holdings fun h => [.field h]
  | .value v => v.holdings
  | .element e => heldElementHoldings e
  | .elementSet set | .annot _ set => setHoldings set
  | .methodSet set => set.content.members.flatMap fun h => [.method h]
  | .sink _ _ => []

theorem elementHoldings_subset {set : ElementHandles} {e : ElementHandle}
    (he : e ∈ set.content.members) : elementHoldings e ⊆ setHoldings set := by
  rw [setHoldings_eq]
  exact fun _ hx => List.mem_flatMap_of_mem he hx

theorem StoredValue.holdings_parts (v : StoredValue) :
    v.parts.flatMap Entry.holdings ⊆ v.holdings := by
  cases v with
  | scalar s => exact List.Subset.refl _
  | field f | method m | enum f => exact List.Subset.refl _
  | array items =>
    rw [parts, List.flatMap_map, holdings, itemHoldings_eq]
    exact List.Subset.refl _
  | annot type elements =>
    rw [parts, List.flatMap_map, holdings, setHoldings_eq]
    exact List.Subset.refl _

theorem StoredDraft.holdings_parts (d : StoredDraft) :
    d.parts.flatMap Entry.holdings ⊆ d.holdings := by
  cases d with
  | scalar s => exact List.Subset.refl _
  | field f | method m | enum f => simp [parts, holdings, Entry.holdings]
  | array items =>
    rw [parts, List.flatMap_map, holdings, draftHoldings_eq]
    exact List.Subset.refl _
  | annot type elements =>
    rw [parts, List.flatMap_map, holdings, entityHoldings_eq]
    exact List.Subset.refl _
  | canonical v => exact v.holdings_parts

namespace Workspace

def holdings (ws : Workspace) : List Holding := ws.entries.flatMap fun named => named.2.holdings

/-- What may change on the way to a later workspace, if `under` is the only name that is given and
`sink` is the only one that is acted on. Some handles are at hand beside those of the workspace: an
entry is made of these, and they are read from entries or made under new identities. -/
inductive Change (under sink : Option String) (ws : Workspace) (loose : List Holding) :
    Workspace → List Holding → Prop
  | refl : Change under sink ws loose ws loose
  | keep {after held fewer} (h : Change under sink ws loose after held)
      (hs : fewer ⊆ after.holdings ++ held) : Change under sink ws loose after fewer
  | mint {after held made fresh} (h : Change under sink ws loose after held)
      (hmade : ∀ known, Tracked after.fresh known → held ⊆ known → Tracked fresh (made ++ known)) :
      Change under sink ws loose { after with fresh } (made ++ held)
  | define {after held} (h : Change under sink ws loose after held) (name : String) (e : Entry)
      (hname : under = some name) (he : e.holdings ⊆ held) : Change under sink ws loose
        { after with entries := (name, e) :: after.entries.filter (·.1 != name) } held
  | add {after held} (h : Change under sink ws loose after held) (o : Outlet) :
      Change under sink ws loose { after with outlets := after.outlets ++ [o] } held
  | act {after held} (h : Change under sink ws loose after held) (name : String)
      (hname : sink = some name) (outlet : Nat) (o : Outlet) :
      Change under sink ws loose { after with outlets := after.outlets.set outlet o } held

-- ---------------------------------------------------------------------------
-- What stays
-- ---------------------------------------------------------------------------

theorem lookup_filter_ne {name other : String} (h : name ≠ other)
    (entries : List (String × Entry)) :
    (entries.filter (·.1 != other)).lookup name = entries.lookup name := by
  induction entries with
  | nil => rfl
  | cons first rest ih =>
    obtain ⟨key, e⟩ := first
    by_cases hkey : key = other
    · subst hkey
      simp [List.lookup_cons, beq_false_of_ne h, ih]
    · simp [hkey, List.lookup_cons, ih]

namespace Change

variable {under sink : Option String} {ws middle after : Workspace}
  {loose between held : List Holding}

theorem trans (hf : Change under sink ws loose middle between)
    (hn : Change under sink middle between after held) : Change under sink ws loose after held := by
  induction hn with
  | refl => exact hf
  | keep _ hs ih => exact ih.keep hs
  | mint _ hmade ih => exact ih.mint hmade
  | define _ name e hname he ih => exact ih.define name e hname he
  | add _ o ih => exact ih.add o
  | act _ name hname outlet o ih => exact ih.act name hname outlet o

theorem lookup (h : Change under sink ws loose after held) {name : String}
    (hname : under ≠ some name) : after.entries.lookup name = ws.entries.lookup name := by
  induction h with
  | refl => rfl
  | keep _ _ ih => exact ih
  | mint _ _ ih => exact ih
  | define _ other e hother _ ih =>
    have hne : name ≠ other := fun h => hname (h ▸ hother)
    rw [List.lookup_cons, beq_false_of_ne hne]
    exact (lookup_filter_ne hne _).trans ih
  | add _ _ ih => exact ih
  | act _ _ _ _ _ ih => exact ih

theorem outlets_prefix (h : Change under none ws loose after held) :
    ws.outlets <+: after.outlets := by
  induction h with
  | refl => exact List.prefix_refl _
  | keep _ _ ih => exact ih
  | mint _ _ ih => exact ih
  | define _ _ _ _ _ ih => exact ih
  | add _ o ih => exact ih.trans (List.prefix_append _ _)
  | act _ _ hname => cases hname

theorem tracked (h : Change under sink ws loose after held)
    (ht : Tracked ws.fresh (ws.holdings ++ loose)) :
    Tracked after.fresh (after.holdings ++ held) := by
  induction h with
  | refl => exact ht
  | keep _ hs ih =>
    exact ih.subset (List.append_subset.mpr ⟨List.subset_append_left _ _, hs⟩)
  | @mint after held made _ _ hmade ih =>
    refine (hmade _ ih (List.subset_append_right _ _)).subset ?_
    show after.holdings ++ (made ++ held) ⊆ made ++ (after.holdings ++ held)
    intro x hx
    simp only [List.mem_append] at hx ⊢
    tauto
  | define _ name e _ he ih =>
    refine ih.subset ?_
    intro x hx
    simp only [holdings, List.flatMap_cons, List.mem_append] at hx ⊢
    rcases hx with (hx | hx) | hx
    · exact .inr (he hx)
    · obtain ⟨named, hn, hx⟩ := List.mem_flatMap.mp hx
      exact .inl (List.mem_flatMap.mpr ⟨named, List.mem_of_mem_filter hn, hx⟩)
    · exact .inr hx
  | add _ _ ih => exact ih
  | act _ _ _ _ _ ih => exact ih

end Change

-- ---------------------------------------------------------------------------
-- Where actions lead
-- ---------------------------------------------------------------------------

theorem entry_leads (name : String) (ws : Workspace) :
    Leads (entry name) ws fun e after => after = ws ∧ e.holdings ⊆ ws.holdings := by
  refine .get_bind ?_
  split
  · next e hfound =>
    obtain ⟨before, after, hsplit, -⟩ := List.lookup_eq_some_iff.mp hfound
    refine .pure ⟨rfl, fun h hh => ?_⟩
    rw [holdings, hsplit]
    exact List.mem_flatMap.mpr ⟨(name, e), by simp, hh⟩
  · exact .throw

theorem sinkOf_leads (name : String) (ws : Workspace) :
    Leads (sinkOf name) ws fun _ after => after = ws := by
  refine (entry_leads name ws).bind ?_
  rintro e ws ⟨rfl, -⟩
  split
  · refine .get_bind ?_
    split
    · exact .pure rfl
    · exact .throw
  · exact .throw

theorem actOn_leads {α : Type} (name : String) (via : List Hop)
    (action : StateM (Relay Outlet) α) (ws : Workspace) :
    Leads (actOn name via action) ws fun a after =>
      ∃ relay outlet o, a = (action.run relay).1 ∧
        after = { ws with outlets := ws.outlets.set outlet o } := by
  refine (sinkOf_leads name ws).bind ?_
  rintro ⟨hops, outlet, o⟩ ws rfl
  exact .modify_bind (.pure ⟨_, outlet, _, rfl, rfl⟩)

-- ---------------------------------------------------------------------------
-- What an action does
-- ---------------------------------------------------------------------------

/-- If the action succeeds, nothing else has changed, and what it answers is made of handles that
are held and of those at hand, of which it uses `given`. -/
def Does {α : Type} (action : Action α) (under sink : Option String) (given : List Holding)
    (made : α → List Holding) : Prop :=
  ∀ ws loose, given ⊆ loose →
    Leads action ws fun a after => Change under sink ws loose after (made a ++ loose)

namespace Does

variable {α β : Type} {under sink : Option String} {given : List Holding}

section

variable {made : α → List Holding}

theorem pure {a : α} (h : made a ⊆ given) : Does (Pure.pure a) under sink given made :=
  fun _ loose hgiven => .pure <| Change.refl.keep <| List.append_subset.mpr
    ⟨fun _ hx => List.mem_append_right _ (hgiven (h hx)), List.subset_append_right _ loose⟩

theorem throw (fault : Fault) :
    Does (MonadExcept.throw fault : Action α) under sink given made :=
  fun _ _ _ => .throw

theorem get_bind {next : Workspace → Action α} (h : ∀ ws, Does (next ws) under sink given made) :
    Does (MonadState.get >>= next) under sink given made := fun ws => h ws ws

theorem bind {first : Action α} {next : α → Action β} {after : β → List Holding}
    (hf : Does first under sink given made)
    (hn : ∀ a, Does (next a) under sink (made a ++ given) after) :
    Does (first >>= next) under sink given after := by
  intro ws loose hgiven
  refine (hf ws loose hgiven).bind fun a middle hmiddle => ?_
  have hmade : made a ++ given ⊆ made a ++ loose :=
    List.append_subset.mpr ⟨List.subset_append_left _ loose,
      List.subset_append_of_subset_right _ hgiven⟩
  refine (hn a middle (made a ++ loose) hmade).mono fun b final hfinal => ?_
  refine (hmiddle.trans hfinal).keep fun x hx => ?_
  simp only [List.mem_append] at hx ⊢
  tauto

theorem mono {action : Action α} (h : Does action under sink given made) {more : List Holding}
    (hs : given ⊆ more) : Does action under sink more made :=
  fun ws loose hmore => h ws loose (List.Subset.trans hs hmore)

theorem mapM {xs : List β} {f : β → Action α} (h : ∀ x, Does (f x) under sink [] made) :
    Does (xs.mapM f) under sink [] fun results => results.flatMap made := by
  induction xs with
  | nil => exact .pure (List.nil_subset _)
  | cons x rest ih =>
    rw [List.mapM_cons]
    refine (h x).bind fun a => (ih.mono (List.nil_subset _)).bind fun results => .pure ?_
    intro y hy
    simp only [List.flatMap_cons, List.mem_append] at hy ⊢
    tauto

end

-- ---------------------------------------------------------------------------
-- Readers
-- ---------------------------------------------------------------------------

theorem entry (name : String) :
    Does (Workspace.entry name) under sink given Entry.holdings := by
  refine fun ws loose _ => (entry_leads name ws).mono ?_
  rintro e ws ⟨rfl, he⟩
  exact Change.refl.keep (List.append_subset.mpr
    ⟨List.subset_append_of_subset_left _ he, List.subset_append_right _ _⟩)

theorem sinkOf (name : String) :
    Does (Workspace.sinkOf name) under sink given fun _ => [] := by
  refine fun ws loose _ => (sinkOf_leads name ws).mono ?_
  rintro _ ws rfl
  exact Change.refl

theorem collectorOf (name : String) :
    Does (Workspace.collectorOf name) under sink given fun _ => [] := by
  refine (Does.sinkOf name).bind fun _ => ?_
  split
  · exact .pure (List.nil_subset _)
  · exact .throw _

theorem look (name : String) : Does (Workspace.look name) under sink given fun _ => [] :=
  (Does.entry name).bind fun _ => .get_bind fun _ => .pure (List.nil_subset _)

theorem elementsOf (name : String) : Does (Workspace.elementsOf name) under sink given
    fun entities => entities.flatMap heldElementHoldings := by
  refine (Does.entry name).bind fun e => ?_
  split
  · exact .pure (by simp [Entry.holdings])
  · refine .pure (List.subset_append_of_subset_left _ ?_)
    rw [List.flatMap_map, Entry.holdings, setHoldings_eq]
    exact List.Subset.refl _
  · exact .throw _

theorem methodsOf (name : String) : Does (Workspace.methodsOf name) under sink given
    fun entities => entities.flatMap fun m => m.holdings fun h => [.method h] := by
  refine (Does.entry name).bind fun e => ?_
  split
  · exact .pure (by simp [Entry.holdings])
  · refine .pure (List.subset_append_of_subset_left _ ?_)
    rw [List.flatMap_map]
    exact List.Subset.refl _
  · exact .throw _

theorem elementSetOf (name : String) :
    Does (Workspace.elementSetOf name) under sink given setHoldings := by
  refine (Does.entry name).bind fun e => ?_
  split
  · exact .pure (List.subset_append_left _ _)
  · exact .throw _

-- ---------------------------------------------------------------------------
-- Writers
-- ---------------------------------------------------------------------------

theorem put (name : String) (e : Entry) (h : e.holdings ⊆ given) :
    Does (Workspace.put name e) (some name) sink given fun _ => [] := by
  intro ws loose hgiven
  rintro _ _ ⟨⟩
  exact Change.refl.define name e rfl (List.Subset.trans h hgiven)

theorem putFound {κ : Type} (name : String) {wrap : κ → Entry} {found : Option κ}
    (h : ∀ k, found = some k → (wrap k).holdings ⊆ given) :
    Does (Workspace.putFound name wrap found) (some name) sink given fun _ => [] := by
  cases found with
  | none => exact .pure (List.nil_subset _)
  | some k => exact .put name (wrap k) (h k rfl)

theorem actOn (name : String) (via : List Hop) (action : StateM (Relay Outlet) α) :
    Does (Workspace.actOn name via action) under (some name) given fun _ => [] := by
  refine fun ws loose _ => (actOn_leads name via action ws).mono ?_
  rintro _ _ ⟨relay, outlet, o, rfl, rfl⟩
  exact Change.refl.act name rfl outlet o

theorem perform (sink : Option String) {work : {σ : Type} → [Sink σ] → Work σ α}
    {made : α → List Holding} (h : Work.Makes work given made) :
    Does (Workspace.perform sink work) under sink given made := by
  refine fun ws loose hgiven => .get_bind ?_
  obtain ⟨told, a, fresh, hgrows, hreports⟩ := h ws.fresh
  have hmade : ∀ known, Tracked ws.fresh known → loose ⊆ known → Tracked fresh (made a ++ known) :=
    fun known ht hs => hgrows.tracked ht (List.Subset.trans hgiven hs)
  cases sink with
  | none =>
    rintro _ _ ⟨⟩
    simp only [hreports Discard {}]
    exact Change.refl.mint hmade
  | some name =>
    refine (actOn_leads name [] (work.run ws.fresh) ws).bind ?_
    rintro _ _ ⟨relay, outlet, o, rfl, rfl⟩
    rw [hreports _ relay]
    exact .modify_bind (.pure ((Change.refl.act name rfl outlet o).mint hmade))

theorem gather (sources : Option (List String)) (order : SetOrder Element) (policy : SetPolicy)
    (sink : Option String) :
    Does (Workspace.gather sources order policy sink) under sink [] setHoldings := by
  refine (Does.mapM Does.elementsOf).bind fun lists => ?_
  refine .perform sink ((Work.elementSet_makes order policy lists.flatten).mono ?_)
  rw [List.flatten_eq_flatMap, List.flatMap_assoc]
  exact List.subset_append_left _ _

theorem canonicalized (name : String) (sink : Option String) (e : Entry) :
    Does (Workspace.canonicalized name sink e) under sink e.holdings Entry.holdings := by
  cases e with
  | method m =>
    exact (Does.perform sink (Work.method_makes m)).bind fun _ =>
      .pure (List.subset_append_left _ _)
  | field f =>
    exact (Does.perform sink (Work.field_makes f)).bind fun _ =>
      .pure (List.subset_append_left _ _)
  | value v =>
    exact (Does.perform sink (Work.value_makes v)).bind fun _ =>
      .pure (List.subset_append_left _ _)
  | element e =>
    exact (Does.perform sink (Work.element_makes e)).bind fun _ =>
      .pure (List.subset_append_left _ _)
  | elementSet | methodSet | annot | sink => exact .throw _

theorem amended (name : String) (change : Amendment) (e : Entry) :
    Does (Workspace.amended name change e) under none e.holdings Entry.holdings := by
  unfold Workspace.amended
  split
  iterate 2 exact .pure (List.nil_subset _)
  · next e =>
    refine ((Does.perform none (Work.storeDrafts_stores _).makes).mono (List.nil_subset _)).bind
      fun values => .pure ?_
    show foreignHoldings ⟨change.name.getD e.name, values.headD e.value⟩ ⊆ _
    rw [foreignHoldings]
    cases values with
    | nil => exact List.subset_append_of_subset_right _ (foreignHoldings_eq e ▸ List.Subset.refl _)
    | cons v rest =>
      exact List.subset_append_of_subset_left _ (List.subset_append_left _ _)
  · next items =>
    refine ((Does.perform none (Work.storeDrafts_stores _).makes).mono (List.nil_subset _)).bind
      fun more => .pure ?_
    simp only [Entry.holdings, StoredDraft.holdings, draftHoldings_eq, List.flatMap_append]
    exact List.perm_append_comm.subset
  · next type elements =>
    refine ((Does.perform none (Work.storeDraftElements_stores _).makes).mono
      (List.nil_subset _)).bind fun more => .pure ?_
    simp only [Entry.holdings, StoredDraft.holdings, entityHoldings_eq, List.flatMap_append]
    exact List.perm_append_comm.subset
  · exact .throw _

theorem valueOf (name : String) (e : Entry) :
    Does (Workspace.valueOf name e) under sink e.holdings StoredDraft.holdings := by
  unfold Workspace.valueOf
  split
  iterate 3 exact .pure (List.Subset.refl _)
  · next e => exact .pure (foreignHoldings_eq e ▸ List.Subset.refl _)
  · next handle =>
    refine .pure ?_
    show handle.content.value.holdings ⊆ elementHoldings handle
    rw [elementHoldings_eq]
    exact List.subset_cons_self _ _
  · exact .pure (List.Subset.refl _)
  · exact .throw _

theorem pushed (target source : String) (e other : Entry) :
    Does (Workspace.pushed target source e other) under sink (e.holdings ++ other.holdings)
      Entry.holdings := by
  unfold Workspace.pushed
  split
  · refine ((Does.valueOf source other).mono (List.subset_append_right _ _)).bind fun v => .pure ?_
    simp [Entry.holdings, StoredDraft.holdings, draftHoldings_eq]
  · refine .pure ?_
    simp [Entry.holdings, StoredDraft.holdings, entityHoldings_eq]
  iterate 2 exact .throw _

theorem partsOf (name : String) (e : Entry) :
    Does (Workspace.partsOf name e) under sink e.holdings fun parts =>
      parts.flatMap Entry.holdings := by
  unfold Workspace.partsOf
  split
  · next v => exact .pure v.holdings_parts
  · exact .throw _

theorem cloned (e : Entry) :
    Does (Workspace.cloned e) under sink e.holdings Entry.holdings := by
  unfold Workspace.cloned
  split
  · split
    · exact .pure (List.nil_subset _)
    · rintro ws loose - _ _ ⟨⟩
      exact Change.refl.add _
  · exact .pure (List.Subset.refl _)

theorem sameEntries (b : String) (x y : Entry) :
    Does (Workspace.sameEntries b x y) under sink given fun _ => [] := by
  unfold Workspace.sameEntries
  split
  iterate 8 exact .pure (List.nil_subset _)
  exact .throw _

theorem compareEntries (b : String) (x y : Entry) :
    Does (Workspace.compareEntries b x y) under sink given fun _ => [] := by
  unfold Workspace.compareEntries
  split
  iterate 7 exact .pure (List.nil_subset _)
  exact .throw _

section

variable {wrap : α → Entry}

theorem thenPut (name : String) {action : Action α}
    (h : Does action (some name) sink given fun a => (wrap a).holdings) :
    Does (do Workspace.put name (wrap (← action))) (some name) sink given fun _ => [] :=
  h.bind fun _ => .put name _ (List.subset_append_left _ _)

theorem putFrom (name source : String) {next : Entry → Action α}
    (h : ∀ e, Does (next e) (some name) sink e.holdings fun a => (wrap a).holdings) :
    Does (do Workspace.put name (wrap (← next (← Workspace.entry source)))) (some name) sink []
      fun _ => [] :=
  (Does.entry source).bind fun e => .thenPut name ((h e).mono (List.subset_append_left _ _))

end

theorem run (step : Step) : Does (Workspace.run step) step.under? step.sink? [] fun _ => [] := by
  cases step with
  | method under m =>
    exact .thenPut under (.perform none (Work.store_stores Work.graspMethod_stores m).makes)
  | field under f =>
    exact .thenPut under (.perform none (Work.store_stores Work.grasp_stores f).makes)
  | value under v =>
    exact .thenPut under (.perform none (Work.storeDraft_stores v).makes)
  | element under e =>
    have hstores := Work.storeDraftElement_stores (Work.storeDraft_stores e.value)
    exact .thenPut under (.perform none hstores.makes)
  | parseMethod under text =>
    simp only [Workspace.run]
    split
    · exact .throw _
    · next m _ =>
      exact .thenPut under (.perform none (Work.graspMethod_stores m).makes)
  | parseField under text =>
    simp only [Workspace.run]
    split
    · exact .throw _
    · next f _ =>
      exact .thenPut under (.perform none (Work.grasp_stores f).makes)
  | assemble under paramsOf owner name result =>
    refine (Does.entry paramsOf).bind fun e => ?_
    split
    · next lender =>
      have hmakes := Work.grasp_makes (fun h => .method ⟨h, lender.paramsIdentity⟩) (fun _ => rfl)
        (⟨owner, name, lender.content.params, result⟩ : MethodRef)
      exact .thenPut under (.perform none (hmakes.mono (List.nil_subset _)))
    · exact .throw _
  | canonicalize under source sink =>
    exact .putFrom under source (Does.canonicalized source sink)
  | amend target change =>
    exact .putFrom target target (Does.amended target change)
  | same a b =>
    exact (Does.entry a).bind fun _ => (Does.entry b).bind fun _ => .sameEntries b _ _
  | compare a b =>
    exact (Does.entry a).bind fun _ => (Does.entry b).bind fun _ => .compareEntries b _ _
  | look target => exact .look target
  | elementSet under sources order policy sink =>
    exact .thenPut under (.gather sources order policy sink)
  | methodSet under sources order policy sink =>
    refine (Does.mapM Does.methodsOf).bind fun lists => ?_
    refine .thenPut under (.perform sink ?_)
    refine (Work.methodSet_makes order policy lists.flatten).mono ?_
    rw [List.flatten_eq_flatMap, List.flatMap_assoc]
    exact List.subset_append_left _ _
  | annot under type sources sink =>
    exact .thenPut under (.gather sources Element.byName {} sink)
  | annotOfSet under type set =>
    exact .thenPut under (.elementSetOf set)
  | annotValue under source =>
    refine (Does.entry source).bind fun e => ?_
    split
    · exact .put under _ (List.subset_append_left _ _)
    · exact .throw _
  | annotElement under source name =>
    refine (Does.entry source).bind fun e => ?_
    split
    · exact .putFound under fun _ hk => List.subset_append_of_subset_left _
        (elementHoldings_subset (bisect_sound hk).1)
    · exact .throw _
  | get under source index =>
    refine (Does.entry source).bind fun e => ?_
    split
    · exact .putFound under fun _ hk => List.subset_append_of_subset_left _
        (elementHoldings_subset (List.mem_of_getElem? hk))
    · exact .putFound under fun _ hk => List.subset_append_of_subset_left _
        fun _ hx => List.mem_flatMap_of_mem (List.mem_of_getElem? hk) hx
    · exact .throw _
  | find under source probe order =>
    refine (Does.elementSetOf source).bind fun set => (Does.entry probe).bind fun e => ?_
    split
    · exact .putFound under fun _ hk => List.subset_append_of_subset_right _
        (List.subset_append_of_subset_left _ (elementHoldings_subset (bisect_sound hk).1))
    · exact .throw _
  | search under source name =>
    exact (Does.elementSetOf source).bind fun set => .putFound under fun _ hk =>
      List.subset_append_of_subset_left _ (elementHoldings_subset (bisect_sound hk).1)
  | valueOf under source =>
    exact .putFrom under source (Does.valueOf source)
  | wrap under name source =>
    exact .putFrom under source (Does.valueOf source)
  | push target source =>
    refine (Does.entry target).bind fun e => (Does.entry source).bind fun other => ?_
    refine .thenPut target ((Does.pushed target source e other).mono ?_)
    intro x hx
    simp only [List.mem_append] at hx ⊢
    tauto
  | part under source index =>
    refine (Does.entry source).bind fun e => ?_
    refine ((Does.partsOf source e).mono (List.subset_append_left _ _)).bind fun parts => ?_
    exact .putFound under fun _ hk => List.subset_append_of_subset_left _
      fun _ hx => List.mem_flatMap_of_mem (List.mem_of_getElem? hk) hx
  | sink under hops outlet =>
    rintro ws loose - _ _ ⟨⟩
    exact (Change.refl.add outlet).define under _ rfl (List.nil_subset _)
  | clone under source =>
    exact .putFrom under source Does.cloned
  | emit sink via diagnostics => exact (Does.actOn sink via _).bind fun _ => .look sink
  | flush sink via => exact (Does.actOn sink via _).bind fun _ => .look sink
  | take sink =>
    -- A take goes straight to the outlet and not through the hops.
    refine (Does.collectorOf sink).bind fun c => (Does.sinkOf sink).bind fun found => ?_
    rintro ws loose - _ _ ⟨⟩
    exact Change.refl.act sink rfl _ _
  | replay source into =>
    exact (Does.collectorOf source).bind fun c => (Does.actOn into [] _).bind fun _ => .look into
  | equalSinks a b =>
    exact (Does.collectorOf a).bind fun _ => (Does.collectorOf b).bind fun _ =>
      .pure (List.nil_subset _)

end Does

theorem step_change (ws : Workspace) (step : Step) (loose : List Holding) :
    Change step.under? step.sink? ws loose (ws.step step).2 loose :=
  step_leads .refl (Does.run step ws loose (List.nil_subset loose))

end Workspace

end DexCanon
