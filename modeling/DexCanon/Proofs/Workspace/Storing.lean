import DexCanon.Proofs.Workspace.Reporting

/-!
# Storing

An entity that comes from outside is the same once it is stored, but for its handles. These are all
new, and nothing is reported.
-/

set_option autoImplicit false

namespace DexCanon

namespace Work

variable {α κ : Type}

/-- The work puts what comes from outside under new handles and leaves it as it is otherwise. -/
def Stores (work : {σ : Type} → [Sink σ] → Work σ κ) (bare : κ → α) (holdings : κ → List Holding)
    (entity : α) : Prop :=
  ∀ next, Tells work next [] fun k after =>
    bare k = entity ∧ Grows next [] (holdings k) (fun _ _ => True) after

namespace Stores

variable {κ' α' : Type} {bare : κ → α} {holdings : κ → List Holding} {bare' : κ' → α'}
  {holdings' : κ' → List Holding} {entity : α} {entity' : α'}

theorem pure {k : κ} (hbare : bare k = entity) (hnone : holdings k = []) :
    Stores (Pure.pure k) bare holdings entity :=
  fun _ => .pure ⟨hbare, hnone ▸ .refl fun _ => trivial⟩

theorem map {work : {σ : Type} → [Sink σ] → Work σ κ} (h : Stores work bare holdings entity)
    {f : κ → κ'} (hbare : ∀ k, bare k = entity → bare' (f k) = entity')
    (hmade : ∀ k, holdings' (f k) = holdings k) :
    Stores (work >>= fun k => Pure.pure (f k)) bare' holdings' entity' := by
  intro next
  refine (h next).bind_silent ?_
  rintro k after ⟨hk, hgrows⟩
  exact .pure ⟨hbare k hk, hmade k ▸ hgrows⟩

theorem mapM {work : {σ : Type} → [Sink σ] → α → Work σ κ} {entities : List α}
    (h : ∀ entity ∈ entities, Stores (work entity) bare holdings entity) :
    Stores (entities.mapM work) (List.map bare) (List.flatMap holdings) entities := by
  intro next
  have hall : Tells (entities.mapM work) next (entities.flatMap fun _ => []) fun ks after =>
      ks.map bare = entities.map id ∧
      Grows next (entities.flatMap fun _ => []) (ks.flatMap holdings)
        (InTurn (fun _ _ _ _ => True) · entities ks ·) after := .mapM h next
  rw [List.map_id, List.flatMap_eq_nil_iff.mpr fun _ _ => rfl,
    List.flatMap_eq_nil_iff.mpr fun _ _ => rfl] at hall
  exact hall.mono fun ks after ⟨hks, hgrows⟩ => ⟨hks, hgrows.imp fun _ _ _ => trivial⟩

theorem makes {work : {σ : Type} → [Sink σ] → Work σ κ} (h : Stores work bare holdings entity) :
    Makes work [] holdings :=
  fun next => ⟨[], (h next).mono fun _ _ hpost => hpost.2⟩

end Stores

theorem grasp_stores (f : FieldRef) : Stores (grasp f) (·.content) (fun h => [.field h]) f := by
  intro next
  refine (grasp_tells f next).mono ?_
  rintro _ _ ⟨rfl, rfl⟩
  exact ⟨rfl, .new (Nat.le_refl next) (Nat.lt_add_one next) fun _ _ => trivial⟩

theorem graspMethod_stores (m : MethodRef) :
    Stores (graspMethod m) (·.content) (fun h => [.method h]) m := by
  intro next
  refine (graspMethod_tells m next).mono ?_
  rintro _ _ ⟨rfl, rfl⟩
  exact ⟨rfl, .new (Nat.le_refl next) (Nat.lt_add_of_pos_right Nat.two_pos) fun _ _ => trivial⟩

theorem store_stores {put : {σ : Type} → [Sink σ] → α → Work σ κ} {content : κ → α}
    {within : κ → List Holding} (h : ∀ x, Stores (put x) content within x) (entity : Supplied α) :
    Stores (store put entity) (Held.supplied content) (Held.holdings within) entity := by
  cases entity with
  | foreign x => exact .pure rfl rfl
  | canonical x => exact (h x).map (fun _ hk => congrArg _ hk) fun _ => rfl

section

variable {σ : Type}

theorem storeItems_eq_mapM (items : List Value) :
    (storeItems items : Work σ (List StoredValue)) = items.mapM storeValue := by
  induction items with
  | nil => rfl
  | cons item rest ih => rw [List.mapM_cons, storeItems, ih]

theorem storeElements_eq_mapM (elements : List Element) :
    (storeElements elements : Work σ (List ElementHandle)) = elements.mapM storeElement := by
  induction elements with
  | nil => rfl
  | cons element rest ih => rw [List.mapM_cons, storeElements, ih]

theorem storeDrafts_eq_mapM (items : List Draft) :
    (storeDrafts items : Work σ (List StoredDraft)) = items.mapM storeDraft := by
  induction items with
  | nil => rfl
  | cons item rest ih => rw [List.mapM_cons, storeDrafts, ih]

theorem storeDraftElements_eq_mapM (elements : List DraftElement) :
    (storeDraftElements elements : Work σ (List (Held ForeignElement ElementHandle))) =
      elements.mapM storeDraftElement := by
  induction elements with
  | nil => rfl
  | cons element rest ih => rw [List.mapM_cons, storeDraftElements, ih]

end

theorem storeElement_stores {e : Element}
    (h : Stores (storeValue e.value) StoredValue.bare StoredValue.holdings e.value) :
    Stores (storeElement e) (·.content.bare) elementHoldings e := by
  intro next
  obtain ⟨name, value⟩ := e
  refine (h next).bind_silent ?_
  rintro v middle ⟨hbare, hgrows⟩
  refine (grasp_tells (⟨name, v⟩ : StoredElement) middle).mono ?_
  rintro _ _ ⟨rfl, rfl⟩
  exact ⟨congrArg (Element.mk name) hbare, hgrows.element fun _ _ _ _ => trivial⟩

theorem storeSet_stores {set : ElementSet}
    (h : ∀ e ∈ set.members, Stores (storeElement e) (·.content.bare) elementHoldings e) :
    Stores (storeSet set) bareSet setHoldings set := by
  intro next
  obtain ⟨members⟩ := set
  simp only [storeSet, storeElements_eq_mapM]
  refine ((Stores.mapM h) next).bind_silent ?_
  rintro handles middle ⟨hbare, hgrows⟩
  refine (grasp_tells (⟨handles⟩ : OrderedSet ElementHandle) middle).mono ?_
  rintro _ _ ⟨rfl, rfl⟩
  refine ⟨?_, fun held ht => ?_⟩
  · rw [bareSet_eq, hbare]
  · -- The identity of a set is none of those that are tracked.
    obtain ⟨now, -, htracked, hsub, hmade⟩ := hgrows held ht
    rw [setHoldings_eq]
    exact ⟨now, trivial, htracked.mono (Nat.le_add_right middle 1) (List.Subset.refl now), hsub,
      hmade⟩

theorem storeValue_stores (v : Value) :
    Stores (storeValue v) StoredValue.bare StoredValue.holdings v := by
  induction v using Value.induction with
  | scalar s => exact .pure rfl rfl
  | field f =>
    exact (grasp_stores f).map (fun _ hk => congrArg Value.field hk) fun _ => rfl
  | method m =>
    exact (graspMethod_stores m).map (fun _ hk => congrArg Value.method hk) fun _ => rfl
  | enum f =>
    exact (grasp_stores f).map (fun _ hk => congrArg Value.enum hk) fun _ => rfl
  | array items ih =>
    simp only [storeValue, storeItems_eq_mapM]
    refine (Stores.mapM ih).map (fun ks hks => ?_) fun ks => ?_
    · rw [StoredValue.bare, bareItems_eq, hks]
    · rw [StoredValue.holdings, itemHoldings_eq]
  | annot type members ih =>
    have hset : Stores (storeSet ⟨members⟩) bareSet setHoldings ⟨members⟩ :=
      storeSet_stores fun e he => storeElement_stores (ih e he)
    exact hset.map (fun set hs => congrArg (fun s => Value.annot ⟨type, s⟩) hs) fun _ => rfl

theorem storeDraftElement_stores {e : DraftElement}
    (h : Stores (storeDraft e.value) StoredDraft.bare StoredDraft.holdings e.value) :
    Stores (storeDraftElement e) Held.element heldElementHoldings e := by
  cases e with
  | foreign name value =>
    exact Stores.map h (fun _ hv => congrArg (DraftElement.foreign name) hv) fun _ => rfl
  | canonical e =>
    exact (storeElement_stores (storeValue_stores e.value)).map
      (fun _ he => congrArg DraftElement.canonical he) fun _ => rfl

theorem storeDraft_stores (d : Draft) :
    Stores (storeDraft d) StoredDraft.bare StoredDraft.holdings d := by
  induction d using Draft.induction with
  | scalar s => exact .pure rfl rfl
  | field f =>
    exact (store_stores grasp_stores f).map (fun _ hk => congrArg Draft.field hk) fun _ => rfl
  | method m =>
    exact (store_stores graspMethod_stores m).map (fun _ hk => congrArg Draft.method hk)
      fun _ => rfl
  | enum f =>
    exact (store_stores grasp_stores f).map (fun _ hk => congrArg Draft.enum hk) fun _ => rfl
  | array items ih =>
    simp only [storeDraft, storeDrafts_eq_mapM]
    refine (Stores.mapM ih).map (fun ks hks => ?_) fun ks => ?_
    · rw [StoredDraft.bare, bareDrafts_eq, hks]
    · rw [StoredDraft.holdings, draftHoldings_eq]
  | annot type elements ih =>
    simp only [storeDraft, storeDraftElements_eq_mapM]
    refine (Stores.mapM fun e he => storeDraftElement_stores (ih e he)).map (fun ks hks => ?_)
      fun ks => ?_
    · rw [StoredDraft.bare, bareDraftElements_eq, hks]
    · rw [StoredDraft.holdings, entityHoldings_eq]
  | canonical v =>
    exact (storeValue_stores v).map (fun _ hv => congrArg Draft.canonical hv) fun _ => rfl

theorem storeDrafts_stores (items : List Draft) :
    Stores (storeDrafts items) (List.map StoredDraft.bare) (List.flatMap StoredDraft.holdings)
      items := by
  simp only [storeDrafts_eq_mapM]
  exact .mapM fun item _ => storeDraft_stores item

theorem storeDraftElements_stores (elements : List DraftElement) :
    Stores (storeDraftElements elements) (List.map Held.element)
      (List.flatMap heldElementHoldings) elements := by
  simp only [storeDraftElements_eq_mapM]
  exact .mapM fun e _ => storeDraftElement_stores (storeDraft_stores e.value)

end Work

end DexCanon
