import DexCanon.Proofs.Workspace.Reporting

/-!
# Canonicalizing what is stored

Canonicalizing hands on the handles of canonical entities and puts copies of foreign ones under new
handles. Without the handles it comes to what canonicalizing plain entities comes to, and reports
the same.
-/

set_option autoImplicit false

namespace DexCanon

namespace Work

variable {α κ φ δ : Type}

theorem method_tells (m : Held MethodRef MethodHandle) (next : Nat) :
    Tells (method m) next (trace m.method) fun k after =>
      k.content = canonicalForm m.method ∧
      Grows next (m.holdings fun h => [.method h]) [.method k] (TakesMethod · m k ·) after := by
  cases m with
  | foreign m =>
    refine (graspMethod_tells m next).mono ?_
    rintro _ _ ⟨rfl, rfl⟩
    exact ⟨rfl, .new (Nat.le_refl next) (Nat.lt_add_of_pos_right Nat.two_pos)
      fun _ hunused => .foreign rfl hunused⟩
  | canonical h => exact .pure ⟨rfl, .refl fun _ => .canonical⟩

theorem field_tells (f : Held FieldRef (Handle FieldRef)) (next : Nat) :
    Tells (field f) next (trace f.field) fun k after =>
      k.content = canonicalForm f.field ∧
      Grows next (f.holdings fun h => [.field h]) [.field k] (TakesField · f k ·) after := by
  cases f with
  | foreign f =>
    refine (grasp_tells f next).mono ?_
    rintro _ _ ⟨rfl, rfl⟩
    exact ⟨rfl, .new (Nat.le_refl next) (Nat.lt_add_one next)
      fun _ hunused => .foreign rfl hunused⟩
  | canonical h => exact .pure ⟨rfl, .refl fun _ => .canonical⟩

theorem collect_tells (content : κ → α) (order : SetOrder α) (policy : SetPolicy)
    (candidates : List κ) (next : Nat) : Tells (collect content order policy candidates) next
      (OrderedSet.complaints order policy
        (OrderedSet.settle order policy.survivor (candidates.map content)).dropped)
      fun set after => after = next + 1 ∧ set.content.members =
        (OrderedSet.settle (order.comap content) policy.survivor candidates).kept := by
  -- Handles settle as what they hold does, so the complaints are those about the contents.
  have hcomplaints : OrderedSet.complaints order policy
        (OrderedSet.settle order policy.survivor (candidates.map content)).dropped =
      OrderedSet.complaints (order.comap content) policy
        (OrderedSet.settle (order.comap content) policy.survivor candidates).dropped := by
    rw [OrderedSet.settle_map, OrderedSet.complaints, OrderedSet.complaints, List.map_map]
    rfl
  rw [hcomplaints]
  refine (Tells.lift (OrderedSet.collect_reports _ policy candidates)).bind_silent ?_
  rintro set _ ⟨rfl, rfl⟩
  refine (grasp_tells _ _).mono ?_
  rintro _ _ ⟨rfl, rfl⟩
  exact ⟨rfl, rfl⟩

theorem set_tells [Canonicalize δ α] {work : {σ : Type} → [Sink σ] → φ → Work σ κ}
    {content : κ → α} {entity : φ → δ} {given : φ → List Holding} {made : κ → List Holding}
    {R : List Holding → φ → κ → List Holding → Prop} {xs : List φ}
    (h : ∀ x ∈ xs, ∀ next, Tells (work x) next (trace (entity x)) fun k after =>
      content k = canonicalForm (entity x) ∧ Grows next (given x) (made k) (R · x k ·) after)
    (order : SetOrder α) (policy : SetPolicy) (next : Nat) :
    Tells (xs.mapM work >>= collect content order policy) next
      (OrderedSet.reported order policy (xs.map entity)) fun set after => ∃ handles,
        handles.map content = xs.map (fun x => canonicalForm (entity x)) ∧
        set.content.members =
          (OrderedSet.settle (order.comap content) policy.survivor handles).kept ∧
        Grows next (xs.flatMap given) (set.content.members.flatMap made) (InTurn R · xs handles ·)
          after := by
  have htraces : (xs.map entity).flatMap trace = xs.flatMap fun x => trace (entity x) := by
    rw [List.flatMap_map]
  have hforms : (xs.map entity).map canonicalForm = xs.map fun x => canonicalForm (entity x) := by
    rw [List.map_map]
    rfl
  rw [OrderedSet.reported, htraces, hforms]
  refine (Tells.mapM h next).bind fun handles middle ⟨halike, hgrows⟩ => ?_
  rw [← halike]
  refine (collect_tells content order policy handles middle).mono ?_
  rintro set _ ⟨rfl, hmembers⟩
  refine ⟨handles, rfl, hmembers, fun held ht => ?_⟩
  obtain ⟨now, hR, htracked, hsub, hmade⟩ := hgrows held ht
  refine ⟨now, hR, htracked.mono (Nat.le_add_right middle 1) (List.Subset.refl now), hsub, ?_⟩
  intro hg x hx
  obtain ⟨k, hk, hx⟩ := List.mem_flatMap.mp hx
  rw [hmembers] at hk
  exact hmade hg (List.mem_flatMap_of_mem (OrderedSet.mem_of_mem_kept _ _ _ hk) hx)

section

variable {σ : Type} [Sink σ]

theorem values_eq_mapM (items : List StoredDraft) :
    (values items : Work σ (List StoredValue)) = items.mapM value := by
  induction items with
  | nil => rfl
  | cons item rest ih => rw [List.mapM_cons, values, ih]

theorem elements_eq_mapM (entities : List (Held ForeignElement ElementHandle)) :
    (elements entities : Work σ (List ElementHandle)) = entities.mapM element := by
  induction entities with
  | nil => rfl
  | cons entity rest ih => rw [List.mapM_cons, elements, ih]

end

def ValueLaw (draft : StoredDraft) : Prop :=
  ∀ next, Tells (value draft) next (trace draft.bare) fun v after =>
    v.bare = canonicalForm draft.bare ∧
    Grows next draft.holdings v.holdings (Becomes · draft v ·) after

def ElementLaw (entity : Held ForeignElement ElementHandle) : Prop :=
  ∀ next, Tells (element entity) next (trace entity.element) fun k after =>
    k.content.bare = canonicalForm entity.element ∧
    Grows next (heldElementHoldings entity) (elementHoldings k) (TakesElement · entity k ·) after

theorem ElementLaw.canonical (h : ElementHandle) : ElementLaw (.canonical h) :=
  fun _ => .pure ⟨rfl, .refl fun _ => .canonical⟩

theorem ElementLaw.foreign {e : ForeignElement} (h : ValueLaw e.value) :
    ElementLaw (.foreign e) := by
  intro next
  obtain ⟨name, draft⟩ := e
  have htrace : trace (Held.element (.foreign ⟨name, draft⟩)) = trace draft.bare :=
    trace_foreign name draft.bare
  rw [htrace]
  refine (h next).bind_silent ?_
  rintro v middle ⟨hbare, hgrows⟩
  refine (grasp_tells (⟨name, v⟩ : StoredElement) middle).mono ?_
  rintro _ _ ⟨rfl, rfl⟩
  refine ⟨?_, ?_⟩
  · exact (congrArg (Element.mk name) hbare).trans (canonicalForm_foreign name draft.bare).symm
  · exact hgrows.element fun _ _ hbecomes hunused => .foreign hbecomes hunused

theorem value_law (draft : StoredDraft) : ValueLaw draft := by
  intro next
  induction draft using StoredDraft.induction generalizing next with
  | scalar s =>
    exact .pure ⟨rfl, .refl fun _ => .scalar⟩
  | field f =>
    refine (field_tells f next).bind_silent ?_
    rintro k after ⟨hk, hgrows⟩
    refine .pure ⟨congrArg Value.field hk, ?_⟩
    exact hgrows.imp fun _ _ => .field
  | method m =>
    refine (method_tells m next).bind_silent ?_
    rintro k after ⟨hk, hgrows⟩
    refine .pure ⟨congrArg Value.method hk, ?_⟩
    exact hgrows.imp fun _ _ => .method
  | enum f =>
    refine (field_tells f next).bind_silent ?_
    rintro k after ⟨hk, hgrows⟩
    refine .pure ⟨congrArg Value.enum hk, ?_⟩
    exact hgrows.imp fun _ _ => .enum
  | array items ih =>
    rw [StoredDraft.bare, bareDrafts_eq, trace_array, canonicalForm_array, List.flatMap_map,
      List.map_map]
    simp only [value, values_eq_mapM]
    refine (Tells.mapM (R := Becomes) ih next).bind_silent ?_
    rintro vs after ⟨hvs, hgrows⟩
    refine .pure ⟨?_, ?_⟩
    · rw [StoredValue.bare, bareItems_eq, hvs]
      rfl
    · rw [StoredDraft.holdings, StoredValue.holdings, draftHoldings_eq, itemHoldings_eq]
      exact hgrows.imp fun _ _ => .array
  | annot type entities ih =>
    have hlaw : ∀ entity ∈ entities, ElementLaw entity := by
      intro entity hentity
      cases entity with
      | foreign e => exact .foreign (ih e hentity)
      | canonical h => exact .canonical h
    have hset := set_tells (R := TakesElement) hlaw Element.byName {} next
    rw [OrderedSet.reported, ← trace_annot type] at hset
    rw [StoredDraft.bare, bareDraftElements_eq, canonicalForm_annot]
    simp only [value, elements_eq_mapM, ← bind_assoc]
    refine hset.bind_silent ?_
    rintro set after ⟨handles, halike, hmembers, hgrows⟩
    refine .pure ⟨?_, ?_⟩
    · have hforms : handles.map (fun k => k.content.bare) =
          (entities.map Held.element).map canonicalForm := by
        rw [halike, List.map_map]
        rfl
      rw [StoredValue.bare, bareSet_eq, hmembers, ← hforms, OrderedSet.settle_map]
    · rw [StoredDraft.holdings, StoredValue.holdings, entityHoldings_eq, setHoldings_eq]
      refine hgrows.imp fun held now htaken => ?_
      refine .annot htaken (hmembers ▸ .of_settle ?_ Element.byName .first halike htaken)
      exact fun _ _ _ _ => TakesElement.eq_of_canonical
  | canonical v =>
    exact .pure ⟨rfl, .refl fun _ => .canonical⟩

theorem element_law (entity : Held ForeignElement ElementHandle) : ElementLaw entity := by
  cases entity with
  | foreign e => exact .foreign (value_law e.value)
  | canonical h => exact .canonical h

theorem elementSet_tells (order : SetOrder Element) (policy : SetPolicy)
    (entities : List (Held ForeignElement ElementHandle)) (next : Nat) :
    Tells (elementSet order policy entities) next
      (OrderedSet.reported order policy (entities.map Held.element)) fun set after => ∃ handles,
        handles.map (fun h => h.content.bare) = entities.map (fun e => canonicalForm e.element) ∧
        set.content.members = (OrderedSet.settle (order.comap fun h => h.content.bare)
          policy.survivor handles).kept ∧
        Grows next (entities.flatMap heldElementHoldings)
          (set.content.members.flatMap elementHoldings)
          (InTurn TakesElement · entities handles ·) after :=
  set_tells (fun entity _ => element_law entity) order policy next

theorem methodSet_tells (order : SetOrder MethodRef) (policy : SetPolicy)
    (entities : List (Held MethodRef MethodHandle)) (next : Nat) :
    Tells (methodSet order policy entities) next
      (OrderedSet.reported order policy (entities.map Held.method)) fun set after => ∃ handles,
        handles.map (fun h => h.content) = entities.map (fun m => canonicalForm m.method) ∧
        set.content.members = (OrderedSet.settle (order.comap fun h => h.content)
          policy.survivor handles).kept ∧
        Grows next (entities.flatMap fun m => m.holdings fun h => [.method h])
          (set.content.members.flatMap fun h => [.method h])
          (InTurn TakesMethod · entities handles ·) after :=
  set_tells (fun m _ => method_tells m) order policy next

-- ---------------------------------------------------------------------------
-- What is made
-- ---------------------------------------------------------------------------

theorem method_makes (m : Held MethodRef MethodHandle) :
    Makes (method m) (m.holdings fun h => [.method h]) fun k => [.method k] :=
  Tells.makes (R := (TakesMethod · m · ·)) (method_tells m)

theorem field_makes (f : Held FieldRef (Handle FieldRef)) :
    Makes (field f) (f.holdings fun h => [.field h]) fun k => [.field k] :=
  Tells.makes (R := (TakesField · f · ·)) (field_tells f)

theorem value_makes (draft : StoredDraft) :
    Makes (value draft) draft.holdings StoredValue.holdings :=
  Tells.makes (R := (Becomes · draft · ·)) (value_law draft)

theorem element_makes (entity : Held ForeignElement ElementHandle) :
    Makes (element entity) (heldElementHoldings entity) elementHoldings :=
  Tells.makes (R := (TakesElement · entity · ·)) (element_law entity)

theorem elementSet_makes (order : SetOrder Element) (policy : SetPolicy)
    (entities : List (Held ForeignElement ElementHandle)) :
    Makes (elementSet order policy entities) (entities.flatMap heldElementHoldings)
      setHoldings := by
  refine fun next => ⟨_, (elementSet_tells order policy entities next).mono ?_⟩
  rintro set after ⟨handles, -, -, hgrows⟩
  rw [setHoldings_eq]
  exact hgrows.imp fun _ _ _ => trivial

theorem methodSet_makes (order : SetOrder MethodRef) (policy : SetPolicy)
    (entities : List (Held MethodRef MethodHandle)) :
    Makes (methodSet order policy entities)
      (entities.flatMap fun m => m.holdings fun h => [.method h])
      fun set => set.content.members.flatMap fun h => [.method h] := by
  refine fun next => ⟨_, (methodSet_tells order policy entities next).mono ?_⟩
  rintro set after ⟨handles, -, -, hgrows⟩
  exact hgrows.imp fun _ _ _ => trivial

end Work

end DexCanon
