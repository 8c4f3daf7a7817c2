import DexCanon.Proofs.Workspace.Taking
import DexCanon.Workspace.Work

/-!
# What work makes and reports

Work makes handles and reports to whatever sink is at hand. What it reports is what the entities
themselves report: handles have no part in it, and neither has the sink. What it makes are copies
under identities that are not in use, and nothing that is held is lost track of.
-/

set_option autoImplicit false

namespace DexCanon

def OrderedSet.reported {δ α : Type} [Canonicalize δ α] (order : SetOrder α) (policy : SetPolicy)
    (entities : List δ) : List Diagnostic :=
  entities.flatMap trace ++
    complaints order policy (settle order policy.survivor (entities.map canonicalForm)).dropped

-- ---------------------------------------------------------------------------
-- What is held
-- ---------------------------------------------------------------------------

/-- The step from the identity `next` to `after` keeps track of what is held: nothing is lost, and
what is made of handles that are held is held. How the one comes of the other is as `R` says. -/
def Grows (next : Nat) (given made : List Holding) (R : List Holding → List Holding → Prop)
    (after : Nat) : Prop :=
  ∀ held, Tracked next held → ∃ now, R held now ∧ Tracked after now ∧ held ⊆ now ∧
    (given ⊆ held → made ⊆ now)

namespace Grows

variable {next middle after : Nat} {given made more : List Holding}
  {R first second : List Holding → List Holding → Prop}

theorem refl (hR : ∀ held, R held held) : Grows next given given R next :=
  fun held ht => ⟨held, hR held, ht, List.Subset.refl held, id⟩

theorem new {holding : Holding} (hnew : next ≤ holding.identity) (hafter : holding.identity < after)
    (hR : ∀ held, Unused held holding.identity → R held (holding :: held)) :
    Grows next given [holding] R after :=
  fun held ht => ⟨holding :: held, hR held (ht.unused hnew), ht.cons hnew hafter,
    List.subset_cons_self holding held,
    fun _ => List.cons_subset.mpr ⟨List.mem_cons_self, List.nil_subset _⟩⟩

theorem trans (hf : Grows next given made first middle)
    (hs : Grows middle (made ++ given) more second after)
    (hR : ∀ held between now, first held between → second between now → R held now) :
    Grows next given (more ++ made) R after := by
  intro held ht
  obtain ⟨between, hfirst, htracked, hsub, hmade⟩ := hf held ht
  obtain ⟨now, hsecond, htracked', hsub', hmore⟩ := hs between htracked
  refine ⟨now, hR _ _ _ hfirst hsecond, htracked', List.Subset.trans hsub hsub', fun hg => ?_⟩
  have hbetween := List.append_subset.mpr ⟨hmade hg, List.Subset.trans hg hsub⟩
  exact List.append_subset.mpr ⟨hmore hbetween, List.Subset.trans (hmade hg) hsub'⟩

theorem imp (h : Grows next given made first after)
    (hR : ∀ held now, first held now → R held now) : Grows next given made R after := by
  intro held ht
  obtain ⟨now, hfirst, hrest⟩ := h held ht
  exact ⟨now, hR _ _ hfirst, hrest⟩

theorem mono (h : Grows next given made R after) {given' made' : List Holding}
    (hg : given ⊆ given') (hm : made' ⊆ made) : Grows next given' made' R after := by
  intro held ht
  obtain ⟨now, hR, htracked, hsub, hmade⟩ := h held ht
  exact ⟨now, hR, htracked, hsub,
    fun hg' => List.Subset.trans hm (hmade (List.Subset.trans hg hg'))⟩

theorem element {name : String} {v : StoredValue} (h : Grows next given v.holdings first middle)
    (hR : ∀ held between, first held between → Unused between middle →
      R held (.element ⟨middle, ⟨name, v⟩⟩ :: between)) :
    Grows next given (elementHoldings ⟨middle, ⟨name, v⟩⟩) R (middle + 1) := by
  let handle : ElementHandle := ⟨middle, ⟨name, v⟩⟩
  have hnew : Grows middle (v.holdings ++ given) [.element handle]
      (fun held now => Unused held middle ∧ now = .element handle :: held) (middle + 1) :=
    .new (Nat.le_refl middle) (Nat.lt_add_one middle) fun _ hunused => ⟨hunused, rfl⟩
  refine h.trans hnew ?_
  rintro held between _ hfirst ⟨hunused, rfl⟩
  exact hR held between hfirst hunused

theorem tracked (h : Grows next given made R after) {held : List Holding} (ht : Tracked next held)
    (hg : given ⊆ held) : Tracked after (made ++ held) := by
  obtain ⟨now, -, htracked, hsub, hmade⟩ := h held ht
  exact htracked.subset (List.append_subset.mpr ⟨hmade hg, hsub⟩)

end Grows

namespace Work

variable {α β κ φ δ : Type}

-- ---------------------------------------------------------------------------
-- What is told
-- ---------------------------------------------------------------------------

/-- With every sink the work reports the same, and its answer and the next identity it leaves are
the same and as `post` says. -/
def Tells (work : {σ : Type} → [Sink σ] → Work σ α) (next : Nat) (diagnostics : List Diagnostic)
    (post : α → Nat → Prop) : Prop :=
  ∃ a after, post a after ∧ Reports (work.run next) (a, after) diagnostics

namespace Tells

variable {work first : {σ : Type} → [Sink σ] → Work σ α}
  {rest : {σ : Type} → [Sink σ] → α → Work σ β} {next : Nat} {early late : List Diagnostic}
  {post mid : α → Nat → Prop} {final : β → Nat → Prop}

theorem pure {a : α} (h : post a next) : Tells (Pure.pure a) next [] post :=
  ⟨a, next, h, .pure (a, next)⟩

theorem bind (hf : Tells first next early mid)
    (hr : ∀ a middle, mid a middle → Tells (rest a) middle late final) :
    Tells (first >>= rest) next (early ++ late) final := by
  obtain ⟨a, middle, ha, hfirst⟩ := hf
  obtain ⟨b, after, hb, hrest⟩ := hr a middle ha
  have hboth : Reports (first.run next >>= fun p => (rest p.1).run p.2) (b, after)
      (early ++ late) := hfirst.bind hrest
  exact ⟨b, after, hb, hboth⟩

theorem bind_silent (hf : Tells first next early mid)
    (hr : ∀ a middle, mid a middle → Tells (rest a) middle [] final) :
    Tells (first >>= rest) next early final := by
  have hboth := hf.bind hr
  rwa [List.append_nil] at hboth

theorem mono (h : Tells work next early mid) (hpost : ∀ a after, mid a after → post a after) :
    Tells work next early post := by
  obtain ⟨a, after, ha, hreports⟩ := h
  exact ⟨a, after, hpost a after ha, hreports⟩

theorem lift {action : {σ : Type} → [Sink σ] → StateM σ α} {value : α}
    (h : Reports action value early) :
    Tells (StateT.lift action) next early fun a after => a = value ∧ after = next := by
  have hpair : Reports (action >>= fun a => Pure.pure (a, next)) (value, next) early :=
    h.map (·, next)
  exact ⟨value, next, ⟨rfl, rfl⟩, hpair⟩

theorem answer (h : Tells work next early post) {σ : Type} [Sink σ] (sink : σ) :
    let result := (((work : Work σ α).run next).run sink).1
    post result.1 result.2 := by
  obtain ⟨a, after, ha, hreports⟩ := h
  simp only [hreports σ sink]
  exact ha

theorem mapM {work : {σ : Type} → [Sink σ] → φ → Work σ κ} {told : φ → List Diagnostic}
    {content : κ → α} {form : φ → α} {given : φ → List Holding} {made : κ → List Holding}
    {R : List Holding → φ → κ → List Holding → Prop} {xs : List φ}
    (h : ∀ x ∈ xs, ∀ next, Tells (work x) next (told x) fun k after =>
      content k = form x ∧ Grows next (given x) (made k) (R · x k ·) after) (next : Nat) :
    Tells (xs.mapM work) next (xs.flatMap told) fun ks after =>
      ks.map content = xs.map form ∧
      Grows next (xs.flatMap given) (ks.flatMap made) (InTurn R · xs ks ·) after := by
  induction xs generalizing next with
  | nil => exact .pure ⟨rfl, .refl fun _ => .nil⟩
  | cons x rest ih =>
    simp only [List.mapM_cons]
    refine (h x List.mem_cons_self next).bind ?_
    rintro k middle ⟨hk, hfirst⟩
    refine (ih (fun y hy => h y (List.mem_cons_of_mem _ hy)) middle).bind_silent ?_
    rintro ks after ⟨hks, hrest⟩
    refine .pure ⟨by rw [List.map_cons, List.map_cons, hk, hks], ?_⟩
    have hx : given x ⊆ (x :: rest).flatMap given := List.subset_append_left _ _
    have hxs : rest.flatMap given ⊆ (x :: rest).flatMap given := List.subset_append_right _ _
    have hboth := (hfirst.mono hx (List.Subset.refl _)).trans
      (hrest.mono (List.subset_append_of_subset_right _ hxs) (List.Subset.refl _))
      fun _ _ _ => InTurn.cons
    exact hboth.mono (List.Subset.refl _) List.perm_append_comm.subset

end Tells

theorem grasp_tells (content : α) (next : Nat) : Tells (grasp content) next [] fun handle after =>
    handle = ⟨next, content⟩ ∧ after = next + 1 :=
  ⟨⟨next, content⟩, next + 1, ⟨rfl, rfl⟩, .pure _⟩

theorem graspMethod_tells (m : MethodRef) (next : Nat) :
    Tells (graspMethod m) next [] fun handle after =>
      handle = ⟨⟨next, m⟩, next + 1⟩ ∧ after = next + 2 :=
  ⟨⟨⟨next, m⟩, next + 1⟩, next + 2, ⟨rfl, rfl⟩, .pure _⟩

-- ---------------------------------------------------------------------------
-- What is made
-- ---------------------------------------------------------------------------

/-- Whatever the work reports, what it answers is made of the given handles and of new ones. -/
def Makes (work : {σ : Type} → [Sink σ] → Work σ α) (given : List Holding)
    (made : α → List Holding) : Prop :=
  ∀ next, ∃ diagnostics, Tells work next diagnostics fun a after =>
    Grows next given (made a) (fun _ _ => True) after

theorem Tells.makes {work : {σ : Type} → [Sink σ] → Work σ α} {given : List Holding}
    {made : α → List Holding} {told : List Diagnostic} {P : α → Prop}
    {R : List Holding → α → List Holding → Prop}
    (h : ∀ next, Tells work next told fun a after =>
      P a ∧ Grows next given (made a) (R · a ·) after) : Makes work given made :=
  fun next => ⟨told, (h next).mono fun _ _ hpost => hpost.2.imp fun _ _ _ => trivial⟩

theorem Makes.mono {work : {σ : Type} → [Sink σ] → Work σ α} {given more : List Holding}
    {made : α → List Holding} (h : Makes work given made) (hs : given ⊆ more) :
    Makes work more made := by
  intro next
  obtain ⟨told, htells⟩ := h next
  exact ⟨told, htells.mono fun _ _ hgrows => hgrows.mono hs (List.Subset.refl _)⟩

theorem grasp_makes (wrap : Handle α → Holding) (hwrap : ∀ h, (wrap h).identity = h.identity)
    (content : α) : Makes (grasp content) [] fun handle => [wrap handle] := by
  refine fun next => ⟨[], (grasp_tells content next).mono ?_⟩
  rintro _ _ ⟨rfl, rfl⟩
  have hidentity : (wrap ⟨next, content⟩).identity = next := hwrap _
  exact .new (Nat.le_of_eq hidentity.symm) (Nat.lt_succ_of_le (Nat.le_of_eq hidentity))
    fun _ _ => trivial

end Work

end DexCanon
