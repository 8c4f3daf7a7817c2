import DexCanon.Workspace.Step

/-!
# Actions

Two ways to say what an action does. Where only what changes in a workspace matters, it is enough to
know where the action leads if it succeeds. Where it matters whether it does, its outcome is given
as a value that may be absent.
-/

set_option autoImplicit false

namespace DexCanon

namespace Workspace

-- ---------------------------------------------------------------------------
-- Where an action leads
-- ---------------------------------------------------------------------------

/-- If the action succeeds, its answer and the workspace it leaves are as `post` says. -/
def Leads {α : Type} (action : Action α) (ws : Workspace) (post : α → Workspace → Prop) : Prop :=
  ∀ a after, action.run ws = .ok (a, after) → post a after

namespace Leads

variable {α β : Type} {ws : Workspace} {post : α → Workspace → Prop}

theorem pure {a : α} (h : post a ws) : Leads (Pure.pure a) ws post := by
  rintro _ _ ⟨⟩
  exact h

theorem throw {fault : Fault} : Leads (MonadExcept.throw fault) ws post := by
  rintro _ _ ⟨⟩

theorem bind {first : Action α} {next : α → Action β} {mid : α → Workspace → Prop}
    {post : β → Workspace → Prop} (hf : Leads first ws mid)
    (hn : ∀ a middle, mid a middle → Leads (next a) middle post) :
    Leads (first >>= next) ws post := by
  intro b after h
  rw [StateT.run_bind] at h
  cases hfirst : first.run ws with
  | error fault =>
    rw [hfirst] at h
    cases h
  | ok result =>
    rw [hfirst] at h
    exact hn result.1 result.2 (hf _ _ hfirst) b after h

theorem mono {action : Action α} {weaker : α → Workspace → Prop} (h : Leads action ws post)
    (hpost : ∀ a after, post a after → weaker a after) : Leads action ws weaker :=
  fun a after hrun => hpost a after (h a after hrun)

theorem get_bind {next : Workspace → Action α} (h : Leads (next ws) ws post) :
    Leads (MonadState.get >>= next) ws post := h

theorem modify_bind {f : Workspace → Workspace} {next : Unit → Action α}
    (h : Leads (next ()) (f ws) post) : Leads (modify f >>= next) ws post := h

end Leads

theorem step_leads {ws : Workspace} {step : Step} {post : Workspace → Prop} (h : post ws)
    (hrun : Leads (run step) ws fun _ after => post after) : post (ws.step step).2 := by
  rw [Workspace.step]
  cases hresult : (run step).run ws with
  | error fault => exact h
  | ok result => exact hrun _ _ hresult

-- ---------------------------------------------------------------------------
-- Outcomes
-- ---------------------------------------------------------------------------

variable {α β : Type} {ws : Workspace}

/-- What the action comes to; why it fails, if it does, is left out. -/
def outcome (action : Action α) (ws : Workspace) : Option (α × Workspace) :=
  (action.run ws).toOption

theorem outcome_get : outcome get ws = some (ws, ws) := rfl

theorem outcome_bind (first : Action α) (next : α → Action β) :
    outcome (first >>= next) ws = (outcome first ws).bind fun p => outcome (next p.1) p.2 := by
  unfold outcome
  rw [StateT.run_bind]
  cases first.run ws <;> rfl

/-- The action answers what is found, fails if nothing is, and changes nothing. -/
def Finds (action : Action α) (ws : Workspace) (found : Option α) : Prop :=
  outcome action ws = found.map (·, ws)

namespace Finds

theorem mapM {names : List String} {f : String → Action α} {found : String → Option α}
    (h : ∀ name, Finds (f name) ws (found name)) : Finds (names.mapM f) ws (names.mapM found) := by
  induction names with
  | nil => rfl
  | cons name rest ih =>
    rw [Finds, List.mapM_cons, List.mapM_cons, outcome_bind, h name]
    cases found name with
    | none => rfl
    | some a =>
      show outcome (rest.mapM f >>= fun as => pure (a :: as)) ws = _
      rw [outcome_bind, ih]
      cases rest.mapM found <;> rfl

end Finds

theorem step_of_outcome {step : Step} {result : Reply × Workspace}
    (h : outcome (run step) ws = some result) : ws.step step = result := by
  rw [outcome] at h
  rw [Workspace.step]
  cases hrun : (run step).run ws with
  | error fault =>
    rw [hrun] at h
    cases h
  | ok found =>
    rw [hrun] at h
    exact Option.some.inj h

end Workspace

end DexCanon
