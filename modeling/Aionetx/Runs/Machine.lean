import Mathlib.Data.List.Basic

/-!
# Labelled machines and guarded runs

* `Machine σ α` : initial states and one partial step per action; what the environment chooses is in the action;
* `Reachable ok s` : `s` is reached by a run each of whose steps meets `ok`, which reads the state before the step;
* `Reachable.invariant` : the induction rule; `Reachable.invariant_of` : the same on top of a known invariant;
* `exec`, `execOk` : running a list of actions, `Reachable.exists_of_exec`, `Reachable.exists_of_execOk` : what it reaches;
* `Reachable.project`, `Reachable.simulate` : the refinement rules, for a machine seen through a projection or a relation.
-/

namespace Runs

universe u v w x

/-- A labelled transition system whose step is a partial function of the state and the action. -/
structure Machine (σ : Type u) (α : Type v) where
  init : σ → Prop
  step : σ → α → Option σ

variable {σ : Type u} {α : Type v} {τ : Type w} {β : Type x}

namespace Machine

def Any : σ → α → Prop := fun _ _ => True

/-- The states of the runs all of whose steps meet `ok`. -/
inductive Reachable (M : Machine σ α) (ok : σ → α → Prop) : σ → Prop
  | init {s : σ} (h : M.init s) : Reachable M ok s
  | step {s t : σ} {a : α} (hs : Reachable M ok s) (hok : ok s a) (h : M.step s a = some t) : Reachable M ok t

def exec (M : Machine σ α) : σ → List α → Option σ
  | s, [] => some s
  | s, a :: as => (M.step s a).bind fun t => M.exec t as

/-- Run a list of actions, each of which has to meet `ok` in the state it is taken in. -/
def execOk (M : Machine σ α) (ok : σ → α → Prop) [∀ s a, Decidable (ok s a)] : σ → List α → Option σ
  | s, [] => some s
  | s, a :: as => if ok s a then (M.step s a).bind fun t => M.execOk ok t as else none

variable {M : Machine σ α} {ok ok' : σ → α → Prop}

theorem Reachable.mono {s : σ} (h : M.Reachable ok s) (hok : ∀ s a, ok s a → ok' s a) : M.Reachable ok' s := by
  induction h with
  | init h => exact .init h
  | step _ ho h ih => exact .step ih (hok _ _ ho) h

theorem Reachable.any {s : σ} (h : M.Reachable ok s) : M.Reachable Any s := h.mono fun _ _ _ => trivial

/-- A property of the initial states that every allowed step keeps holds in every state reached. -/
theorem Reachable.invariant {I : σ → Prop} (h0 : ∀ s, M.init s → I s)
    (hstep : ∀ s a t, I s → ok s a → M.step s a = some t → I t) {s : σ} (h : M.Reachable ok s) : I s := by
  induction h with
  | init h => exact h0 _ h
  | step _ ho h ih => exact hstep _ _ _ ih ho h

/-- The induction rule on top of an invariant `J` of the same runs. -/
theorem Reachable.invariant_of {I J : σ → Prop} (hJ : ∀ {s}, M.Reachable ok s → J s) (h0 : ∀ s, M.init s → I s)
    (hstep : ∀ s a t, J s → I s → ok s a → M.step s a = some t → I t) {s : σ} (h : M.Reachable ok s) : I s := by
  induction h with
  | init h => exact h0 _ h
  | step hs ho h ih => exact hstep _ _ _ (hJ hs) ih ho h

theorem Reachable.of_exec {s t : σ} (hs : M.Reachable Any s) (as : List α) (h : M.exec s as = some t) :
    M.Reachable Any t := by
  induction as generalizing s with
  | nil => cases h; exact hs
  | cons a as ih =>
    obtain ⟨u, hu, h⟩ := Option.bind_eq_some_iff.mp h
    exact ih (hs.step trivial hu) h

theorem Reachable.of_execOk [∀ s a, Decidable (ok s a)] {s t : σ} (hs : M.Reachable ok s) (as : List α)
    (h : M.execOk ok s as = some t) : M.Reachable ok t := by
  induction as generalizing s with
  | nil => cases h; exact hs
  | cons a as ih =>
    unfold execOk at h
    split at h
    · next ha =>
      obtain ⟨u, hu, h⟩ := Option.bind_eq_some_iff.mp h
      exact ih (hs.step ha hu) h
    · cases h

/-- A test that the end of a list of actions passes is passed by a state some run reaches. -/
theorem Reachable.exists_of_exec {s : σ} (h0 : M.init s) (as : List α) (p : σ → Bool) (h : (M.exec s as).any p) :
    ∃ t, M.Reachable Any t ∧ p t := by
  obtain ⟨t, ht, hp⟩ := (Option.any_eq_true p _).mp h
  exact ⟨t, .of_exec (.init h0) as ht, hp⟩

theorem Reachable.exists_of_execOk [∀ s a, Decidable (ok s a)] {s : σ} (h0 : M.init s) (as : List α) (p : σ → Bool)
    (h : (M.execOk ok s as).any p) : ∃ t, M.Reachable ok t ∧ p t := by
  obtain ⟨t, ht, hp⟩ := (Option.any_eq_true p _).mp h
  exact ⟨t, .of_execOk (.init h0) as ht, hp⟩

/-- Refinement: if `f` maps the initial states of `M` to initial states of `N`, and each allowed step of `M` to a
run of `N` of allowed steps, the image of every state reached is reached. -/
theorem Reachable.project {N : Machine τ β} {okN : τ → β → Prop} (f : σ → τ)
    (h0 : ∀ s, M.init s → N.Reachable okN (f s))
    (hstep : ∀ s a t, ok s a → M.step s a = some t → N.Reachable okN (f s) → N.Reachable okN (f t))
    {s : σ} (h : M.Reachable ok s) : N.Reachable okN (f s) := by
  induction h with
  | init h => exact h0 _ h
  | step _ ho h ih => exact hstep _ _ _ ho h ih

/-- The same for a relation `R`: each state reached is related to one that `N` reaches. -/
theorem Reachable.simulate {N : Machine τ β} {okN : τ → β → Prop} (R : σ → τ → Prop)
    (h0 : ∀ s, M.init s → ∃ t, N.Reachable okN t ∧ R s t)
    (hstep : ∀ s a s' t, ok s a → M.step s a = some s' → N.Reachable okN t → R s t → ∃ t', N.Reachable okN t' ∧ R s' t')
    {s : σ} (h : M.Reachable ok s) : ∃ t, N.Reachable okN t ∧ R s t := by
  induction h with
  | init h => exact h0 _ h
  | step _ ho h ih =>
    obtain ⟨t, ht, hr⟩ := ih
    exact hstep _ _ _ t ho h ht hr

end Machine

end Runs
