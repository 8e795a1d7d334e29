import Mathlib.Data.List.Basic

/-!
# Sequences of checks

Checks that are made one after another until one of them fails.

* `firstError` : the outcome of a sequence of checks;
* `firstError_append`, `firstError_eq_ok_iff`, `firstError_eq_error_iff` : two sequences, no failure, the first failure;
* `bind_eq_ok_iff` : a check that the rest depends on.
-/

namespace Runs

universe u v
variable {ε : Type u}

theorem bind_eq_ok_iff {α : Type v} {β : Type v} {x : Except ε α} {f : α → Except ε β} {b : β} :
    x >>= f = .ok b ↔ ∃ a, x = .ok a ∧ f a = .ok b := by
  cases x with
  | error e => exact ⟨fun h => (by cases h), fun ⟨_, h, _⟩ => (by cases h)⟩
  | ok a =>
    constructor
    · intro h
      exact ⟨a, rfl, h⟩
    · rintro ⟨_, ha, h⟩
      rw [Except.ok.inj ha]
      exact h

def firstError : List (Except ε Unit) → Except ε Unit
  | [] => .ok ()
  | .ok () :: checks => firstError checks
  | .error e :: _ => .error e

@[simp] theorem firstError_nil : firstError ([] : List (Except ε Unit)) = .ok () := rfl

@[simp] theorem firstError_ok (checks : List (Except ε Unit)) : firstError (.ok () :: checks) = firstError checks := rfl

@[simp] theorem firstError_error (e : ε) (checks : List (Except ε Unit)) : firstError (.error e :: checks) = .error e := rfl

theorem firstError_append (checks checks' : List (Except ε Unit)) :
    firstError (checks ++ checks') = (firstError checks).bind fun _ => firstError checks' := by
  induction checks with
  | nil => rfl
  | cons c checks ih =>
    cases c with
    | ok => exact ih
    | error e => rfl

theorem firstError_eq_ok_iff {checks : List (Except ε Unit)} :
    firstError checks = .ok () ↔ ∀ c ∈ checks, c = .ok () := by
  induction checks with
  | nil => exact ⟨fun _ _ hc => (by cases hc), fun _ => rfl⟩
  | cons c checks ih =>
    cases c with
    | ok => rw [firstError_ok, ih, List.forall_mem_cons, eq_self, true_and]
    | error e =>
      constructor
      · intro h
        cases h
      · intro h
        cases h _ List.mem_cons_self

theorem firstError_eq_error_iff {checks : List (Except ε Unit)} {e : ε} :
    firstError checks = .error e ↔
      ∃ before after, checks = before ++ .error e :: after ∧ ∀ c ∈ before, c = .ok () := by
  constructor
  · intro h
    induction checks with
    | nil => cases h
    | cons c checks ih =>
      cases c with
      | ok =>
        obtain ⟨before, after, rfl, hbefore⟩ := ih h
        exact ⟨.ok () :: before, after, rfl, List.forall_mem_cons.mpr ⟨rfl, hbefore⟩⟩
      | error e' =>
        cases h
        exact ⟨[], checks, rfl, fun _ hc => (by cases hc)⟩
  · rintro ⟨before, after, rfl, hbefore⟩
    rw [firstError_append, firstError_eq_ok_iff.mpr hbefore]
    rfl

end Runs
