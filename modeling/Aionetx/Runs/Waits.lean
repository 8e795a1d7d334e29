import Mathlib.Logic.Relation

/-!
# Wait-for relations

* `Deadlocked W t` : `t` waits, directly or through others, for itself;
* `DeadlockFree W` : the wait-for relation has no cycle;
* `deadlockFree_of_depth_one` : where nobody who waits is waited for there is no cycle.
-/

namespace Runs

universe u
variable {τ : Type u} {W : τ → τ → Prop}

/-- `t` waits for itself, through any positive number of waits. -/
def Deadlocked (W : τ → τ → Prop) (t : τ) : Prop := Relation.TransGen W t t

/-- No task waits for itself. -/
def DeadlockFree (W : τ → τ → Prop) : Prop := ∀ t, ¬ Deadlocked W t

theorem deadlockFree_of_depth_one (h : ∀ a b c, W a b → ¬ W b c) : DeadlockFree W := by
  intro t ht
  obtain ⟨b, htb, hbt⟩ := Relation.TransGen.head'_iff.mp ht
  rcases Relation.ReflTransGen.cases_head hbt with rfl | ⟨c, hbc, _⟩
  · exact h _ _ _ htb htb
  · exact h _ _ _ htb hbc

/-- Two tasks that wait for each other are deadlocked. -/
theorem deadlocked_of_mutual {a b : τ} (hab : W a b) (hba : W b a) : Deadlocked W a :=
  .tail (.single hab) hba

end Runs
