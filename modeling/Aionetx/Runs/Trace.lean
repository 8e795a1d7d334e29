import Mathlib.Data.List.Basic

/-!
# Laws of a growing trace

A law of a trace reads, for each entry, what came before it and what came after it. A run appends one entry at a time, so
a law is kept if the new entry obeys it and no earlier entry is upset by the new one.

* `Everywhere P trace` : the law `P`;
* `Everywhere.concat` : one more entry.
-/

namespace Runs

variable {ε : Type*} {P : List ε → ε → List ε → Prop} {trace : List ε} {e : ε}

/-- Each entry of the trace, with what is before it and what is after it, meets `P`. -/
def Everywhere (P : List ε → ε → List ε → Prop) (trace : List ε) : Prop :=
  ∀ before x after, trace = before ++ x :: after → P before x after

theorem Everywhere.nil : Everywhere P [] := fun before x after h => by
  cases before <;> cases h

theorem concat_eq_append_cons {before after : List ε} {x : ε} (h : trace ++ [e] = before ++ x :: after) :
    before = trace ∧ x = e ∧ after = [] ∨ ∃ after', after = after' ++ [e] ∧ trace = before ++ x :: after' := by
  rcases after.eq_nil_or_concat' with rfl | ⟨after', y, rfl⟩
  · obtain ⟨hb, hx⟩ := List.append_inj' h rfl
    cases hx
    exact .inl ⟨hb.symm, rfl, rfl⟩
  · have h' : trace ++ [e] = (before ++ x :: after') ++ [y] := by rw [h]; simp
    obtain ⟨hb, hx⟩ := List.append_inj' h' rfl
    cases hx
    exact .inr ⟨after', rfl, hb⟩

theorem Everywhere.concat (h : Everywhere P trace) (hlast : P trace e [])
    (hkeep : ∀ before x after, trace = before ++ x :: after → P before x after → P before x (after ++ [e])) :
    Everywhere P (trace ++ [e]) := by
  intro before x after heq
  obtain ⟨rfl, rfl, rfl⟩ | ⟨after', rfl, htrace⟩ := concat_eq_append_cons heq
  · exact hlast
  · exact hkeep before x after' htrace (h before x after' htrace)

end Runs
