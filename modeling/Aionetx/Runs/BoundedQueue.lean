import Mathlib.Logic.Relation
import Mathlib.Data.List.Perm.Basic
import Mathlib.Data.List.Perm.Subperm

/-!
# A bounded queue with an overflow rule

The reference for queues that drop under pressure: a list of pending elements of at most `capacity`, of which some may be
dropped, together with what has become of all the others.

* `Overflow` : what a full queue does with a new element;
* `BoundedQueue.Offer` : a new element is accepted, evicts the oldest droppable one, is rejected, or has to wait;
* `BoundedQueue.Step` : an offer, a take from the front, a purge; `BoundedQueue.Reached` : the states of its runs;
* `BoundedQueue.Faithful` : what holds of all of them; `faithful_of_reached`.
-/

namespace Runs

universe u

/-- What a full queue does with a new element. -/
inductive Overflow
  | wait | dropOldest | dropNewest
  deriving DecidableEq, Repr

/-- The pending elements, oldest first, and the history: all that were accepted, taken, evicted, purged and rejected. -/
structure BoundedQueue (α : Type u) where
  pending : List α := []
  accepted : List α := []
  delivered : List α := []
  evicted : List α := []
  purged : List α := []
  rejected : List α := []
  peak : Nat := 0

namespace BoundedQueue
variable {α : Type u}

def accept (q : BoundedQueue α) (x : α) : BoundedQueue α :=
  { q with
    pending := q.pending ++ [x]
    accepted := q.accepted ++ [x]
    peak := max q.peak (q.pending.length + 1) }

inductive Offer (capacity : Nat) (overflow : Overflow) (droppable : α → Bool) (x : α) (q : BoundedQueue α) :
    BoundedQueue α → Prop
  | room (h : q.pending.length < capacity) : Offer capacity overflow droppable x q (q.accept x)
  | evict (h : capacity ≤ q.pending.length) (ho : overflow = .dropOldest) {before after : List α} {oldest : α}
    (hq : q.pending = before ++ oldest :: after) (hbefore : ∀ y ∈ before, droppable y = false)
    (hd : droppable oldest = true) :
    Offer capacity overflow droppable x q
      ({ q with pending := before ++ after, evicted := q.evicted ++ [oldest] }.accept x)
  | reject (h : capacity ≤ q.pending.length) (hd : droppable x = true)
    (ho : overflow = .dropNewest ∨ overflow = .dropOldest ∧ ∀ y ∈ q.pending, droppable y = false) :
    Offer capacity overflow droppable x q { q with rejected := q.rejected ++ [x] }
  | wait (h : capacity ≤ q.pending.length)
    (ho : overflow = .wait ∨ droppable x = false ∧
      (overflow = .dropNewest ∨ overflow = .dropOldest ∧ ∀ y ∈ q.pending, droppable y = false)) :
    Offer capacity overflow droppable x q q

inductive Step (capacity : Nat) (overflow : Overflow) (droppable : α → Bool) (q : BoundedQueue α) : BoundedQueue α → Prop
  | offer (x : α) {q' : BoundedQueue α} (h : Offer capacity overflow droppable x q q') :
    Step capacity overflow droppable q q'
  | take {x : α} {rest : List α} (h : q.pending = x :: rest) :
    Step capacity overflow droppable q { q with pending := rest, delivered := q.delivered ++ [x] }
  | purge (p : α → Bool) :
    Step capacity overflow droppable q
      { q with
        pending := q.pending.filter fun x => !p x
        purged := q.purged ++ q.pending.filter p }

def Reached (capacity : Nat) (overflow : Overflow) (droppable : α → Bool) : BoundedQueue α → Prop :=
  Relation.ReflTransGen (Step capacity overflow droppable) {}

/-- The queue is bounded, keeps the order, and drops nothing but droppable elements, under its rule. -/
structure Faithful (capacity : Nat) (overflow : Overflow) (droppable : α → Bool) (q : BoundedQueue α) : Prop where
  bounded : q.pending.length ≤ capacity
  /-- the survivors are in the order in which they were accepted -/
  ordered : (q.delivered ++ q.pending).Sublist q.accepted
  accounted : q.accepted.Perm (q.delivered ++ q.pending ++ (q.evicted ++ q.purged))
  guarded : ∀ x ∈ q.evicted ++ q.rejected, droppable x = true
  waits : overflow = .wait → q.evicted = [] ∧ q.rejected = []
  newest : overflow = .dropNewest → q.evicted = []

variable {capacity : Nat} {overflow : Overflow} {droppable : α → Bool} {q q' : BoundedQueue α}

namespace Faithful

theorem accept (h : Faithful capacity overflow droppable q) (x : α) (hq : q.pending.length < capacity) :
    Faithful capacity overflow droppable (q.accept x) := by
  refine ⟨?_, ?_, ?_, h.guarded, h.waits, h.newest⟩
  · simpa [BoundedQueue.accept] using Nat.succ_le_of_lt hq
  · simpa [BoundedQueue.accept] using h.ordered.append (List.Sublist.refl [x])
  · have hp := h.accounted.append_right [x]
    refine hp.trans ?_
    simp only [BoundedQueue.accept, List.append_assoc]
    refine .append_left _ (.append_left _ ?_)
    rw [← List.append_assoc, ← List.append_assoc]
    exact List.perm_append_comm

theorem evict (h : Faithful capacity .dropOldest droppable q) {before after : List α} {oldest : α}
    (hq : q.pending = before ++ oldest :: after) (hd : droppable oldest = true) :
    Faithful capacity .dropOldest droppable
      { q with pending := before ++ after, evicted := q.evicted ++ [oldest] } := by
  have hsub : (before ++ after).Sublist q.pending := by
    rw [hq]
    exact (List.Sublist.refl _).append (List.sublist_cons_self ..)
  refine ⟨Nat.le_trans hsub.length_le h.bounded, ((List.Sublist.refl _).append hsub).trans h.ordered, ?_, ?_, fun ho => (by cases ho),
    fun ho => (by cases ho)⟩
  · refine h.accounted.trans ?_
    rw [hq]
    classical
    rw [List.perm_iff_count]
    intro y
    simp only [List.count_append, List.count_cons, List.count_nil]
    omega
  · intro y hy
    simp only [List.mem_append, List.mem_singleton] at hy
    rcases hy with (hy | rfl) | hy
    · exact h.guarded y (List.mem_append_left _ hy)
    · exact hd
    · exact h.guarded y (List.mem_append_right _ hy)

theorem offer (h : Faithful capacity overflow droppable q) {x : α} (hstep : Offer capacity overflow droppable x q q') :
    Faithful capacity overflow droppable q' := by
  cases hstep with
  | room hq => exact h.accept x hq
  | @evict hq ho before after oldest hpending _ hd =>
    subst ho
    refine (h.evict hpending hd).accept x ?_
    have hlen := congrArg List.length hpending
    simp only [List.length_append, List.length_cons] at hlen ⊢
    have := h.bounded
    omega
  | reject hq hd ho =>
    refine ⟨h.bounded, h.ordered, h.accounted, fun y hy => ?_, fun hw => ?_, h.newest⟩
    · simp only [List.mem_append, List.mem_singleton] at hy
      rcases hy with hy | hy | rfl
      · exact h.guarded y (List.mem_append_left _ hy)
      · exact h.guarded y (List.mem_append_right _ hy)
      · exact hd
    · rcases ho with ho | ⟨ho, -⟩
      · cases ho.symm.trans hw
      · cases ho.symm.trans hw
  | wait => exact h

theorem step (h : Faithful capacity overflow droppable q) (hstep : Step capacity overflow droppable q q') :
    Faithful capacity overflow droppable q' := by
  cases hstep with
  | offer x hoffer => exact h.offer hoffer
  | @take x rest hq =>
    refine ⟨?_, ?_, ?_, h.guarded, h.waits, h.newest⟩
    · have := h.bounded
      rw [hq, List.length_cons] at this
      exact Nat.le_of_succ_le this
    · simpa [hq] using h.ordered
    · simpa [hq] using h.accounted
  | purge p =>
    refine ⟨Nat.le_trans List.filter_sublist.length_le h.bounded, ?_, ?_, h.guarded, h.waits, h.newest⟩
    · exact ((List.Sublist.refl _).append List.filter_sublist).trans h.ordered
    · refine h.accounted.trans ?_
      have hp := List.filter_append_perm p q.pending
      classical
      rw [List.perm_iff_count]
      intro y
      have hy := hp.count_eq y
      simp only [List.count_append] at hy ⊢
      omega

end Faithful

theorem faithful_empty : Faithful capacity overflow droppable ({} : BoundedQueue α) :=
  ⟨Nat.zero_le _, .refl _, .refl _, fun _ h => (by cases h), fun _ => ⟨rfl, rfl⟩, fun _ => rfl⟩

theorem faithful_of_reached (h : Reached capacity overflow droppable q) : Faithful capacity overflow droppable q := by
  induction h with
  | refl => exact faithful_empty
  | tail _ hstep ih => exact ih.step hstep

end BoundedQueue

end Runs
