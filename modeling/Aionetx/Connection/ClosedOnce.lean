import Aionetx.Runs.Trace
import Aionetx.Connection.Closing

/-!
# One close event for a connection

`_finalize_close` has four callers: the close task, the publish task of `start()`, and the publishers that
`_defer_close_event_until_opened_event_completes` and `_ensure_deferred_close_publication_waiter` create.

* `TcpConnection.ClosedOnce` : one publication in flight, one successful `emit` and none after it, the flag, and the state
  that the event carries;
* `TcpConnection.Publishing` : the invariant of `_close_event_task` and `_close_event_previous_state`;
* `TcpConnection.closedOnce_of_reachable` : in every run.
-/

namespace Aionetx

def CloseMark.closeCalled? : CloseMark → Option ConnectionState
  | .closeCalled state => some state
  | _ => none

namespace TcpConnection

/-- The state the connection had before its first `close()`. -/
def firstClose (log : List CloseMark) : Option ConnectionState := log.findSome? CloseMark.closeCalled?

variable (c : TcpConnection)

structure ClosedOnce : Prop where
  oneInFlight : ∀ (i j : Nat) (p q : ClosePublication), c.publications[i]? = some p → c.publications[j]? = some q → p.inFlight → q.inFlight → i = j
  oneSucceeds : c.log.count .published ≤ 1
  noneAfter : ∀ before previousState after, c.log = before ++ .emitted previousState :: after → .published ∉ before
  flag : c.published = true ↔ .published ∈ c.log
  carries : ∀ previousState, .emitted previousState ∈ c.log → firstClose c.log = some previousState

def IsClosing : Prop := c.state = .closing ∨ c.state = .closed

/-- The publication in flight is the one behind `_close_event_task`; `_close_event_previous_state` is the state before the
first `close()` until a publication succeeds. -/
structure Publishing : Prop where
  current : ∀ (k : Nat) (p : ClosePublication), c.publications[k]? = some p → p.inFlight → c.closeEventTask = some k
  quiet : c.published = true → ∀ (k : Nat) (p : ClosePublication), c.publications[k]? = some p → p.inFlight = false
  flag : c.published = true ↔ .published ∈ c.log
  oneSucceeds : c.log.count .published ≤ 1
  noneAfter : ∀ before previousState after, c.log = before ++ .emitted previousState :: after → .published ∉ before
  called : (firstClose c.log).isSome ↔ c.IsClosing
  task : c.closeTask.isSome → c.IsClosing
  deferred : c.deferred = true → c.IsClosing
  closed : c.publications ≠ [] ∨ c.published = true → c.state = .closed
  previous : c.published = false → c.previousState = firstClose c.log
  carried : ∀ p ∈ c.publications, firstClose c.log = some p.previousState
  carries : ∀ previousState, .emitted previousState ∈ c.log → firstClose c.log = some previousState

theorem Publishing.closedOnce {c : TcpConnection} (h : c.Publishing) : c.ClosedOnce where
  oneInFlight i j p q hp hq hi hj := Option.some.inj ((h.current i p hp hi).symm.trans (h.current j q hq hj))
  oneSucceeds := h.oneSucceeds
  noneAfter := h.noneAfter
  flag := h.flag
  carries := h.carries

/-! ## What the methods leave alone -/

theorem ensureWaiter_eq : ∃ waiter waitersDone, c.ensureWaiter = { c with waiter, waitersDone } := by
  unfold ensureWaiter
  split
  · exact ⟨_, _, rfl⟩
  · exact ⟨_, _, rfl⟩

theorem completeWaiter_eq (captured : Option Nat) :
    ∃ waitersDone, c.completeWaiter captured = { c with waitersDone } := by
  cases captured with
  | none => exact ⟨_, rfl⟩
  | some w => exact ⟨_, rfl⟩

theorem releaseWaiter_eq (captured : Option Nat) :
    ∃ waiter waitersDone, c.releaseWaiter captured = { c with waiter, waitersDone } := by
  cases captured with
  | none => exact ⟨_, _, rfl⟩
  | some w => exact ⟨_, _, rfl⟩

theorem deferCloseEvent_eq (answers : CloseAnswers) : ∃ waiter waitersDone publisher,
    c.deferCloseEvent answers = { c with state := .closed, deferred := true, waiter, waitersDone, publisher } := by
  obtain ⟨waiter, waitersDone, hw⟩ := { c with state := .closed, deferred := true }.ensureWaiter_eq
  unfold deferCloseEvent
  rw [hw]
  dsimp only
  split
  · exact ⟨waiter, waitersDone, _, rfl⟩
  · exact ⟨waiter, waitersDone, _, rfl⟩

/-! ## The invariant is kept -/

variable {c} {t : TcpConnection}

/-- The parts of a connection that publication does not read. -/
theorem Publishing.frame (h : c.Publishing) {waiter : Option Nat} {waitersDone : List Bool} {opening : Bool}
    {start : OpeningPc} {publisher : Option DeferredPublisher} {registered : Bool} :
    Publishing { c with waiter, waitersDone, opening, start, publisher, registered } :=
  ⟨h.current, h.quiet, h.flag, h.oneSucceeds, h.noneAfter, h.called, h.task, h.deferred, h.closed, h.previous, h.carried,
    h.carries⟩

theorem Publishing.withTask (h : c.Publishing) {closeTask : Option ClosingTask}
    (htask : closeTask.isSome → c.closeTask.isSome) : Publishing { c with closeTask } :=
  ⟨h.current, h.quiet, h.flag, h.oneSucceeds, h.noneAfter, h.called, fun ht => h.task (htask ht), h.deferred, h.closed,
    h.previous, h.carried, h.carries⟩

theorem Publishing.suspendClose (h : c.Publishing) (pc : Option ClosingPc) : (c.suspendClose pc).Publishing :=
  h.withTask fun ht => by
    cases pc with
    | none => cases ht
    | some pc => simpa using ht

/-- A mark that says nothing about calls of `close()` or about publication. -/
theorem Publishing.callback (h : c.Publishing) : (c.note .callback).Publishing := by
  have hmem : ∀ m, m ∈ c.log ++ [.callback] → m ≠ .callback → m ∈ c.log := fun m hm hne => by
    rw [List.mem_append, List.mem_singleton] at hm
    exact hm.resolve_right hne
  have hfirst : firstClose (c.log ++ [.callback]) = firstClose c.log := by
    simp [firstClose, CloseMark.closeCalled?]
  refine ⟨h.current, h.quiet, h.flag.trans ⟨fun hm => List.mem_append_left _ hm, fun hm => hmem _ hm nofun⟩, ?_, ?_,
    ?_, h.task, h.deferred, h.closed, fun hp => (h.previous hp).trans hfirst.symm,
    fun p hp => hfirst.trans (h.carried p hp), fun p hp => hfirst.trans (h.carries p (hmem _ hp nofun))⟩
  · change (c.log ++ [_]).count _ ≤ 1
    simpa using h.oneSucceeds
  · intro before p after hlog
    obtain ⟨-, hx, -⟩ | ⟨after', -, hlog⟩ := Runs.concat_eq_append_cons hlog
    · cases hx
    · exact h.noneAfter before p after' hlog
  · change (firstClose (c.log ++ [_])).isSome ↔ _
    rw [hfirst]
    exact h.called

theorem Publishing.finalizeClose (h : c.Publishing) (hclosing : c.IsClosing) : c.finalizeClose.1.Publishing := by
  unfold TcpConnection.finalizeClose
  split
  · exact h
  · next hp =>
    have hp : c.published = false := by simpa using hp
    split
    · exact h
    · next hnone =>
      -- no task is in flight: the one behind `_close_event_task` would be
      have hdone : ∀ (k : Nat) (p : ClosePublication), c.publications[k]? = some p → p.inFlight = false := fun k p hk => by
        by_contra hi
        have hi : p.inFlight = true := by simpa using hi
        rw [publicationInFlight, h.current k p hk hi, Option.filter_some, hk] at hnone
        simp [hi] at hnone
      obtain ⟨first, hfirst⟩ := Option.isSome_iff_exists.mp (h.called.mpr hclosing)
      have hprevious : c.previousState = some first := (h.previous hp).trans hfirst
      refine ⟨?_, fun ht => absurd ht (by simp [hp]), h.flag, h.oneSucceeds, h.noneAfter, ?_, fun _ => .inr rfl,
        fun _ => .inr rfl, fun _ => rfl, h.previous, ?_, h.carries⟩
      · intro k p hk hi
        simp only [List.getElem?_append] at hk
        split at hk
        · rw [hdone k p hk] at hi
          cases hi
        · obtain ⟨hlt, -⟩ := List.getElem?_eq_some_iff.mp hk
          simp only [List.length_singleton] at hlt
          exact congrArg some (by omega)
      · exact iff_of_true (h.called.mpr hclosing) (.inr rfl)
      · intro p hm
        rw [List.mem_append, List.mem_singleton] at hm
        rcases hm with hm | rfl
        · exact h.carried p hm
        · rw [hprevious]
          exact hfirst

theorem Publishing.publishDeferred (h : c.Publishing) : c.publishDeferred.1.Publishing := by
  unfold TcpConnection.publishDeferred
  split
  · next hd =>
    have hbase : Publishing { c with deferred := false } :=
      ⟨h.current, h.quiet, h.flag, h.oneSucceeds, h.noneAfter, h.called, h.task, nofun, h.closed, h.previous, h.carried,
        h.carries⟩
    have hfinal := hbase.finalizeClose (h.deferred hd)
    split
    · next heq => rwa [heq] at hfinal
    · next c' heq =>
      rw [heq] at hfinal
      obtain ⟨waiter, waitersDone, hr⟩ := c'.releaseWaiter_eq c.waiter
      change (c'.releaseWaiter c.waiter).Publishing
      rw [hr]
      exact hfinal.frame
  · exact h

theorem Publishing.deferred_closed (h : c.Publishing) (hclosing : c.IsClosing) :
    Publishing { c with state := .closed, deferred := true } :=
  ⟨h.current, h.quiet, h.flag, h.oneSucceeds, h.noneAfter, iff_of_true (h.called.mpr hclosing) (.inr rfl),
    fun _ => .inr rfl, fun _ => .inr rfl, fun _ => rfl, h.previous, h.carried, h.carries⟩

theorem Publishing.deferOrPublish (h : c.Publishing) (hclosing : c.IsClosing) (answers : CloseAnswers) :
    (c.deferOrPublish answers).Publishing := by
  unfold TcpConnection.deferOrPublish
  split
  · obtain ⟨waiter, waitersDone, publisher, hd⟩ := c.deferCloseEvent_eq answers
    dsimp only
    rw [hd]
    exact (h.deferred_closed hclosing).frame.suspendClose _
  · exact (h.finalizeClose hclosing).suspendClose _

theorem firstClose_concat (log : List CloseMark) (state : ConnectionState) :
    firstClose (log ++ [.closeCalled state]) = some ((firstClose log).getD state) := by
  unfold firstClose
  rw [List.findSome?_append]
  cases log.findSome? CloseMark.closeCalled? <;> rfl

/-- `close()` is called: the state before the first call is kept. -/
theorem Publishing.close (h : c.Publishing) (byOpening : Bool) : (c.close byOpening).Publishing := by
  have hmem : ∀ m, m ∈ c.log ++ [.closeCalled c.state] → m ≠ .closeCalled c.state → m ∈ c.log := fun m hm hne => by
    rw [List.mem_append, List.mem_singleton] at hm
    exact hm.resolve_right hne
  have hflag : c.published = true ↔ .published ∈ c.log ++ [.closeCalled c.state] :=
    h.flag.trans ⟨fun hm => List.mem_append_left _ hm, fun hm => hmem _ hm nofun⟩
  have honce : (c.log ++ [CloseMark.closeCalled c.state]).count .published ≤ 1 := by simpa using h.oneSucceeds
  have hafter : ∀ before p after, c.log ++ [.closeCalled c.state] = before ++ .emitted p :: after →
      .published ∉ before := fun before p after hlog => by
    obtain ⟨-, hx, -⟩ | ⟨after', -, hlog⟩ := Runs.concat_eq_append_cons hlog
    · cases hx
    · exact h.noneAfter before p after' hlog
  have hfirst : ∀ state, firstClose c.log = some state →
      firstClose (c.log ++ [.closeCalled c.state]) = some state := fun state hs => by
    rw [firstClose_concat, hs]
    rfl
  have hcarried : ∀ p ∈ c.publications, firstClose (c.log ++ [.closeCalled c.state]) = some p.previousState :=
    fun p hp => hfirst _ (h.carried p hp)
  have hcarries : ∀ p, .emitted p ∈ c.log ++ [.closeCalled c.state] →
      firstClose (c.log ++ [.closeCalled c.state]) = some p := fun p hp => hfirst _ (h.carries p (hmem _ hp nofun))
  -- a call that finds the connection closing changes the log at most
  have hnoted : c.IsClosing → (c.note (.closeCalled c.state)).Publishing := fun hclosing => by
    obtain ⟨first, hs⟩ := Option.isSome_iff_exists.mp (h.called.mpr hclosing)
    refine ⟨h.current, h.quiet, hflag, honce, hafter, ?_, h.task, h.deferred, h.closed, fun hp => ?_, hcarried, hcarries⟩
    · exact iff_of_true (by rw [note, hfirst first hs]; rfl) hclosing
    · exact (h.previous hp).trans (hs.trans (hfirst first hs).symm)
  unfold TcpConnection.close
  dsimp only
  split
  · next hc => exact hnoted (.inr hc.1)
  · split
    · next hc => exact hnoted (.inr hc.1)
    · next hopen =>
      unfold requestClose
      split
      · next ht => exact hnoted (h.task ht)
      · have hpublished : c.published = false := by
          by_contra hp
          have hp : c.published = true := by simpa using hp
          exact hopen ⟨h.closed (.inr hp), hp⟩
        by_cases hclosed : c.state = .closed
        · have hn := hnoted (.inr hclosed)
          refine ⟨hn.current, hn.quiet, hn.flag, hn.oneSucceeds, hn.noneAfter, ?_, fun _ => .inr ?_, fun _ => .inr ?_,
            fun _ => ?_, fun hp => ?_, hn.carried, hn.carries⟩
          · exact iff_of_true (hn.called.mpr (.inr hclosed)) (.inr (if_pos hclosed))
          · exact if_pos hclosed
          · exact if_pos hclosed
          · exact if_pos hclosed
          · exact (if_pos hclosed).trans (hn.previous hp)
        · have hfirst' : some (c.previousState.getD c.state) = firstClose (c.log ++ [.closeCalled c.state]) := by
            rw [firstClose_concat, h.previous hpublished]
          refine ⟨h.current, h.quiet, hflag, honce, hafter, ?_, fun _ => .inl ?_, fun _ => .inl ?_, fun hp => ?_,
            fun _ => ?_, hcarried, hcarries⟩
          · exact iff_of_true (hfirst' ▸ rfl) (.inl (if_neg hclosed))
          · exact if_neg hclosed
          · exact if_neg hclosed
          · exact absurd (h.closed hp) hclosed
          · exact (if_neg hclosed).trans hfirst'

/-! ## A publication task goes on -/

theorem getElem?_setPc {k i : Nat} {p q : ClosePublication} {pc : ClosePublicationPc} (hk : c.publications[k]? = some p)
    (hq : (c.publications.set k { p with pc })[i]? = some q) :
    i = k ∧ q = { p with pc } ∨ i ≠ k ∧ c.publications[i]? = some q := by
  by_cases hik : i = k
  · subst hik
    rw [List.getElem?_set_self (List.getElem?_eq_some_iff.mp hk).1] at hq
    exact .inl ⟨rfl, (Option.some.inj hq).symm⟩
  · rw [List.getElem?_set_ne (Ne.symm hik)] at hq
    exact .inr ⟨hik, hq⟩

theorem Publishing.carried_setPc (h : c.Publishing) {k : Nat} {p : ClosePublication} (hk : c.publications[k]? = some p)
    (pc : ClosePublicationPc) : ∀ q ∈ c.publications.set k { p with pc }, firstClose c.log = some q.previousState := by
  intro q hq
  rcases List.mem_or_eq_of_mem_set hq with hq | rfl
  · exact h.carried q hq
  · exact h.carried p (List.mem_of_getElem? hk)

theorem Publishing.closed_of_getElem? (h : c.Publishing) {k : Nat} {p : ClosePublication}
    (hk : c.publications[k]? = some p) : c.state = .closed :=
  h.closed (.inl (List.ne_nil_of_mem (List.mem_of_getElem? hk)))

theorem Publishing.unpublished (h : c.Publishing) {k : Nat} {p : ClosePublication} (hk : c.publications[k]? = some p)
    (hi : p.inFlight) : c.published = false := by
  by_contra hp
  rw [h.quiet (by simpa using hp) k p hk] at hi
  cases hi

theorem Publishing.emit (h : c.Publishing) {k : Nat} {p : ClosePublication} (hk : c.publications[k]? = some p)
    (hi : p.inFlight) :
    Publishing ({ c with publications := c.publications.set k { p with pc := .emitting } }.note
      (.emitted p.previousState)) := by
  have hpublished := h.unpublished hk hi
  have hnot : .published ∉ c.log := fun hm => by rw [h.flag.mpr hm] at hpublished; cases hpublished
  have hfirst : firstClose (c.log ++ [.emitted p.previousState]) = firstClose c.log := by
    simp [firstClose, CloseMark.closeCalled?]
  refine ⟨fun i q hq hqi => ?_, fun hp => absurd hp (by simp [note, hpublished]), ?_, ?_, ?_, ?_, h.task, h.deferred,
    fun _ => h.closed_of_getElem? hk, fun hp => (h.previous hp).trans hfirst.symm,
    fun q hq => hfirst.trans (h.carried_setPc hk _ q hq), ?_⟩
  · obtain ⟨rfl, -⟩ | ⟨-, hq⟩ := getElem?_setPc hk hq
    · exact h.current _ p hk hi
    · exact h.current i q hq hqi
  · refine h.flag.trans ⟨fun hm => List.mem_append_left _ hm, fun hm => ?_⟩
    rw [note, List.mem_append, List.mem_singleton] at hm
    exact hm.resolve_right nofun
  · change (c.log ++ [_]).count _ ≤ 1
    simpa using h.oneSucceeds
  · intro before q after hlog
    obtain ⟨rfl, -, -⟩ | ⟨after', -, hlog⟩ := Runs.concat_eq_append_cons hlog
    · exact hnot
    · exact h.noneAfter before q after' hlog
  · change (firstClose (c.log ++ [_])).isSome ↔ _
    rw [hfirst]
    exact h.called
  · intro q hq
    rw [note, List.mem_append, List.mem_singleton] at hq
    refine hfirst.trans ?_
    rcases hq with hq | hq
    · exact h.carries q hq
    · cases hq
      exact h.carried p (List.mem_of_getElem? hk)

theorem Publishing.end (h : c.Publishing) {k : Nat} {p : ClosePublication} (hk : c.publications[k]? = some p)
    (hi : p.inFlight) (outcome : Outcome) (closeEventTask : Option Nat) :
    Publishing { c with
      publications := c.publications.set k { p with pc := .ended outcome }
      closeEventTask } ∧
    ∀ (i : Nat) (q : ClosePublication),
      (c.publications.set k { p with pc := .ended outcome })[i]? = some q → q.inFlight = false := by
  have hnone : ∀ (i : Nat) (q : ClosePublication),
      (c.publications.set k { p with pc := .ended outcome })[i]? = some q → q.inFlight = false := fun i q hq => by
    obtain ⟨-, rfl⟩ | ⟨hik, hq⟩ := getElem?_setPc hk hq
    · rfl
    · by_contra hqi
      exact hik (Option.some.inj ((h.current i q hq (by simpa using hqi)).symm.trans (h.current k p hk hi)))
  exact ⟨⟨fun i q hq hqi => absurd hqi (by simp [hnone i q hq]), fun _ => hnone, h.flag, h.oneSucceeds, h.noneAfter,
    h.called, h.task, h.deferred, fun _ => h.closed_of_getElem? hk, h.previous, h.carried_setPc hk _, h.carries⟩, hnone⟩

/-- `emit` returns: nothing is in flight and nothing was published before. -/
theorem Publishing.succeed (h : c.Publishing) (hclosed : c.state = .closed) (hpublished : c.published = false)
    (hnone : ∀ (i : Nat) (q : ClosePublication), c.publications[i]? = some q → q.inFlight = false) :
    Publishing ({ c with published := true, previousState := none }.note .published) := by
  have hnot : .published ∉ c.log := fun hm => by rw [h.flag.mpr hm] at hpublished; cases hpublished
  have hfirst : firstClose (c.log ++ [.published]) = firstClose c.log := by
    simp [firstClose, CloseMark.closeCalled?]
  refine ⟨fun i q hq hqi => absurd hqi (by simp [hnone i q hq]), fun _ => hnone, ?_, ?_, ?_, ?_, h.task, h.deferred,
    fun _ => hclosed, nofun, fun q hq => hfirst.trans (h.carried q hq), ?_⟩
  · exact iff_of_true rfl (List.mem_append_right _ (List.mem_singleton_self _))
  · change (c.log ++ [_]).count _ ≤ 1
    rw [List.count_append, List.count_eq_zero.mpr hnot]
    exact Nat.le_refl 1
  · intro before q after hlog
    obtain ⟨-, hx, -⟩ | ⟨after', -, hlog⟩ := Runs.concat_eq_append_cons hlog
    · cases hx
    · exact h.noneAfter before q after' hlog
  · change (firstClose (c.log ++ [_])).isSome ↔ _
    rw [hfirst]
    exact h.called
  · intro q hq
    rw [note, List.mem_append, List.mem_singleton] at hq
    exact hfirst.trans (h.carries q (hq.resolve_right nofun))

theorem Publishing.publicationTurn (h : c.Publishing) {k : Nat} {outcome : Outcome}
    (ht : c.publicationTurn k outcome = some t) : t.Publishing := by
  unfold TcpConnection.publicationTurn at ht
  obtain ⟨p, hk, ht⟩ := Option.bind_eq_some_iff.mp ht
  cases hpc : p.pc with
  | created =>
    have hi : p.inFlight := by rw [ClosePublication.inFlight, hpc]
    rw [hpc] at ht
    cases outcome with
    | returned =>
      cases ht
      exact h.emit hk hi
    | raised => cases ht
    | cancelled =>
      cases ht
      exact (h.end hk hi .cancelled c.closeEventTask).1
  | emitting =>
    have hi : p.inFlight := by rw [ClosePublication.inFlight, hpc]
    rw [hpc] at ht
    obtain ⟨hend, hnone⟩ := h.end hk hi outcome (if c.closeEventTask = some k then none else c.closeEventTask)
    dsimp only at ht
    split at ht
    · cases ht
      exact hend.succeed (h.closed_of_getElem? hk) (h.unpublished hk hi) hnone
    · cases ht
      exact hend
  | ended o =>
    rw [hpc] at ht
    cases ht

/-! ## The runs -/

theorem Publishing.closeTurn (h : c.Publishing) {outcome : Outcome} {answers : CloseAnswers}
    (ht : c.closeTurn outcome answers = some t) : t.Publishing := by
  unfold TcpConnection.closeTurn at ht
  obtain ⟨task, htask, ht⟩ := Option.bind_eq_some_iff.mp ht
  have hclosing := h.task (htask ▸ rfl)
  cases hpc : task.pc with
  | created =>
    rw [hpc] at ht
    cases outcome with
    | returned =>
      cases ht
      split
      · exact h.suspendClose _
      · exact h.deferOrPublish hclosing answers
    | raised => cases ht
    | cancelled => cases ht; exact h.suspendClose none
  | purging | awaitingRead =>
    rw [hpc] at ht
    cases outcome with
    | returned => cases ht; exact h.suspendClose _
    | raised => cases ht; exact h.suspendClose none
    | cancelled => cases ht; exact h.deferOrPublish hclosing answers
  | writerShutdown =>
    rw [hpc] at ht
    cases outcome with
    | returned => cases ht; exact h.callback.suspendClose _
    | raised => cases ht; exact h.suspendClose none
    | cancelled => cases ht; exact h.deferOrPublish hclosing answers
  | awaitingStateLock =>
    rw [hpc] at ht
    cases outcome with
    | returned => cases ht; exact h.frame.suspendClose _
    | raised => cases ht
    | cancelled => cases ht; exact h.deferOrPublish hclosing answers
  | inCallback =>
    rw [hpc] at ht
    cases outcome with
    | returned | cancelled => cases ht; exact h.deferOrPublish hclosing answers
    | raised => cases ht; exact h.suspendClose none
  | awaitingWaiter w =>
    rw [hpc] at ht
    dsimp only at ht
    split at ht
    · cases ht
    · cases ht; exact h.suspendClose none
  | awaitingPublication k =>
    rw [hpc] at ht
    dsimp only at ht
    split at ht
    · cases ht
    · cases ht; exact h.suspendClose none

theorem Publishing.publisherTurn (h : c.Publishing) {outcome : Outcome} (ht : c.publisherTurn outcome = some t) :
    t.Publishing := by
  unfold TcpConnection.publisherTurn at ht
  obtain ⟨pc, -, ht⟩ := Option.bind_eq_some_iff.mp ht
  cases pc with
  | created =>
    cases outcome with
    | returned | cancelled => cases ht; exact h.frame
    | raised => cases ht
  | waiting =>
    cases outcome with
    | returned => cases ht; exact h.publishDeferred.frame
    | raised => cases ht
    | cancelled =>
      cases ht
      obtain ⟨waitersDone, hw⟩ := c.completeWaiter_eq c.waiter
      rw [hw]
      exact h.frame
  | joining k waiter =>
    dsimp only at ht
    split at ht
    · cases ht
    · obtain ⟨w, waitersDone, hr⟩ := c.releaseWaiter_eq waiter
      rw [hr] at ht
      dsimp only at ht
      split at ht
      · cases ht; exact h.frame
      · cases ht
        obtain ⟨waitersDone', hw⟩ := { c with waiter := w, waitersDone, publisher := none }.completeWaiter_eq w
        rw [hw]
        exact h.frame

theorem Publishing.publishTurn (h : c.Publishing) {outcome : Outcome} (ht : c.publishTurn outcome = some t) :
    t.Publishing := by
  unfold TcpConnection.publishTurn at ht
  split at ht
  · cases ht; exact h.publishDeferred.frame
  · cases ht; exact h.frame
  · next opened k waiter _ =>
    split at ht
    · cases ht
    · cases ht
      obtain ⟨w, waitersDone, hr⟩ := c.releaseWaiter_eq waiter
      rw [hr]
      exact h.frame
  · cases ht

theorem Publishing.startTurn (h : c.Publishing) {outcome : Outcome} (ht : c.startTurn outcome = some t) :
    t.Publishing := by
  unfold TcpConnection.startTurn at ht
  split at ht
  · cases ht
    split
    · exact h.frame
    · exact h.frame
  all_goals first | cases ht; exact h.frame | cases ht; exact h.frame.close false | cases ht

theorem Publishing.ensure (h : c.Publishing) (ht : c.ensureDeferredClosePublicationWaiter = some t) :
    t.Publishing := by
  unfold ensureDeferredClosePublicationWaiter at ht
  split at ht
  · next hcalled =>
    cases ht
    split
    · exact h
    · have hclosing : c.IsClosing := by
        rw [Bool.and_eq_true, List.any_eq_true] at hcalled
        obtain ⟨m, hm, hmark⟩ := hcalled.1
        refine h.called.mp (List.findSome?_isSome_iff.mpr ⟨m, hm, ?_⟩)
        cases m <;> first | rfl | cases hmark
      have hd : Publishing { c with deferred := true } :=
        ⟨h.current, h.quiet, h.flag, h.oneSucceeds, h.noneAfter, h.called, h.task, fun _ => hclosing, h.closed, h.previous,
          h.carried, h.carries⟩
      obtain ⟨waiter, waitersDone, hw⟩ := { c with deferred := true }.ensureWaiter_eq
      rw [hw]
      exact hd.frame
  · cases ht

theorem Publishing.step (h : c.Publishing) {a : TcpConnectionAct} (ht : c.step a = some t) : t.Publishing := by
  cases a with
  | start =>
    simp only [TcpConnection.step] at ht
    split at ht
    · cases ht
      split
      · next hcreated =>
        have hnot : ¬c.IsClosing := fun hc => by rcases hc with hc | hc <;> rw [hcreated] at hc <;> cases hc
        refine ⟨h.current, h.quiet, h.flag, h.oneSucceeds, h.noneAfter, iff_of_false (fun hf => hnot (h.called.mp hf))
          (fun hc => by rcases hc with hc | hc <;> cases hc), fun hs => absurd (h.task hs) hnot,
          fun hs => absurd (h.deferred hs) hnot, fun hs => absurd (.inr (h.closed hs)) hnot, h.previous, h.carried,
          h.carries⟩
      · exact h.frame
    · cases ht
  | startTurn outcome => exact h.startTurn ht
  | publishTurn outcome => exact h.publishTurn ht
  | close byOpening =>
    cases ht
    exact h.close byOpening
  | closeTurn outcome answers => exact h.closeTurn ht
  | publicationTurn k outcome => exact h.publicationTurn ht
  | publisherTurn outcome => exact h.publisherTurn ht
  | ensureWaiter => exact h.ensure ht

theorem publishing_of_reachable (hc : tcpConnectionMachine.Reachable Runs.Machine.Any c) : c.Publishing := by
  refine hc.invariant (fun c hc => ?_) fun c a t h _ ht => h.step ht
  cases hc
  refine ⟨nofun, nofun, ?_, Nat.zero_le 1, fun before p after hlog => ?_, ?_, nofun, nofun, ?_, fun _ => rfl, nofun,
    nofun⟩
  · exact iff_of_false nofun nofun
  · exact absurd hlog.symm (List.append_ne_nil_of_right_ne_nil _ (List.cons_ne_nil _ _))
  · exact iff_of_false nofun (fun hc => by rcases hc with hc | hc <;> cases hc)
  · rintro (hne | hp)
    · exact absurd rfl hne
    · cases hp

/-- One publication at most is in flight, one `emit` of the close event at most succeeds, none follows it, the flag tells
whether one did, and each event carries the state the connection had before its first `close()`. -/
theorem closedOnce_of_reachable (c : TcpConnection) (hc : tcpConnectionMachine.Reachable Runs.Machine.Any c) :
    c.ClosedOnce := (publishing_of_reachable hc).closedOnce

end TcpConnection

/-- A first publication fails; `close()` is called again, and the event carries `CONNECTED`. -/
theorem closedOnce_of_retriedPublication :
    ∃ c, tcpConnectionMachine.Reachable Runs.Machine.Any c ∧
      (c.log = [.closeCalled .connected, .callback, .emitted .connected, .closeCalled .closed, .emitted .connected,
        .published] ∧ c.ClosedOnce) := by
  have hrun : ∃ c, tcpConnectionMachine.Reachable Runs.Machine.Any c ∧
      decide (c.log = [.closeCalled .connected, .callback, .emitted .connected, .closeCalled .closed, .emitted .connected,
        .published]) :=
    Runs.Machine.Reachable.exists_of_exec rfl
      [.start, .startTurn .returned, .startTurn .returned, .publishTurn .returned, .startTurn .returned, .close false,
        .closeTurn .returned {}, .closeTurn .returned {}, .closeTurn .returned {}, .closeTurn .returned {},
        .closeTurn .returned {}, .publicationTurn 0 .returned, .publicationTurn 0 .raised, .closeTurn .raised {},
        .close false, .closeTurn .returned {}, .publicationTurn 1 .returned, .publicationTurn 1 .returned,
        .closeTurn .returned {}] _ (by decide)
  obtain ⟨c, hc, hlog⟩ := hrun
  exact ⟨c, hc, of_decide_eq_true hlog, TcpConnection.closedOnce_of_reachable c hc⟩

end Aionetx
