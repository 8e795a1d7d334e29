import Aionetx.Connection.ClosedOnce

/-!
# The closed callback comes before the close event

Only the close task that owns the teardown invokes `on_closed_callback`. A retry after that task has failed finds the
connection `CLOSING` and goes straight to publication.

* `TcpConnection.CallbackFirst` : the callback is invoked exactly once, before the event, and a connection whose close was
  published is not registered;
* `TcpConnection.KeepsTeardown` : no step of the teardown up to the removal from the registry raises or is cancelled;
* `TcpConnection.callbackFirst_of_reachable` : in the runs whose steps all meet it;
* `not_callbackFirst_of_writerCloseRaises` : `writer.close()` raises, and a second `close()` publishes.
-/

namespace Aionetx

def ClosingTask.awaitsCallback (t : ClosingTask) : Bool :=
  match t.pc with
  | .created => t.needsTeardown
  | .purging | .awaitingRead | .writerShutdown => true
  | .awaitingStateLock | .inCallback | .awaitingWaiter _ | .awaitingPublication _ => false

def ClosingPc.pastRemoval : ClosingPc → Bool
  | .inCallback | .awaitingWaiter _ | .awaitingPublication _ => true
  | .created | .purging | .awaitingRead | .writerShutdown | .awaitingStateLock => false

/-- The callback has not removed the connection from the registry. -/
def ClosingTask.beforeRemoval (t : ClosingTask) : Bool := t.awaitsCallback || t.pc = .awaitingStateLock

theorem ClosingTask.beforeRemoval_of_past {task : ClosingTask} (h : task.pc.pastRemoval) : task.beforeRemoval = false := by
  unfold ClosingTask.beforeRemoval ClosingTask.awaitsCallback
  cases hq : task.pc <;> rw [hq] at h <;> first | rfl | cases h

namespace TcpConnection
variable (c : TcpConnection)

/-- `on_closed_callback` is invoked at most once, and once the teardown is over; before each close event; and a published
close takes the connection out of the registry. -/
structure CallbackFirst : Prop where
  once : c.log.count .callback ≤ 1
  invoked : c.IsClosing → (∀ t, c.closeTask = some t → t.inTeardown = false) → .callback ∈ c.log
  before : ∀ before previousState after, c.log = before ++ .emitted previousState :: after → .callback ∈ before
  unregistered : .published ∈ c.log → c.registered = false

/-- No step of the teardown up to the removal raises or is cancelled. -/
def KeepsTeardown : TcpConnectionAct → Prop
  | .closeTurn outcome _ => outcome = .returned ∨ c.closeTask.all fun t => !t.beforeRemoval
  | _ => True

instance : ∀ a, Decidable (c.KeepsTeardown a)
  | .closeTurn outcome _ =>
    inferInstanceAs (Decidable (outcome = .returned ∨ c.closeTask.all (fun t => !t.beforeRemoval) = true))
  | .start | .startTurn _ | .publishTurn _ | .close _ | .publicationTurn _ _ | .publisherTurn _ | .ensureWaiter =>
    .isTrue trivial

structure TornDown : Prop where
  closing : c.IsClosing
  task : ∀ t, c.closeTask = some t → t.beforeRemoval = false
  callback : .callback ∈ c.log
  unregistered : c.registered = false

/-- How far the close has come. Nothing is published or deferred before the callback has run. -/
inductive Phase : Prop
  | live (hstate : ¬c.IsClosing) (htask : c.closeTask = none) (hcallback : .callback ∉ c.log)
      (hpublications : c.publications = []) (hdeferred : c.deferred = false)
  | tearing (t : ClosingTask) (hstate : c.IsClosing) (htask : c.closeTask = some t) (hawaits : t.awaitsCallback)
      (hcallback : .callback ∉ c.log) (hpublications : c.publications = []) (hdeferred : c.deferred = false)
  | removing (t : ClosingTask) (hstate : c.IsClosing) (htask : c.closeTask = some t) (hpc : t.pc = .awaitingStateLock)
      (hcallback : .callback ∈ c.log) (hpublications : c.publications = []) (hdeferred : c.deferred = false)
  | tornDown (h : c.TornDown)

/-- The phase, and what the log says. -/
structure Torn : Prop where
  phase : c.Phase
  once : c.log.count .callback ≤ 1
  before : ∀ before previousState after, c.log = before ++ .emitted previousState :: after → .callback ∈ before
  unregistered : .published ∈ c.log → c.registered = false

variable {c} {t : TcpConnection}

/-! ## What the methods keep -/

/-- Something is published or deferred: the callback has run. -/
theorem Torn.tornDown (h : c.Torn) (hlate : c.publications ≠ [] ∨ c.deferred = true) : c.TornDown := by
  have hnot : c.publications = [] → c.deferred = false → False := fun hp hd => by
    rcases hlate with hlate | hlate
    · exact hlate hp
    · rw [hd] at hlate
      cases hlate
  cases h.phase with
  | live _ _ _ hp hd => exact absurd hd (fun hd => hnot hp hd)
  | tearing _ _ _ _ _ hp hd => exact absurd hd (fun hd => hnot hp hd)
  | removing _ _ _ _ _ hp hd => exact absurd hd (fun hd => hnot hp hd)
  | tornDown h => exact h

theorem Torn.tornDown_of_task (h : c.Torn) {task : ClosingTask} (htask : c.closeTask = some task)
    (hpast : task.beforeRemoval = false) : c.TornDown := by
  unfold ClosingTask.beforeRemoval at hpast
  rw [Bool.or_eq_false_iff, decide_eq_false_iff_not] at hpast
  cases h.phase with
  | live _ ht => cases htask.symm.trans ht
  | tearing _ _ ht ha =>
    cases htask.symm.trans ht
    rw [hpast.1] at ha
    cases ha
  | removing _ _ ht hpc =>
    cases htask.symm.trans ht
    exact absurd hpc hpast.2
  | tornDown h => exact h

/-- Past the callback, whatever leaves the log, the registry and the fact that the connection is closing. -/
theorem Torn.past (h : c.Torn) (hd : c.TornDown) (hlog : t.log = c.log) (hregistered : t.registered = c.registered)
    (hclosing : t.IsClosing) (htask : ∀ task, t.closeTask = some task → task.beforeRemoval = false) : t.Torn :=
  ⟨.tornDown ⟨hclosing, htask, hlog ▸ hd.callback, hregistered.trans hd.unregistered⟩, hlog ▸ h.once, hlog ▸ h.before,
    fun _ => hregistered.trans hd.unregistered⟩

/-- The parts of a connection that the callback does not read. -/
theorem Torn.frame (h : c.Torn) {previousState : Option ConnectionState} {published : Bool} {waiter : Option Nat}
    {waitersDone : List Bool} {opening : Bool} {start : OpeningPc} {closeEventTask : Option Nat}
    {publisher : Option DeferredPublisher} :
    Torn { c with previousState, published, waiter, waitersDone, opening, start, closeEventTask, publisher } := by
  refine ⟨?_, h.once, h.before, h.unregistered⟩
  cases h.phase with
  | live h1 h2 h3 h4 h5 => exact .live h1 h2 h3 h4 h5
  | tearing t h1 h2 h3 h4 h5 h6 => exact .tearing t h1 h2 h3 h4 h5 h6
  | removing t h1 h2 h3 h4 h5 h6 => exact .removing t h1 h2 h3 h4 h5 h6
  | tornDown h => exact .tornDown ⟨h.closing, h.task, h.callback, h.unregistered⟩

theorem finalizeClose_log (c : TcpConnection) : c.finalizeClose.1.log = c.log ∧
    c.finalizeClose.1.registered = c.registered ∧ c.finalizeClose.1.closeTask = c.closeTask ∧
    (c.IsClosing → c.finalizeClose.1.IsClosing) := by
  unfold TcpConnection.finalizeClose
  split
  · exact ⟨rfl, rfl, rfl, id⟩
  · split
    · exact ⟨rfl, rfl, rfl, id⟩
    · exact ⟨rfl, rfl, rfl, fun _ => .inr rfl⟩

theorem publishDeferred_log (c : TcpConnection) : c.publishDeferred.1.log = c.log ∧
    c.publishDeferred.1.registered = c.registered ∧ c.publishDeferred.1.closeTask = c.closeTask ∧
    (c.IsClosing → c.publishDeferred.1.IsClosing) := by
  obtain ⟨h1, h2, h3, h4⟩ := { c with deferred := false }.finalizeClose_log
  unfold TcpConnection.publishDeferred
  split
  · split
    · next heq =>
      rw [heq] at h1 h2 h3 h4
      exact ⟨h1, h2, h3, h4⟩
    · next c' heq =>
      rw [heq] at h1 h2 h3 h4
      obtain ⟨waiter, waitersDone, hr⟩ := c'.releaseWaiter_eq c.waiter
      dsimp only
      rw [hr]
      exact ⟨h1, h2, h3, h4⟩
  · exact ⟨rfl, rfl, rfl, id⟩

theorem Torn.publishDeferred (h : c.Torn) : c.publishDeferred.1.Torn := by
  by_cases hd : c.deferred = true
  · have htorn := h.tornDown (.inr hd)
    obtain ⟨h1, h2, h3, h4⟩ := c.publishDeferred_log
    exact h.past htorn h1 h2 (h4 htorn.closing) fun task ht => htorn.task task (h3.symm.trans ht)
  · unfold TcpConnection.publishDeferred
    rw [if_neg hd]
    exact h

theorem suspendClose_pc {pc : Option ClosingPc} {task : ClosingTask} (h : (c.suspendClose pc).closeTask = some task) :
    pc = some task.pc := by
  unfold suspendClose at h
  obtain ⟨q, rfl, h⟩ := Option.bind_eq_some_iff.mp h
  obtain ⟨old, -, rfl⟩ := Option.map_eq_some_iff.mp h
  rfl

theorem Torn.suspendClose (h : c.Torn) (hd : c.TornDown) {pc : Option ClosingPc}
    (hpc : ∀ q, pc = some q → q.pastRemoval) : (c.suspendClose pc).Torn :=
  h.past hd rfl rfl hd.closing fun task ht => task.beforeRemoval_of_past (hpc task.pc (suspendClose_pc ht))

/-- The end of the close task: the event is deferred, or on its way. -/
theorem deferOrPublish_log (hclosing : c.IsClosing) (answers : CloseAnswers) :
    (c.deferOrPublish answers).log = c.log ∧ (c.deferOrPublish answers).registered = c.registered ∧
      (c.deferOrPublish answers).IsClosing ∧
      ∀ task, (c.deferOrPublish answers).closeTask = some task → task.beforeRemoval = false := by
  unfold TcpConnection.deferOrPublish
  split
  · obtain ⟨waiter, waitersDone, publisher, he⟩ := c.deferCloseEvent_eq answers
    dsimp only
    rw [he]
    refine ⟨rfl, rfl, .inr rfl, fun task ht => task.beforeRemoval_of_past ?_⟩
    have hq := suspendClose_pc ht
    split at hq
    · cases hq
    · obtain ⟨w, -, hw⟩ := Option.map_eq_some_iff.mp hq
      rw [← hw]
      rfl
  · obtain ⟨h1, h2, -, h4⟩ := c.finalizeClose_log
    refine ⟨h1, h2, h4 hclosing, fun task ht => task.beforeRemoval_of_past ?_⟩
    obtain ⟨k, -, hk⟩ := Option.map_eq_some_iff.mp (suspendClose_pc ht)
    rw [← hk]
    rfl

theorem Torn.deferOrPublish (h : c.Torn) (hd : c.TornDown) (answers : CloseAnswers) :
    (c.deferOrPublish answers).Torn := by
  obtain ⟨hlog, hregistered, hclosing, htask⟩ := deferOrPublish_log hd.closing answers
  exact h.past hd hlog hregistered hclosing htask

/-! ## The steps -/

/-- The log and the phase after an entry that is neither a callback nor a publication. -/
theorem Torn.close (h : c.Torn) (byOpening : Bool) : (c.close byOpening).Torn := by
  have hmem : ∀ m, m ∈ c.log ++ [.closeCalled c.state] → m ≠ .closeCalled c.state → m ∈ c.log := fun m hm hne => by
    rw [List.mem_append, List.mem_singleton] at hm
    exact hm.resolve_right hne
  have honce : (c.log ++ [CloseMark.closeCalled c.state]).count .callback ≤ 1 := by simpa using h.once
  have hbefore : ∀ before p after, c.log ++ [.closeCalled c.state] = before ++ .emitted p :: after →
      .callback ∈ before := fun before p after hlog => by
    obtain ⟨-, hx, -⟩ | ⟨after', -, hlog⟩ := Runs.concat_eq_append_cons hlog
    · cases hx
    · exact h.before before p after' hlog
  have hunregistered : .published ∈ c.log ++ [.closeCalled c.state] → c.registered = false := fun hm =>
    h.unregistered (hmem _ hm nofun)
  have hcallback : .callback ∉ c.log → .callback ∉ c.log ++ [.closeCalled c.state] := fun hn hm => hn (hmem _ hm nofun)
  have hkept : .callback ∈ c.log → .callback ∈ c.log ++ [.closeCalled c.state] := fun hm => List.mem_append_left _ hm
  -- a call that finds the connection closing leaves the phase
  have hnoted : (c.note (.closeCalled c.state)).Torn := by
    refine ⟨?_, honce, hbefore, hunregistered⟩
    cases h.phase with
    | live h1 h2 h3 h4 h5 => exact .live h1 h2 (hcallback h3) h4 h5
    | tearing t h1 h2 h3 h4 h5 h6 => exact .tearing t h1 h2 h3 (hcallback h4) h5 h6
    | removing t h1 h2 h3 h4 h5 h6 => exact .removing t h1 h2 h3 (hkept h4) h5 h6
    | tornDown h => exact .tornDown ⟨h.closing, h.task, hkept h.callback, h.unregistered⟩
  unfold TcpConnection.close
  dsimp only
  split
  · exact hnoted
  · split
    · exact hnoted
    · unfold requestClose
      split
      · exact hnoted
      · next hnone =>
        refine ⟨?_, honce, hbefore, hunregistered⟩
        have hclosing : ∀ {state : ConnectionState}, (if state = .closed then ConnectionState.closed else .closing) =
            .closing ∨ (if state = .closed then ConnectionState.closed else .closing) = .closed := fun {state} => by
          split
          · exact .inr rfl
          · exact .inl rfl
        cases h.phase with
        | live h1 h2 h3 h4 h5 =>
          refine .tearing _ hclosing rfl ?_ (hcallback h3) h4 h5
          exact decide_eq_true ⟨fun hs => h1 (.inl hs), fun hs => h1 (.inr hs)⟩
        | tearing t h1 h2 => exact absurd (h2 ▸ rfl) hnone
        | removing t h1 h2 => exact absurd (h2 ▸ rfl) hnone
        | tornDown hd =>
          refine .tornDown ⟨hclosing, fun task ht => ?_, hkept hd.callback, hd.unregistered⟩
          cases ht
          have hstate : ¬(c.state ≠ .closing ∧ c.state ≠ .closed) := fun hs => hd.closing.elim hs.1 hs.2
          simp [ClosingTask.beforeRemoval, ClosingTask.awaitsCallback, note, hstate]

theorem Torn.tear (h : c.Torn) {task : ClosingTask} (htask : c.closeTask = some task) (hawaits : task.awaitsCallback)
    {pc : ClosingPc} (hpc : ClosingTask.awaitsCallback { task with pc }) : (c.suspendClose (some pc)).Torn := by
  refine ⟨?_, h.once, h.before, h.unregistered⟩
  cases h.phase with
  | live _ h2 => cases htask.symm.trans h2
  | tearing _ h1 h2 h3 h4 h5 h6 =>
    refine .tearing { task with pc } h1 ?_ hpc h4 h5 h6
    rw [TcpConnection.suspendClose, htask]
    rfl
  | removing _ _ h2 h3 =>
    cases htask.symm.trans h2
    rw [ClosingTask.awaitsCallback, h3] at hawaits
    cases hawaits
  | tornDown hd =>
    have hp := hd.task task htask
    rw [ClosingTask.beforeRemoval, hawaits] at hp
    cases hp

theorem Torn.invoke (h : c.Torn) {task : ClosingTask} (htask : c.closeTask = some task)
    (hpc : task.pc = .writerShutdown) : ((c.note .callback).suspendClose (some .awaitingStateLock)).Torn := by
  have hawaits : task.awaitsCallback := by rw [ClosingTask.awaitsCallback, hpc]
  cases h.phase with
  | live _ h2 => cases htask.symm.trans h2
  | tearing _ h1 h2 h3 h4 h5 h6 =>
    refine ⟨.removing { task with pc := .awaitingStateLock } h1 ?_ rfl ?_ h5 h6, ?_, ?_, ?_⟩
    · rw [TcpConnection.suspendClose, note, htask]
      rfl
    · exact List.mem_append_right _ (List.mem_singleton_self _)
    · change (c.log ++ [_]).count _ ≤ 1
      rw [List.count_append, List.count_eq_zero.mpr h4]
      exact Nat.le_refl 1
    · intro before p after hlog
      obtain ⟨-, hx, -⟩ | ⟨after', -, hlog⟩ := Runs.concat_eq_append_cons hlog
      · cases hx
      · exact h.before before p after' hlog
    · intro hm
      rw [TcpConnection.suspendClose, note, List.mem_append, List.mem_singleton] at hm
      exact h.unregistered (hm.resolve_right fun he => by cases he)
  | removing _ _ h2 h3 =>
    cases htask.symm.trans h2
    rw [hpc] at h3
    cases h3
  | tornDown hd =>
    have hp := hd.task task htask
    rw [ClosingTask.beforeRemoval, hawaits] at hp
    cases hp

/-- The callback has `_state_lock` and removes the connection. -/
theorem Torn.remove (h : c.Torn) {task : ClosingTask} (htask : c.closeTask = some task)
    (hpc : task.pc = .awaitingStateLock) :
    ({ c with registered := false }.suspendClose (some .inCallback)).Torn := by
  cases h.phase with
  | live _ h2 => cases htask.symm.trans h2
  | tearing _ _ h2 h3 =>
    cases htask.symm.trans h2
    rw [ClosingTask.awaitsCallback, hpc] at h3
    cases h3
  | removing _ h1 h2 _ h4 _ _ =>
    refine ⟨.tornDown ⟨h1, fun t ht => ?_, h4, rfl⟩, h.once, h.before, fun _ => rfl⟩
    have hp := Option.some.inj (suspendClose_pc ht)
    rw [ClosingTask.beforeRemoval, ClosingTask.awaitsCallback, ← hp]
    rfl
  | tornDown hd =>
    have hp := hd.task task htask
    rw [ClosingTask.beforeRemoval, hpc] at hp
    simp at hp

theorem Torn.closeTurn (h : c.Torn) {outcome : Outcome} {answers : CloseAnswers}
    (hkept : c.KeepsTeardown (.closeTurn outcome answers)) (ht : c.closeTurn outcome answers = some t) : t.Torn := by
  unfold TcpConnection.closeTurn at ht
  obtain ⟨task, htask, ht⟩ := Option.bind_eq_some_iff.mp ht
  -- before the removal, the await returned
  have hreturned : task.beforeRemoval = true → outcome = .returned := fun hb => by
    refine hkept.resolve_right fun ha => ?_
    rw [htask, Option.all_some, hb] at ha
    cases ha
  have hover : task.beforeRemoval = false → c.TornDown := h.tornDown_of_task htask
  cases hpc : task.pc with
  | created =>
    rw [hpc] at ht
    cases hneeds : task.needsTeardown with
    | true =>
      have hawaits : task.awaitsCallback := by rw [ClosingTask.awaitsCallback, hpc, hneeds]
      obtain rfl := hreturned (by rw [ClosingTask.beforeRemoval, hawaits]; rfl)
      simp only [hneeds, if_true] at ht
      cases ht
      exact h.tear htask hawaits rfl
    | false =>
      have hd := hover (by simp [ClosingTask.beforeRemoval, ClosingTask.awaitsCallback, hpc, hneeds])
      cases outcome with
      | returned =>
        simp only [hneeds] at ht
        cases ht
        exact h.deferOrPublish hd answers
      | raised => cases ht
      | cancelled => cases ht; exact h.suspendClose hd nofun
  | purging =>
    have hawaits : task.awaitsCallback := by rw [ClosingTask.awaitsCallback, hpc]
    obtain rfl := hreturned (by rw [ClosingTask.beforeRemoval, hawaits]; rfl)
    rw [hpc] at ht
    cases ht
    refine h.tear htask hawaits ?_
    split <;> rfl
  | awaitingRead =>
    have hawaits : task.awaitsCallback := by rw [ClosingTask.awaitsCallback, hpc]
    obtain rfl := hreturned (by rw [ClosingTask.beforeRemoval, hawaits]; rfl)
    rw [hpc] at ht
    cases ht
    exact h.tear htask hawaits rfl
  | writerShutdown =>
    obtain rfl := hreturned (by rw [ClosingTask.beforeRemoval, ClosingTask.awaitsCallback, hpc]; rfl)
    rw [hpc] at ht
    cases ht
    exact h.invoke htask hpc
  | awaitingStateLock =>
    obtain rfl := hreturned (by rw [ClosingTask.beforeRemoval, hpc]; simp)
    rw [hpc] at ht
    cases ht
    exact h.remove htask hpc
  | inCallback =>
    have hd := hover (by rw [ClosingTask.beforeRemoval, ClosingTask.awaitsCallback, hpc]; rfl)
    rw [hpc] at ht
    cases outcome with
    | returned | cancelled => cases ht; exact h.deferOrPublish hd answers
    | raised => cases ht; exact h.suspendClose hd nofun
  | awaitingWaiter w =>
    have hd := hover (by rw [ClosingTask.beforeRemoval, ClosingTask.awaitsCallback, hpc]; rfl)
    rw [hpc] at ht
    dsimp only at ht
    split at ht
    · cases ht
    · cases ht; exact h.suspendClose hd nofun
  | awaitingPublication k =>
    have hd := hover (by rw [ClosingTask.beforeRemoval, ClosingTask.awaitsCallback, hpc]; rfl)
    rw [hpc] at ht
    dsimp only at ht
    split at ht
    · cases ht
    · cases ht; exact h.suspendClose hd nofun

/-- A publication task goes on: there is one only past the callback. -/
theorem Torn.publicationTurn (h : c.Torn) {k : Nat} {outcome : Outcome} (ht : c.publicationTurn k outcome = some t) :
    t.Torn := by
  unfold TcpConnection.publicationTurn at ht
  obtain ⟨p, hk, ht⟩ := Option.bind_eq_some_iff.mp ht
  have hd := h.tornDown (.inl (List.ne_nil_of_mem (List.mem_of_getElem? hk)))
  have hnote : ∀ mark : CloseMark, mark ≠ .callback → t.log = c.log ++ [mark] → t.registered = c.registered →
      t.IsClosing → t.closeTask = c.closeTask → t.Torn := fun mark hne hlog hregistered hclosing htask => by
    have hregistered := hregistered.trans hd.unregistered
    refine ⟨.tornDown ⟨hclosing, fun task ht => hd.task task (htask ▸ ht), ?_, hregistered⟩, ?_, ?_, fun _ => hregistered⟩
    · exact hlog ▸ List.mem_append_left _ hd.callback
    · rw [hlog, List.count_append, List.count_singleton, if_neg (by simpa using hne)]
      exact h.once
    · intro before q after hl
      obtain ⟨rfl, -, -⟩ | ⟨after', -, hl⟩ := Runs.concat_eq_append_cons (hlog.symm.trans hl)
      · exact hd.callback
      · exact h.before before q after' hl
  cases hpc : p.pc with
  | created =>
    rw [hpc] at ht
    cases outcome with
    | returned => cases ht; exact hnote (.emitted p.previousState) nofun rfl rfl hd.closing rfl
    | raised => cases ht
    | cancelled => cases ht; exact h.past hd rfl rfl hd.closing hd.task
  | emitting =>
    rw [hpc] at ht
    dsimp only at ht
    split at ht
    · cases ht; exact hnote .published nofun rfl rfl hd.closing rfl
    · cases ht; exact h.past hd rfl rfl hd.closing hd.task
  | ended o =>
    rw [hpc] at ht
    cases ht

theorem Torn.publisherTurn (h : c.Torn) {outcome : Outcome} (ht : c.publisherTurn outcome = some t) : t.Torn := by
  unfold TcpConnection.publisherTurn at ht
  obtain ⟨pc, -, ht⟩ := Option.bind_eq_some_iff.mp ht
  cases pc with
  | created =>
    cases outcome with
    | returned | cancelled => cases ht; exact h.frame
    | raised => cases ht
  | waiting =>
    cases outcome with
    | returned => cases ht; exact h.publishDeferred.frame
    | raised => cases ht
    | cancelled =>
      cases ht
      obtain ⟨waitersDone, hw⟩ := c.completeWaiter_eq c.waiter
      rw [hw]
      exact h.frame
  | joining k waiter =>
    dsimp only at ht
    split at ht
    · cases ht
    · obtain ⟨w, waitersDone, hr⟩ := c.releaseWaiter_eq waiter
      rw [hr] at ht
      dsimp only at ht
      split at ht
      · cases ht; exact h.frame
      · cases ht
        obtain ⟨waitersDone', hw⟩ := { c with waiter := w, waitersDone, publisher := none }.completeWaiter_eq w
        rw [hw]
        exact h.frame

theorem Torn.publishTurn (h : c.Torn) {outcome : Outcome} (ht : c.publishTurn outcome = some t) : t.Torn := by
  unfold TcpConnection.publishTurn at ht
  split at ht
  · cases ht; exact h.publishDeferred.frame
  · cases ht; exact h.frame
  · next opened k waiter _ =>
    split at ht
    · cases ht
    · cases ht
      obtain ⟨w, waitersDone, hr⟩ := c.releaseWaiter_eq waiter
      rw [hr]
      exact h.frame
  · cases ht

theorem Torn.startTurn (h : c.Torn) {outcome : Outcome} (ht : c.startTurn outcome = some t) : t.Torn := by
  unfold TcpConnection.startTurn at ht
  split at ht
  · cases ht
    split
    · exact h.frame
    · exact h.frame
  all_goals first | cases ht; exact h.frame | cases ht; exact h.frame.close false | cases ht

theorem inTeardown_of_awaitsCallback {task : ClosingTask} (h : task.awaitsCallback) : task.inTeardown := by
  unfold ClosingTask.awaitsCallback at h
  unfold ClosingTask.inTeardown
  cases hpc : task.pc <;> rw [hpc] at h <;> first | rfl | exact h

/-- The caller has awaited `close()`: the teardown is over. -/
theorem Torn.ensure (h : c.Torn) (hp : c.Publishing) (ht : c.ensureDeferredClosePublicationWaiter = some t) :
    t.Torn := by
  unfold ensureDeferredClosePublicationWaiter at ht
  split at ht
  · next hcalled =>
    cases ht
    split
    · exact h
    · rw [Bool.and_eq_true, Bool.not_eq_true', List.any_eq_true] at hcalled
      obtain ⟨⟨m, hm, hmark⟩, hidle⟩ := hcalled
      have hclosing : c.IsClosing := by
        refine hp.called.mp (List.findSome?_isSome_iff.mpr ⟨m, hm, ?_⟩)
        cases m <;> first | rfl | cases hmark
      have hd : c.TornDown := by
        cases h.phase with
        | live h1 => exact absurd hclosing h1
        | tearing task _ h2 h3 =>
          rw [h2, Option.any_some, inTeardown_of_awaitsCallback h3] at hidle
          cases hidle
        | removing task _ h2 h3 =>
          rw [h2, Option.any_some, ClosingTask.inTeardown, h3] at hidle
          cases hidle
        | tornDown hd => exact hd
      obtain ⟨waiter, waitersDone, hw⟩ := { c with deferred := true }.ensureWaiter_eq
      rw [hw]
      exact h.past hd rfl rfl hd.closing hd.task
  · cases ht

theorem Torn.step (h : c.Torn) (hp : c.Publishing) {a : TcpConnectionAct} (hkept : c.KeepsTeardown a)
    (ht : c.step a = some t) : t.Torn := by
  cases a with
  | start =>
    simp only [TcpConnection.step] at ht
    split at ht
    · cases ht
      split
      · next hcreated =>
        have hnot : ¬c.IsClosing := fun hc => by rcases hc with hc | hc <;> rw [hcreated] at hc <;> cases hc
        refine ⟨?_, h.once, h.before, h.unregistered⟩
        cases h.phase with
        | live h1 h2 h3 h4 h5 => exact .live (fun hc => by rcases hc with hc | hc <;> cases hc) h2 h3 h4 h5
        | tearing _ h1 => exact absurd h1 hnot
        | removing _ h1 => exact absurd h1 hnot
        | tornDown hd => exact absurd hd.closing hnot
      · exact h.frame
    · cases ht
  | startTurn outcome => exact h.startTurn ht
  | publishTurn outcome => exact h.publishTurn ht
  | close byOpening =>
    cases ht
    exact h.close byOpening
  | closeTurn outcome answers => exact h.closeTurn hkept ht
  | publicationTurn k outcome => exact h.publicationTurn ht
  | publisherTurn outcome => exact h.publisherTurn ht
  | ensureWaiter => exact h.ensure hp ht

/-! ## The runs -/

/-- In every run in which no step of the teardown up to the removal from the registry raises or is cancelled, the callback
is invoked exactly once and before each close event, and a connection whose close was published is not registered. -/
theorem callbackFirst_of_reachable (c : TcpConnection)
    (hc : tcpConnectionMachine.Reachable (fun c a => c.KeepsTeardown a) c) : c.CallbackFirst := by
  have h : c.Torn := by
    refine hc.invariant_of (J := Publishing) (fun hc => publishing_of_reachable hc.any) (fun c hc => ?_)
      fun c a t hp h hok ht => h.step hp hok ht
    cases hc
    refine ⟨.live (fun hc => by rcases hc with hc | hc <;> cases hc) rfl nofun rfl rfl, Nat.zero_le 1,
      fun before p after hlog => ?_, nofun⟩
    exact absurd hlog.symm (List.append_ne_nil_of_right_ne_nil _ (List.cons_ne_nil _ _))
  refine ⟨h.once, fun hclosing hidle => ?_, h.before, h.unregistered⟩
  cases h.phase with
  | live h1 => exact absurd hclosing h1
  | tearing task _ h2 h3 =>
    have hi := hidle task h2
    rw [inTeardown_of_awaitsCallback h3] at hi
    cases hi
  | removing _ _ _ _ h4 => exact h4
  | tornDown hd => exact hd.callback

end TcpConnection

/-- `close()` is called again while the callback runs, and the callback is cancelled after the removal: the close is
published once, after the callback. -/
theorem callbackFirst_of_callbackCancelled :
    ∃ c, tcpConnectionMachine.Reachable (fun c a => c.KeepsTeardown a) c ∧
      (c.log = [.closeCalled .connected, .callback, .closeCalled .closing, .emitted .connected, .published] ∧
        c.CallbackFirst) := by
  have hrun : ∃ c, tcpConnectionMachine.Reachable (fun c a => c.KeepsTeardown a) c ∧
      decide (c.log = [.closeCalled .connected, .callback, .closeCalled .closing, .emitted .connected, .published]) :=
    Runs.Machine.Reachable.exists_of_execOk rfl
      [.start, .startTurn .returned, .startTurn .returned, .publishTurn .returned, .startTurn .returned, .close false,
        .closeTurn .returned {}, .closeTurn .returned { awaitsRead := true }, .closeTurn .returned {},
        .closeTurn .returned {}, .close false, .closeTurn .returned {}, .closeTurn .cancelled {},
        .publicationTurn 0 .returned, .publicationTurn 0 .returned, .closeTurn .returned {}] _ (by decide)
  obtain ⟨c, hc, hlog⟩ := hrun
  exact ⟨c, hc, of_decide_eq_true hlog, TcpConnection.callbackFirst_of_reachable c hc⟩

/-- `writer.close()` raises, and the close task fails; a second `close()` publishes without the callback, and the
connection stays registered. -/
theorem not_callbackFirst_of_writerCloseRaises :
    ¬∀ c, tcpConnectionMachine.Reachable Runs.Machine.Any c → c.CallbackFirst := by
  intro h
  have hrun : ∃ c, tcpConnectionMachine.Reachable Runs.Machine.Any c ∧
      decide (.callback ∉ c.log ∧ .published ∈ c.log ∧ c.registered = true) :=
    Runs.Machine.Reachable.exists_of_exec rfl
      [.start, .startTurn .returned, .startTurn .returned, .publishTurn .returned, .startTurn .returned, .close false,
        .closeTurn .returned {}, .closeTurn .returned { awaitsRead := true }, .closeTurn .raised {}, .close false,
        .closeTurn .returned {}, .publicationTurn 0 .returned, .publicationTurn 0 .returned, .closeTurn .returned {}]
      _ (by decide)
  obtain ⟨c, hc, hend⟩ := hrun
  obtain ⟨-, hpublished, hregistered⟩ := of_decide_eq_true hend
  have hnot := (h c hc).unregistered hpublished
  rw [hregistered] at hnot
  cases hnot

end Aionetx
