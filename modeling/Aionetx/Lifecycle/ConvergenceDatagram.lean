import Aionetx.Lifecycle.Convergence

/-!
# The stop of the datagram receiver

* `DatagramStopSnapshot.execute_teardown` : the teardown, with the socket that a failed receive task keeps open;
* `DatagramStopSnapshot.converged_deferred_iff` : a deferred stop reaches `STOPPED` only without a failure;
* `DatagramStopSnapshot.converged_ordinary_iff` : an ordinary stop always does, and stops the dispatcher unless the
  publication of `STOPPED` fails.
-/

namespace Aionetx

open Runs

/-! ## The datagram receiver -/

namespace DatagramStopSnapshot
variable (snapshot : DatagramStopSnapshot) (caller : StopCaller)

/-- What the plan of a receiver that is not `STOPPED` hands to the path. -/
theorem planned_of_planStop {w v : StopWorld} (hplan : planStop w.beginStop = some (snapshot, v))
    (hw : w.lifecycle ≠ .stopped) :
    snapshot.shouldTransitionToStopped = true ∧ v.lifecycle = .stopping ∧ Planned w v true := by
  unfold planStop at hplan
  split_ifs at hplan
  rcases hl : w.lifecycle with _ | _ | _ | _
  · exact absurd hl hw
  all_goals
    have hb : w.beginStop.lifecycle = w.lifecycle := rfl
    simp only [StopWorld.applyLifecycleState, hb, hl, LifecycleTransition.of, LifecycleTransition.event,
      ComponentLifecycleState.allows] at hplan
    cases hplan
  · exact ⟨rfl, rfl, rfl, rfl, rfl, rfl, rfl, .inl ⟨rfl, .inl rfl⟩⟩
  · exact ⟨rfl, rfl, rfl, rfl, rfl, rfl, rfl, .inl ⟨rfl, .inl rfl⟩⟩
  · exact ⟨rfl, rfl, rfl, rfl, rfl, rfl, rfl, .inl ⟨rfl, .inl rfl⟩⟩

/-- What the teardown of a receiver leaves alone. -/
structure Untouched (w u : StopWorld) : Prop extends SameCore w u where
  completionDeferred : u.completionDeferred = w.completionDeferred
  closeIsDeferred : u.closeIsDeferred = w.closeIsDeferred
  deferredCloseWaiters : u.deferredCloseWaiters = w.deferredCloseWaiters

theorem Untouched.trans {w u t : StopWorld} (h : Untouched w u) (h' : Untouched u t) : Untouched w t :=
  ⟨h.toSameCore.trans h'.toSameCore, h'.2.trans h.2, h'.3.trans h.3, h'.4.trans h.4⟩

theorem untouched_socket (outcome : Option Failure) (w : StopWorld) :
    Untouched w ((StopOp.release .socket).perform outcome w) := ⟨.perform rfl _ _, rfl, rfl, rfl⟩

theorem untouched_receiveTask (outcome : Option Failure) (w : StopWorld) :
    Untouched w ((StopOp.release .receiveTask).perform outcome w) := by
  refine ⟨.perform rfl _ _, ?_, ?_, ?_⟩ <;> rcases outcome with _ | _ | _ <;> rfl

theorem untouched_emitStopping (outcome : Option Failure) (w : StopWorld) :
    Untouched w (StopOp.emitStopping.perform outcome w) := by
  refine ⟨.perform rfl _ _, ?_, ?_, ?_⟩ <;> rcases outcome with _ | _ <;> rfl

theorem receiveTaskRaised_emitStopping (outcome : Option Failure) (w : StopWorld) :
    (StopOp.emitStopping.perform outcome w).receiveTaskRaised = w.receiveTaskRaised := by
  rcases outcome with _ | _ <;> rfl

/-- The await of the receive task raised exactly if it failed with an `Exception`. -/
theorem receiveTaskRaised_perform (outcome : Option Failure) {w : StopWorld} (hw : w.receiveTaskRaised = false) :
    ((StopOp.release .receiveTask).perform outcome w).receiveTaskRaised = decide (outcome = some .error) := by
  rcases outcome with _ | _ | _
  · exact hw
  · rfl
  · exact hw

/-- The socket is closed, unless the await of the receive task raised. -/
theorem execute_closeSocket (own : StopOp → Option Failure) (w : StopWorld) (error : Option Failure)
    (hw : w.receiveTaskRaised = true → error ≠ none) :
    ∃ u error', execute StopOp.perform own
        (if snapshot.sock then [.run (.release .socket) (fun p => !p.state.receiveTaskRaised) fun _ => false] else [])
        { state := w, error := error } = { state := u, error := error' } ∧ Untouched w u ∧
      (error' = none ↔ error = none ∧ ∀ op ∈ if snapshot.sock then [StopOp.release .socket] else [], own op = none) := by
  rcases hsock : snapshot.sock with _ | _
  · exact ⟨w, error, rfl, ⟨.refl w, rfl, rfl, rfl⟩, by simp⟩
  · rw [if_pos rfl, if_pos rfl]
    rcases hr : w.receiveTaskRaised with _ | _
    · rw [execute_run_of (by simp [hr])]
      change ∃ u error', execute StopOp.perform own [.attempt (.release .socket)] _ = _ ∧ _
      rw [execute_attempt rfl]
      refine ⟨_, _, rfl, untouched_socket _ w, ?_⟩
      simp [Option.or_eq_none_iff]
    · rw [execute_run_of_not (by simp [hr])]
      refine ⟨w, error, rfl, ⟨.refl w, rfl, rfl, rfl⟩, ?_⟩
      simp [hw hr]

/-- The teardown records every failure, and is clean exactly when none of its steps fails. -/
theorem execute_teardown (own : StopOp → Option Failure) {w : StopWorld} (hw : w.receiveTaskRaised = false)
    (error : Option Failure) :
    ∃ u error', execute StopOp.perform own (snapshot.teardownDatagramStopResources caller) { state := w, error := error } =
        { state := u, error := error' } ∧ Untouched w u ∧
      (error' = none ↔ error = none ∧ ∀ op ∈ snapshot.teardown caller, own op = none) := by
  unfold teardownDatagramStopResources teardown
  by_cases ht : (snapshot.task && caller.origin ≠ .activeInlineHandler && !caller.onOwnTask) = true
  · rw [if_pos ht, if_pos ht, List.singleton_append, execute_attempt rfl]
    have hraised := receiveTaskRaised_perform (own (.release .receiveTask)) hw
    obtain ⟨u, error', hu, hsame, herror⟩ := snapshot.execute_closeSocket own
      ((StopOp.release .receiveTask).perform (own (.release .receiveTask)) w) (error.or (own (.release .receiveTask)))
      fun h => by
        rw [hraised, decide_eq_true_eq] at h
        simp [h]
    refine ⟨u, error', hu, (untouched_receiveTask _ w).trans hsame, herror.trans ?_⟩
    simp [Option.or_eq_none_iff, and_assoc]
  · rw [if_neg ht, if_neg ht, List.nil_append, List.nil_append]
    exact snapshot.execute_closeSocket own w error (by simp [hw])

theorem applyStopped_lifecycle {w : StopWorld} (h : w.lifecycle = .stopping) : w.applyStopped.lifecycle = .stopped := by
  simp [StopWorld.applyStopped, StopWorld.applyLifecycleState, h, LifecycleTransition.of, LifecycleTransition.event,
    ComponentLifecycleState.allows]

/-- Statements that record every failure stay on the path and leave the lifecycle state alone. -/
theorem execute_recorded (stmts : List StopStmt) (h : ∀ stmt ∈ stmts, ∃ op runs, stmt = .run op runs fun _ => false)
    (fails : StopOp → Option Failure) {p : StopPath} (hp : p.left = false) :
    (execute StopOp.perform fails stmts p).left = false ∧
      (execute StopOp.perform fails stmts p).state.lifecycle = p.state.lifecycle := by
  refine execute_inv (I := fun q : StopPath => q.left = false ∧ q.state.lifecycle = p.state.lifecycle)
    (fun stmt hstmt q outcome hq => ?_) ⟨hp, rfl⟩
  obtain ⟨op, runs, rfl⟩ := h stmt hstmt
  simp only [Stmt.turn]
  split_ifs
  · refine ⟨?_, ?_⟩
    · rcases outcome with _ | e
      · exact hq.1
      · simpa [Path.record] using hq.1
    · rw [Path.record_state, StopOp.perform_lifecycle]
      exact hq.2
  · exact hq

theorem execute_publishStoppedTransition (hs : snapshot.shouldTransitionToStopped = true)
    (fails : StopOp → Option Failure) {p : StopPath} (hp : p.left = false) (hl : p.state.lifecycle = .stopping) :
    (execute StopOp.perform fails (snapshot.publishStoppedTransition fun _ => false) p).left = false ∧
      (execute StopOp.perform fails (snapshot.publishStoppedTransition fun _ => false) p).state.lifecycle = .stopped := by
  unfold publishStoppedTransition
  rw [if_pos hs, execute_apply hp]
  obtain ⟨hleft, hlifecycle⟩ := execute_recorded [.run .emitStopped Path.clean fun _ => false]
    (fun stmt h => ⟨_, _, List.mem_singleton.1 h⟩) fails (p := StopPath.update StopWorld.applyStopped p) hp
  exact ⟨hleft, hlifecycle.trans (applyStopped_lifecycle hl)⟩

theorem converged_completeAfterDeferredCloseAndStop (hs : snapshot.shouldTransitionToStopped = true)
    (later : StopOp → Option Failure) {w : StopWorld} (hl : w.lifecycle = .stopping) :
    (execute StopOp.perform later snapshot.completeAfterDeferredCloseAndStop { state := w }).state.Converged := by
  unfold completeAfterDeferredCloseAndStop
  rw [List.cons_append, execute_attempt rfl, execute_append]
  obtain ⟨hleft, hstopped⟩ := snapshot.execute_publishStoppedTransition hs later
    (p := { state := StopOp.joinDeferredClose.perform (later .joinDeferredClose) w, error := later .joinDeferredClose })
    rfl ((StopOp.perform_lifecycle ..).trans hl)
  exact converged_stopDispatcher hleft hstopped later

/-- The completion task of a deferred stop converges, once the wait for the handler has succeeded. -/
theorem converged_completeAfterDeferredStopEvents_iff (hs : snapshot.shouldTransitionToStopped = true)
    (later : StopOp → Option Failure) {w : StopWorld} (hl : w.lifecycle = .stopping) :
    (execute StopOp.perform later snapshot.completeAfterDeferredStopEvents { state := w }).state.Converged ↔
      later .waitForHandlerContext = none := by
  unfold completeAfterDeferredStopEvents
  simp only [List.cons_append, List.nil_append, List.append_assoc]
  rcases h : later .waitForHandlerContext with _ | e
  · rw [execute_plain_of_returned rfl h, execute_apply rfl]
    refine iff_of_true ?_ rfl
    -- from here to the publication of STOPPED every failure is recorded
    set recorded : List StopStmt := .attempt .emitStopping ::
      if snapshot.shouldEmitClosedEvent then
        [.ifClean .publishClosed, .run .joinDeferredClose (fun p => p.clean && p.state.deferredCloseWaiters) fun _ => false]
      else [] with hrecorded
    set p : StopPath := StopPath.update (fun w => w.inlineDeliveryContext true)
      { state := StopOp.waitForHandlerContext.perform none w }
    obtain ⟨hleft, hlifecycle⟩ := execute_recorded recorded (fun stmt hstmt => by
      rw [hrecorded] at hstmt
      split_ifs at hstmt <;> simp only [List.mem_cons, List.not_mem_nil, or_false] at hstmt
      · rcases hstmt with rfl | rfl | rfl <;> exact ⟨_, _, rfl⟩
      · exact ⟨_, _, hstmt⟩) later (p := p) rfl
    rw [← List.cons_append, execute_append, execute_append]
    obtain ⟨hleft, hstopped⟩ := snapshot.execute_publishStoppedTransition hs later hleft (hlifecycle.trans hl)
    rw [execute_apply hleft]
    refine converged_stopDispatcher ?_ ?_ later
    · exact hleft
    · exact hstopped
  · rw [execute_plain_of_failed rfl h]
    refine iff_of_false (fun hc => ?_) (by simp)
    cases (hc.1.symm.trans hl)

theorem converged_deferred_iff (hd : caller.origin.defersTerminalEvents = true) {w v : StopWorld}
    (hs : snapshot.shouldTransitionToStopped = true) (hl : v.lifecycle = .stopping) (hv : Planned w v true)
    (own later : StopOp → Option Failure) :
    ((snapshot.ownedStop caller).finish own later v).Converged ↔ snapshot.StopConverges caller own later w := by
  unfold StopConverges ownedStop OwnedStop.finish
  rw [if_pos hd, if_pos hd]
  dsimp only
  obtain ⟨u, error, hu, hsame, herror⟩ := snapshot.execute_teardown caller own hv.receiveTaskRaised none
  unfold runDeferredStopPath
  rw [execute_append, hu]
  have hul : u.lifecycle = .stopping := hsame.lifecycle.trans hl
  have huc : u.completionDeferred = false := hsame.completionDeferred.trans hv.completionDeferred
  rcases error with _ | e
  · have hclean := (herror.1 rfl).2
    rw [execute_ifClean_of_clean, execute_apply rfl, execute_nil]
    rcases hf : own .stopDispatcherFromHandlerOrigin with _ | e
    · have hsched : StopPath.scheduleDeferredStopEvents
          { state := StopOp.stopDispatcherFromHandlerOrigin.perform none u } =
          { state := { u with stopping := true, completionDeferred := true } } := rfl
      rw [hsched, if_pos rfl]
      refine (snapshot.converged_completeAfterDeferredStopEvents_iff hs later (w :=
        { u with stopping := true, completionDeferred := true }) hul).trans (and_iff_right ?_).symm
      intro op hop
      rcases List.mem_append.1 hop with hop | hop
      · exact hclean op hop
      · rw [List.mem_singleton.1 hop, hf]
    · have hsched : StopPath.scheduleDeferredStopEvents
          { state := StopOp.stopDispatcherFromHandlerOrigin.perform (some e) u, error := some e } =
          { state := { u with stopping := true }, error := some e } := rfl
      rw [hsched, if_neg (by simp [huc])]
      refine iff_of_false (fun hc => by cases hul.symm.trans hc.1) fun hc => ?_
      have := hc.1 .stopDispatcherFromHandlerOrigin (by simp)
      rw [hf] at this
      cases this
  · rw [execute_ifClean_of_error rfl, execute_apply rfl, execute_nil]
    have hsched : StopPath.scheduleDeferredStopEvents { state := u, error := some e } = { state := u, error := some e } :=
      rfl
    rw [hsched, if_neg (by simp [huc])]
    refine iff_of_false (fun hc => by cases hul.symm.trans hc.1) fun hc => ?_
    cases herror.2 ⟨rfl, fun op hop => hc.1 op (List.mem_append_left _ hop)⟩

/-- The steps of `_publish_stop_closed_event`. -/
def closeSteps (closeIsDeferred : Bool) : List StopOp :=
  if snapshot.shouldEmitClosedEvent then .publishClosed :: if closeIsDeferred then [.awaitDeferredClose] else [] else []

/-- The close publication either stays on the path, clean exactly when none of its steps fails, or a cancellation leaves
the path and the completion task has been created. -/
theorem execute_publishStopClosedEvent (own : StopOp → Option Failure) {u : StopWorld} (error : Option Failure)
    (hcompletion : u.completionDeferred = false) :
    ∃ q : StopPath, execute StopOp.perform own snapshot.publishStopClosedEvent { state := u, error := error } = q ∧
      SameCore u q.state ∧
      (q.left = false ∧ q.state.completionDeferred = false ∧
          (q.error = none ↔ error = none ∧ ∀ op ∈ snapshot.closeSteps u.closeIsDeferred, own op = none) ∨
        q.left = true ∧ q.state.completionDeferred = true ∧ ∃ op ∈ snapshot.closeSteps u.closeIsDeferred, own op ≠ none) := by
  unfold publishStopClosedEvent closeSteps
  refine ⟨_, rfl, ?_⟩
  rcases hemit : snapshot.shouldEmitClosedEvent with _ | _
  · exact ⟨.refl u, .inl ⟨rfl, hcompletion, by simp⟩⟩
  rw [if_pos rfl, if_pos rfl]
  rcases error with _ | e
  swap
  · rw [execute_ifClean_of_error rfl, execute_run_of_not rfl]
    exact ⟨.refl u, .inl ⟨rfl, hcompletion, by simp⟩⟩
  rw [execute_ifClean_of_clean]
  rcases hpub : own .publishClosed with _ | e
  swap
  · rw [execute_run_of_not rfl]
    exact ⟨.refl u, .inl ⟨rfl, hcompletion, by simp [hpub]⟩⟩
  rcases hdef : u.closeIsDeferred with _ | _
  · rw [execute_run_of_not (by simp [StopOp.perform, hdef])]
    exact ⟨⟨rfl, rfl⟩, .inl ⟨rfl, hcompletion, by simp [hpub]⟩⟩
  rw [execute_run_of (by simp [StopOp.perform, hdef, Path.clean])]
  rcases hawait : own .awaitDeferredClose with _ | _ | _ <;>
    simp only [execute_cons, executeStep, Stmt.turn, Stmt.operation, hawait, if_true, execute_nil, Option.bind_some,
      Bool.false_eq_true, if_false]
  · exact ⟨⟨rfl, rfl⟩, .inl ⟨rfl, hcompletion, by simp [hpub, hawait]⟩⟩
  · exact ⟨⟨rfl, rfl⟩, .inl ⟨rfl, hcompletion, by simp [Path.record, hpub, hawait]⟩⟩
  · exact ⟨⟨rfl, rfl⟩, .inr ⟨rfl, rfl, .awaitDeferredClose, by simp, by simp [hawait]⟩⟩

theorem ordinarySteps_eq (closeIsDeferred : Bool) :
    snapshot.ordinarySteps caller closeIsDeferred =
      .emitStopping :: (snapshot.teardown caller ++ snapshot.closeSteps closeIsDeferred) := rfl

theorem execute_runOrdinaryStopPath (own : StopOp → Option Failure) {w v : StopWorld} (hv : Planned w v true) :
    ∃ q : StopPath, execute StopOp.perform own (snapshot.runOrdinaryStopPath caller) { state := v } =
        execute StopOp.perform own (snapshot.publishStoppedTransition (fun _ => true) ++ [.attempt .stopDispatcher]) q ∧
      SameCore v q.state ∧
      (q.left = false ∧ q.state.completionDeferred = false ∧
          (q.error = none ↔ ∀ op ∈ snapshot.ordinarySteps caller w.closeIsDeferred, own op = none) ∨
        q.left = true ∧ q.state.completionDeferred = true ∧
          ∃ op ∈ snapshot.ordinarySteps caller w.closeIsDeferred, own op ≠ none) := by
  obtain ⟨u, error, hu, hsame, herror⟩ := snapshot.execute_teardown caller own
    (w := StopOp.emitStopping.perform (own .emitStopping) v)
    ((receiveTaskRaised_emitStopping ..).trans hv.receiveTaskRaised) (own .emitStopping)
  have hvu : Untouched v u := (untouched_emitStopping _ v).trans hsame
  obtain ⟨q, hq, hcore, hend⟩ := snapshot.execute_publishStopClosedEvent own (u := u) error
    (hvu.completionDeferred.trans hv.completionDeferred)
  rw [hvu.closeIsDeferred.trans hv.closeIsDeferred] at hend
  refine ⟨q, ?_, hvu.toSameCore.trans hcore, ?_⟩
  · unfold runOrdinaryStopPath
    simp only [List.append_assoc, List.cons_append]
    rw [execute_attempt rfl, execute_append, Option.none_or, hu, execute_append, hq]
  · rw [ordinarySteps_eq]
    rcases hend with ⟨hleft, hcompletion, herr⟩ | ⟨hleft, hcompletion, op, hop, hfail⟩
    · refine .inl ⟨hleft, hcompletion, herr.trans ?_⟩
      rw [herror, and_assoc, List.forall_mem_cons, List.forall_mem_append]
    · exact .inr ⟨hleft, hcompletion, op, List.mem_cons_of_mem _ (List.mem_append_right _ hop), hfail⟩

theorem completeAfterDeferredCloseAndStop_keeps (f : StopPath → StopPath)
    (hf : Stmt.apply f ∈ snapshot.completeAfterDeferredCloseAndStop) (p : StopPath) (hp : p.state.Converged) :
    (f p).state.Converged := by
  unfold completeAfterDeferredCloseAndStop publishStoppedTransition at hf
  split_ifs at hf <;> simp [Stmt.attempt] at hf
  subst hf
  exact hp.applyStopped

/-- The end of the ordinary path: a publication of `STOPPED` that fails leaves the dispatcher running. -/
theorem execute_publishStopped_last (hs : snapshot.shouldTransitionToStopped = true) (own : StopOp → Option Failure)
    {q : StopPath} (hq : q.left = false) (hl : q.state.lifecycle = .stopping) :
    let p := execute StopOp.perform own
      (snapshot.publishStoppedTransition (fun _ => true) ++ [.attempt .stopDispatcher]) q
    if q.error = none ∧ own .emitStopped ≠ none then p.state = q.state.applyStopped else p.state.Converged := by
  have hstopped := applyStopped_lifecycle hl
  unfold publishStoppedTransition
  rw [if_pos hs, List.cons_append, List.singleton_append, execute_apply hq]
  obtain ⟨w, error, left⟩ := q
  cases hq
  dsimp only [StopPath.update] at hstopped ⊢
  rcases error with _ | e
  · rcases h : own .emitStopped with _ | e
    · rw [if_neg (by simp), execute_run_of rfl]
      change (execute StopOp.perform own (.plain .emitStopped :: _) _).state.Converged
      rw [execute_plain_of_returned rfl h]
      exact converged_stopDispatcher rfl ((StopOp.perform_lifecycle ..).trans hstopped) own
    · rw [if_pos ⟨rfl, by simp⟩, execute_run_of rfl]
      change (execute StopOp.perform own (.plain .emitStopped :: _) _).state = _
      rw [execute_plain_of_failed rfl h]
      rfl
  · rw [if_neg (by simp), execute_run_of_not rfl]
    exact converged_stopDispatcher rfl hstopped own

theorem converged_ordinary_iff (hd : caller.origin.defersTerminalEvents = false) {w v : StopWorld}
    (hs : snapshot.shouldTransitionToStopped = true) (hl : v.lifecycle = .stopping) (hv : Planned w v true)
    (own later : StopOp → Option Failure) :
    ((snapshot.ownedStop caller).finish own later v).Converged ↔ snapshot.StopConverges caller own later w := by
  unfold StopConverges ownedStop
  simp only [hd, Bool.false_eq_true, if_false]
  obtain ⟨q, hq, hcore, hend⟩ := snapshot.execute_runOrdinaryStopPath caller own hv
  have hql : q.state.lifecycle = .stopping := hcore.lifecycle.trans hl
  rcases hend with ⟨hleft, hcompletion, herror⟩ | ⟨hleft, hcompletion, hdirty⟩
  · have hlast := snapshot.execute_publishStopped_last hs own hleft hql
    by_cases hc : q.error = none ∧ own .emitStopped ≠ none
    · rw [if_pos hc] at hlast
      have haccepting : q.state.applyStopped.accepting = w.accepting :=
        hcore.accepting.trans hv.accepting
      have hfinish : ∀ stop : OwnedStop, stop.path = snapshot.runOrdinaryStopPath caller →
          stop.finish own later v = q.state.applyStopped := by
        intro stop hstop
        unfold OwnedStop.finish
        dsimp only
        rw [hstop, hq, hlast, if_neg]
        exact fun h => by cases hcompletion.symm.trans h
      rw [hfinish _ rfl]
      constructor
      · exact fun h => .inl (haccepting ▸ h.2)
      · rintro (h | h | ⟨op, hop, hfail⟩)
        · exact ⟨applyStopped_lifecycle hql, haccepting.trans h⟩
        · exact absurd h hc.2
        · exact absurd (herror.1 hc.1 op hop) hfail
    · rw [if_neg hc] at hlast
      refine iff_of_true (OwnedStop.finish_converged ?_ snapshot.completeAfterDeferredCloseAndStop_keeps) (.inr ?_)
      · dsimp only
        rw [hq]
        exact hlast
      · by_cases he : own .emitStopped = none
        · exact .inl he
        · refine .inr ?_
          simpa using fun h => hc ⟨herror.2 h, he⟩
  · refine iff_of_true ?_ (.inr (.inr hdirty))
    unfold OwnedStop.finish
    dsimp only
    rw [hq, execute_of_left hleft, if_pos hcompletion]
    exact snapshot.converged_completeAfterDeferredCloseAndStop hs later hql

end DatagramStopSnapshot

end Aionetx
