import Aionetx.Lifecycle.Convergence

/-!
# The stops of the TCP client and the TCP server

* `TcpServerStopPlan.converged_executeOwnedStop` : the owner's path of a server ends converged whatever fails;
* `TcpClientStopPlan.converged_executeOwnedStop` : the client's paths that do;
* `TcpClientStopPlan.converged_completeDeferredStop_iff` : its completion task;
* `TcpClientStopPlan.converged_iff` : when a client's stop converges.
-/

namespace Aionetx

open Runs

/-! ## The TCP server -/

namespace TcpServerStopPlan
variable (plan : TcpServerStopPlan) (caller : StopCaller)

/-- The steps of the path before `STOPPED` is applied. -/
def steps : List StopOp :=
  (if caller.origin.defersTerminalEvents then .stopDispatcherFromHandlerOrigin else .emitStopping) ::
    ((if plan.server then [.release .listener] else []) ++ [.release .heartbeatSenders] ++
      (if plan.connections then [.release .connections] else []) ++ if plan.server then [.waitListenerClosed] else [])

theorem executeOwnedStop_eq : plan.executeOwnedStop caller = (plan.steps caller).map .attempt ++
    if plan.shouldTransitionToStopped then
      .apply (StopPath.update StopWorld.applyStoppedIfStopping) :: finishStopWithDispatcher caller
    else if caller.origin.defersTerminalEvents then [.apply StopPath.scheduleDeferredStopEvents]
    else [] := by
  unfold executeOwnedStop steps teardownServerStopResources
  congr 1
  cases caller.origin.defersTerminalEvents <;> cases plan.server <;> cases plan.connections <;> rfl

/-- The owner's path of a server ends converged, whatever fails. -/
theorem converged_executeOwnedStop {v : StopWorld} (own : StopOp → Option Failure)
    (hv : plan.shouldTransitionToStopped = true ∧ (v.lifecycle = .stopping ∨ v.lifecycle = .stopped) ∨
      plan.shouldTransitionToStopped = false ∧ v.Converged) :
    (execute StopOp.perform own (plan.executeOwnedStop caller) { state := v }).state.Converged := by
  rw [executeOwnedStop_eq, execute_append, execute_attempts _ rfl]
  have hlifecycle := foldl_perform_lifecycle (plan.steps caller) own v
  rcases hv with ⟨hs, hl⟩ | ⟨hs, hv⟩
  · rw [if_pos hs, execute_apply rfl]
    dsimp only [StopPath.update]
    have hstopped := applyStoppedIfStopping_lifecycle (hlifecycle ▸ hl)
    unfold finishStopWithDispatcher
    by_cases hd : caller.origin.defersTerminalEvents = true
    · rw [if_pos hd]
      refine converged_finishDeferred caller.origin ⟨hstopped, ?_⟩ own
      unfold steps
      rw [if_pos hd, List.foldl_cons]
      exact foldl_perform_not_accepting _ own
        (StopOp.perform_accepting_of_stops .stopDispatcherFromHandlerOrigin _ _ rfl)
    · rw [if_neg hd]
      exact converged_finishOrdinary rfl hstopped own
  · rw [if_neg (by simp [hs])]
    refine converged_execute (fun f hf p hp => ?_) ⟨hlifecycle.trans hv.1, foldl_perform_not_accepting _ own hv.2⟩
    split_ifs at hf
    · cases List.mem_singleton.1 hf
      exact (scheduleDeferredStopEvents_core p).converged hp
    · cases hf

/-- Nothing that the completion task does between its steps undoes it. -/
theorem completeDeferredStop_keeps (f : StopPath → StopPath) (hf : Stmt.apply f ∈ completeDeferredStop) (p : StopPath)
    (hp : p.state.Converged) : (f p).state.Converged := by
  simp only [completeDeferredStop, Stmt.plain, List.mem_cons, List.not_mem_nil, or_false, false_or, reduceCtorEq,
    Stmt.apply.injEq] at hf
  rcases hf with rfl | rfl <;> exact hp

end TcpServerStopPlan

/-! ## The TCP client -/

namespace TcpClientStopPlan
variable (plan : TcpClientStopPlan) (caller : StopCaller)

/-- The steps of the path before `STOPPED` is applied. -/
def steps : List StopOp := (if caller.origin.defersTerminalEvents then [] else [.emitStopping]) ++ plan.cleanup

theorem executeOwnedStop_eq : plan.executeOwnedStop caller = (plan.steps caller).map .attempt ++
    if plan.shouldStopDispatcher then
      .apply (StopPath.update StopWorld.applyStoppedIfStopping) :: finishStopWithDispatcher caller
    else if caller.origin.defersTerminalEvents then [.apply StopPath.scheduleDeferredStopEvents]
    else [] := by
  unfold executeOwnedStop steps cleanup awaitOrCancelSupervisor teardownClientStopResources
  congr 1
  split_ifs <;> rfl

theorem stopsDispatcher_of_mem_cleanup {op : StopOp} (h : op ∈ plan.cleanup) : op.stopsDispatcher = false := by
  unfold cleanup at h
  split_ifs at h <;>
    simp only [List.cons_append, List.nil_append, List.mem_cons, List.not_mem_nil, or_false] at h <;>
    rcases h with rfl | rfl | rfl | rfl <;> rfl

/-- A step of the completion task before the dispatcher stops: a failure leaves the dispatcher as it is. -/
theorem converged_plain_iff {op : StopOp} (hop : op.stopsDispatcher = false) {w : StopWorld} (ha : w.accepting = true)
    (later : StopOp → Option Failure) (stmts : List StopStmt) :
    (execute StopOp.perform later (.plain op :: stmts) { state := w }).state.Converged ↔
      later op = none ∧ (execute StopOp.perform later stmts { state := op.perform none w }).state.Converged := by
  rcases h : later op with _ | e
  · rw [execute_plain_of_returned rfl h]
    exact (and_iff_right rfl).symm
  · rw [execute_plain_of_failed rfl h]
    refine iff_of_false (fun hc => ?_) (fun hc => by cases hc.1)
    have := hc.2
    rw [StopOp.perform_accepting _ _ _ hop, ha] at this
    cases this

/-- The end of the completion task: `STOPPED` is published, then the dispatcher stops. -/
theorem converged_publishAndStop_iff {w : StopWorld} (hl : w.lifecycle = .stopped) (ha : w.accepting = true)
    (later : StopOp → Option Failure) :
    (execute StopOp.perform later
      [.plain .emitStopped, .apply (StopPath.update fun w => w.inlineDeliveryContext false), .plain .stopDispatcher]
      { state := w }).state.Converged ↔ later .emitStopped = none := by
  rw [converged_plain_iff rfl ha, execute_apply rfl]
  refine and_iff_left ?_
  dsimp only [StopPath.update]
  have hl' : (StopOp.emitStopped.perform none w).lifecycle = .stopped := (StopOp.perform_lifecycle ..).trans hl
  rcases h : later .stopDispatcher with _ | e
  · rw [execute_plain_of_returned rfl h, execute_nil]
    exact ⟨hl', StopOp.perform_accepting_of_stops .stopDispatcher _ _ rfl⟩
  · rw [execute_plain_of_failed rfl h]
    exact ⟨hl', StopOp.perform_accepting_of_stops .stopDispatcher _ _ rfl⟩

theorem converged_awaitSupervisor_iff (awaits : Bool) {w : StopWorld} (hl : w.lifecycle = .stopped)
    (ha : w.accepting = true) (later : StopOp → Option Failure) :
    (execute StopOp.perform later
      ((if awaits then [.plain (.release .supervisorTask)] else []) ++
        [.plain .emitStopped, .apply (StopPath.update fun w => w.inlineDeliveryContext false),
          .plain .stopDispatcher]) { state := w }).state.Converged ↔
      ∀ op ∈ (if awaits then [StopOp.release .supervisorTask] else []) ++ [.emitStopped], later op = none := by
  cases awaits
  · rw [if_neg (by simp), List.nil_append, converged_publishAndStop_iff hl ha]
    simp
  · rw [if_pos rfl, List.singleton_append, converged_plain_iff rfl ha, converged_publishAndStop_iff
      ((StopOp.perform_lifecycle ..).trans hl) ((StopOp.perform_accepting (.release .supervisorTask) _ _ rfl).trans ha)]
    simp

/-- The completion task stops the dispatcher exactly when nothing fails before. -/
theorem converged_completeDeferredStop_iff (hplan : plan.shouldStopDispatcher = true) {w : StopWorld}
    (hl : w.lifecycle = .stopped) (ha : w.accepting = true) (later : StopOp → Option Failure) :
    (execute StopOp.perform later (plan.completeDeferredStop caller) { state := w }).state.Converged ↔
      ∀ op ∈ plan.completionSteps caller w.deferredCloseWaiters, later op = none := by
  unfold completeDeferredStop completionSteps
  rw [hplan, if_pos rfl]
  simp only [List.append_assoc, List.cons_append, List.nil_append]
  rw [converged_plain_iff rfl ha, execute_apply rfl]
  dsimp only [StopPath.update]
  set u := (StopOp.waitForHandlerContext.perform none w).inlineDeliveryContext true
  have hu : u.accepting = true := ha
  rw [converged_plain_iff rfl hu]
  set v := StopOp.emitStopping.perform none u with hv
  have hvl : v.lifecycle = .stopped := by
    rw [hv, StopOp.perform_lifecycle]
    exact hl
  have hva : v.accepting = true := by
    rw [hv, StopOp.perform_accepting _ _ _ rfl]
    exact ha
  have hvd : v.deferredCloseWaiters = w.deferredCloseWaiters := by
    rw [hv]
    rfl
  rcases hd : w.deferredCloseWaiters with _ | _
  · rw [execute_run_of_not (hvd.trans hd), converged_awaitSupervisor_iff _ hvl hva]
    simp
  · rw [execute_run_of (hvd.trans hd)]
    change _ ∧ _ ∧ (execute StopOp.perform later (.plain .joinDeferredClose :: _) { state := v }).state.Converged ↔ _
    rw [converged_plain_iff rfl hva, show StopOp.joinDeferredClose.perform none v = v from rfl,
      converged_awaitSupervisor_iff _ hvl hva]
    simp

/-- Closing the connections says whether there is a deferred close to await. -/
theorem foldl_cleanup_deferredCloseWaiters (own : StopOp → Option Failure) {v : StopWorld}
    (hv : v.deferredCloseWaiters = false) :
    (plan.cleanup.foldl (fun s op => op.perform (own op) s) v).deferredCloseWaiters =
      (v.closeIsDeferred && (own (.release .connections)).isNone) := by
  unfold cleanup
  rcases hc : own (.release .connections) with _ | e <;> split_ifs <;> simp [StopOp.perform, StopWorld.release, hc, hv]

theorem foldl_cleanup_completionDeferred (own : StopOp → Option Failure) (v : StopWorld) :
    (plan.cleanup.foldl (fun s op => op.perform (own op) s) v).completionDeferred = v.completionDeferred := by
  unfold cleanup
  rcases hc : own (.release .connections) with _ | e <;> split_ifs <;> simp [StopOp.perform, StopWorld.release, hc]

/-- What the plan of a client that was not left in `STOPPING` hands to the path. -/
theorem planned_of_planStop {w v : StopWorld} (hplan : planStop caller w.beginStop = some (plan, v))
    (hw : w.lifecycle ≠ .stopping) : Planned w v plan.shouldStopDispatcher := by
  unfold planStop at hplan
  split_ifs at hplan with hfull hstop
  · have hl : w.lifecycle = .stopped := hstop.resolve_left hw
    have hworker : w.worker = false → w.accepting = false := fun h => by simp [StopWorld.accepting, h]
    unfold addExistingSupervisor at hplan
    split_ifs at hplan <;> cases hplan <;> refine ⟨rfl, rfl, rfl, rfl, rfl, ?_⟩
    all_goals
      rcases h : w.worker with _ | _
      · exact .inr ⟨h, hl, hworker h⟩
      · exact .inl ⟨h, .inr hl⟩
  · have hactive : w.beginStop.lifecycle.active = true := by
      cases h : w.beginStop.lifecycle <;> simp_all [ComponentLifecycleState.active]
    rw [StopWorld.applyLifecycleState_stopping _ hactive] at hplan
    cases hplan
    exact ⟨rfl, rfl, rfl, rfl, rfl, .inl ⟨rfl, .inl rfl⟩⟩

/-- The end of a client's path in the deferred case, after the first error of its cleanup. -/
theorem execute_finishStopWithDispatcher (hd : caller.origin.defersTerminalEvents = true) {e : Failure} {w : StopWorld}
    (own : StopOp → Option Failure) :
    execute StopOp.perform own (finishStopWithDispatcher caller) { state := w, error := some e } =
      if caller.origin = .activeInlineHandler ∧ e = .cancelled then
        { state := { w with raiseCancelAfterStopWaiter := true, completionDeferred := true } }
      else { state := w, error := some e } := by
  unfold finishStopWithDispatcher
  rw [if_pos hd, execute_ifClean_of_error rfl]
  by_cases ho : caller.origin = .activeInlineHandler
  · rw [if_pos ho, List.singleton_append, execute_apply rfl]
    cases e
    · rw [if_neg (by simp), execute_apply rfl]
      rfl
    · rw [if_pos ⟨ho, rfl⟩, execute_apply rfl]
      rfl
  · rw [if_neg ho, if_neg (by simp [ho]), List.nil_append, execute_apply rfl]
    rfl

/-- Nothing that the completion task does between its steps undoes convergence. -/
theorem completeDeferredStop_keeps (f : StopPath → StopPath) (hf : Stmt.apply f ∈ plan.completeDeferredStop caller)
    (p : StopPath) (hp : p.state.Converged) : (f p).state.Converged := by
  unfold completeDeferredStop at hf
  split_ifs at hf <;>
    simp only [Stmt.plain, List.cons_append, List.nil_append, List.mem_cons, List.not_mem_nil, or_false, false_or,
      reduceCtorEq, Stmt.apply.injEq] at hf <;>
    rcases hf with rfl | rfl <;> exact hp

/-- The deferred end of a client's path converges if the dispatcher accepts nothing or the path is clean. -/
theorem converged_finishStopWithDispatcher (hd : caller.origin.defersTerminalEvents = true) {w : StopWorld}
    {error : Option Failure} (hl : w.lifecycle = .stopped) (h : w.accepting = false ∨ error = none)
    (own : StopOp → Option Failure) :
    (execute StopOp.perform own (finishStopWithDispatcher caller) { state := w, error := error }).state.Converged := by
  unfold finishStopWithDispatcher
  rw [if_pos hd]
  rcases error with _ | e
  · rw [execute_ifClean_of_clean]
    exact converged_finishDeferred caller.origin
      ⟨hl, StopOp.perform_accepting_of_stops _ (own .stopDispatcherFromHandlerOrigin) w rfl⟩ own
  · rw [execute_ifClean_of_error rfl]
    exact converged_finishDeferred caller.origin ⟨hl, h.resolve_right (by simp)⟩ own

theorem converged_executeOwnedStop {v : StopWorld} (own : StopOp → Option Failure)
    (hl : plan.shouldStopDispatcher = true ∧ (v.lifecycle = .stopping ∨ v.lifecycle = .stopped) ∨
      plan.shouldStopDispatcher = false ∧ v.Converged)
    (hgood : v.accepting = false ∨ caller.origin = .external ∨ plan.cleanup.findSome? own = none) :
    (execute StopOp.perform own (plan.executeOwnedStop caller) { state := v }).state.Converged := by
  rw [executeOwnedStop_eq, execute_append, execute_attempts _ rfl]
  have hlifecycle := foldl_perform_lifecycle (plan.steps caller) own v
  rcases hl with ⟨hs, hl⟩ | ⟨hs, hv⟩
  · rw [if_pos hs, execute_apply rfl]
    dsimp only [StopPath.update]
    have hstopped := applyStoppedIfStopping_lifecycle (hlifecycle ▸ hl)
    by_cases hd : caller.origin.defersTerminalEvents = true
    · refine converged_finishStopWithDispatcher caller hd hstopped ?_ own
      rcases hgood with ha | ho | hclean
      · exact .inl (foldl_perform_not_accepting _ own ha)
      · rw [ho] at hd
        cases hd
      · rw [steps, if_pos hd, List.nil_append, hclean]
        exact .inr rfl
    · unfold finishStopWithDispatcher
      rw [if_neg hd]
      exact converged_finishOrdinary rfl hstopped own
  · rw [if_neg (by simp [hs])]
    refine converged_execute (fun f hf p hp => ?_) ⟨hlifecycle.trans hv.1, foldl_perform_not_accepting _ own hv.2⟩
    split_ifs at hf
    · cases List.mem_singleton.1 hf
      exact (scheduleDeferredStopEvents_core p).converged hp
    · cases hf

theorem converged_iff {w v : StopWorld} (hplan : planStop caller w.beginStop = some (plan, v))
    (hw : w.lifecycle ≠ .stopping) (own later : StopOp → Option Failure) :
    ((plan.ownedStop caller).finish own later v).Converged ↔ plan.StopConverges caller own later w := by
  have h := plan.planned_of_planStop caller hplan hw
  by_cases hgood : w.accepting = false ∨ caller.origin = .external ∨ plan.cleanup.findSome? own = none
  · have hpath := plan.converged_executeOwnedStop caller own h.lifecycle (h.accepting ▸ hgood)
    refine iff_of_true (OwnedStop.finish_converged hpath (plan.completeDeferredStop_keeps caller)) ?_
    rcases hgood with hg | hg | hg
    · exact .inl hg
    · exact .inr (.inl hg)
    · exact .inr (.inr (.inl hg))
  · obtain ⟨ha, ho, hclean⟩ := by simpa only [not_or] using hgood
    have hv : v.accepting = true := by
      rw [h.accepting]
      simpa using ha
    have hd : caller.origin.defersTerminalEvents = true := by
      cases hor : caller.origin <;> first | rfl | exact absurd hor ho
    obtain ⟨e, he⟩ := Option.ne_none_iff_exists'.1 hclean
    obtain ⟨hs, hl⟩ : plan.shouldStopDispatcher = true ∧ (v.lifecycle = .stopping ∨ v.lifecycle = .stopped) :=
      h.lifecycle.resolve_right fun hc => by
        rw [hc.2.2] at hv
        cases hv
    -- the state after the cleanup
    set u := plan.cleanup.foldl (fun s op => op.perform (own op) s) v with hu
    have hcore : SameCore v u := .foldl (fun op hop => plan.stopsDispatcher_of_mem_cleanup hop) own v
    have hpath : execute StopOp.perform own (plan.executeOwnedStop caller) { state := v } =
        execute StopOp.perform own (finishStopWithDispatcher caller)
          { state := u.applyStoppedIfStopping, error := some e } := by
      rw [executeOwnedStop_eq, execute_append, execute_attempts _ rfl, if_pos hs, execute_apply rfl, steps, if_pos hd,
        List.nil_append, he]
      rfl
    have hstopped : u.applyStoppedIfStopping.lifecycle = .stopped :=
      applyStoppedIfStopping_lifecycle (hcore.lifecycle ▸ hl)
    have haccepting : u.applyStoppedIfStopping.accepting = true := hcore.accepting.trans hv
    unfold OwnedStop.finish ownedStop
    dsimp only
    rw [hpath, execute_finishStopWithDispatcher caller hd]
    by_cases hab : caller.origin = .activeInlineHandler ∧ e = .cancelled
    · rw [if_pos hab, if_pos rfl]
      have hdw : u.applyStoppedIfStopping.deferredCloseWaiters =
          (w.closeIsDeferred && (own (.release .connections)).isNone) := by
        rw [← h.closeIsDeferred]
        exact plan.foldl_cleanup_deferredCloseWaiters own h.deferredCloseWaiters
      refine (plan.converged_completeDeferredStop_iff caller hs (w := { u.applyStoppedIfStopping with
        raiseCancelAfterStopWaiter := true, completionDeferred := true }) hstopped haccepting later).trans ?_
      dsimp only
      rw [hdw]
      constructor
      · exact fun hc => .inr (.inr (.inr ⟨hab.1, hab.2 ▸ he, hc⟩))
      · rintro (hc | hc | hc | hc)
        · exact absurd hc ha
        · exact absurd hc ho
        · exact absurd hc hclean
        · exact hc.2.2
    · rw [if_neg hab]
      have hnot : u.applyStoppedIfStopping.completionDeferred = false :=
        (plan.foldl_cleanup_completionDeferred own v).trans h.completionDeferred
      rw [if_neg (by simp [hnot])]
      refine iff_of_false (fun hc => ?_) ?_
      · cases haccepting.symm.trans hc.2
      · rintro (hc | hc | hc | ⟨ho', hc, -⟩)
        · exact ha hc
        · exact ho hc
        · exact hclean hc
        · exact hab ⟨ho', Option.some.inj (he.symm.trans hc)⟩

end TcpClientStopPlan

end Aionetx
