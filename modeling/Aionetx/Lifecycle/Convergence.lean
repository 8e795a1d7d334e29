import Aionetx.Runs.Machine
import Aionetx.Lifecycle.StopPaths

/-!
# A stop converges

What is left of a managed component when an owning `stop()` has returned or raised and its completion task has finished,
for every origin of the call and every failure at the steps of the two paths.

* `ComponentAct`, `Component.machine` : what happens to a component between two calls of `stop()`, and the calls;
* `StopWorld.Converged` : `STOPPED`, and the dispatcher accepts no BACKGROUND event;
* `Component.StopConverges` : the condition on the failures, component by component;
* `SameCore`, `converged_execute` : what the statements of the paths keep;
* `Planned` : what a plan hands to its path; `converged_finishOrdinary`, `converged_finishDeferred` : the ends of the paths.
-/

namespace Aionetx

open Runs

/-! ## Between the calls -/

/-- What happens to a component: the steps of `start()`, of its rollback and of the supervision that ends by itself, the
environment, and a whole `stop()` with the failures of its path and of its completion task. -/
inductive ComponentAct
  | start | run | rollBack | terminate | stopDispatcher | workerEnds
  | acquire (r : StopResource) | drop (r : StopResource)
  | observe (supervisorDone connectionStartupInProgress closeIsDeferred : Bool)
  | stop (caller : StopCaller) (own later : StopOp → Option Failure)

/-- `AsyncioEventDispatcher.start()`. -/
def StopWorld.startDispatcher (w : StopWorld) : StopWorld :=
  if w.dispatchMode = .background ∧ w.worker = false then { w with worker := true, stopping := false } else w

/-- One step; the effects of `start()` that no stop reads are left out. -/
def Component.step (component : Component) (w : StopWorld) : ComponentAct → Option StopWorld
  | .start => if w.lifecycle.active then none else some (w.startDispatcher.applyLifecycleState .starting).1
  | .run => if w.lifecycle = .starting then some { w with lifecycle := .running } else none
  | .rollBack =>
    if w.lifecycle.active then
      some { w with lifecycle := .stopped, stopping := true, worker := false, held := fun _ => false }
    else none
  | .terminate => if component = .tcpClient ∧ w.lifecycle.active then some { w with lifecycle := .stopped } else none
  | .stopDispatcher =>
    if component = .tcpClient ∧ w.lifecycle = .stopped then some { w with stopping := true, worker := false } else none
  | .workerEnds => if w.stopping then some { w with worker := false } else none
  | .acquire r => if w.lifecycle.active then some { w with held := Function.update w.held r true } else none
  | .drop r => some { w with held := Function.update w.held r false }
  | .observe supervisorDone connectionStartupInProgress closeIsDeferred =>
    some { w with supervisorDone, connectionStartupInProgress, closeIsDeferred }
  | .stop caller own later => (component.planStop caller w).map fun (stop, w) => stop.finish own later w

def Component.machine (component : Component) : Machine StopWorld ComponentAct where
  init w := ∃ mode, w = { dispatchMode := mode }
  step := component.step

/-! ## The condition -/

/-- `STOPPED`, and the dispatcher accepts no BACKGROUND event. -/
def StopWorld.Converged (w : StopWorld) : Prop := w.lifecycle = .stopped ∧ w.accepting = false

instance (w : StopWorld) : Decidable w.Converged := inferInstanceAs (Decidable (_ ∧ _))

/-- The steps at which a client's own path can fail before the dispatcher is stopped from the handler. -/
def TcpClientStopPlan.cleanup (plan : TcpClientStopPlan) : List StopOp :=
  (if plan.supervisorTask && !plan.skipAwaitSupervisor then [.release .supervisorTask] else []) ++
    [.release .heartbeatSenders, .release .connections] ++
      if plan.cancelSupervisorAfterLocalCleanup && plan.supervisorTask then [.cancelSupervisor] else []

/-- The steps of the client's completion task before it stops the dispatcher. -/
def TcpClientStopPlan.completionSteps (plan : TcpClientStopPlan) (caller : StopCaller) (closeIsDeferred : Bool) :
    List StopOp :=
  [.waitForHandlerContext, .emitStopping] ++ (if closeIsDeferred then [.joinDeferredClose] else []) ++
    (if plan.supervisorTask && !caller.onOwnTask then [.release .supervisorTask] else []) ++ [.emitStopped]

/-- When a client's stop converges: the dispatcher accepts nothing anyway, no handler is active, the cleanup is clean, or
its first error is the cancellation of a caller that waits for the handler, and the completion task is clean. -/
def TcpClientStopPlan.StopConverges (plan : TcpClientStopPlan) (caller : StopCaller) (own later : StopOp → Option Failure)
    (w : StopWorld) : Prop :=
  w.accepting = false ∨ caller.origin = .external ∨ plan.cleanup.findSome? own = none ∨
    caller.origin = .activeInlineHandler ∧ plan.cleanup.findSome? own = some .cancelled ∧
      ∀ op ∈ plan.completionSteps caller (w.closeIsDeferred && (own (.release .connections)).isNone), later op = none

def DatagramStopSnapshot.teardown (snapshot : DatagramStopSnapshot) (caller : StopCaller) : List StopOp :=
  (if snapshot.task && caller.origin ≠ .activeInlineHandler && !caller.onOwnTask then [.release .receiveTask] else []) ++
    if snapshot.sock then [.release .socket] else []

/-- The steps of the receiver's ordinary path before the publication of `STOPPED`. -/
def DatagramStopSnapshot.ordinarySteps (snapshot : DatagramStopSnapshot) (caller : StopCaller) (closeIsDeferred : Bool) :
    List StopOp :=
  .emitStopping :: snapshot.teardown caller ++
    if snapshot.shouldEmitClosedEvent then .publishClosed :: if closeIsDeferred then [.awaitDeferredClose] else [] else []

/-- When a receiver's stop converges: a deferred one has no failure before its completion task publishes, and an ordinary
one does not reach a publication of `STOPPED` that fails. -/
def DatagramStopSnapshot.StopConverges (snapshot : DatagramStopSnapshot) (caller : StopCaller)
    (own later : StopOp → Option Failure) (w : StopWorld) : Prop :=
  if caller.origin.defersTerminalEvents then
    (∀ op ∈ snapshot.teardown caller ++ [.stopDispatcherFromHandlerOrigin], own op = none) ∧
      later .waitForHandlerContext = none
  else
    w.accepting = false ∨ own .emitStopped = none ∨
      ∃ op ∈ snapshot.ordinarySteps caller w.closeIsDeferred, own op ≠ none

/-- The condition under which a stop that is planned in `w` converges. A server's always does. -/
def Component.StopConverges (component : Component) (caller : StopCaller) (own later : StopOp → Option Failure)
    (w : StopWorld) : Prop :=
  match component with
  | .tcpClient =>
    ∀ plan v, TcpClientStopPlan.planStop caller w.beginStop = some (plan, v) → plan.StopConverges caller own later w
  | .tcpServer => True
  | .datagramReceiver =>
    ∀ snapshot v, DatagramStopSnapshot.planStop w.beginStop = some (snapshot, v) →
      snapshot.StopConverges caller own later w

/-! ## What the statements keep -/

/-- The dispatcher's flags and the lifecycle state, as far as convergence reads them. -/
structure SameCore (w v : StopWorld) : Prop where
  lifecycle : v.lifecycle = w.lifecycle
  accepting : v.accepting = w.accepting

namespace SameCore
variable {w v u : StopWorld}

theorem refl (w : StopWorld) : SameCore w w := ⟨rfl, rfl⟩

theorem trans (h : SameCore w v) (h' : SameCore v u) : SameCore w u :=
  ⟨h'.lifecycle.trans h.lifecycle, h'.accepting.trans h.accepting⟩

theorem perform {op : StopOp} (h : op.stopsDispatcher = false) (outcome : Option Failure) (w : StopWorld) :
    SameCore w (op.perform outcome w) :=
  ⟨StopOp.perform_lifecycle .., StopOp.perform_accepting _ _ _ h⟩

theorem converged (h : SameCore w v) (hw : w.Converged) : v.Converged :=
  ⟨h.lifecycle.trans hw.1, h.accepting.trans hw.2⟩

/-- The steps of a cleanup leave the lifecycle state and the dispatcher alone. -/
theorem foldl {ops : List StopOp} (h : ∀ op ∈ ops, op.stopsDispatcher = false) (fails : StopOp → Option Failure)
    (w : StopWorld) : SameCore w (ops.foldl (fun s op => op.perform (fails op) s) w) := by
  induction ops generalizing w with
  | nil => exact .refl w
  | cons op ops ih =>
    exact (perform (h op List.mem_cons_self) _ w).trans (ih (fun o ho => h o (List.mem_cons_of_mem _ ho)) _)

end SameCore

theorem StopOp.perform_converged {w : StopWorld} (h : w.Converged) (op : StopOp) (outcome : Option Failure) :
    (op.perform outcome w).Converged :=
  ⟨(StopOp.perform_lifecycle ..).trans h.1, StopOp.perform_not_accepting _ _ _ h.2⟩

theorem StopWorld.Converged.applyStopped {w : StopWorld} (h : w.Converged) : w.applyStopped.Converged := by
  obtain ⟨hl, ha⟩ := h
  exact ⟨by simp [StopWorld.applyStopped, StopWorld.applyLifecycleState, LifecycleTransition.of,
    LifecycleTransition.event, hl], ha⟩

/-- A component that has converged stays so, whatever the rest of a path does. -/
theorem converged_execute {fails : StopOp → Option Failure} {stmts : List StopStmt}
    (hf : ∀ f, Stmt.apply f ∈ stmts → ∀ p : StopPath, p.state.Converged → (f p).state.Converged) {p : StopPath}
    (hp : p.state.Converged) : (execute StopOp.perform fails stmts p).state.Converged := by
  refine execute_inv (I := fun p : StopPath => p.state.Converged) (fun stmt hstmt p outcome hp => ?_) hp
  cases stmt with
  | apply f => exact hf f hstmt p hp
  | run op runs leaves =>
    simp only [Stmt.turn]
    split_ifs
    · rw [Path.record_state]
      exact StopOp.perform_converged hp op outcome
    · exact hp

/-- A component that is `STOPPED` stays so, whatever the rest of a path does. -/
theorem stopped_execute {fails : StopOp → Option Failure} {stmts : List StopStmt}
    (hf : ∀ f, Stmt.apply f ∈ stmts → ∀ p : StopPath, p.state.lifecycle = .stopped → (f p).state.lifecycle = .stopped)
    {p : StopPath} (hp : p.state.lifecycle = .stopped) :
    (execute StopOp.perform fails stmts p).state.lifecycle = .stopped := by
  refine execute_inv (I := fun p : StopPath => p.state.lifecycle = .stopped) (fun stmt hstmt p outcome hp => ?_) hp
  cases stmt with
  | apply f => exact hf f hstmt p hp
  | run op runs leaves =>
    simp only [Stmt.turn]
    split_ifs
    · rw [Path.record_state, StopOp.perform_lifecycle]
      exact hp
    · exact hp

/-- A path that ends converged is not undone by its completion task. -/
theorem OwnedStop.finish_converged {stop : OwnedStop} {own later : StopOp → Option Failure} {w : StopWorld}
    (hpath : (execute StopOp.perform own stop.path { state := w }).state.Converged)
    (hf : ∀ f, Stmt.apply f ∈ stop.completion → ∀ p : StopPath, p.state.Converged → (f p).state.Converged) :
    (stop.finish own later w).Converged := by
  unfold finish
  dsimp only
  split_ifs
  · exact converged_execute hf hpath
  · exact hpath

/-! ## The ends of the paths -/

theorem foldl_perform_lifecycle (ops : List StopOp) (fails : StopOp → Option Failure) (w : StopWorld) :
    (ops.foldl (fun s op => op.perform (fails op) s) w).lifecycle = w.lifecycle := by
  induction ops generalizing w with
  | nil => rfl
  | cons op ops ih => rw [List.foldl_cons, ih, StopOp.perform_lifecycle]

theorem foldl_perform_not_accepting (ops : List StopOp) (fails : StopOp → Option Failure) {w : StopWorld}
    (h : w.accepting = false) : (ops.foldl (fun s op => op.perform (fails op) s) w).accepting = false := by
  induction ops generalizing w with
  | nil => exact h
  | cons op ops ih => exact ih (StopOp.perform_not_accepting _ _ _ h)

theorem applyStoppedIfStopping_lifecycle {w : StopWorld} (h : w.lifecycle = .stopping ∨ w.lifecycle = .stopped) :
    w.applyStoppedIfStopping.lifecycle = .stopped := by
  rcases h with h | h <;> simp [StopWorld.applyStoppedIfStopping, applyStoppedTransitionIfStopping, h]

theorem absorbCancellation_core (p : StopPath) : SameCore p.state p.absorbCancellation.state := by
  unfold StopPath.absorbCancellation
  split_ifs
  · exact ⟨rfl, rfl⟩
  · exact .refl _

theorem scheduleDeferredStopEvents_core (p : StopPath) : SameCore p.state p.scheduleDeferredStopEvents.state := by
  unfold StopPath.scheduleDeferredStopEvents
  split_ifs
  · exact ⟨rfl, rfl⟩
  · exact .refl _

theorem converged_stopDispatcher {p : StopPath} (hp : p.left = false) (hl : p.state.lifecycle = .stopped)
    (fails : StopOp → Option Failure) :
    (execute StopOp.perform fails [.attempt .stopDispatcher] p).state.Converged := by
  rw [execute_attempt hp, execute_nil]
  exact ⟨(StopOp.perform_lifecycle ..).trans hl, StopOp.perform_accepting_of_stops _ _ _ rfl⟩

/-- The ordinary end of the TCP components: `STOPPED` is published if nothing failed, and the dispatcher stopped. -/
theorem converged_finishOrdinary {p : StopPath} (hp : p.left = false) (hl : p.state.lifecycle = .stopped)
    (fails : StopOp → Option Failure) :
    (execute StopOp.perform fails [.ifClean .emitStopped, .attempt .stopDispatcher] p).state.Converged := by
  obtain ⟨w, error, left⟩ := p
  cases hp
  rcases error with _ | e
  · rw [execute_ifClean_of_clean]
    exact converged_stopDispatcher rfl ((StopOp.perform_lifecycle ..).trans hl) fails
  · rw [execute_ifClean_of_error rfl]
    exact converged_stopDispatcher rfl hl fails

/-- The two statements that end a deferred path keep what they find. -/
theorem converged_finishDeferred (origin : StopOrigin) {p : StopPath} (hp : p.state.Converged)
    (fails : StopOp → Option Failure) :
    (execute StopOp.perform fails
      ((if origin = .activeInlineHandler then [.apply StopPath.absorbCancellation] else []) ++
        [.apply StopPath.scheduleDeferredStopEvents]) p).state.Converged := by
  refine converged_execute (fun f hf p hp => ?_) hp
  rcases List.mem_append.1 hf with hf | hf
  · split_ifs at hf
    · cases List.mem_singleton.1 hf
      exact (absorbCancellation_core p).converged hp
    · cases hf
  · cases List.mem_singleton.1 hf
    exact (scheduleDeferredStopEvents_core p).converged hp

/-- What a plan hands to the path: the dispatcher as it was, a new execution state, and, if the path is to apply `STOPPED`
and to stop the dispatcher, a lifecycle state that allows it. -/
structure Planned (w v : StopWorld) (applies : Bool) : Prop where
  accepting : v.accepting = w.accepting
  closeIsDeferred : v.closeIsDeferred = w.closeIsDeferred
  deferredCloseWaiters : v.deferredCloseWaiters = false
  receiveTaskRaised : v.receiveTaskRaised = false
  completionDeferred : v.completionDeferred = false
  lifecycle : applies = true ∧ (v.lifecycle = .stopping ∨ v.lifecycle = .stopped) ∨ applies = false ∧ v.Converged

end Aionetx
