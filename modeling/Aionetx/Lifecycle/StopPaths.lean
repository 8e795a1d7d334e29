import Mathlib.Logic.Function.Basic
import Aionetx.Runs.FirstError
import Aionetx.Model.Lifecycle

/-!
# The stop paths of the managed components

`stop()` of the TCP client, the TCP server and the datagram receiver, from the plan that an owning call makes under the
lock to the end of the completion task that a deferred stop leaves behind.

* `StopOrigin` : where the call comes from; `Failure` : what an await of the path raises;
* `StopOp` : the awaits and cleanup calls of the paths, `StopOp.perform` : what they do to the component (`StopWorld`);
* `TcpClientStopPlan`, `TcpServerStopPlan`, `DatagramStopSnapshot` : the plans, with `planStop`;
* `executeOwnedStop`, `runStopPath` : the owner's path as a list of statements; `completeDeferredStop` : the completion task;
* `OwnedStop` : the three components under one type; `OwnedStop.finish` : the path and then the completion task.
-/

namespace Aionetx

open Runs

/-- Where a `stop()` comes from: a task that inherits nothing, the same while an inline handler is active, the task that
runs the handler, or a task created by it. -/
inductive StopOrigin
  | external | activeInlineHandler | handler | childOfHandler
  deriving DecidableEq, Repr

def StopOrigin.defersTerminalEvents : StopOrigin → Bool
  | .external => false
  | .activeInlineHandler | .handler | .childOfHandler => true

/-- The handler-origin facts of the caller (`handler_originated`, for the receiver `has_handler_provenance`). -/
def StopOrigin.handlerOriginated : StopOrigin → Bool
  | .external | .activeInlineHandler => false
  | .handler | .childOfHandler => true

/-- What an await raises: an `Exception` or a `CancelledError`. -/
inductive Failure
  | error | cancelled
  deriving DecidableEq, Repr

inductive StopResource
  | supervisorTask | heartbeatSenders | connections | listener | receiveTask | socket
  deriving DecidableEq, Repr

/-- The steps of the stop paths at which a failure can be raised. Waiting for `_state_lock` is not one of them: no path holds it
over an await. -/
inductive StopOp
  | emitStopping
  | emitStopped
  | release (r : StopResource)
  | cancelSupervisor
  | waitListenerClosed
  | publishClosed
  | awaitDeferredClose
  | joinDeferredClose
  | stopDispatcherFromHandlerOrigin
  | stopDispatcher
  | waitForHandlerContext
  deriving DecidableEq, Repr

/-- The resources in the component's fields, those that a plan detached from them, and those released, in order. -/
structure StopResources where
  held : StopResource → Bool := fun _ => false
  detached : StopResource → Bool := fun _ => false
  released : List StopResource := []

namespace StopResources
variable (x : StopResources)

/-- A resource is released, from the field or from the plan that holds it. -/
def release (r : StopResource) : StopResources :=
  if x.held r || x.detached r then
    { held := Function.update x.held r false
      detached := Function.update x.detached r false
      released := x.released ++ [r] }
  else x

/-- A plan takes resources out of the fields. -/
def detach (rs : List StopResource) : StopResources :=
  { x with
    held := fun r => x.held r && !decide (r ∈ rs)
    detached := fun r => x.detached r || (x.held r && decide (r ∈ rs)) }

/-- A resource that the component does not hold is not taken back. -/
theorem release_held_eq_false {r : StopResource} (h : x.held r = false) (r' : StopResource) :
    (x.release r').held r = false := by
  unfold release
  split_ifs
  · by_cases hr : r = r'
    · rw [hr]
      exact Function.update_self ..
    · exact (Function.update_of_ne hr ..).trans h
  · exact h

end StopResources

/-- What a stop path reads and writes. -/
structure StopWorld extends StopResources where
  lifecycle : ComponentLifecycleState := .stopped
  /-- of the client: its supervisor has ended; a connection is being opened -/
  supervisorDone : Bool := false
  connectionStartupInProgress : Bool := false
  /-- `dispatch_mode`, `is_running` and `_stopping` of the dispatcher -/
  dispatchMode : EventDispatchMode := .inline
  worker : Bool := false
  stopping : Bool := false
  /-- whether closing the connections or publishing the close leaves a deferred close to await -/
  closeIsDeferred : Bool := false
  deferredCloseWaiters : Bool := false
  /-- the terminal events and those that were delivered or queued -/
  stoppingEvent : Option ComponentLifecycleChangedEvent := none
  stoppedEvent : Option ComponentLifecycleChangedEvent := none
  published : List ComponentLifecycleChangedEvent := []
  /-- `inline_delivery_context()` is active -/
  inlineDelivery : Bool := false
  /-- the receive task ended with an `Exception`, which its await raises -/
  receiveTaskRaised : Bool := false
  raiseCancelAfterStopWaiter : Bool := false
  /-- the completion task was created (`stop_waiter_completion_deferred`) -/
  completionDeferred : Bool := false

abbrev StopStmt := Stmt StopWorld StopOp Failure

abbrev StopPath := Path StopWorld Failure

def LifecycleTransition.event : LifecycleTransition → Option ComponentLifecycleChangedEvent
  | .applied e => some e
  | .unchanged | .illegal => none

namespace StopWorld
variable (w : StopWorld)

/-- The dispatcher accepts BACKGROUND events: `emit` enqueues them. -/
def accepting : Bool := w.dispatchMode = .background && w.worker && !w.stopping

/-- `_emit_lifecycle_event`: nothing for no event; after `stop` began only an inline delivery is made. -/
def emitLifecycleEvent (event : Option ComponentLifecycleChangedEvent) : StopWorld :=
  { w with
    published :=
      if w.dispatchMode = .inline || w.inlineDelivery || !w.stopping then w.published ++ event.toList else w.published }

def release (r : StopResource) : StopWorld := { w with toStopResources := w.toStopResources.release r }

/-- The plan takes the resources out of the fields. -/
def detach (rs : List StopResource) : StopWorld := { w with toStopResources := w.toStopResources.detach rs }

/-- `_apply_lifecycle_state` with the event for the path to publish: a legal transition is applied. -/
def applyLifecycleState (target : ComponentLifecycleState) : StopWorld × Option ComponentLifecycleChangedEvent :=
  let event := (LifecycleTransition.of w.lifecycle target).event
  ({ w with lifecycle := if event.isSome then target else w.lifecycle }, event)

theorem applyLifecycleState_stopping (h : w.lifecycle.active = true) :
    w.applyLifecycleState .stopping = ({ w with lifecycle := .stopping }, some ⟨w.lifecycle, .stopping⟩) := by
  unfold applyLifecycleState
  cases hw : w.lifecycle <;> simp_all [ComponentLifecycleState.active, LifecycleTransition.of,
    LifecycleTransition.event, ComponentLifecycleState.allows]

def inlineDeliveryContext (active : Bool) : StopWorld := { w with inlineDelivery := active }

def beginStop : StopWorld :=
  { w with
    deferredCloseWaiters := false
    stoppingEvent := none
    stoppedEvent := none
    inlineDelivery := false
    receiveTaskRaised := false
    raiseCancelAfterStopWaiter := false
    completionDeferred := false }

/-- `apply_stopped_transition_if_stopping`. -/
def applyStoppedIfStopping : StopWorld :=
  let (lifecycle, events) := applyStoppedTransitionIfStopping w.lifecycle
  { w with lifecycle, stoppedEvent := events.head? }

/-- `_publish_stopped_transition_if_needed` up to the emission. -/
def applyStopped : StopWorld :=
  let (w, stoppedEvent) := w.applyLifecycleState .stopped
  { w with stoppedEvent }

end StopWorld

/-- What a step does, whether it returns or raises. A task that is awaited has ended when the await raises, the tasks of a
`gather` have taken their first step, `stop()` of the dispatcher sets `_stopping` first, and the `except` of the deferred
close creates the completion task. -/
def StopOp.perform (op : StopOp) (outcome : Option Failure) (w : StopWorld) : StopWorld :=
  match op, outcome with
  | .emitStopping, none => w.emitLifecycleEvent w.stoppingEvent
  | .emitStopped, none => w.emitLifecycleEvent w.stoppedEvent
  | .release .connections, none => { w.release .connections with deferredCloseWaiters := w.closeIsDeferred }
  | .release .receiveTask, some .error => { w.release .receiveTask with receiveTaskRaised := true }
  | .release r, _ => w.release r
  | .publishClosed, none => { w with deferredCloseWaiters := w.closeIsDeferred }
  | .stopDispatcher, none => { w with stopping := true, worker := false }
  | .stopDispatcher, some _ | .stopDispatcherFromHandlerOrigin, _ => { w with stopping := true }
  | .awaitDeferredClose, some .cancelled => { w with completionDeferred := true }
  | .awaitDeferredClose, _ | .emitStopping, some _ | .emitStopped, some _ | .publishClosed, some _ | .cancelSupervisor, _
  | .waitListenerClosed, _ | .joinDeferredClose, _ | .waitForHandlerContext, _ => w

namespace StopOp
variable (op : StopOp) (outcome : Option Failure) (w : StopWorld)

def stopsDispatcher : StopOp → Bool
  | .stopDispatcher | .stopDispatcherFromHandlerOrigin => true
  | _ => false

/-- Only the code between the steps changes the lifecycle state. -/
@[simp] theorem perform_lifecycle : (op.perform outcome w).lifecycle = w.lifecycle := by
  unfold perform
  split <;> rfl

theorem perform_accepting (h : op.stopsDispatcher = false) : (op.perform outcome w).accepting = w.accepting := by
  unfold perform
  split <;> first | rfl | cases h

/-- Whatever comes of it, a step that stops the dispatcher ends the acceptance of events. -/
theorem perform_accepting_of_stops (h : op.stopsDispatcher = true) : (op.perform outcome w).accepting = false := by
  cases op with
  | stopDispatcher => cases outcome <;> simp [perform, StopWorld.accepting]
  | stopDispatcherFromHandlerOrigin => simp [perform, StopWorld.accepting]
  | _ => cases h

/-- A resource that the component does not hold is not taken back. -/
theorem perform_held_eq_false {r : StopResource} (h : w.held r = false) : (op.perform outcome w).held r = false := by
  unfold perform
  split <;> first | exact h | exact w.release_held_eq_false h _

/-- No step makes the dispatcher accept events again. -/
theorem perform_not_accepting (h : w.accepting = false) : (op.perform outcome w).accepting = false := by
  by_cases hs : op.stopsDispatcher = true
  · exact perform_accepting_of_stops op outcome w hs
  · rw [perform_accepting op outcome w (by simpa using hs), h]

end StopOp

/-! ## Statements that the paths share -/

namespace StopPath

/-- Code that changes the component and cannot fail. -/
def update (f : StopWorld → StopWorld) (p : StopPath) : StopPath := { p with state := f p.state }

/-- `raise_cancel_after_stop_waiter`: the first error is the cancellation of a caller that waits for the completion. -/
def absorbCancellation (p : StopPath) : StopPath :=
  if p.error = some .cancelled then
    { p with error := none, state := { p.state with raiseCancelAfterStopWaiter := true } }
  else p

/-- `_schedule_deferred_stop_events` under `if first_error is None`. -/
def scheduleDeferredStopEvents (p : StopPath) : StopPath :=
  if p.clean then p.update fun w => { w with completionDeferred := true } else p

end StopPath

structure StopCaller where
  origin : StopOrigin
  /-- the current task is the supervisor, or the receive task -/
  onOwnTask : Bool := false
  /-- `current_task_is_worker()` -/
  onWorker : Bool := false

/-! ## The TCP client -/

structure TcpClientStopPlan where
  supervisorTask : Bool := false
  shouldStopDispatcher : Bool := false
  awaitSupervisorCompletionOnly : Bool := false
  skipAwaitSupervisor : Bool := false
  stopCalledFromSupervisor : Bool := false
  cancelSupervisorAfterLocalCleanup : Bool := false
  deriving DecidableEq, Repr

namespace TcpClientStopPlan
variable (plan : TcpClientStopPlan) (caller : StopCaller)

/-- `_is_fully_stopped_locked`. -/
def isFullyStopped (w : StopWorld) : Bool :=
  w.lifecycle = .stopped && !w.held .supervisorTask && !w.held .heartbeatSenders && !w.held .connections && !w.worker

/-- `_add_existing_supervisor_to_stop_plan`. -/
def addExistingSupervisor (w : StopWorld) : TcpClientStopPlan × StopWorld :=
  if w.held .supervisorTask && w.supervisorDone then
    ({ shouldStopDispatcher := w.worker }, { w with held := Function.update w.held .supervisorTask false })
  else
    ({ supervisorTask := w.held .supervisorTask
       shouldStopDispatcher := w.worker
       awaitSupervisorCompletionOnly := w.held .supervisorTask && !caller.onOwnTask }, w)

/-- `_plan_stop` with no stop in progress; nothing is planned for a client that is fully stopped. -/
def planStop (w : StopWorld) : Option (TcpClientStopPlan × StopWorld) :=
  if isFullyStopped w then none
  else if w.lifecycle = .stopping ∨ w.lifecycle = .stopped then some (addExistingSupervisor caller w)
  else
    let (v, stoppingEvent) := w.applyLifecycleState .stopping
    let supervisorTask := w.held .supervisorTask
    let stopCalledFromSupervisor := supervisorTask && caller.onOwnTask
    let skipAwaitSupervisor :=
      supervisorTask && (stopCalledFromSupervisor || caller.onWorker || caller.origin.handlerOriginated)
    some (
      { supervisorTask
        shouldStopDispatcher := true
        skipAwaitSupervisor
        stopCalledFromSupervisor
        cancelSupervisorAfterLocalCleanup :=
          skipAwaitSupervisor && !stopCalledFromSupervisor && !w.connectionStartupInProgress },
      { v.detach [.supervisorTask] with stoppingEvent })

def awaitOrCancelSupervisor : List StopStmt :=
  if plan.supervisorTask && !plan.skipAwaitSupervisor then [.attempt (.release .supervisorTask)] else []

def teardownClientStopResources : List StopStmt :=
  [.attempt (.release .heartbeatSenders), .attempt (.release .connections)] ++
    if plan.cancelSupervisorAfterLocalCleanup && plan.supervisorTask then [.attempt .cancelSupervisor] else []

def finishStopWithDispatcher : List StopStmt :=
  if caller.origin.defersTerminalEvents then
    .ifClean .stopDispatcherFromHandlerOrigin ::
      ((if caller.origin = .activeInlineHandler then [.apply StopPath.absorbCancellation] else []) ++
        [.apply StopPath.scheduleDeferredStopEvents])
  else [.ifClean .emitStopped, .attempt .stopDispatcher]

def executeOwnedStop : List StopStmt :=
  (if caller.origin.defersTerminalEvents then [] else [.attempt .emitStopping]) ++
    plan.awaitOrCancelSupervisor ++ plan.teardownClientStopResources ++
      if plan.shouldStopDispatcher then
        .apply (StopPath.update StopWorld.applyStoppedIfStopping) :: finishStopWithDispatcher caller
      else if caller.origin.defersTerminalEvents then [.apply StopPath.scheduleDeferredStopEvents]
      else []

/-- `_complete_stop_waiter_after_deferred_stop_events`. -/
def completeDeferredStop : List StopStmt :=
  [.plain .waitForHandlerContext, .apply (StopPath.update fun w => w.inlineDeliveryContext true),
    .plain .emitStopping,
    .run .joinDeferredClose (fun p => p.state.deferredCloseWaiters) fun _ => true] ++
    (if plan.supervisorTask && !caller.onOwnTask then [.plain (.release .supervisorTask)] else []) ++
    [.plain .emitStopped, .apply (StopPath.update fun w => w.inlineDeliveryContext false)] ++
    if plan.shouldStopDispatcher then [.plain .stopDispatcher] else []

end TcpClientStopPlan

/-! ## The TCP server -/

structure TcpServerStopPlan where
  server : Bool := false
  shouldTransitionToStopped : Bool := false
  connections : Bool := false
  deriving DecidableEq, Repr

namespace TcpServerStopPlan
variable (plan : TcpServerStopPlan) (caller : StopCaller)

def planStop (w : StopWorld) : TcpServerStopPlan × StopWorld :=
  let (lifecycle, events) := applyStoppingTransitionIfActive w.lifecycle
  ({ server := w.held .listener
     shouldTransitionToStopped := events ≠ []
     connections := w.held .connections },
    { w.detach [.listener, .heartbeatSenders, .connections] with lifecycle, stoppingEvent := events.head? })

def teardownServerStopResources : List StopStmt :=
  (if plan.server then [.attempt (.release .listener)] else []) ++ [.attempt (.release .heartbeatSenders)] ++
    (if plan.connections then [.attempt (.release .connections)] else []) ++
      if plan.server then [.attempt .waitListenerClosed] else []

def finishStopWithDispatcher : List StopStmt :=
  if caller.origin.defersTerminalEvents then
    (if caller.origin = .activeInlineHandler then [.apply StopPath.absorbCancellation] else []) ++
      [.apply StopPath.scheduleDeferredStopEvents]
  else [.ifClean .emitStopped, .attempt .stopDispatcher]

/-- `_execute_owned_stop`. Its second `stop_from_handler_origin`, for a path without an error whose first one did not
succeed, is never made. -/
def executeOwnedStop : List StopStmt :=
  (if caller.origin.defersTerminalEvents then [.attempt .stopDispatcherFromHandlerOrigin] else [.attempt .emitStopping]) ++
    plan.teardownServerStopResources ++
      if plan.shouldTransitionToStopped then
        .apply (StopPath.update StopWorld.applyStoppedIfStopping) :: finishStopWithDispatcher caller
      else if caller.origin.defersTerminalEvents then [.apply StopPath.scheduleDeferredStopEvents]
      else []

/-- `_complete_stop_waiter_after_deferred_stop_events`. -/
def completeDeferredStop : List StopStmt :=
  [.plain .waitForHandlerContext, .apply (StopPath.update fun w => w.inlineDeliveryContext true),
    .plain .emitStopping,
    .run .joinDeferredClose (fun p => p.state.deferredCloseWaiters) fun _ => true,
    .plain .emitStopped, .apply (StopPath.update fun w => w.inlineDeliveryContext false), .plain .stopDispatcher]

end TcpServerStopPlan

/-! ## The datagram receiver -/

structure DatagramStopSnapshot where
  shouldTransitionToStopped : Bool := false
  shouldEmitClosedEvent : Bool := false
  task : Bool := false
  sock : Bool := false
  deriving DecidableEq, Repr

namespace DatagramStopSnapshot
variable (snapshot : DatagramStopSnapshot) (caller : StopCaller)

/-- `_is_fully_stopped_locked`; `_running` is set exactly while the receiver has its socket. -/
def isFullyStopped (w : StopWorld) : Bool := w.lifecycle = .stopped && !w.held .socket

/-- `_plan_stop_snapshot` with no stop in progress; nothing is owned for a receiver that is fully stopped. -/
def planStop (w : StopWorld) : Option (DatagramStopSnapshot × StopWorld) :=
  if isFullyStopped w then none
  else
    let (v, stoppingEvent) := w.applyLifecycleState .stopping
    some (
      { shouldTransitionToStopped := w.lifecycle ≠ .stopped
        shouldEmitClosedEvent := w.lifecycle ≠ .starting
        task := w.held .receiveTask
        sock := w.held .socket },
      { v.detach [.receiveTask, .socket] with stoppingEvent })

/-- `_teardown_stop_resources` in `_teardown_datagram_stop_resources`: the socket is not closed once the await of the
receive task raised an `Exception`, and the task is not awaited while its handler is active. -/
def teardownDatagramStopResources : List StopStmt :=
  (if snapshot.task && caller.origin ≠ .activeInlineHandler && !caller.onOwnTask then
      [.attempt (.release .receiveTask)] else []) ++
    if snapshot.sock then [.run (.release .socket) (fun p => !p.state.receiveTaskRaised) fun _ => false] else []

def runDeferredStopPath : List StopStmt :=
  snapshot.teardownDatagramStopResources caller ++
    [.ifClean .stopDispatcherFromHandlerOrigin, .apply StopPath.scheduleDeferredStopEvents]

/-- `_publish_stop_closed_event` under `if first_error is None`: a cancelled await of the deferred close leaves the path, and
the completion task does the rest. -/
def publishStopClosedEvent : List StopStmt :=
  if snapshot.shouldEmitClosedEvent then
    [.ifClean .publishClosed,
      .run .awaitDeferredClose (fun p => p.clean && p.state.deferredCloseWaiters) fun e => e = .cancelled]
  else []

/-- `_publish_stopped_transition_if_needed`, the emission under `if first_error is None`. -/
def publishStoppedTransition (leaves : Failure → Bool) : List StopStmt :=
  if snapshot.shouldTransitionToStopped then
    [.apply (StopPath.update StopWorld.applyStopped), .run .emitStopped Path.clean leaves]
  else []

/-- `_run_ordinary_stop_path`: no `try` encloses the last publication. -/
def runOrdinaryStopPath : List StopStmt :=
  .attempt .emitStopping :: snapshot.teardownDatagramStopResources caller ++ snapshot.publishStopClosedEvent ++
    snapshot.publishStoppedTransition (fun _ => true) ++ [.attempt .stopDispatcher]

end DatagramStopSnapshot

namespace DatagramStopSnapshot
variable (snapshot : DatagramStopSnapshot) (caller : StopCaller)

/-- The completion task of a deferred stop, `_complete_stop_waiter_after_deferred_stop_events`. -/
def completeAfterDeferredStopEvents : List StopStmt :=
  [.plain .waitForHandlerContext, .apply (StopPath.update fun w => w.inlineDeliveryContext true),
    .attempt .emitStopping] ++
    (if snapshot.shouldEmitClosedEvent then
      [.ifClean .publishClosed, .run .joinDeferredClose (fun p => p.clean && p.state.deferredCloseWaiters) fun _ => false]
    else []) ++
    snapshot.publishStoppedTransition (fun _ => false) ++
    [.apply (StopPath.update fun w => w.inlineDeliveryContext false), .attempt .stopDispatcher]

/-- The completion task of an ordinary stop, `_complete_stop_waiter_after_deferred_close_and_stop`. -/
def completeAfterDeferredCloseAndStop : List StopStmt :=
  .attempt .joinDeferredClose :: snapshot.publishStoppedTransition (fun _ => false) ++ [.attempt .stopDispatcher]

end DatagramStopSnapshot

/-! ## The three components -/

inductive Component
  | tcpClient | tcpServer | datagramReceiver
  deriving DecidableEq, Repr

/-- An owned stop: the owner's path, and the completion task that it may create. -/
structure OwnedStop where
  path : List StopStmt
  completion : List StopStmt

/-- The owner's path and its completion task for the plan of a client. -/
def TcpClientStopPlan.ownedStop (plan : TcpClientStopPlan) (caller : StopCaller) : OwnedStop :=
  { path := plan.executeOwnedStop caller, completion := plan.completeDeferredStop caller }

def TcpServerStopPlan.ownedStop (plan : TcpServerStopPlan) (caller : StopCaller) : OwnedStop :=
  { path := plan.executeOwnedStop caller, completion := completeDeferredStop }

/-- `_execute_stop_path`, with the completion task of the path taken. -/
def DatagramStopSnapshot.ownedStop (snapshot : DatagramStopSnapshot) (caller : StopCaller) : OwnedStop :=
  if caller.origin.defersTerminalEvents then
    { path := snapshot.runDeferredStopPath caller, completion := snapshot.completeAfterDeferredStopEvents }
  else { path := snapshot.runOrdinaryStopPath caller, completion := snapshot.completeAfterDeferredCloseAndStop }

/-- The plan of a `stop()` that finds no other in progress. -/
def Component.planStop (component : Component) (caller : StopCaller) (w : StopWorld) : Option (OwnedStop × StopWorld) :=
  match component with
  | .tcpClient => (TcpClientStopPlan.planStop caller w.beginStop).map fun (plan, w) => (plan.ownedStop caller, w)
  | .tcpServer => let (plan, w) := TcpServerStopPlan.planStop w.beginStop; some (plan.ownedStop caller, w)
  | .datagramReceiver =>
    (DatagramStopSnapshot.planStop w.beginStop).map fun (snapshot, w) => (snapshot.ownedStop caller, w)

/-- The path with the failures `own`, and then its completion task, if there is one, with the failures `later`. -/
def OwnedStop.finish (own later : StopOp → Option Failure) (stop : OwnedStop) (w : StopWorld) : StopWorld :=
  let p := execute StopOp.perform own stop.path { state := w }
  if p.state.completionDeferred then (execute StopOp.perform later stop.completion { state := p.state }).state
  else p.state

end Aionetx
