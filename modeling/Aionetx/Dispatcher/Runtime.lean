import Aionetx.Runs.Machine
import Aionetx.Dispatcher.Queue

/-!
# The dispatcher as a machine

`AsyncioEventDispatcher` in BACKGROUND mode under every interleaving of its callers and its worker. One action is one
stretch of code between two suspension points:

* `start`, `stop`, `emit`, `emitAndWait`, `dropQueuedEvents` : a call, up to its first suspension or its return;
* `enqueueTurn k` : a notified producer takes its next turn; `cancelProducer k` : it is cancelled instead;
* `workerTurn` : the worker waits, exits, or takes the next event; `handlerReturned` : its dispatch completed;
* `dispatchRaised` : an error leaves `_emit_now` (a `BaseException` of the handler, the cancellation of the worker
  inside a handler, an exception of the stop callback); `cancelWorker` : the worker is cancelled elsewhere.
-/

namespace Aionetx

universe u v

/-- What a call to `emit` or `emit_and_wait` reads of its own task and context. -/
structure EmitContext where
  /-- `_is_in_inline_dispatch_context()` -/
  inlineDelivery : Bool := false
  /-- `current_task_is_worker()` -/
  onWorker : Bool := false

/-- What a call to `stop` reads of its own task and context. -/
structure StopContext where
  /-- `current_task is worker_task` -/
  onWorker : Bool := false
  /-- `_is_in_stop_await_bypass_context()`: `stop_from_handler_origin()` and the stop callback -/
  bypass : Bool := false

/-- Where an emitted event goes. -/
inductive EmitRoute
  | inlineMode | inlineFallback | stopPhase | enqueue
  deriving DecidableEq

/-- The branches that `emit` and `emit_and_wait` share, in their order. -/
def emitRoute {κ : Type u} {ε : Type v} (delivery : EventDeliverySettings) (ctx : EmitContext) (d : Dispatcher κ ε) :
    EmitRoute :=
  if delivery.dispatchMode = .inline then .inlineMode
  else if ctx.inlineDelivery then .inlineFallback
  else if d.stopping then .stopPhase
  else if ctx.onWorker then .inlineFallback
  else if !d.hasBackgroundWorker then .inlineFallback
  else .enqueue

/-- An event goes into the queue only where a worker exists and no stop has begun. -/
theorem emitRoute_enqueue {κ : Type u} {ε : Type v} {delivery : EventDeliverySettings} {ctx : EmitContext}
    {d : Dispatcher κ ε} (h : emitRoute delivery ctx d = .enqueue) : d.worker ≠ .missing ∧ d.stopping = false := by
  unfold emitRoute at h
  refine ⟨fun hw => ?_, ?_⟩
  · rw [(d.hasBackgroundWorker_eq_false).2 hw] at h
    split_ifs at h
    simp_all
  · by_contra hs
    simp only [Bool.not_eq_false] at hs
    rw [if_pos hs] at h
    split_ifs at h

/-- A dispatcher with the `stop()` calls that await its worker (`stoppers`); `stopReturned` is set once a `stop()`
call has returned and until a new worker is created. -/
structure DispatcherRuntime (κ : Type u) (ε : Type v) extends Dispatcher κ ε where
  stoppers : List κ := []
  stopReturned : Bool := false

inductive DispatcherAct (κ : Type u) (ε : Type v)
  | start
  | stop (k : κ) (ctx : StopContext)
  | emit (k : κ) (ctx : EmitContext) (e : ε)
  | emitAndWait (k : κ) (ctx : EmitContext) (e : ε) (dropOnBackpressure : Bool)
  | enqueueTurn (k : κ)
  | cancelProducer (k : κ)
  | dropQueuedEvents (payload : ε → Bool)
  | workerTurn
  | handlerReturned
  | dispatchRaised
  | cancelWorker

namespace DispatcherRuntime

variable {κ : Type u} {ε : Type v} [DecidableEq κ]

/-- The caller is inside `_enqueue`, or its future is still with a queued or dispatched event. -/
def busy (r : DispatcherRuntime κ ε) (k : κ) : Bool :=
  (r.parked ++ r.woken).any (fun p => p.1 = k) || r.queue.any (fun e => e.handled = some k) ||
    match r.worker with
    | .dispatching e => e.handled = some k
    | _ => false

/-- The worker task has ended: the `stop()` calls that awaited it return. -/
def afterWorkerEnd (r : DispatcherRuntime κ ε) (d : Dispatcher κ ε) : DispatcherRuntime κ ε :=
  { toDispatcher := d, stoppers := [], stopReturned := r.stopReturned || !r.stoppers.isEmpty }

def start (delivery : EventDeliverySettings) (r : DispatcherRuntime κ ε) : DispatcherRuntime κ ε :=
  if delivery.dispatchMode ≠ .background then r
  else if r.hasBackgroundWorker then r
  else { r with stopping := false, worker := .created, stopReturned := false }

def stop (r : DispatcherRuntime κ ε) (k : κ) (ctx : StopContext) : DispatcherRuntime κ ε :=
  if !r.hasBackgroundWorker then { r with stopping := true, stopReturned := true }
  else if ctx.onWorker || ctx.bypass then { r with toDispatcher := r.signalStop.dropPending, stopReturned := true }
  else if r.signalStop.worker.ended then { r with toDispatcher := r.signalStop, stopReturned := true }
  else { r with toDispatcher := r.signalStop, stoppers := r.stoppers ++ [k] }

/-- `emit()` and `emit_and_wait()`; an inline delivery runs the handler on the caller's own task. -/
def emit (delivery : EventDeliverySettings) (r : DispatcherRuntime κ ε) (k : κ) (ctx : EmitContext)
    (e : QueuedEvent κ ε) : DispatcherRuntime κ ε :=
  let d := { r.toDispatcher with emitCallsTotal := r.emitCallsTotal + 1 }
  { r with
    toDispatcher := match emitRoute delivery ctx d with
      | .inlineMode => { d with handlerDispatchAttemptsTotal := d.handlerDispatchAttemptsTotal + 1 }
      | .inlineFallback =>
        { d with
          inlineFallbackTotal := d.inlineFallbackTotal + 1
          handlerDispatchAttemptsTotal := d.handlerDispatchAttemptsTotal + 1 }
      | .stopPhase => d.recordStopPhaseDrop
      | .enqueue => d.enqueueTurn delivery k e }

def workerTurn (r : DispatcherRuntime κ ε) : DispatcherRuntime κ ε :=
  match r.queue with
  | [] => if r.stopping then r.afterWorkerEnd { r.toDispatcher with worker := .missing } else { r with worker := .waiting }
  | e :: rest =>
    { r with
      toDispatcher :=
        { { r.toDispatcher with queue := rest, worker := .dispatching e }.notifyNotFull with
          handlerDispatchAttemptsTotal := r.handlerDispatchAttemptsTotal + 1 } }

def step (delivery : EventDeliverySettings) (r : DispatcherRuntime κ ε) :
    DispatcherAct κ ε → Option (DispatcherRuntime κ ε)
  | .start => some (r.start delivery)
  | .stop k ctx => some (r.stop k ctx)
  | .emit k ctx e => if r.busy k then none else some (r.emit delivery k ctx { event := e })
  | .emitAndWait k ctx e drop =>
    if r.busy k then none
    else some ({ r with completion := Function.update r.completion k .pending }.emit delivery k ctx
      { event := e, handled := some k, dropOnBackpressure := drop })
  | .enqueueTurn k =>
    match r.woken.find? (fun p => p.1 = k) with
    | some (k, e) =>
      some { r with
        toDispatcher := { r.toDispatcher with woken := r.woken.eraseP fun p => p.1 = k }.enqueueTurn delivery k e }
    | none => none
  | .cancelProducer k =>
    if (r.parked ++ r.woken).any (fun p => p.1 = k) then
      some { r with parked := r.parked.eraseP (fun p => p.1 = k), woken := r.woken.eraseP fun p => p.1 = k }
    else none
  | .dropQueuedEvents payload => some { r with toDispatcher := r.toDispatcher.dropQueuedEventsForResource payload }
  | .workerTurn =>
    match r.worker with
    | .created | .ready => some r.workerTurn
    | _ => none
  | .handlerReturned =>
    match r.worker with
    | .dispatching e => some { r with toDispatcher := { r.toDispatcher.completeQueuedEvent e with worker := .ready } }
    | _ => none
  | .dispatchRaised =>
    match r.worker with
    | .dispatching e => some (r.afterWorkerEnd (r.toDispatcher.failQueuedEvent e).failPending)
    | _ => none
  | .cancelWorker =>
    match r.worker with
    | .created => some (r.afterWorkerEnd { r.toDispatcher with worker := .cancelledUnstarted })
    | .waiting | .ready => some (r.afterWorkerEnd r.toDispatcher.failPending)
    | _ => none

end DispatcherRuntime

def dispatcherMachine {κ : Type u} {ε : Type v} [DecidableEq κ] (delivery : EventDeliverySettings) :
    Runs.Machine (DispatcherRuntime κ ε) (DispatcherAct κ ε) where
  init r := r = {}
  step := DispatcherRuntime.step delivery

end Aionetx
