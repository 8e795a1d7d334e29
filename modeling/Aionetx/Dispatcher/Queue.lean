import Mathlib.Tactic
import Aionetx.Model.Api

/-!
# The dispatcher's queue

The fields of `AsyncioEventDispatcher` that its queueing reads and writes, and the functions of one uninterrupted
stretch of its code over them.

* `QueuedEvent`, `Completion` : a queue item and the state of its `handled` future;
* `Worker` : what the task behind `_worker_task` is doing;
* `enqueueTurn` : one turn of the loop of `_enqueue`, `enqueueTurn_spec` : what it can do;
* `dropQueuedEventsForResource`, `failPending`, `dropPending` : the purge of a closed resource, the worker's `finally`
  block and the end of a stop that does not await the worker.

Callers are identified by a type `κ`, events by a type `ε`. No code suspends while it holds the lock of one of the two
conditions, so taking such a lock never suspends.
-/

namespace Aionetx

universe u v

/-- A queue item; `handled` is the future of the `emit_and_wait()` call `k`, if one made it. -/
structure QueuedEvent (κ : Type u) (ε : Type v) where
  event : ε
  handled : Option κ := none
  dropOnBackpressure : Bool := true

/-- The state of a `handled` future. -/
inductive Completion
  | pending
  | handled
  /-- `RuntimeError("Queued event was dropped ...")` -/
  | dropped
  /-- the error that ended the worker -/
  | failed
  deriving DecidableEq, Repr

/-- The task behind `_worker_task`. -/
inductive Worker (κ : Type u) (ε : Type v)
  /-- `_worker_task is None` -/
  | missing
  /-- created, its first step not run yet -/
  | created
  /-- parked in `_queue_not_empty.wait()`, not notified -/
  | waiting
  /-- notified, or at the top of its loop -/
  | ready
  /-- inside `_emit_now` -/
  | dispatching (e : QueuedEvent κ ε)
  /-- cancelled before its first step: `_run` never ran, so its `finally` did not clear `_worker_task` -/
  | cancelledUnstarted

/-- The queueing state of `AsyncioEventDispatcher`. `parked` are the callers waiting un-notified on
`_queue_not_full`, `woken` those notified and not resumed yet, both oldest first. -/
structure Dispatcher (κ : Type u) (ε : Type v) where
  queue : List (QueuedEvent κ ε) := []
  worker : Worker κ ε := .missing
  stopping : Bool := false
  parked : List (κ × QueuedEvent κ ε) := []
  woken : List (κ × QueuedEvent κ ε) := []
  completion : κ → Completion := fun _ => .pending
  emitCallsTotal : Nat := 0
  enqueuedTotal : Nat := 0
  handlerDispatchAttemptsTotal : Nat := 0
  inlineFallbackTotal : Nat := 0
  droppedBackpressureOldestTotal : Nat := 0
  droppedBackpressureNewestTotal : Nat := 0
  droppedStopPhaseTotal : Nat := 0
  queuePeak : Nat := 0

variable {κ : Type u} {ε : Type v}

def Worker.ended : Worker κ ε → Bool
  | .missing | .cancelledUnstarted => true
  | _ => false

/-- The worker task was created and has not run yet. -/
def Worker.unstarted : Worker κ ε → Bool
  | .created => true
  | _ => false

namespace Dispatcher

def hasBackgroundWorker (d : Dispatcher κ ε) : Bool :=
  match d.worker with
  | .missing => false
  | _ => true

/-! ## Wake-ups -/

/-- `_queue_not_empty.notify()`: only the worker waits there. -/
def notifyNotEmpty (d : Dispatcher κ ε) : Dispatcher κ ε :=
  { d with
    worker := match d.worker with
      | .waiting => .ready
      | w => w }

/-- `_queue_not_full.notify()`. -/
def notifyNotFull (d : Dispatcher κ ε) : Dispatcher κ ε :=
  { d with parked := d.parked.tail, woken := d.woken ++ d.parked.take 1 }

/-- `_queue_not_full.notify_all()`. -/
def releaseProducers (d : Dispatcher κ ε) : Dispatcher κ ε :=
  { d with parked := [], woken := d.woken ++ d.parked }

/-- `stop()` once it has found a worker: `_stopping` is set and everybody who waits is notified. -/
def signalStop (d : Dispatcher κ ε) : Dispatcher κ ε :=
  { d with stopping := true }.notifyNotEmpty.releaseProducers

/-- `_queue_not_full.wait()`. -/
def park (k : κ) (e : QueuedEvent κ ε) (d : Dispatcher κ ε) : Dispatcher κ ε :=
  { d with parked := d.parked ++ [(k, e)] }

@[simp] theorem notifyNotEmpty_ended (d : Dispatcher κ ε) : d.notifyNotEmpty.worker.ended = d.worker.ended := by
  simp only [notifyNotEmpty]; cases d.worker <;> rfl

@[simp] theorem signalStop_ended (d : Dispatcher κ ε) : d.signalStop.worker.ended = d.worker.ended :=
  notifyNotEmpty_ended _

@[simp] theorem hasBackgroundWorker_eq_false (d : Dispatcher κ ε) :
    d.hasBackgroundWorker = false ↔ d.worker = .missing := by
  unfold hasBackgroundWorker; cases d.worker <;> simp

/-! ## Completing futures -/

section Settle

variable [DecidableEq κ]

/-- Complete the future of a queue item unless it is done. -/
def settle (c : Completion) (d : Dispatcher κ ε) (e : QueuedEvent κ ε) : Dispatcher κ ε :=
  { d with
    completion := match e.handled with
      | some k => if d.completion k = .pending then Function.update d.completion k c else d.completion
      | none => d.completion }

def completeQueuedEvent (d : Dispatcher κ ε) (e : QueuedEvent κ ε) : Dispatcher κ ε := d.settle .handled e

def dropQueuedEvent (d : Dispatcher κ ε) (e : QueuedEvent κ ε) : Dispatcher κ ε := d.settle .dropped e

def failQueuedEvent (d : Dispatcher κ ε) (e : QueuedEvent κ ε) : Dispatcher κ ε := d.settle .failed e

/-- The `finally` block of `_run` after an error: the queued events fail and the queue is cleared. -/
def failPending (d : Dispatcher κ ε) : Dispatcher κ ε :=
  { d with
    completion := (d.queue.foldl failQueuedEvent d).completion
    queue := []
    worker := .missing }

/-- The end of `stop()` on the worker itself or under the bypass: the queue is dropped. -/
def dropPending (d : Dispatcher κ ε) : Dispatcher κ ε :=
  { d with
    droppedStopPhaseTotal := d.droppedStopPhaseTotal + d.queue.length
    completion := (d.queue.foldl dropQueuedEvent d).completion
    queue := [] }

def dropQueuedEventsForResource (payload : ε → Bool) (d : Dispatcher κ ε) : Dispatcher κ ε :=
  let dropped := d.queue.filter fun e => payload e.event
  if dropped.isEmpty then d
  else releaseProducers
    { d with
      queue := d.queue.filter fun e => !payload e.event
      droppedStopPhaseTotal := d.droppedStopPhaseTotal + dropped.length
      completion := (dropped.foldl dropQueuedEvent d).completion }

/-- A purge leaves the worker and `_stopping` alone. -/
theorem dropQueuedEvents_worker (payload : ε → Bool) (d : Dispatcher κ ε) :
    (d.dropQueuedEventsForResource payload).worker.ended = d.worker.ended ∧
      (d.worker = .missing → (d.dropQueuedEventsForResource payload).worker = .missing) ∧
      (d.dropQueuedEventsForResource payload).stopping = d.stopping := by
  unfold dropQueuedEventsForResource
  dsimp only
  split
  · exact ⟨rfl, id, rfl⟩
  · exact ⟨rfl, id, rfl⟩

/-! ## `_enqueue` -/

def recordStopPhaseDrop (d : Dispatcher κ ε) : Dispatcher κ ε :=
  { d with droppedStopPhaseTotal := d.droppedStopPhaseTotal + 1 }

/-- Append an event, count it, and tell the worker. -/
def accept (e : QueuedEvent κ ε) (d : Dispatcher κ ε) : Dispatcher κ ε :=
  notifyNotEmpty
    { d with
      queue := d.queue ++ [e]
      enqueuedTotal := d.enqueuedTotal + 1
      queuePeak := max d.queuePeak (d.queue.length + 1) }

/-- The new event is rejected by backpressure. -/
def rejectNewest (e : QueuedEvent κ ε) (d : Dispatcher κ ε) : Dispatcher κ ε :=
  { d with droppedBackpressureNewestTotal := d.droppedBackpressureNewestTotal + 1 }.dropQueuedEvent e

/-- The oldest droppable event `oldest` makes room for the new one. -/
def evictOldest (oldest e : QueuedEvent κ ε) (d : Dispatcher κ ε) : Dispatcher κ ε :=
  { d with
    queue := d.queue.eraseP fun pending => pending.dropOnBackpressure
    droppedBackpressureOldestTotal := d.droppedBackpressureOldestTotal + 1 }.dropQueuedEvent oldest |>.accept e

def enqueueTurn (delivery : EventDeliverySettings) (k : κ) (e : QueuedEvent κ ε) (d : Dispatcher κ ε) :
    Dispatcher κ ε :=
  if d.stopping then d.recordStopPhaseDrop.dropQueuedEvent e
  else if d.queue.length < delivery.maxPendingEvents then d.accept e
  else match delivery.backpressurePolicy with
    | .block => d.park k e
    | .dropOldest =>
      match d.queue.find? fun pending => pending.dropOnBackpressure with
      | some oldest => d.evictOldest oldest e
      | none => if e.dropOnBackpressure then d.rejectNewest e else d.park k e
    | .dropNewest => if e.dropOnBackpressure then d.rejectNewest e else d.park k e

/-- What one turn of `_enqueue` can do: drop the event for a stop, accept it, reject it, or park its caller. -/
theorem enqueueTurn_spec (delivery : EventDeliverySettings) (k : κ) (e : QueuedEvent κ ε) (d : Dispatcher κ ε) :
    (d.stopping ∧ d.enqueueTurn delivery k e = d.recordStopPhaseDrop.dropQueuedEvent e) ∨
    (¬ d.stopping ∧ (d.enqueueTurn delivery k e = d.accept e ∨ (∃ oldest, d.enqueueTurn delivery k e = d.evictOldest oldest e) ∨
      d.enqueueTurn delivery k e = d.rejectNewest e ∨ d.enqueueTurn delivery k e = d.park k e)) := by
  unfold enqueueTurn
  split
  · next h => exact .inl ⟨h, rfl⟩
  next h =>
  refine .inr ⟨h, ?_⟩
  split
  · exact .inl rfl
  split
  · exact .inr (.inr (.inr rfl))
  · split
    · exact .inr (.inl ⟨_, rfl⟩)
    · split
      · exact .inr (.inr (.inl rfl))
      · exact .inr (.inr (.inr rfl))
  · split
    · exact .inr (.inr (.inl rfl))
    · exact .inr (.inr (.inr rfl))

/-- A turn of `_enqueue` leaves the worker alone, but for a wake-up, and never touches `_stopping`. -/
theorem enqueueTurn_frame (delivery : EventDeliverySettings) (k : κ) (e : QueuedEvent κ ε) (d : Dispatcher κ ε) :
    ((d.enqueueTurn delivery k e).worker = d.worker ∨ (d.enqueueTurn delivery k e).worker = d.notifyNotEmpty.worker) ∧
      (d.enqueueTurn delivery k e).stopping = d.stopping := by
  rcases d.enqueueTurn_spec delivery k e with ⟨_, h⟩ | ⟨_, h | ⟨oldest, h⟩ | h | h⟩ <;> rw [h]
  · exact ⟨.inl rfl, rfl⟩
  · exact ⟨.inr rfl, rfl⟩
  · exact ⟨.inr rfl, rfl⟩
  · exact ⟨.inl rfl, rfl⟩
  · exact ⟨.inl rfl, rfl⟩

@[simp] theorem enqueueTurn_ended (delivery : EventDeliverySettings) (k : κ) (e : QueuedEvent κ ε)
    (d : Dispatcher κ ε) : (d.enqueueTurn delivery k e).worker.ended = d.worker.ended := by
  rcases (d.enqueueTurn_frame delivery k e).1 with h | h <;> simp [h]

theorem enqueueTurn_missing (delivery : EventDeliverySettings) (k : κ) (e : QueuedEvent κ ε) {d : Dispatcher κ ε}
    (hw : d.worker = .missing) : (d.enqueueTurn delivery k e).worker = .missing := by
  rcases (d.enqueueTurn_frame delivery k e).1 with h | h <;> simp [h, notifyNotEmpty, hw]

end Settle

end Dispatcher

end Aionetx
