import Mathlib.Tactic
import Aionetx.Model.Api

/-!
# One TCP connection

The fields of `AsyncioTcpConnection` that its lifecycle reads and writes, where each of its tasks stands, and the
functions of one uninterrupted stretch of its code over them.

* `StartPc`, `ReadPc`, `CloseTask`, `Publication`, `Publisher` : `start()` and the tasks of a connection;
* `Conn` : the connection, `Conn.opening` : `_opening_event_task is not None`;
* `CloseContext` : what `close()` reads of its caller, `Conn.requestClose` : its part under `_close_lock`;
* `Conn.deferCloseEvent` : the end of `_defer_close_event_until_opened_event_completes`;
* `Conn.finalizeClose`, `Conn.finishPublication`, `Conn.resolveWaiter` : `_finalize_close` and what wakes its callers.

No code suspends while it holds `_close_lock`, so taking it never suspends. The on-closed callbacks that the components
register only stop a heartbeat sender, which reports its own failures: they do not raise, and nobody cancels a close,
publication or publisher task.
-/

namespace Aionetx

/-- A connection object; `_connection_id` is its `resource_id`, which two objects may share. -/
abbrev ConnId := Nat

abbrev Token := Nat

/-- The tasks on which a handler may run or from which `close()` may be called. -/
inductive TaskId
  | worker
  /-- the task that called `start()` -/
  | start (c : ConnId)
  /-- the read-loop task -/
  | read (c : ConnId)
  /-- the task behind `_close_event_task` -/
  | publication (c : ConnId)
  /-- any other task -/
  | user (n : Nat)
  deriving DecidableEq, Repr

def TaskId.isUser : TaskId → Bool
  | .user _ => true
  | _ => false

/-- The events; `control` is the error event of the handler-failure policy, `other` any event of the component or of
another transport. Neither carries the id of a connection. -/
inductive Event
  | opened (c : ConnId)
  | bytes (c : ConnId) (data : Bytes)
  | error (c : ConnId)
  | closed (c : ConnId) (previousState : ConnectionState)
  | control
  | other
  deriving DecidableEq, Repr

def Event.conn? : Event → Option ConnId
  | .opened c | .bytes c _ | .error c | .closed c _ => some c
  | .control | .other => none

def Event.isBytes : Event → Bool
  | .bytes _ _ => true
  | _ => false

def Event.isError : Event → Bool
  | .error _ | .control => true
  | _ => false

inductive ReadEvent
  | bytes (data : Bytes)
  | error
  deriving DecidableEq, Repr

def ReadEvent.event (c : ConnId) : ReadEvent → Event
  | .bytes data => .bytes c data
  | .error => .error c

@[simp] theorem ReadEvent.event_conn? (c : ConnId) (e : ReadEvent) : (e.event c).conn? = some c := by cases e <;> rfl

/-- What `_publish_deferred_close_after_opened_event` came back with. -/
inductive PublishResult
  | notDeferred | published | failed
  deriving DecidableEq, Repr

/-- Where `start()` stands. The Boolean of the later stages tells whether `emit_and_wait` of the opened event returned;
`waiter` is the deferred waiter that its publish task captured. -/
inductive StartPc
  | idle
  /-- in `_notify_ready_callback` -/
  | notifyingReady
  /-- in `_enqueue` for the opened event -/
  | enqueueing
  /-- the opened event is queued, its `handled` future pending -/
  | awaitingHandled
  /-- `handled` is done, `start()` not resumed -/
  | handled
  /-- the opened handler runs on the calling task -/
  | delivering
  /-- `_publish_deferred_close_after_opened_event` created as a task -/
  | publishing (opened : Bool)
  /-- that task awaits the publication -/
  | joining (opened : Bool) (waiter : Option Nat)
  /-- the publication is over, that task not resumed -/
  | joined (opened : Bool) (waiter : Option Nat) (published : Bool)
  /-- that task is done, `start()` not resumed -/
  | settled (opened : Bool) (result : PublishResult)
  /-- in the `close()` of an error path, or past it -/
  | closing
  | done
  deriving DecidableEq, Repr

inductive ReadPc
  | missing
  /-- created, not run yet -/
  | created
  /-- in `_reader.read` -/
  | reading
  /-- in `_enqueue` -/
  | enqueueing (e : ReadEvent)
  /-- inside the inline delivery of `e` -/
  | delivering (e : ReadEvent)
  /-- in the `close()` of its `finally` block, or past it -/
  | closing
  | done
  deriving DecidableEq, Repr

/-- The cancellation of the read task ends it where it awaits; a handler that runs there may outlive it. -/
def ReadPc.cancel : ReadPc → ReadPc
  | .missing => .missing
  | .delivering e => .delivering e
  | _ => .done

theorem ReadPc.cancel_ne (pc : ReadPc) : pc.cancel ≠ .created ∧ pc.cancel ≠ .reading := by
  cases pc <;> simp [cancel]

inductive ClosePc
  | created
  | awaitingRead
  /-- in `_await_writer_shutdown` -/
  | writerShutdown
  /-- in the on-closed callback -/
  | inCallback
  | awaitingWaiter (waiter : Nat)
  | awaitingPublication
  /-- what it awaited is done, the task not resumed -/
  | finishing
  deriving DecidableEq, Repr

/-- The task behind `_close_task`, with the arguments of `_run_close_lifecycle`; `tokens` are the handler-origin tokens
of the context it inherits. -/
structure CloseTask where
  needsTeardown : Bool
  /-- `read_task is not None` -/
  detachedRead : Bool
  caller : TaskId
  callerUsesInlineDelivery : Bool
  tokens : List Token
  pc : ClosePc := .created
  deriving DecidableEq, Repr

inductive PublicationPc
  | created | enqueueing | delivering
  deriving DecidableEq, Repr

/-- The task behind `_close_event_task`; `inline` tells whether it inherited the inline-delivery context. -/
structure Publication where
  previousState : ConnectionState
  inline : Bool
  pc : PublicationPc := .created
  deriving DecidableEq, Repr

/-- The task behind `_deferred_close_publish_task`. -/
inductive Publisher
  | missing
  /-- in `wait_for_handler_context` -/
  | waiting
  | joining (waiter : Option Nat)
  | joined (waiter : Option Nat)
  deriving DecidableEq, Repr

/-- A connection: its fields, then its tasks. A waiter is a number, `waiter` the pending one. -/
structure Conn where
  state : ConnectionState := .created
  /-- `_close_event_previous_state` -/
  previousState : Option ConnectionState := none
  /-- `_closed_event_published` -/
  published : Bool := false
  /-- `_close_event_deferred_until_opened_event_completes` -/
  deferred : Bool := false
  /-- `_deferred_close_event_waiter`, while not done -/
  waiter : Option Nat := none
  waiters : Nat := 0
  /-- `_read_task is not None` -/
  readTask : Bool := false
  start : StartPc := .idle
  read : ReadPc := .missing
  closeTask : Option CloseTask := none
  publication : Option Publication := none
  publisher : Publisher := .missing

namespace StartPc

/-- `_opening_event_task is not None`. -/
def opening : StartPc → Bool
  | .enqueueing | .awaitingHandled | .handled | .delivering => true
  | .publishing opened | .joining opened _ | .joined opened _ _ | .settled opened _ => !opened
  | _ => false

/-- The publication that a publish task awaits is over. -/
def publicationDone (published : Bool) : StartPc → StartPc
  | .joining opened waiter => .joined opened waiter published
  | pc => pc

@[simp] theorem publicationDone_eq_delivering (pc : StartPc) (published : Bool) :
    pc.publicationDone published = .delivering ↔ pc = .delivering := by
  cases pc <;> simp [publicationDone]

end StartPc

def Publisher.publicationDone : Publisher → Publisher
  | .joining waiter => .joined waiter
  | pc => pc

def ClosePc.publicationDone : ClosePc → ClosePc
  | .awaitingPublication => .finishing
  | pc => pc

def ClosePc.waiterDone (waiter : Nat) : ClosePc → ClosePc
  | .awaitingWaiter w => if w = waiter then .finishing else .awaitingWaiter w
  | pc => pc

/-- What a call to `close()` reads of its own task and context. -/
structure CloseContext where
  task : TaskId
  /-- the handler calls in whose context the task runs, innermost first -/
  tokens : List Token := []
  /-- the task is the one that runs the innermost of these handler calls -/
  direct : Bool := false
  /-- `current_task_has_inline_delivery_context()` -/
  inlineContext : Bool := false
  /-- the innermost handler call awaits this task -/
  awaited : Bool := false
  deriving DecidableEq, Repr

/-- `close_caller_uses_inline_delivery`; on the worker a caller is inside a handler call. -/
def CloseContext.usesInlineDelivery (ctx : CloseContext) : Bool := ctx.direct || ctx.inlineContext

namespace Conn

/-- `_opening_event_task is not None`. -/
def opening (conn : Conn) : Bool := conn.start.opening

/-- The part of `close()` under `_close_lock` that creates the close task. -/
def requestClose (ctx : CloseContext) (conn : Conn) : Conn :=
  if conn.closeTask.isSome then conn
  else
    let needsTeardown := conn.state ≠ .closing && conn.state ≠ .closed
    { conn with
      readTask := if needsTeardown then false else conn.readTask
      previousState := if conn.state = .closed then conn.previousState else some (conn.previousState.getD conn.state)
      state := if conn.state = .closed then .closed else .closing
      closeTask := some
        { needsTeardown
          detachedRead := needsTeardown && conn.readTask
          caller := ctx.task
          callerUsesInlineDelivery := ctx.usesInlineDelivery
          tokens := ctx.tokens } }

/-- The deferral of the close event: the waiter is created unless one is pending, and a publisher if `publish`. -/
def deferCloseEvent (publish : Bool) (conn : Conn) : Conn :=
  { conn with
    state := .closed
    deferred := true
    waiter := some (conn.waiter.getD conn.waiters)
    waiters := if conn.waiter.isSome then conn.waiters else conn.waiters + 1
    publisher := if publish && conn.publisher = .missing then .waiting else conn.publisher }

/-- `_finalize_close` up to its await: a publication task is created unless one runs; nothing happens after a
successful publication. -/
def finalizeClose (inline : Bool) (conn : Conn) : Conn :=
  if conn.published || conn.publication.isSome then conn
  else
    { conn with
      state := .closed
      publication := some { previousState := conn.previousState.getD .closing, inline } }

/-- The end of `_run_close_event_publication`: its callers are woken. -/
def finishPublication (ok : Bool) (conn : Conn) : Conn :=
  { conn with
    published := conn.published || ok
    previousState := if ok then none else conn.previousState
    publication := none
    start := conn.start.publicationDone ok
    publisher := conn.publisher.publicationDone
    closeTask := conn.closeTask.map fun t => { t with pc := t.pc.publicationDone } }

/-- The captured waiter is resolved unless it is done: a close task that awaits it is woken. -/
def resolveWaiter (captured : Option Nat) (conn : Conn) : Conn :=
  match captured with
  | some waiter =>
    if conn.waiter = some waiter then
      { conn with
        waiter := none
        closeTask := conn.closeTask.map fun t => { t with pc := t.pc.waiterDone waiter } }
    else conn
  | none => conn

/-! ## What the functions leave alone -/

section Frame

variable (conn : Conn) (ctx : CloseContext)

@[simp] theorem requestClose_start : (conn.requestClose ctx).start = conn.start := by unfold requestClose; split <;> rfl
@[simp] theorem requestClose_read : (conn.requestClose ctx).read = conn.read := by unfold requestClose; split <;> rfl
@[simp] theorem requestClose_publication : (conn.requestClose ctx).publication = conn.publication := by
  unfold requestClose; split <;> rfl
@[simp] theorem requestClose_publisher : (conn.requestClose ctx).publisher = conn.publisher := by
  unfold requestClose; split <;> rfl
@[simp] theorem requestClose_deferred : (conn.requestClose ctx).deferred = conn.deferred := by
  unfold requestClose; split <;> rfl
@[simp] theorem requestClose_published : (conn.requestClose ctx).published = conn.published := by
  unfold requestClose; split <;> rfl

@[simp] theorem finalizeClose_start (inline : Bool) : (conn.finalizeClose inline).start = conn.start := by
  unfold finalizeClose; split <;> rfl
@[simp] theorem finalizeClose_read (inline : Bool) : (conn.finalizeClose inline).read = conn.read := by
  unfold finalizeClose; split <;> rfl
@[simp] theorem finalizeClose_closeTask (inline : Bool) : (conn.finalizeClose inline).closeTask = conn.closeTask := by
  unfold finalizeClose; split <;> rfl
theorem finalizeClose_publication (inline : Bool) :
    conn.publication = none ∨ (conn.finalizeClose inline).publication = conn.publication := by
  unfold finalizeClose
  rcases hp : conn.publication with _ | p
  · exact .inl rfl
  · simp [hp]
@[simp] theorem resolveWaiter_start (w : Option Nat) : (conn.resolveWaiter w).start = conn.start := by
  unfold resolveWaiter; split <;> [split <;> rfl; rfl]
@[simp] theorem resolveWaiter_read (w : Option Nat) : (conn.resolveWaiter w).read = conn.read := by
  unfold resolveWaiter; split <;> [split <;> rfl; rfl]
@[simp] theorem resolveWaiter_publication (w : Option Nat) : (conn.resolveWaiter w).publication = conn.publication := by
  unfold resolveWaiter; split <;> [split <;> rfl; rfl]

end Frame

end Conn

end Aionetx
