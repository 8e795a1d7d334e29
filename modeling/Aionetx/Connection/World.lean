import Aionetx.Runs.Machine
import Aionetx.Connection.State

/-!
# Connections on one dispatcher

Any number of connections that share one `AsyncioEventDispatcher` with BLOCK backpressure, whose worker runs in
BACKGROUND mode and is never stopped, under every interleaving of their tasks, the worker and their callers.

* `HandlerCall`, `CloseCall`, `Mark` : a handler call, a `close()` call that has not returned, an entry of the history;
* `World` : the connections, the queue, the active handler calls, the `close()` calls and the history;
* `World.close`, `World.finalizeClose`, `World.readFinally`, ... : the stretches of code of one task;
* `WorldAct`, `World.step`, `world` : the actions and the machine.

`start()` runs on a task of the component, outside every handler context, and so does the read loop it creates.
A producer parked in `_enqueue` may try again whenever it likes, notified or not: it parks again while the queue is full.
-/

namespace Aionetx

/-- A handler call: its handler-origin token, the task that runs it, and its event. -/
structure HandlerCall where
  token : Token
  task : TaskId
  event : Event
  deriving DecidableEq, Repr

/-- Where a `close()` call stands: it awaits the close task, is woken by its end, or awaits a deferred waiter. -/
inductive CloseCallPc
  | joining | joined | waitingDeferred (waiter : Nat)
  deriving DecidableEq, Repr

structure CloseCall where
  ctx : CloseContext
  target : ConnId
  /-- `handler_origin_caller` -/
  handlerOrigin : Bool
  pc : CloseCallPc := .joining
  deriving DecidableEq, Repr

/-- An entry of the history: a chunk that `reader.read` returned, the start or the end of a handler call. -/
inductive Mark
  | received (c : ConnId) (data : Bytes)
  | started (h : HandlerCall)
  | finished (h : HandlerCall)
  deriving DecidableEq, Repr

/-- The delivery settings of the dispatcher and the `_connection_id` of each connection object. -/
structure Settings where
  delivery : EventDeliverySettings
  resourceId : ConnId → ResourceId
  block : delivery.backpressurePolicy = .block := by rfl

/-- No other connection object has the id of `c`. -/
def Settings.Own (s : Settings) (c : ConnId) : Prop := ∀ d, s.resourceId d = s.resourceId c → d = c

/-- The connections and their dispatcher. `worker` is the event the worker has taken from the queue. -/
structure World where
  conns : ConnId → Conn := fun _ => {}
  queue : List Event := []
  worker : Option Event := none
  active : List HandlerCall := []
  nextToken : Token := 0
  calls : List CloseCall := []
  log : List Mark := []

inductive HandlerOutcome
  | returned
  | raised
  /-- the cancellation of the task that runs the handler -/
  | cancelled
  deriving DecidableEq, Repr

inductive WorldAct
  | start (c : ConnId)
  | readyReturned (c : ConnId)
  | readyRaised (c : ConnId)
  | startEnqueueTurn (c : ConnId)
  | startCancelled (c : ConnId)
  | startHandled (c : ConnId) (cancelled : Bool)
  | startPublish (c : ConnId)
  | startPublished (c : ConnId)
  | startSettled (c : ConnId)
  | readRun (c : ConnId)
  | readReturned (c : ConnId) (data : Bytes)
  | readEof (c : ConnId)
  | readRaised (c : ConnId)
  | readEnqueueTurn (c : ConnId)
  | close (c : ConnId) (ctx : CloseContext)
  | closeResumed (i : Nat)
  | closeRun (c : ConnId)
  | closeReadDone (c : ConnId)
  | closeWriterDone (c : ConnId)
  | closeCallbackReturned (c : ConnId)
  | closeFinished (c : ConnId)
  | publicationRun (c : ConnId)
  | publicationEnqueueTurn (c : ConnId)
  | publisherRun (c : ConnId)
  | publisherPublished (c : ConnId)
  | workerTake
  | emitOther (n : Nat)
  | handlerDone (token : Token) (outcome : HandlerOutcome)
  deriving DecidableEq, Repr

/-- The connection whose task takes the action. -/
def WorldAct.conn? : WorldAct → Option ConnId
  | .start c | .readyReturned c | .readyRaised c | .startEnqueueTurn c | .startCancelled c | .startHandled c _
  | .startPublish c | .startPublished c | .startSettled c | .readRun c | .readReturned c _ | .readEof c | .readRaised c
  | .readEnqueueTurn c | .close c _ | .closeRun c | .closeReadDone c | .closeWriterDone c | .closeCallbackReturned c
  | .closeFinished c | .publicationRun c | .publicationEnqueueTurn c | .publisherRun c | .publisherPublished c => some c
  | .closeResumed _ | .workerTake | .emitOther _ | .handlerDone _ _ => none

/-- The `close()` call of user code that the action makes. -/
def WorldAct.close? : WorldAct → Option (ConnId × CloseContext)
  | .close c ctx => some (c, ctx)
  | _ => none

namespace World

variable (s : Settings)

/-! ## The dispatcher -/

/-- The `resource_id` of an event, where it is that of a connection. -/
def resource? (e : Event) : Option ResourceId := e.conn?.map s.resourceId

def hasActiveHandlerContext (c : ConnId) (w : World) : Bool :=
  w.active.any fun h => resource? s h.event = some (s.resourceId c)

/-- `current_task_inherits_handler_origin_context`, for a task in whose context the given tokens are. -/
def inheritsHandlerOriginContext (tokens : List Token) (c : ConnId) (w : World) : Bool :=
  w.active.any fun h => tokens.contains h.token && resource? s h.event = some (s.resourceId c)

/-- `current_task_would_deliver_inline`, for a library task. -/
def wouldDeliverInline (inlineContext : Bool) : Bool := s.delivery.dispatchMode = .inline || inlineContext

def setConn (c : ConnId) (conn : Conn) (w : World) : World := { w with conns := Function.update w.conns c conn }

/-- `reader.read` returns a chunk. -/
def receive (c : ConnId) (data : Bytes) (w : World) : World := { w with log := w.log ++ [.received c data] }

def beginCall (t : TaskId) (e : Event) (w : World) : World :=
  { w with
    active := w.active ++ [⟨w.nextToken, t, e⟩]
    nextToken := w.nextToken + 1
    log := w.log ++ [.started ⟨w.nextToken, t, e⟩] }

def endCall (h : HandlerCall) (w : World) : World :=
  { w with active := w.active.filter (· ≠ h), log := w.log ++ [.finished h] }

def append (e : Event) (w : World) : World := { w with queue := w.queue ++ [e] }

/-- A turn of `_enqueue`: the event is appended unless the queue is full. -/
def enqueue (e : Event) (w : World) : Option World :=
  if w.queue.length < s.delivery.maxPendingEvents then some (w.append e) else none

/-- The worker takes the next event from the queue. -/
def take (e : Event) (rest : List Event) (w : World) : World :=
  { w with worker := some e, queue := rest }.beginCall .worker e

def dropQueuedEventsForResource (c : ConnId) (w : World) : World :=
  { w with queue := w.queue.filter fun e => !(e.isBytes && resource? s e = some (s.resourceId c)) }

/-! ## `close()` -/

/-- `close()` up to its first await, and whether it awaits the close task. -/
def close (ctx : CloseContext) (c : ConnId) (w : World) : World × Bool :=
  let conn := w.conns c
  if conn.state = .closed ∧ conn.deferred ∧ conn.opening ∧ ctx.task = .start c then (w, false)
  else if conn.state = .closed ∧ conn.published then (w, false)
  else
    let w := w.setConn c (conn.requestClose ctx)
    if ctx.task = .publication c then (w, false)
    else if conn.deferred ∧ w.inheritsHandlerOriginContext s ctx.tokens c then (w, false)
    else (w, true)

/-- `close()` of user code, with the call it leaves behind. -/
def userClose (ctx : CloseContext) (c : ConnId) (w : World) : World :=
  let (w', awaits) := w.close s ctx c
  if awaits then
    { w' with
      calls := w'.calls ++
        [{ ctx, target := c, handlerOrigin := w'.inheritsHandlerOriginContext s ctx.tokens c }] }
  else w'

/-- The close task ends: the calls that await it are woken. -/
def finishClose (c : ConnId) (w : World) : World :=
  { w.setConn c { w.conns c with closeTask := none } with
    calls := w.calls.map fun k => if k.target = c ∧ k.pc = .joining then { k with pc := .joined } else k }

/-- The captured waiter is resolved: the calls that await it return. -/
def resolveWaiter (c : ConnId) (captured : Option Nat) (w : World) : World :=
  { w.setConn c ((w.conns c).resolveWaiter captured) with
    calls := w.calls.filter fun k =>
      !(k.target = c && (w.conns c).waiter.any fun waiter => captured = some waiter && k.pc = .waitingDeferred waiter) }

/-- `_run_close_lifecycle` from `_defer_close_event_until_opened_event_completes` on, up to its await or its end. -/
def deferOrPublish (c : ConnId) (t : CloseTask) (w : World) : World :=
  let conn := w.conns c
  let inherited := w.inheritsHandlerOriginContext s t.tokens c
  let activeInline := w.hasActiveHandlerContext s c && wouldDeliverInline s t.callerUsesInlineDelivery
  let handlerOrigin := conn.opening && t.caller = .start c
  if conn.opening || t.callerUsesInlineDelivery || inherited || activeInline || conn.deferred then
    let publish := !conn.opening && (t.callerUsesInlineDelivery || inherited || activeInline)
    let conn := conn.deferCloseEvent publish
    if handlerOrigin || t.callerUsesInlineDelivery || inherited then
      finishClose c ((w.setConn c conn).dropQueuedEventsForResource s c)
    else
      (w.setConn c { conn with closeTask := some { t with pc := .awaitingWaiter (conn.waiter.getD 0) } }
        ).dropQueuedEventsForResource s c
  else
    let w := w.dropQueuedEventsForResource s c
    if conn.published then finishClose c w
    else
      w.setConn c
        { conn.finalizeClose t.callerUsesInlineDelivery with closeTask := some { t with pc := .awaitingPublication } }

def runClose (c : ConnId) (t : CloseTask) (w : World) : World :=
  if t.needsTeardown then
    let active := w.hasActiveHandlerContext s c
    let preserve := active && wouldDeliverInline s t.callerUsesInlineDelivery
    let w := if active then w.dropQueuedEventsForResource s c else w
    let conn := w.conns c
    if t.detachedRead ∧ t.caller ≠ .read c ∧ !preserve then
      w.setConn c { conn with read := conn.read.cancel, closeTask := some { t with pc := .awaitingRead } }
    else w.setConn c { conn with closeTask := some { t with pc := .writerShutdown } }
  else w.deferOrPublish s c t

/-! ## `start()` and the read loop -/

def startClose (c : ConnId) (w : World) : World :=
  ((w.setConn c { w.conns c with start := .closing }).close s { task := .start c } c).1

def startCall (c : ConnId) (w : World) : World :=
  let conn := w.conns c
  if conn.state = .created then w.setConn c { conn with state := .connected, start := .notifyingReady }
  else w.setConn c { conn with start := .done }

/-- `start()` after the ready callback, up to the delivery of the opened event. -/
def startOpen (c : ConnId) (w : World) : World :=
  let conn := w.conns c
  if conn.state ≠ .connected then w.setConn c { conn with start := .done }
  else match s.delivery.dispatchMode with
    | .inline => (w.setConn c { conn with start := .delivering }).beginCall (.start c) (.opened c)
    | .background => w.setConn c { conn with start := .enqueueing }

/-- `_publish_deferred_close_after_opened_event` on the task that `start()` awaits. -/
def startPublish (c : ConnId) (opened : Bool) (w : World) : World :=
  let conn := w.conns c
  if !conn.deferred then w.setConn c { conn with start := .settled opened .notDeferred }
  else if conn.published then
    (w.setConn c { conn with deferred := false, start := .settled opened .published }).resolveWaiter c conn.waiter
  else
    w.setConn c
      { { conn with deferred := false }.finalizeClose true with start := .joining opened conn.waiter }

def startSettle (c : ConnId) (opened : Bool) (result : PublishResult) (w : World) : World :=
  let conn := w.conns c
  match opened, result with
  | true, .published => w.setConn c { conn with start := .done }
  | true, .notDeferred =>
    if conn.state = .connected then w.setConn c { conn with start := .done, read := .created, readTask := true }
    else w.setConn c { conn with start := .done }
  | _, _ => w.startClose s c

/-- `_publish_deferred_close_after_handler_context_expires`, once no handler of the connection is active. -/
def publisherRun (c : ConnId) (w : World) : World :=
  let conn := w.conns c
  if !conn.deferred then w.setConn c { conn with publisher := .missing }
  else if conn.published then
    (w.setConn c { conn with deferred := false, publisher := .missing }).resolveWaiter c conn.waiter
  else w.setConn c { { conn with deferred := false }.finalizeClose true with publisher := .joining conn.waiter }

def readFinally (c : ConnId) (w : World) : World :=
  let conn := w.conns c
  if conn.state = .closing ∨ conn.state = .closed then w.setConn c { conn with read := .done }
  else
    let w := (w.close s { task := .read c } c).1
    w.setConn c { w.conns c with read := .closing }

/-- The condition of the `while` loop of `_read_loop`. -/
def readLoop (c : ConnId) (w : World) : World :=
  let conn := w.conns c
  if conn.state = .connected then w.setConn c { conn with read := .reading } else w.readFinally s c

/-- The read loop has delivered an event: after a payload it goes on, after an error it ends. -/
def afterReadEmit (c : ConnId) (e : ReadEvent) (w : World) : World :=
  match e with
  | .bytes _ => w.readLoop s c
  | .error => w.readFinally s c

def readEmit (c : ConnId) (e : ReadEvent) (w : World) : World :=
  match s.delivery.dispatchMode with
  | .inline => (w.setConn c { w.conns c with read := .delivering e }).beginCall (.read c) (e.event c)
  | .background => w.setConn c { w.conns c with read := .enqueueing e }

/-! ## The end of a handler call -/

/-- The task that ran a handler call goes on; `raised` if `emit` raised. -/
def resume (t : TaskId) (raised : Bool) (w : World) : World :=
  match t with
  | .worker =>
    let w' := { w with worker := none }
    match w.worker with
    | some (.opened c) =>
      -- `complete_queued_event`
      if (w.conns c).start = .awaitingHandled then w'.setConn c { w.conns c with start := .handled } else w'
    | _ => w'
  | .start c => w.setConn c { w.conns c with start := .publishing !raised }
  | .read c =>
    match (w.conns c).read with
    | .delivering e =>
      if raised then
        match e with
        | .bytes _ => w.readEmit s c .error
        | .error => w.readFinally s c
      else w.afterReadEmit s c e
    | _ => w
  | .publication c => w.setConn c ((w.conns c).finishPublication !raised)
  | .user _ => w

/-- A handler call ends, and the failure policy is applied. -/
def handlerDone (h : HandlerCall) (outcome : HandlerOutcome) (w : World) : Option World :=
  let w := w.endCall h
  match outcome with
  | .returned => some (w.resume s h.task false)
  | .cancelled =>
    match h.task with
    | .start _ | .user _ => some (w.resume s h.task true)
    | _ => none
  | .raised =>
    match s.delivery.handlerFailurePolicy with
    | .logOnly => some (w.resume s h.task false)
    | .raiseInInlineMode => some (w.resume s h.task (s.delivery.dispatchMode = .inline && h.event ≠ .control))
    | .emitErrorEvent =>
      if h.event.isError then some (w.resume s h.task false) else some (w.beginCall h.task .control)
    -- the component stop that follows is not part of this machine
    | .stopComponent => none

/-! ## Steps -/

/-- The handler call awaits a `close()` call, itself or through a child task. -/
def waitsInClose (token : Token) (w : World) : Bool :=
  w.calls.any fun k => k.ctx.tokens.head? = some token && (k.ctx.direct || k.ctx.awaited)

/-- A task may be where `ctx` says: on the task of an active handler call that is not suspended in a `close()` call, or
on a task of its own. -/
def validContext (ctx : CloseContext) (w : World) : Bool :=
  (ctx.tokens.all fun token => token < w.nextToken) &&
    if ctx.direct then
      w.active.any fun h => ctx.tokens.head? = some h.token && h.task = ctx.task && !w.waitsInClose h.token
    else match ctx.task with
      | .user _ => true
      | _ => false

def step (w : World) : WorldAct → Option World
  | .start c => if (w.conns c).start = .idle then some (w.startCall c) else none
  | .readyReturned c => if (w.conns c).start = .notifyingReady then some (w.startOpen s c) else none
  | .readyRaised c => if (w.conns c).start = .notifyingReady then some (w.startClose s c) else none
  | .startEnqueueTurn c =>
    if (w.conns c).start = .enqueueing then
      (w.enqueue s (.opened c)).map fun w => w.setConn c { w.conns c with start := .awaitingHandled }
    else none
  | .startCancelled c =>
    if (w.conns c).start = .enqueueing then some (w.setConn c { w.conns c with start := .publishing false }) else none
  | .startHandled c cancelled =>
    if (w.conns c).start = .handled then some (w.setConn c { w.conns c with start := .publishing !cancelled }) else none
  | .startPublish c =>
    match (w.conns c).start with
    | .publishing opened => some (w.startPublish c opened)
    | _ => none
  | .startPublished c =>
    match (w.conns c).start with
    | .joined opened waiter published =>
      some ((w.setConn c
        { w.conns c with start := .settled opened (if published then .published else .failed) }).resolveWaiter c waiter)
    | _ => none
  | .startSettled c =>
    match (w.conns c).start with
    | .settled opened result => some (w.startSettle s c opened result)
    | _ => none
  | .readRun c => if (w.conns c).read = .created then some (w.readLoop s c) else none
  | .readReturned c data =>
    if (w.conns c).read = .reading ∧ data ≠ [] then
      some ((w.receive c data).readEmit s c (.bytes data))
    else none
  | .readEof c => if (w.conns c).read = .reading then some (w.readFinally s c) else none
  | .readRaised c => if (w.conns c).read = .reading then some (w.readEmit s c .error) else none
  | .readEnqueueTurn c =>
    match (w.conns c).read with
    | .enqueueing e => (w.enqueue s (e.event c)).map fun w => w.afterReadEmit s c e
    | _ => none
  | .close c ctx => if w.validContext ctx then some (w.userClose s ctx c) else none
  | .closeResumed i =>
    match w.calls[i]? with
    | some k =>
      if k.pc = .joined then
        match (w.conns k.target).waiter with
        | some waiter =>
          if !k.handlerOrigin && w.hasActiveHandlerContext s k.target then
            some { w with calls := w.calls.set i { k with pc := .waitingDeferred waiter } }
          else some { w with calls := w.calls.eraseIdx i }
        | none => some { w with calls := w.calls.eraseIdx i }
      else none
    | none => none
  | .closeRun c =>
    match (w.conns c).closeTask with
    | some t => if t.pc = .created then some (w.runClose s c t) else none
    | none => none
  | .closeReadDone c =>
    match (w.conns c).closeTask with
    | some t =>
      if t.pc = .awaitingRead ∧ (w.conns c).read = .done then
        some (w.setConn c { w.conns c with closeTask := some { t with pc := .writerShutdown } })
      else none
    | none => none
  | .closeWriterDone c =>
    match (w.conns c).closeTask with
    | some t =>
      if t.pc = .writerShutdown then
        some (w.setConn c { w.conns c with closeTask := some { t with pc := .inCallback } })
      else none
    | none => none
  | .closeCallbackReturned c =>
    match (w.conns c).closeTask with
    | some t => if t.pc = .inCallback then some (w.deferOrPublish s c t) else none
    | none => none
  | .closeFinished c =>
    match (w.conns c).closeTask with
    | some t => if t.pc = .finishing then some (w.finishClose c) else none
    | none => none
  | .publicationRun c =>
    match (w.conns c).publication with
    | some p =>
      if p.pc = .created then
        if wouldDeliverInline s p.inline then
          some ((w.setConn c { w.conns c with publication := some { p with pc := .delivering } }).beginCall
            (.publication c) (.closed c p.previousState))
        else some (w.setConn c { w.conns c with publication := some { p with pc := .enqueueing } })
      else none
    | none => none
  | .publicationEnqueueTurn c =>
    match (w.conns c).publication with
    | some p =>
      if p.pc = .enqueueing then
        (w.enqueue s (.closed c p.previousState)).map fun w => w.setConn c ((w.conns c).finishPublication true)
      else none
    | none => none
  | .publisherRun c =>
    if (w.conns c).publisher = .waiting ∧ !w.hasActiveHandlerContext s c then some (w.publisherRun c) else none
  | .publisherPublished c =>
    match (w.conns c).publisher with
    | .joined waiter => some ((w.setConn c { w.conns c with publisher := .missing }).resolveWaiter c waiter)
    | _ => none
  | .workerTake =>
    match s.delivery.dispatchMode, w.worker, w.queue with
    | .background, none, e :: rest => some (w.take e rest)
    | _, _, _ => none
  | .emitOther n =>
    match s.delivery.dispatchMode with
    | .inline => some (w.beginCall (.user n) .other)
    | .background => w.enqueue s .other
  | .handlerDone token outcome =>
    match w.active.find? fun h => h.token = token with
    | some h => if w.waitsInClose token then none else w.handlerDone s h outcome
    | none => none

/-! ## What an action can do -/

variable {s} {w w' : World}

theorem enqueue_eq {e : Event} (h : w.enqueue s e = some w') :
    w.queue.length < s.delivery.maxPendingEvents ∧ w' = w.append e := by
  unfold enqueue at h
  split at h
  · next hq => exact ⟨hq, (Option.some.inj h).symm⟩
  · cases h

/-- An action, what it finds and what it leaves. -/
inductive Step (s : Settings) (w : World) : WorldAct → World → Prop
  | start {c} (hs : (w.conns c).start = .idle) : Step s w (.start c) (w.startCall c)
  | readyReturned {c} (hs : (w.conns c).start = .notifyingReady) : Step s w (.readyReturned c) (w.startOpen s c)
  | readyRaised {c} (hs : (w.conns c).start = .notifyingReady) : Step s w (.readyRaised c) (w.startClose s c)
  | startEnqueueTurn {c} (hs : (w.conns c).start = .enqueueing) :
    Step s w (.startEnqueueTurn c)
      ((w.append (.opened c)).setConn c { w.conns c with start := .awaitingHandled })
  | startCancelled {c} (hs : (w.conns c).start = .enqueueing) :
    Step s w (.startCancelled c) (w.setConn c { w.conns c with start := .publishing false })
  | startHandled {c cancelled} (hs : (w.conns c).start = .handled) :
    Step s w (.startHandled c cancelled) (w.setConn c { w.conns c with start := .publishing !cancelled })
  | startPublish {c opened} (hs : (w.conns c).start = .publishing opened) :
    Step s w (.startPublish c) (w.startPublish c opened)
  | startPublished {c opened waiter published} (hs : (w.conns c).start = .joined opened waiter published) :
    Step s w (.startPublished c)
      ((w.setConn c
        { w.conns c with start := .settled opened (if published then .published else .failed) }).resolveWaiter c waiter)
  | startSettled {c opened result} (hs : (w.conns c).start = .settled opened result) :
    Step s w (.startSettled c) (w.startSettle s c opened result)
  | readRun {c} (hr : (w.conns c).read = .created) : Step s w (.readRun c) (w.readLoop s c)
  | readReturned {c data} (hr : (w.conns c).read = .reading) (hd : data ≠ []) :
    Step s w (.readReturned c data) ((w.receive c data).readEmit s c (.bytes data))
  | readEof {c} (hr : (w.conns c).read = .reading) : Step s w (.readEof c) (w.readFinally s c)
  | readRaised {c} (hr : (w.conns c).read = .reading) : Step s w (.readRaised c) (w.readEmit s c .error)
  | readEnqueueTurn {c e} (hr : (w.conns c).read = .enqueueing e) :
    Step s w (.readEnqueueTurn c) ((w.append (e.event c)).afterReadEmit s c e)
  | close {c ctx} (hc : w.validContext ctx) : Step s w (.close c ctx) (w.userClose s ctx c)
  | closeResumed {i calls} (hc : ∀ k' ∈ calls, k' ∈ w.calls ∨
      ∃ k ∈ w.calls, k.handlerOrigin = false ∧ ∃ waiter, k' = { k with pc := .waitingDeferred waiter }) :
    Step s w (.closeResumed i) { w with calls := calls }
  | closeRun {c t} (ht : (w.conns c).closeTask = some t) (hpc : t.pc = .created) :
    Step s w (.closeRun c) (w.runClose s c t)
  | closeReadDone {c t} (ht : (w.conns c).closeTask = some t) (hpc : t.pc = .awaitingRead)
      (hr : (w.conns c).read = .done) :
    Step s w (.closeReadDone c) (w.setConn c { w.conns c with closeTask := some { t with pc := .writerShutdown } })
  | closeWriterDone {c t} (ht : (w.conns c).closeTask = some t) (hpc : t.pc = .writerShutdown) :
    Step s w (.closeWriterDone c) (w.setConn c { w.conns c with closeTask := some { t with pc := .inCallback } })
  | closeCallbackReturned {c t} (ht : (w.conns c).closeTask = some t) (hpc : t.pc = .inCallback) :
    Step s w (.closeCallbackReturned c) (w.deferOrPublish s c t)
  | closeFinished {c t} (ht : (w.conns c).closeTask = some t) (hpc : t.pc = .finishing) :
    Step s w (.closeFinished c) (w.finishClose c)
  | publicationInline {c p} (hp : (w.conns c).publication = some p) (hpc : p.pc = .created)
      (hi : wouldDeliverInline s p.inline) :
    Step s w (.publicationRun c)
      ((w.setConn c { w.conns c with publication := some { p with pc := .delivering } }).beginCall (.publication c)
        (.closed c p.previousState))
  | publicationBackground {c p} (hp : (w.conns c).publication = some p) (hpc : p.pc = .created)
      (hi : wouldDeliverInline s p.inline = false) :
    Step s w (.publicationRun c) (w.setConn c { w.conns c with publication := some { p with pc := .enqueueing } })
  | publicationEnqueueTurn {c p} (hp : (w.conns c).publication = some p) (hpc : p.pc = .enqueueing) :
    Step s w (.publicationEnqueueTurn c)
      ((w.append (.closed c p.previousState)).setConn c ((w.conns c).finishPublication true))
  | publisherRun {c} (hp : (w.conns c).publisher = .waiting) (ha : w.hasActiveHandlerContext s c = false) :
    Step s w (.publisherRun c) (w.publisherRun c)
  | publisherPublished {c waiter} (hp : (w.conns c).publisher = .joined waiter) :
    Step s w (.publisherPublished c) ((w.setConn c { w.conns c with publisher := .missing }).resolveWaiter c waiter)
  | workerTake {e rest} (hm : s.delivery.dispatchMode = .background) (hw : w.worker = none) (hq : w.queue = e :: rest) :
    Step s w .workerTake (w.take e rest)
  | emitInline {n} (hm : s.delivery.dispatchMode = .inline) : Step s w (.emitOther n) (w.beginCall (.user n) .other)
  | emitBackground {n} (hm : s.delivery.dispatchMode = .background) :
    Step s w (.emitOther n) (w.append .other)
  | handlerDone {token outcome h w'} (hmem : h ∈ w.active) (hf : w.handlerDone s h outcome = some w') :
    Step s w (.handlerDone token outcome) w'

theorem Step.of_step {a : WorldAct} (h : w.step s a = some w') : Step s w a w' := by
  cases a <;> simp only [step, Option.ite_none_right_eq_some, Option.some.injEq, Option.map_eq_some_iff] at h
  case start => obtain ⟨hs, rfl⟩ := h; exact .start hs
  case readyReturned => obtain ⟨hs, rfl⟩ := h; exact .readyReturned hs
  case readyRaised => obtain ⟨hs, rfl⟩ := h; exact .readyRaised hs
  case startEnqueueTurn =>
    obtain ⟨hs, w₁, hq, rfl⟩ := h
    obtain ⟨_, rfl⟩ := enqueue_eq hq
    exact .startEnqueueTurn hs
  case startCancelled => obtain ⟨hs, rfl⟩ := h; exact .startCancelled hs
  case startHandled => obtain ⟨hs, rfl⟩ := h; exact .startHandled hs
  case startPublish => split at h <;> cases h; next hs => exact .startPublish hs
  case startPublished => split at h <;> cases h; next hs => exact .startPublished hs
  case startSettled => split at h <;> cases h; next hs => exact .startSettled hs
  case readRun => obtain ⟨hr, rfl⟩ := h; exact .readRun hr
  case readReturned => obtain ⟨⟨hr, hd⟩, rfl⟩ := h; exact .readReturned hr hd
  case readEof => obtain ⟨hr, rfl⟩ := h; exact .readEof hr
  case readRaised => obtain ⟨hr, rfl⟩ := h; exact .readRaised hr
  case readEnqueueTurn =>
    split at h
    · next hr =>
      obtain ⟨w₁, hq, rfl⟩ := Option.map_eq_some_iff.mp h
      obtain ⟨_, rfl⟩ := enqueue_eq hq
      exact .readEnqueueTurn hr
    · cases h
  case close => obtain ⟨hc, rfl⟩ := h; exact .close hc
  case closeResumed i =>
    have herase : ∀ k' ∈ w.calls.eraseIdx i, k' ∈ w.calls := fun k' hk' => List.mem_of_mem_eraseIdx hk'
    split at h
    · next k hk =>
      split at h
      · split at h
        · next waiter _ =>
          split at h
          · next hor =>
            cases h
            refine .closeResumed fun k' hk' => ?_
            rcases List.mem_or_eq_of_mem_set hk' with hk' | rfl
            · exact .inl hk'
            · exact .inr ⟨k, List.mem_of_getElem? hk, by simp_all, waiter, rfl⟩
          · cases h; exact .closeResumed fun k' hk' => .inl (herase k' hk')
        · cases h; exact .closeResumed fun k' hk' => .inl (herase k' hk')
      · cases h
    · cases h
  case closeRun =>
    split at h
    · next ht => rw [Option.ite_none_right_eq_some] at h; obtain ⟨hpc, ⟨⟩⟩ := h; exact .closeRun ht hpc
    · cases h
  case closeReadDone =>
    split at h
    · next ht => rw [Option.ite_none_right_eq_some] at h; obtain ⟨⟨hpc, hr⟩, ⟨⟩⟩ := h; exact .closeReadDone ht hpc hr
    · cases h
  case closeWriterDone =>
    split at h
    · next ht => rw [Option.ite_none_right_eq_some] at h; obtain ⟨hpc, ⟨⟩⟩ := h; exact .closeWriterDone ht hpc
    · cases h
  case closeCallbackReturned =>
    split at h
    · next ht => rw [Option.ite_none_right_eq_some] at h; obtain ⟨hpc, ⟨⟩⟩ := h; exact .closeCallbackReturned ht hpc
    · cases h
  case closeFinished =>
    split at h
    · next ht => rw [Option.ite_none_right_eq_some] at h; obtain ⟨hpc, ⟨⟩⟩ := h; exact .closeFinished ht hpc
    · cases h
  case publicationRun =>
    split at h
    · next hp =>
      rw [Option.ite_none_right_eq_some] at h
      obtain ⟨hpc, h⟩ := h
      split at h <;> cases h
      · next hi => exact .publicationInline hp hpc hi
      · next hi => exact .publicationBackground hp hpc (by simpa using hi)
    · cases h
  case publicationEnqueueTurn =>
    split at h
    · next hp =>
      rw [Option.ite_none_right_eq_some] at h
      obtain ⟨hpc, h⟩ := h
      obtain ⟨w₁, hq, rfl⟩ := Option.map_eq_some_iff.mp h
      obtain ⟨_, rfl⟩ := enqueue_eq hq
      exact .publicationEnqueueTurn hp hpc
    · cases h
  case publisherRun => obtain ⟨⟨hp, ha⟩, rfl⟩ := h; exact .publisherRun hp (by simpa using ha)
  case publisherPublished => split at h <;> cases h; next hp => exact .publisherPublished hp
  case workerTake => split at h <;> cases h; next hm hw hq => exact .workerTake hm hw hq
  case emitOther =>
    split at h
    · next hm => cases h; exact .emitInline hm
    · next hm => obtain ⟨_, rfl⟩ := enqueue_eq h; exact .emitBackground hm
  case handlerDone =>
    split at h
    · next hk =>
      split at h
      · cases h
      · exact .handlerDone (List.mem_of_find?_eq_some hk) h
    · cases h

end World

def world (s : Settings) : Runs.Machine World WorldAct where
  init w := w = {}
  step := World.step s

end Aionetx
