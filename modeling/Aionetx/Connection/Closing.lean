import Aionetx.Runs.Machine
import Aionetx.Connection.State
import Aionetx.Client.Runtime

/-!
# The close of one connection, with steps that fail

`AsyncioTcpConnection` again, with every await of its close open to failure and cancellation, and with what the dispatcher
answers about handler contexts left to the environment.

* `ClosePublication`, `ClosingTask`, `DeferredPublisher`, `OpeningPc` : the tasks behind `_close_event_task`,
  `_close_task` and `_deferred_close_publish_task`, and `start()`;
* `TcpConnection` : the connection of a server, with the log of what its close did;
* `TcpConnection.finalizeClose`, `deferOrPublish`, `publishDeferred`, ... : the methods, from one await to the next;
* `TcpConnectionAct`, `TcpConnection.step`, `tcpConnectionMachine` : the actions and the machine.

`_close_task` and `_deferred_close_publish_task` are replaced only when they are `None` or done, and only their own tasks
clear them, in their last step: one task at most runs behind each. Taking `_close_lock` never suspends.
-/

namespace Aionetx

inductive ClosePublicationPc
  | created | emitting
  | ended (outcome : Outcome)
  deriving DecidableEq, Repr

/-- A task that runs `_run_close_event_publication`. -/
structure ClosePublication where
  previousState : ConnectionState
  pc : ClosePublicationPc := .created
  deriving DecidableEq, Repr

def ClosePublication.inFlight (p : ClosePublication) : Bool :=
  match p.pc with
  | .created | .emitting => true
  | .ended _ => false

/-- Where the close task stands: `purging` is the purge of the queue in the teardown; the callback of the server waits for
`_state_lock` before it takes the connection out of the registry. -/
inductive ClosingPc
  | created
  | purging
  | awaitingRead
  | writerShutdown
  | awaitingStateLock
  | inCallback
  | awaitingWaiter (waiter : Nat)
  | awaitingPublication (publication : Nat)
  deriving DecidableEq, Repr

structure ClosingTask where
  needsTeardown : Bool
  pc : ClosingPc := .created
  deriving DecidableEq, Repr

def ClosingTask.inTeardown (t : ClosingTask) : Bool :=
  match t.pc with
  | .created => t.needsTeardown
  | .purging | .awaitingRead | .writerShutdown | .awaitingStateLock | .inCallback => true
  | .awaitingWaiter _ | .awaitingPublication _ => false

/-- The task behind `_deferred_close_publish_task`: `waiting` for the handlers of the connection to return, `joining` a
publication with the waiter it captured. -/
inductive DeferredPublisher
  | created | waiting
  | joining (publication : Nat) (waiter : Option Nat)
  deriving DecidableEq, Repr

/-- Where `start()` stands: in the ready callback, in `emit_and_wait` of the opened event, or awaiting its publish task,
which is created, joins a publication, or is settled. `opened` tells whether `emit_and_wait` returned. -/
inductive OpeningPc
  | idle
  | notifyingReady
  | opening
  | publishing (opened : Bool)
  | joining (opened : Bool) (publication : Nat) (waiter : Option Nat)
  | settled (opened : Bool) (result : PublishResult)
  | done
  deriving DecidableEq, Repr

/-- What the close of a connection does: `close()` is called in a state, the callback is invoked, the close event is
handed to `emit`, and that `emit` returns. -/
inductive CloseMark
  | closeCalled (state : ConnectionState)
  | callback
  | emitted (previousState : ConnectionState)
  | published
  deriving DecidableEq, Repr

/-- What the close task asks in one segment: whether it has a read task to await, and what
`_defer_close_event_until_opened_event_completes` reads of the dispatcher and of the caller. -/
structure CloseAnswers where
  awaitsRead : Bool := false
  handlerOriginInFlight : Bool := false
  usesInlineDelivery : Bool := false
  inheritedHandlerOrigin : Bool := false
  activeInlineHandler : Bool := false
  deriving DecidableEq, Repr

/-- The close comes from a handler: it must not await the deferred publication. -/
def CloseAnswers.fromHandler (a : CloseAnswers) : Bool :=
  a.handlerOriginInFlight || a.usesInlineDelivery || a.inheritedHandlerOrigin

/-- A connection. `waitersDone` has one entry for each deferred waiter that was created, `publications` one task for each
publication. -/
structure TcpConnection where
  state : ConnectionState := .created
  /-- `_close_event_previous_state` -/
  previousState : Option ConnectionState := none
  /-- `_closed_event_published` -/
  published : Bool := false
  /-- `_close_event_deferred_until_opened_event_completes` -/
  deferred : Bool := false
  /-- `_deferred_close_event_waiter` -/
  waiter : Option Nat := none
  waitersDone : List Bool := []
  /-- `_opening_event_task is not None` -/
  opening : Bool := false
  start : OpeningPc := .idle
  closeTask : Option ClosingTask := none
  /-- `_close_event_task` -/
  closeEventTask : Option Nat := none
  publications : List ClosePublication := []
  publisher : Option DeferredPublisher := none
  /-- the connection is in `_connections` of its server -/
  registered : Bool := true
  log : List CloseMark := []
  deriving DecidableEq, Repr

/-- The actions: `turn`s resume a task with the outcome of its await; `byOpening` is set if `close()` runs on the task of
`start()`, in a handler of the opened event. -/
inductive TcpConnectionAct
  | start
  | startTurn (outcome : Outcome)
  | publishTurn (outcome : Outcome)
  | close (byOpening : Bool)
  | closeTurn (outcome : Outcome) (answers : CloseAnswers)
  | publicationTurn (publication : Nat) (outcome : Outcome)
  | publisherTurn (outcome : Outcome)
  | ensureWaiter
  deriving DecidableEq, Repr

namespace TcpConnection
variable (c : TcpConnection)

def note (mark : CloseMark) : TcpConnection := { c with log := c.log ++ [mark] }

/-! ## Waiters and publishers -/

/-- A deferred waiter exists and is not done. -/
def Pending (waiter : Nat) : Prop := c.waitersDone[waiter]? = some false

instance (waiter : Nat) : Decidable (c.Pending waiter) := inferInstanceAs (Decidable (_ = _))

def pendingDeferredCloseWaiter : Option Nat := c.waiter.filter fun waiter => c.Pending waiter

/-- A new waiter, unless the current one is pending. -/
def ensureWaiter : TcpConnection :=
  if c.pendingDeferredCloseWaiter.isSome then c
  else { c with waiter := some c.waitersDone.length, waitersDone := c.waitersDone ++ [false] }

/-- A new publisher, unless one runs. -/
def ensurePublisher : TcpConnection := { c with publisher := some (c.publisher.getD .created) }

/-- `set_result` or `set_exception` of a waiter. -/
def completeWaiter (captured : Option Nat) : TcpConnection :=
  match captured with
  | none => c
  | some waiter => { c with waitersDone := c.waitersDone.set waiter true }

/-- The end of `_publish_deferred_close_after_opened_event`: the captured waiter is completed and no longer current. -/
def releaseWaiter (captured : Option Nat) : TcpConnection :=
  { c.completeWaiter captured with waiter := if c.waiter = captured then none else c.waiter }

/-! ## Publication -/

/-- `_close_event_task`, unless it is `None` or done. -/
def publicationInFlight : Option Nat := c.closeEventTask.filter fun k => c.publications[k]?.any (·.inFlight)

/-- `_finalize_close` up to its await: the publication to await, if there is one. -/
def finalizeClose : TcpConnection × Option Nat :=
  if c.published then (c, none)
  else match c.publicationInFlight with
    | some k => (c, some k)
    | none =>
      ({ c with
          state := .closed
          publications := c.publications ++ [{ previousState := c.previousState.getD .closing }]
          closeEventTask := some c.publications.length },
        some c.publications.length)

/-- `_publish_deferred_close_after_opened_event` up to its await: whether the close was deferred, and the publication
to join with the captured waiter. -/
def publishDeferred : TcpConnection × PublishResult × Option (Nat × Option Nat) :=
  if c.deferred then
    let captured := c.waiter
    match { c with deferred := false }.finalizeClose with
    | (c, some k) => (c, .published, some (k, captured))
    | (c, none) => (c.releaseWaiter captured, .published, none)
  else (c, .notDeferred, none)

/-- A publication task goes on. A task that is cancelled before its first step does not run at all. -/
def publicationTurn (k : Nat) (outcome : Outcome) : Option TcpConnection :=
  c.publications[k]?.bind fun p =>
    match p.pc, outcome with
    | .created, .returned =>
      some ({ c with publications := c.publications.set k { p with pc := .emitting } }.note (.emitted p.previousState))
    | .created, .cancelled =>
      some { c with publications := c.publications.set k { p with pc := .ended .cancelled } }
    | .emitting, outcome =>
      let c := { c with
        publications := c.publications.set k { p with pc := .ended outcome }
        closeEventTask := if c.closeEventTask = some k then none else c.closeEventTask }
      if outcome = .returned then some ({ c with published := true, previousState := none }.note .published) else some c
    | _, _ => none

/-! ## The close task -/

/-- `close()` under `_close_lock`: the close task is created unless one runs. -/
def requestClose : TcpConnection :=
  if c.closeTask.isSome then c
  else
    { c with
      previousState := if c.state = .closed then c.previousState else some (c.previousState.getD c.state)
      state := if c.state = .closed then .closed else .closing
      closeTask := some { needsTeardown := c.state ≠ .closing ∧ c.state ≠ .closed } }

def close (byOpening : Bool) : TcpConnection :=
  let c := c.note (.closeCalled c.state)
  if c.state = .closed ∧ c.deferred ∧ c.opening ∧ byOpening then c
  else if c.state = .closed ∧ c.published then c
  else c.requestClose

def suspendClose (pc : Option ClosingPc) : TcpConnection :=
  { c with closeTask := pc.bind fun pc => c.closeTask.map fun t => { t with pc } }

/-- `_defer_close_event_until_opened_event_completes`, where it defers. -/
def deferCloseEvent (answers : CloseAnswers) : TcpConnection :=
  let c := { c with state := .closed, deferred := true }.ensureWaiter
  if !c.opening && (answers.fromHandler || answers.activeInlineHandler) then c.ensurePublisher else c

/-- `_run_close_lifecycle` after the teardown. -/
def deferOrPublish (answers : CloseAnswers) : TcpConnection :=
  if c.opening || answers.fromHandler || answers.activeInlineHandler || c.deferred then
    let c := c.deferCloseEvent answers
    c.suspendClose (if answers.fromHandler then none else c.waiter.map .awaitingWaiter)
  else
    let (c, k) := c.finalizeClose
    c.suspendClose (k.map .awaitingPublication)

/-- The close task goes on. An exception of the teardown leaves `_run_close_lifecycle`; a cancellation leaves the
teardown. -/
def closeTurn (outcome : Outcome) (answers : CloseAnswers) : Option TcpConnection :=
  c.closeTask.bind fun t =>
    match t.pc, outcome with
    | .created, .returned =>
      some (if t.needsTeardown then c.suspendClose (some .purging) else c.deferOrPublish answers)
    | .created, .cancelled => some (c.suspendClose none)
    | .purging, .returned =>
      some (c.suspendClose (some (if answers.awaitsRead then .awaitingRead else .writerShutdown)))
    | .awaitingRead, .returned => some (c.suspendClose (some .writerShutdown))
    | .writerShutdown, .returned => some ((c.note .callback).suspendClose (some .awaitingStateLock))
    | .awaitingStateLock, .returned => some ({ c with registered := false }.suspendClose (some .inCallback))
    | .inCallback, .returned => some (c.deferOrPublish answers)
    | .purging, .raised | .awaitingRead, .raised | .writerShutdown, .raised | .inCallback, .raised =>
      some (c.suspendClose none)
    | .purging, .cancelled | .awaitingRead, .cancelled | .writerShutdown, .cancelled | .awaitingStateLock, .cancelled
    | .inCallback, .cancelled => some (c.deferOrPublish answers)
    | .awaitingWaiter w, outcome =>
      if c.Pending w ∧ outcome ≠ .cancelled then none else some (c.suspendClose none)
    | .awaitingPublication k, _ =>
      if c.publications[k]?.any (·.inFlight) then none else some (c.suspendClose none)
    | _, _ => none

/-! ## The publishers and `start()` -/

/-- The publication ended without an exception. -/
def publishedBy (k : Nat) : Bool := c.publications[k]?.any fun p => p.pc = .ended .returned

/-- `_publish_deferred_close_after_handler_context_expires` goes on. Its `except` block completes the current waiter. -/
def publisherTurn (outcome : Outcome) : Option TcpConnection :=
  c.publisher.bind fun pc =>
    match pc, outcome with
    | .created, .returned => some { c with publisher := some .waiting }
    | .created, .cancelled => some { c with publisher := none }
    | .waiting, .returned =>
      let (c, _, joined) := c.publishDeferred
      some { c with publisher := joined.map fun (k, waiter) => .joining k waiter }
    | .waiting, .cancelled => some { c.completeWaiter c.waiter with publisher := none }
    | .joining k waiter, outcome =>
      if c.publications[k]?.any (·.inFlight) then none
      else
        let c := { c.releaseWaiter waiter with publisher := none }
        -- the publication failed, or the publisher was cancelled while it awaited it
        some (if c.publishedBy k && outcome = .returned then c else c.completeWaiter c.waiter)
    | _, _ => none

def ensureDeferredClosePublicationWaiter : Option TcpConnection :=
  if c.log.any (fun m => m matches .closeCalled _) && !c.closeTask.any (·.inTeardown) then
    some (if c.published then c else { c with deferred := true }.ensureWaiter.ensurePublisher)
  else none

def publishTurn (outcome : Outcome) : Option TcpConnection :=
  match c.start, outcome with
  | .publishing opened, .returned =>
    let (c, result, joined) := c.publishDeferred
    some { c with
      start := match joined with
        | some (k, waiter) => .joining opened k waiter
        | none => .settled opened result }
  | .publishing opened, .cancelled => some { c with start := .settled opened .failed }
  | .joining opened k waiter, outcome =>
    if c.publications[k]?.any (·.inFlight) then none
    else
      let result := if c.publishedBy k && outcome = .returned then .published else .failed
      some { c.releaseWaiter waiter with start := .settled opened result }
  | _, _ => none

/-- `start()` goes on: `raised` and `cancelled` are the failures of the ready callback and of `emit_and_wait`, and a
cancellation while it awaited its publish task. -/
def startTurn (outcome : Outcome) : Option TcpConnection :=
  match c.start, outcome with
  | .notifyingReady, .returned =>
    some (if c.state = .connected then { c with opening := true, start := .opening } else { c with start := .done })
  | .notifyingReady, _ => some ({ c with start := .done }.close false)
  | .opening, .returned => some { c with opening := false, start := .publishing true }
  | .opening, _ => some { c with start := .publishing false }
  | .settled false _, _ => some ({ c with opening := false, start := .done }.close false)
  | .settled true .failed, _ | .settled true _, .cancelled => some ({ c with start := .done }.close false)
  | .settled true _, .returned => some { c with start := .done }
  | _, _ => none

def step : TcpConnectionAct → Option TcpConnection
  | .start =>
    if c.start = .idle then
      some (if c.state = .created then { c with state := .connected, start := .notifyingReady }
        else { c with start := .done })
    else none
  | .startTurn outcome => c.startTurn outcome
  | .publishTurn outcome => c.publishTurn outcome
  | .close byOpening => some (c.close byOpening)
  | .closeTurn outcome answers => c.closeTurn outcome answers
  | .publicationTurn k outcome => c.publicationTurn k outcome
  | .publisherTurn outcome => c.publisherTurn outcome
  | .ensureWaiter => c.ensureDeferredClosePublicationWaiter

end TcpConnection

def tcpConnectionMachine : Runs.Machine TcpConnection TcpConnectionAct where
  init c := c = {}
  step c a := c.step a

end Aionetx
