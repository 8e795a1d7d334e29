import Aionetx.Runs.Machine
import Aionetx.Lifecycle.StopPaths

/-!
# The datagram receiver

The base of the UDP and the multicast receiver: its sockets, its receive tasks and the calls of `start()` and `stop()`. The lock is
never held over an await, so it is left out. Each start that gets a socket begins a session.

* `ReceiverStart`, `ReceiverPc`, `ReceiverStop` : where `start()`, a receive task and an owned stop are;
* `ReceiverRuntime`, `ReceiverRuntime.step`, `receiverMachine` : the receiver;
* `ReceiverRuntime.OneStart`, `ReceiverRuntime.Orderly` : the runs in which calls of `start()` do not overlap.
-/

namespace Aionetx

open Runs

/-! ## The tasks -/

/-- Where a call of `start()` is. A publication is `inline` if the handler runs on the task that makes it. -/
inductive ReceiverStart
  | idle
  | publishingStarting (inline : Bool)
  /-- `stop_waiter` of `_begin_startup` -/
  | awaitingStop
  /-- the `STOPPED` event of `_fail_startup` -/
  | failing (inline : Bool)
  | publishingRunning (session : Nat) (inline : Bool)
  | publishingOpened (session : Nat) (inline : Bool)
  /-- the task of `_publish_deferred_close_after_opened_event` has been created; `failed` if the opened event raised -/
  | settling (session : Nat) (failed : Bool)
  | settled (session : Nat) (failed published inline : Bool)
  /-- the `except` blocks of `_complete_startup` -/
  | rollingBack
  deriving DecidableEq, Repr

inductive ReceiverPc
  | absent
  | created
  | receiving (socket : Nat)
  /-- the `BytesReceivedEvent`, and the `NetworkErrorEvent` -/
  | emitting (inline : Bool)
  | reporting (inline : Bool)
  /-- in the `stop` of its `finally` block -/
  | stopping (raised : Bool)
  | ended (raised : Bool)
  deriving DecidableEq, Repr

/-- What became of the socket of a session. A socket is lost if the stop that has it ends before it closes it. -/
inductive ReceiverSocket
  | open
  | closed
  | lost
  deriving DecidableEq, Repr

/-- Where an owned stop is, its completion task included. -/
inductive ReceiverStopPc
  | publishingStopping (inline : Bool)
  | awaitingTask
  | waitingHandlers
  /-- the `STOPPING` event of a completion task -/
  | announcing (inline : Bool)
  | publishingClosed (inline : Bool)
  /-- the waiter of a deferred close event -/
  | awaitingClosed
  | publishingStopped (inline : Bool)
  | stoppingDispatcher
  deriving DecidableEq, Repr

/-- An owned stop with its snapshot. `session` is the one whose `ConnectionClosedEvent` is to be emitted; `awaits` if the receive
task is cancelled and awaited. -/
structure ReceiverStop where
  session : Option Nat
  socket : Option Nat
  task : Option Nat
  awaits : Bool
  deferred : Bool
  announces : Bool
  failed : Bool := false
  pc : ReceiverStopPc
  deriving DecidableEq, Repr

/-- The journal of a run: the opened event of a session is handed to the dispatcher and its barrier ends, datagrams, the close event
and the `STOPPED` event of the session are handed over. -/
inductive ReceiverEntry
  | opening (session : Nat)
  | opened (session : Nat) (handled : Bool)
  | bytes (session : Nat) (data : Bytes)
  | closed (session : Nat)
  | stopped (session : Nat)
  deriving DecidableEq, Repr

namespace ReceiverStart

/-- A handler runs on the task. -/
def inline : ReceiverStart → Bool
  | .publishingStarting inline | .failing inline | .publishingRunning _ inline | .publishingOpened _ inline
  | .settled _ _ _ inline => inline
  | .idle | .awaitingStop | .settling _ _ | .rollingBack => false

def session? : ReceiverStart → Option Nat
  | .publishingRunning k _ | .publishingOpened k _ | .settling k _ | .settled k _ _ _ => some k
  | .idle | .publishingStarting _ | .awaitingStop | .failing _ | .rollingBack => none

end ReceiverStart

namespace ReceiverPc

def inline : ReceiverPc → Bool
  | .emitting inline | .reporting inline => inline
  | _ => false

/-- It has not got to its `finally` block. -/
def live : ReceiverPc → Bool
  | .created | .receiving _ | .emitting _ | .reporting _ => true
  | .absent | .stopping _ | .ended _ => false

end ReceiverPc

namespace ReceiverStopPc

def inline : ReceiverStopPc → Bool
  | .publishingStopping inline | .announcing inline | .publishingClosed inline | .publishingStopped inline => inline
  | _ => false

/-- The teardown is still to come, or awaits the receive task. -/
def early : ReceiverStopPc → Bool
  | .publishingStopping _ | .awaitingTask => true
  | _ => false

/-- `STOPPED` has been applied. -/
def late : ReceiverStopPc → Bool
  | .publishingStopped _ | .stoppingDispatcher => true
  | _ => false

/-- The close event has been handed over or deferred, or will not be. -/
def pastClose : ReceiverStopPc → Bool
  | .publishingClosed _ | .awaitingClosed => true
  | pc => pc.late

end ReceiverStopPc

/-! ## The receiver -/

/-- The fields of `DatagramRuntimeState` and the tasks: `stop` is the one behind `stop_waiter`, `opening` the call of `start()`
behind `opening_event_task`, `deferredClose` the session of `deferred_close_event`, and `publisher` is set while the task behind
`deferred_close_publish_task` waits for the handlers. -/
structure ReceiverRuntime where
  lifecycle : ComponentLifecycleState := .stopped
  running : Bool := false
  socket : Option Nat := none
  task : Option Nat := none
  stop : Option ReceiverStop := none
  opening : Option Nat := none
  deferredClose : Option Nat := none
  publisher : Bool := false
  calls : Nat := 0
  starts : Nat → ReceiverStart := fun _ => .idle
  sessions : Nat := 0
  sockets : Nat → ReceiverSocket := fun _ => .closed
  receivers : Nat → ReceiverPc := fun _ => .absent
  cancelled : Nat → Bool := fun _ => false
  journal : List ReceiverEntry := []

/-- How the await of a task ends, and what its next publications are. -/
structure ReceiverTurn where
  failed : Bool := false
  inline : Bool := true
  /-- the socket is set up -/
  bound : Bool := true
  /-- the caller of a stop -/
  origin : StopOrigin := .external
  /-- a handler is active, or the stop comes from one, when the close event is to be emitted -/
  defers : Bool := false
  /-- a rollback is followed by another one -/
  again : Bool := false
  deriving DecidableEq, Repr

inductive ReceiverWake
  | datagram (data : Bytes)
  | returned
  | raised
  | cancelled
  deriving DecidableEq, Repr

inductive ReceiverAct
  | start (inline : Bool)
  | startTurn (call : Nat) (turn : ReceiverTurn)
  /-- `stop()`; `current` is the receive task that runs the handler it comes from, if it does -/
  | stop (origin : StopOrigin) (current : Option Nat) (turn : ReceiverTurn)
  | stopTurn (turn : ReceiverTurn)
  | receiverTurn (session : Nat) (wake : ReceiverWake) (turn : ReceiverTurn)
  | publisherTurn
  deriving DecidableEq, Repr

namespace ReceiverRuntime
variable (s : ReceiverRuntime)

/-- A handler is active on one of the tasks. -/
def active : Bool :=
  (List.range s.calls).any (fun i => (s.starts i).inline) || (List.range s.sessions).any (fun k => (s.receivers k).inline) ||
    s.stop.any fun c => c.pc.inline

/-- A `stop()` of a handler that runs on a receive task comes from that task. The handlers that the worker runs, and so whether
there is an `active_inline_handler`, are not part of this machine. -/
def admits (origin : StopOrigin) (current : Option Nat) : Bool :=
  match origin, current with
  | _, none => true
  | .handler, some k => (s.receivers k).inline
  | _, some _ => false

def log (e : ReceiverEntry) : ReceiverRuntime := { s with journal := s.journal ++ [e] }

def setStart (call : Nat) (pc : ReceiverStart) : ReceiverRuntime := { s with starts := Function.update s.starts call pc }

def setReceiver (session : Nat) (pc : ReceiverPc) : ReceiverRuntime :=
  { s with receivers := Function.update s.receivers session pc }

def setStop (c : ReceiverStop) : ReceiverRuntime := { s with stop := some c }

/-- The session is the current one, as `_complete_startup` checks after each of its publications. -/
def attached (session : Nat) : Bool := s.socket = some session && s.running && s.lifecycle = .running

/-! ### `stop()` -/

/-- `_is_fully_stopped_locked`. -/
def isFullyStopped : Bool := !s.running && s.socket.isNone && s.lifecycle = .stopped

/-- `_publish_stopped_transition_if_needed`. -/
def publishStopped (c : ReceiverStop) (t : ReceiverTurn) : ReceiverRuntime :=
  let s := { s with lifecycle := .stopped }
  if c.failed then s.setStop { c with pc := .stoppingDispatcher }
  else (c.session.elim s fun k => s.log (.stopped k)).setStop { c with pc := .publishingStopped t.inline }

/-- `_publish_closed_event_if_needed` with `_defer_close_event_until_current_handler_unwinds`, and what follows at once if there is
nothing to emit. -/
def publishClosed (c : ReceiverStop) (t : ReceiverTurn) : ReceiverRuntime :=
  if c.failed then s.publishStopped c t
  else
    match c.session with
    | none => s.publishStopped c t
    | some k =>
      if s.opening.isSome || t.defers then
        { s with
          deferredClose := some k, publisher := s.publisher || s.opening.isNone, stop := some { c with pc := .awaitingClosed } }
      else (s.log (.closed k)).setStop { c with pc := .publishingClosed t.inline }

/-- The path after the teardown. A deferred path that failed leaves the lifecycle as it is. -/
def afterTeardown (c : ReceiverStop) (t : ReceiverTurn) : ReceiverRuntime :=
  if c.deferred then if c.failed then { s with stop := none } else s.setStop { c with pc := .waitingHandlers }
  else s.publishClosed c t

/-- `socket.close()`, or not, if the await of the receive task raised its exception. -/
def release (c : ReceiverStop) (state : ReceiverSocket) : ReceiverRuntime :=
  c.socket.elim s fun k => { s with sockets := Function.update s.sockets k state }

/-- `_teardown_stop_resources`. -/
def teardown (c : ReceiverStop) (t : ReceiverTurn) : ReceiverRuntime :=
  match c.task with
  | some k =>
    if c.awaits then { s with cancelled := Function.update s.cancelled k true, stop := some { c with pc := .awaitingTask } }
    else (s.release c .closed).afterTeardown c t
  | none => (s.release c .closed).afterTeardown c t

/-- `_plan_stop_snapshot` of an owner, with the provenance of its caller. -/
def planStop (origin : StopOrigin) (current : Option Nat) (t : ReceiverTurn) : ReceiverStop where
  session := if s.lifecycle = .starting then none else some (s.sessions - 1)
  socket := s.socket
  task := s.task
  awaits := s.task.isSome && decide (s.task ≠ current) && decide (origin ≠ .activeInlineHandler)
  deferred := origin.defersTerminalEvents
  announces := decide (s.lifecycle ≠ .stopping)
  pc := .publishingStopping t.inline

/-- The same takes the socket and the task out of the fields. -/
def detach : ReceiverRuntime := { s with lifecycle := .stopping, running := false, socket := none, task := none }

/-- `_stop_datagram_receiver`, up to its first await. It joins an owned stop, or finds nothing to stop, or plans one. -/
def stopCall (origin : StopOrigin) (current : Option Nat) (t : ReceiverTurn) : ReceiverRuntime :=
  if s.stop.isSome || s.isFullyStopped then s
  else
    let c := s.planStop origin current t
    if c.announces && !c.deferred then s.detach.setStop c else s.detach.teardown c t

def stopTurn (t : ReceiverTurn) : Option ReceiverRuntime :=
  s.stop.bind fun c =>
    match c.pc with
    | .publishingStopping _ => some (s.teardown { c with failed := t.failed } t)
    | .awaitingTask =>
      match c.task with
      | none => none
      | some k =>
        match s.receivers k with
        -- the exception of the task, unless the caller of the stop has been cancelled, comes before the close
        | .ended true =>
          some ((s.release c (if t.failed then .closed else .lost)).afterTeardown { c with failed := true } t)
        | .ended false => some ((s.release c .closed).afterTeardown { c with failed := c.failed || t.failed } t)
        | _ => none
    | .waitingHandlers =>
      if s.active then none
      else if c.announces then some (s.setStop { c with pc := .announcing t.inline })
      else some (s.publishClosed c t)
    | .announcing _ => some (s.publishClosed { c with failed := t.failed } t)
    | .publishingClosed _ => some (s.publishStopped { c with failed := t.failed } t)
    | .awaitingClosed => if s.deferredClose.isSome then none else some (s.publishStopped { c with failed := t.failed } t)
    | .publishingStopped _ =>
      some (if t.failed && !c.deferred then { s with stop := none } else s.setStop { c with pc := .stoppingDispatcher })
    | .stoppingDispatcher => some { s with stop := none }

/-- `_publish_deferred_close_after_opened_event`: the event in the slot is emitted. -/
def publishDeferred : ReceiverRuntime :=
  s.deferredClose.elim s fun k => { s.log (.closed k) with deferredClose := none }

/-- The task behind `deferred_close_publish_task`, once no handler is active. -/
def publisherTurn : Option ReceiverRuntime :=
  if s.publisher && !s.active then some { s.publishDeferred with publisher := false } else none

/-! ### `start()` -/

/-- The first section of `_begin_startup`: it returns in `STARTING` and `RUNNING`, and raises in `STOPPING`. -/
def start (inline : Bool) : ReceiverRuntime :=
  if s.lifecycle = .stopped then
    { s with
      lifecycle := .starting, calls := s.calls + 1
      starts := Function.update s.starts s.calls (.publishingStarting inline) }
  else s

/-- `_rollback_failed_starting_publication` and `_fail_startup`, up to their awaits. -/
def resetFields : ReceiverRuntime := { s with lifecycle := .stopped, running := false, socket := none, task := none }

/-- The socket is set up, and `_complete_startup` attaches it. -/
def attach (call : Nat) (inline : Bool) : ReceiverRuntime :=
  { s with
    lifecycle := .running, running := true, socket := some s.sessions, sessions := s.sessions + 1
    sockets := Function.update s.sockets s.sessions .open
    starts := Function.update s.starts call (.publishingRunning s.sessions inline) }

def startTurn (call : Nat) (t : ReceiverTurn) : Option ReceiverRuntime :=
  match s.starts call with
  | .idle => none
  | .publishingStarting _ =>
    if t.failed then some ((if s.lifecycle = .starting then s.resetFields else s).setStart call .idle)
    else if s.lifecycle = .starting then
      some (if t.bound then s.attach call t.inline else s.resetFields.setStart call (.failing t.inline))
    else some (s.setStart call (if s.stop.isSome then .awaitingStop else .idle))
  | .awaitingStop | .failing _ => some (s.setStart call .idle)
  | .publishingRunning k _ =>
    if t.failed then some (s.setStart call .rollingBack)
    else if s.attached k then
      some (({ s with opening := some call }.log (.opening k)).setStart call (.publishingOpened k t.inline))
    else some (s.setStart call .idle)
  | .publishingOpened k _ =>
    let s := if t.failed then s else { s with opening := none }
    some ((s.log (.opened k (!t.failed))).setStart call (.settling k t.failed))
  | .settling k failed =>
    let published := s.deferredClose.isSome
    some (s.publishDeferred.setStart call (.settled k failed published (published && t.inline)))
  | .settled k failed published _ =>
    if failed then some ({ s with opening := none }.setStart call .rollingBack)
    else if t.failed then some (s.setStart call .rollingBack)
    else if published then some (s.setStart call .idle)
    else if s.attached k then some (({ s with task := some k }.setReceiver k .created).setStart call .idle)
    else some (s.setStart call .idle)
  | .rollingBack => some ((s.stopCall t.origin none t).setStart call (if t.again then .rollingBack else .idle))

/-! ### The receive tasks -/

/-- `while self._running`, and the `finally` block. -/
def finish (session : Nat) (raised : Bool) (t : ReceiverTurn) : ReceiverRuntime :=
  if s.running then (s.setReceiver session (.stopping raised)).stopCall t.origin (some session) t
  else s.setReceiver session (.ended raised)

def receiveNext (session : Nat) (t : ReceiverTurn) : ReceiverRuntime :=
  if s.running then s.setReceiver session (s.socket.elim (.reporting t.inline) .receiving) else s.finish session false t

def receiverTurn (session : Nat) (wake : ReceiverWake) (t : ReceiverTurn) : Option ReceiverRuntime :=
  match s.receivers session, wake with
  | .created, _ =>
    some (if s.cancelled session || s.socket.isNone then s.setReceiver session (.ended false) else s.receiveNext session t)
  | .receiving socket, .datagram data =>
    if s.sockets socket = .open && !s.cancelled session then
      some ((s.log (.bytes session data)).setReceiver session (.emitting t.inline))
    else none
  | .receiving _, .raised => if s.cancelled session then none else some (s.setReceiver session (.reporting t.inline))
  | .emitting inline, .raised => some (s.setReceiver session (.reporting (inline || t.inline)))
  | .receiving _, .cancelled | .emitting _, .cancelled | .reporting _, .cancelled =>
    if s.cancelled session then some (s.finish session false t) else none
  | .emitting _, .returned => some (s.receiveNext session t)
  | .reporting _, .returned => some (s.finish session false t)
  | .reporting _, .raised => some (s.finish session true t)
  | .stopping raised, _ => some (s.setReceiver session (.ended (raised || t.failed)))
  | _, _ => none

def step (s : ReceiverRuntime) : ReceiverAct → Option ReceiverRuntime
  | .start inline => some (s.start inline)
  | .startTurn call t => s.startTurn call t
  | .stop origin current t => if s.admits origin current then some (s.stopCall origin current t) else none
  | .stopTurn t => s.stopTurn t
  | .receiverTurn session wake t => s.receiverTurn session wake t
  | .publisherTurn => s.publisherTurn

/-- `start()` is called when no other call of it is in progress. A `stop()` with an `active_inline_handler`, which does not cancel
the receive task, finds it inside a handler that the stop waits for. -/
def OneStart (s : ReceiverRuntime) : ReceiverAct → Prop
  | .start _ => ∀ i < s.calls, s.starts i = .idle
  | .stop .activeInlineHandler _ _ =>
    s.stop = none → ∀ k < s.sessions, (s.receivers k).live = true → (s.receivers k).inline = true
  | _ => True

/-- The same, and the publisher of the last close event has ended when `start()` is called. -/
def Orderly (s : ReceiverRuntime) : ReceiverAct → Prop
  | .start inline => s.OneStart (.start inline) ∧ s.publisher = false
  | a => s.OneStart a

theorem Orderly.oneStart {s : ReceiverRuntime} {a : ReceiverAct} (h : s.Orderly a) : s.OneStart a := by
  cases a with
  | start inline => exact h.1
  | startTurn _ _ | stop _ _ _ | stopTurn _ | receiverTurn _ _ _ | publisherTurn => exact h

end ReceiverRuntime

instance (s : ReceiverRuntime) : (a : ReceiverAct) → Decidable (s.OneStart a)
  | .start _ => inferInstanceAs (Decidable (∀ i < s.calls, s.starts i = .idle))
  | .stop .activeInlineHandler _ _ =>
    inferInstanceAs (Decidable (s.stop = none →
      ∀ k < s.sessions, (s.receivers k).live = true → (s.receivers k).inline = true))
  | .stop .external _ _ | .stop .handler _ _ | .stop .childOfHandler _ _ | .startTurn _ _ | .stopTurn _
  | .receiverTurn _ _ _ | .publisherTurn => isTrue trivial

instance (s : ReceiverRuntime) : (a : ReceiverAct) → Decidable (s.Orderly a)
  | .start inline => inferInstanceAs (Decidable (s.OneStart (.start inline) ∧ s.publisher = false))
  | .stop origin current t => inferInstanceAs (Decidable (s.OneStart (.stop origin current t)))
  | .startTurn _ _ | .stopTurn _ | .receiverTurn _ _ _ | .publisherTurn => isTrue trivial

def receiverMachine : Machine ReceiverRuntime ReceiverAct where
  init s := s = {}
  step := ReceiverRuntime.step

end Aionetx
