import Aionetx.Runs.Machine
import Aionetx.Client.Runtime

/-!
# The heartbeat senders of a TCP client

A client that is started and stopped any number of times, seen at the awaits around its connections and its heartbeat senders.
A connection is attached in the segment that creates it, so `_starting_connection` is not set at any await.

* `ClientSender`, `Supervision`, `StopTeardown` : a sender, a supervisor, and a teardown of `stop()` or of a startup rollback;
* `ClientHeartbeats` : the client with every connection and sender it has ever had;
* `stopHeartbeatSender`, `beginClosing`, `endClosing`, `runClosedCallback`, `connectOnce`, `supervisionTurn` : its methods from one
  await to the next;
* `ClientHeartbeats.Owned` : one sender runs at most, it is that of the current connection, and nothing outlives a close or a stop;
* `ClientHeartbeats.WoundUp` : a run begins when the supervision before it is over, and its first sender when the connections
  before it have been closed; no teardown of the current connection fails.
-/

namespace Aionetx

open Runs

/-! ## Senders, supervisors and teardowns -/

/-- A heartbeat sender: its connection, and its `_running`. -/
structure ClientSender where
  connection : Nat
  running : Bool
  deriving DecidableEq, Repr

inductive SupervisionMove
  /-- the await has returned -/
  | goOn
  /-- it has raised -/
  | fail
  /-- it was cancelled, or supervision leaves its loop -/
  | leave
  deriving DecidableEq, Repr

inductive SupervisionPc
  /-- before its first step -/
  | created
  /-- in the events and the delay around an attempt -/
  | away
  /-- in the connection opener -/
  | connecting
  /-- in `start` of the connection `n` -/
  | opening (n : Nat)
  /-- in the `close` after it has failed -/
  | abandoning (n : Nat) (cause : SupervisionMove)
  /-- in the `close` of a connection that the client no longer wants -/
  | discarding (n : Nat)
  /-- in `_await_connection_termination` -/
  | parked
  /-- in the heartbeat stop of `_teardown_after_failure`, and in its close -/
  | tearingHeartbeat
  | tearingDown (n : Nat)
  /-- the same in `_shutdown_active_resources` -/
  | finalHeartbeat
  | finalClosing (n : Nat)
  | ended
  deriving DecidableEq, Repr

def SupervisionPc.left : SupervisionPc → Bool
  | .finalHeartbeat | .finalClosing _ | .ended => true
  | _ => false

/-- The supervisor waits for its first step or for an `asyncio.Event`: a cancellation gets through. -/
def SupervisionPc.waits : SupervisionPc → Bool
  | .created | .parked => true
  | _ => false

/-- A supervisor, and whether its task was cancelled since it last went on. -/
structure Supervision where
  pc : SupervisionPc := .created
  cancelRequested : Bool := false
  deriving DecidableEq, Repr

/-- It can only leave. -/
def Supervision.doomed (v : Supervision) : Bool := v.cancelRequested && v.pc.waits

/-- Where the teardown of `stop()` or of a rollback is; before it, the STOPPING event and the end of the supervisor are awaited. -/
inductive StopTeardownPc
  | waiting
  | stoppingHeartbeat
  | closing (n : Nat)
  | done
  deriving DecidableEq, Repr

/-- A teardown, and how many runs there were when it was planned. -/
structure StopTeardown where
  runs : Nat
  pc : StopTeardownPc
  deriving DecidableEq, Repr

/-- What the tasks of a client share. `supervisors` has one for each run; `stoppedBy` records the pairs of a connection whose
callback has stopped a running sender and of the connection of that sender. -/
structure ClientHeartbeats where
  lifecycle : ComponentLifecycleState := .stopped
  connection : Option Nat := none
  heartbeatSender : Option Nat := none
  senders : List ClientSender := []
  connections : Nat → ClientConnection := fun _ => {}
  nextConnection : Nat := 0
  supervisors : List Supervision := []
  teardowns : List StopTeardown := []
  stoppedBy : List (Nat × Nat) := []

inductive HeartbeatsAct
  | start
  | supervise
  /-- `stop()` is planned; `fullyStopped` is the answer of `_is_fully_stopped_locked` -/
  | stop (fullyStopped : Bool)
  | rollback
  | applyStopped
  /-- the terminal transitions of a supervisor that has left its loop -/
  | terminate (run : Nat)
  | cancel (run : Nat)
  | teardownTurn (i : Nat)
  | close (n : Nat)
  | closeTurn (n : Nat) (outcome : Outcome)
  | senderEnds (i : Nat)
  | resume (run : Nat) (move : SupervisionMove)

namespace ClientHeartbeats

variable (settings : TcpClientSettings) (run : Nat) (s : ClientHeartbeats)

def running : Bool := s.lifecycle.active

def setConnection (n : Nat) (x : ClientConnection) : ClientHeartbeats :=
  { s with connections := Function.update s.connections n x }

/-- The sender of index `i` is running, and bound to the connection `n`. -/
def Beats (i n : Nat) : Prop := s.senders[i]? = some ⟨n, true⟩

/-! ## The methods of the client -/

/-- `_running` of a sender is cleared, by its `stop` or by the end of its loop. -/
def haltSender (i : Nat) : ClientHeartbeats :=
  { s with senders := s.senders.modify i fun y => { y with running := false } }

/-- `_start_heartbeat_sender`: no await of it suspends. -/
def startHeartbeatSender (n : Nat) : ClientHeartbeats :=
  if settings.heartbeatEnabled then
    { s with heartbeatSender := some s.senders.length, senders := s.senders ++ [⟨n, true⟩] }
  else { s with heartbeatSender := none }

/-- `_stop_heartbeat_sender` up to its await: the sender is detached, and awaited if it was running. -/
def stopHeartbeatSender : ClientHeartbeats × Bool :=
  match s.heartbeatSender with
  | none => (s, false)
  | some i => ({ s.haltSender i with heartbeatSender := none }, s.senders[i]?.any (·.running))

/-- `close()` up to its await. -/
def requestClose (n : Nat) : ClientHeartbeats := s.setConnection n (s.connections n).requestClose

/-- `_close_current_connection` up to its await, if there is one. -/
def beginClosing : ClientHeartbeats × Option Nat :=
  match s.connection with
  | none => (s, none)
  | some n =>
    if (s.connections n).state = .closed then ({ s with connection := none }, none) else (s.requestClose n, some n)

/-- Its `finally` block. -/
def endClosing (n : Nat) : ClientHeartbeats :=
  { s with connection := if s.connection = some n then none else s.connection }

/-- `_on_connection_closed` up to the heartbeat stop. -/
def onConnectionClosed (n : Nat) : ClientHeartbeats :=
  { s with connection := if s.connection = some n then none else s.connection }

/-- The senders that `_stop_heartbeat_sender` stops. -/
def stoppedNow : List Nat :=
  match s.heartbeatSender with
  | none => []
  | some i => (s.senders[i]?.toList.filter (·.running)).map (·.connection)

/-- The close task of the connection `n` after the teardown: the callback runs. -/
def runClosedCallback (n : Nat) : ClientHeartbeats :=
  let stopped := s.stoppedNow.map fun m => (n, m)
  let (s, suspended) := (s.onConnectionClosed n).stopHeartbeatSender
  { s.setConnection n ((s.connections n).afterCallback suspended) with stoppedBy := s.stoppedBy ++ stopped }

def closeTurn (n : Nat) (outcome : Outcome) : Option ClientHeartbeats :=
  if s.nextConnection ≤ n then none
  else if (s.connections n).closeTask = some .teardown ∧ outcome = .returned then some (s.runClosedCallback n)
  else ((s.connections n).closeTurn outcome).map (s.setConnection n)

/-! ## Supervision -/

/-- `_close_current_connection` in `_shutdown_active_resources`. -/
def finalClose : ClientHeartbeats × SupervisionPc :=
  match s.beginClosing with
  | (s, some n) => (s, .finalClosing n)
  | (s, none) => (s, .ended)

def shutdownActiveResources : ClientHeartbeats × SupervisionPc :=
  let (s, suspended) := s.stopHeartbeatSender
  if suspended then (s, .finalHeartbeat) else s.finalClose

/-- `_close_current_connection` in `_teardown_after_failure`. -/
def teardownClose : ClientHeartbeats × SupervisionPc :=
  match s.beginClosing with
  | (s, some n) => (s, .tearingDown n)
  | (s, none) => (s, .away)

def teardownAfterFailure : ClientHeartbeats × SupervisionPc :=
  let (s, suspended) := s.stopHeartbeatSender
  if suspended then (s, .tearingHeartbeat) else s.teardownClose

/-- A connection of the run is created, set to `CONNECTED`, and attached if the client is running, in one go. -/
def openConnection : ClientHeartbeats × SupervisionPc :=
  let n := s.nextConnection
  let s : ClientHeartbeats := { s.setConnection n { run, state := .connected } with nextConnection := n + 1 }
  (if s.lifecycle = .running then { s with connection := some n } else s, .opening n)

/-- The end of `_start_connect_attempt`. -/
def attemptSucceeded : ClientHeartbeats × SupervisionPc := if s.running then (s, .parked) else s.shutdownActiveResources

def connectOnce (n : Nat) : ClientHeartbeats × SupervisionPc :=
  if s.connection = some n then
    if s.lifecycle = .running ∧ (s.connections n).state = .connected then
      (s.startHeartbeatSender settings n).attemptSucceeded
    else s.attemptSucceeded
  else if s.lifecycle ≠ .running ∨ (s.connections n).state = .closed then
    if (s.connections n).state = .closed then s.attemptSucceeded else (s.requestClose n, .discarding n)
  else ({ s with connection := some n }.startHeartbeatSender settings n).attemptSucceeded

/-- `_await_connection_termination` after its wait. -/
def connectionTerminated : ClientHeartbeats × SupervisionPc :=
  if s.running then
    if s.connection.all fun n => (s.connections n).state = .closed then (s, .away) else (s, .parked)
  else s.shutdownActiveResources

/-- One segment of the supervisor of the run `run`. A `close()` that it awaits does not end before the callback has run, unless
the teardown has failed; only `_close_current_connection` passes that failure on. -/
def supervisionTurn : SupervisionPc → SupervisionMove → Option (ClientHeartbeats × SupervisionPc)
  | .created, .goOn => some (if s.running then (s, .away) else s.shutdownActiveResources)
  -- a task that is cancelled before its first step does not get to its `finally` block
  | .created, .leave => some (s, .ended)
  | .away, .goOn => some (if s.lifecycle = .running then (s, .connecting) else s.shutdownActiveResources)
  | .away, .fail => some s.teardownAfterFailure
  | .away, .leave => some s.shutdownActiveResources
  | .connecting, .goOn => some (s.openConnection run)
  | .connecting, .fail => some (s, .away)
  | .connecting, .leave => some s.shutdownActiveResources
  | .opening n, .goOn => some (s.connectOnce settings n)
  | .opening n, cause => some (s.requestClose n, .abandoning n cause)
  | .abandoning n cause, .goOn | .abandoning n cause, .fail =>
    if (s.connections n).spent then some (if cause = .fail then (s, .away) else s.shutdownActiveResources) else none
  | .discarding n, .goOn | .discarding n, .fail =>
    if (s.connections n).spent then some s.attemptSucceeded else none
  | .parked, .goOn => some s.connectionTerminated
  | .parked, .leave => some s.shutdownActiveResources
  | .tearingHeartbeat, .goOn => some s.teardownClose
  | .tearingHeartbeat, .leave | .tearingHeartbeat, .fail => some s.shutdownActiveResources
  | .tearingDown n, .goOn => if (s.connections n).spent then some (s.endClosing n, .away) else none
  | .tearingDown n, .leave | .tearingDown n, .fail =>
    if (s.connections n).spent then some (s.endClosing n).shutdownActiveResources else none
  | .finalHeartbeat, .goOn => some s.finalClose
  | .finalHeartbeat, .leave | .finalHeartbeat, .fail => some (s, .ended)
  | .finalClosing n, .goOn | .finalClosing n, .fail =>
    if (s.connections n).spent then some (s.endClosing n, .ended) else none
  | _, _ => none

def resume (move : SupervisionMove) : Option ClientHeartbeats :=
  match s.supervisors[run]? with
  | none => none
  | some v =>
    if v.doomed && move != .leave then none
    else (s.supervisionTurn settings run v.pc move).map fun (s, pc) =>
      { s with supervisors := s.supervisors.set run { pc } }

/-! ## Stopping -/

def setTeardown (i : Nat) (t : StopTeardown) (pc : StopTeardownPc) : ClientHeartbeats :=
  { s with teardowns := s.teardowns.set i { t with pc } }

/-- `_close_current_connection` in the teardown `i`. -/
def stopClose (i : Nat) (t : StopTeardown) : ClientHeartbeats :=
  match s.beginClosing with
  | (s, some n) => s.setTeardown i t (.closing n)
  | (s, none) => s.setTeardown i t .done

/-- One segment of a teardown. It goes on after a failure. -/
def teardownTurn (i : Nat) : Option ClientHeartbeats :=
  match s.teardowns[i]? with
  | none => none
  | some t =>
    match t.pc with
    | .waiting =>
      let (s, suspended) := s.stopHeartbeatSender
      some (if suspended then s.setTeardown i t .stoppingHeartbeat else s.stopClose i t)
    | .stoppingHeartbeat => some (s.stopClose i t)
    | .closing n => if (s.connections n).spent then some ((s.endClosing n).setTeardown i t .done) else none
    | .done => none

def stop (fullyStopped : Bool) : Option ClientHeartbeats :=
  if fullyStopped then
    if s.lifecycle = .stopped ∧ s.heartbeatSender = none ∧ s.connection = none then
      some { s with teardowns := s.teardowns ++ [⟨s.supervisors.length, .done⟩] }
    else none
  else
    some { s with
      lifecycle := if s.running then .stopping else s.lifecycle
      teardowns := s.teardowns ++ [⟨s.supervisors.length, .waiting⟩] }

/-- `_rollback_failed_startup`. -/
def rollback : ClientHeartbeats :=
  { s with
    lifecycle := if s.running then .stopped else s.lifecycle
    teardowns := s.teardowns ++ [⟨s.supervisors.length, .waiting⟩] }

/-- The second section of `start()`. -/
def supervise : Option ClientHeartbeats :=
  if s.lifecycle = .starting then some { s with lifecycle := .running, supervisors := s.supervisors ++ [{}] } else none

def step : HeartbeatsAct → Option ClientHeartbeats
  | .start => if s.running then none else some { s with lifecycle := .starting }
  | .supervise => s.supervise
  | .stop fullyStopped => s.stop fullyStopped
  | .rollback => some s.rollback
  | .applyStopped => if s.lifecycle = .stopping then some { s with lifecycle := .stopped } else none
  | .terminate run =>
    if s.supervisors[run]?.any (·.pc.left) then some { s with lifecycle := .stopped } else none
  | .cancel run =>
    some { s with supervisors := s.supervisors.modify run fun v => { v with cancelRequested := true } }
  | .teardownTurn i => s.teardownTurn i
  | .close n => if n < s.nextConnection then some (s.requestClose n) else none
  | .closeTurn n outcome => s.closeTurn n outcome
  | .senderEnds i => some (s.haltSender i)
  | .resume run move => s.resume settings run move

end ClientHeartbeats

def heartbeatsMachine (settings : TcpClientSettings) : Machine ClientHeartbeats HeartbeatsAct where
  init s := s = {}
  step s a := s.step settings a

namespace ClientHeartbeats

/-! ## What the client promises -/

/-- One sender runs at most, and it is bound to the current connection; its connection is not closed, and belongs to a run that
began after every stop that has completed; and the close of a connection stops no sender but its own. -/
structure Owned (s : ClientHeartbeats) : Prop where
  one : ∀ i j n m, s.Beats i n → s.Beats j m → i = j
  current : ∀ i n, s.Beats i n → s.connection = some n
  closed : ∀ i n, s.Beats i n → (s.connections n).callbackRan = false ∧ (s.connections n).state ≠ .closed
  stopped : ∀ i n t, s.Beats i n → t ∈ s.teardowns → t.pc = .done → t.runs ≤ (s.connections n).run
  older : ∀ p ∈ s.stoppedBy, p.2 = p.1

/-- A supervisor comes to the end of an opening, with a connection that the client wants. -/
def opened (s : ClientHeartbeats) (run : Nat) : Bool :=
  match s.supervisors[run]? with
  | some ⟨.opening n, _⟩ => s.lifecycle = .running && (s.connections n).state != .closed
  | _ => false

/-- Supervision begins when each supervisor before it has left its loop, or can only leave it and no sender is running; when an
opening ends, no callback of a connection of an earlier run is to come; and the teardown of the current connection does not
fail. -/
def WoundUp (s : ClientHeartbeats) : HeartbeatsAct → Prop
  | .supervise =>
    ∀ v ∈ s.supervisors, v.pc.left = true ∨ v.doomed = true ∧ ∀ y ∈ s.senders, y.running = false
  | .resume run .goOn =>
    s.opened run = true → ∀ m < s.nextConnection, (s.connections m).run < run → (s.connections m).spent = true
  | .closeTurn n outcome =>
    s.connection = some n → (s.connections n).closeTask = some .teardown → outcome = .returned
  | _ => True

end ClientHeartbeats

end Aionetx
