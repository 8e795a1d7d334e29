import Mathlib.Logic.Function.Basic
import Aionetx.Model.Lifecycle

/-!
# The runtime state of the TCP client

What the supervisor, the close tasks of the connections and the stop paths share.

* `ClientConnection`, `HeartbeatSender` : a connection with its close task, and the heartbeat sender, as the client sees
  them; both know the run of the client they were created in;
* `ClientRuntime` : `_ClientRuntimeState` with the lifecycle state and whether `_stop_waiter` is set;
* `ClientConnection.closeTurn`, `requestClose`, `closeTurn`, `onConnectionClosed` : `close()` and the segments of its close task;
* `attachStartingConnection`, `startHeartbeatSender`, `stopHeartbeatSender`, `beginClosing`, `closeNext`, `endClosing` :
  the client's own helpers, cut at their awaits.
-/

namespace Aionetx

inductive ErrorPolicy
  | retry | failFast | ignore
  deriving DecidableEq, Repr

structure TcpClientSettings where
  reconnectEnabled : Bool := true
  errorPolicy : Option ErrorPolicy := none
  heartbeatEnabled : Bool := false

def TcpClientSettings.resolveErrorPolicy (settings : TcpClientSettings) : ErrorPolicy :=
  match settings.errorPolicy with
  | some policy => policy
  | none => if settings.reconnectEnabled then .retry else .failFast

inductive Outcome
  | returned | raised | cancelled
  deriving DecidableEq, Repr

/-- Where the close task of a connection is suspended: in the teardown before the callback, in the heartbeat stop that
the callback awaits, in the error event of a callback that raised, or before its first step without a teardown. -/
inductive ClientClosePc
  | teardown | stoppingHeartbeat | reportingError | reconciling
  deriving DecidableEq, Repr

/-- A connection of the client. Once it is `CLOSED` its close tasks only publish, so none is kept. -/
structure ClientConnection where
  run : Nat := 0
  state : ConnectionState := .created
  closeTask : Option ClientClosePc := none
  callbackRan : Bool := false
  deriving DecidableEq, Repr

/-- `close()` up to its await: the close task is created unless one is in flight. -/
def ClientConnection.requestClose (x : ClientConnection) : ClientConnection :=
  match x.state, x.closeTask with
  | .closed, _ => x
  | .closing, none => { x with closeTask := some .reconciling }
  | _, none => { x with state := .closing, closeTask := some .teardown }
  | _, some _ => x

/-- The close task from the callback on: with no running heartbeat sender to await, nothing is awaited before `CLOSED` is
set. -/
def ClientConnection.afterCallback (x : ClientConnection) (suspended : Bool) : ClientConnection :=
  if suspended then { x with callbackRan := true, closeTask := some .stoppingHeartbeat }
  else { x with callbackRan := true, state := .closed, closeTask := none }

/-- No on-closed callback is to come: the close task that owned the teardown is past it. -/
def ClientConnection.spent (x : ClientConnection) : Bool :=
  (x.state = .closing || x.state = .closed) && x.closeTask != some .teardown

/-- One segment of the close task that does not run the callback. A teardown that raises (`writer.close()`), or whose task is
cancelled before its first step, ends the task; a cancellation at a later await of the teardown or of the callback is held
back, and publication follows. -/
def ClientConnection.closeTurn (x : ClientConnection) (outcome : Outcome) : Option ClientConnection :=
  match x.closeTask, outcome with
  | some .stoppingHeartbeat, .raised => some { x with closeTask := some .reportingError }
  | some .teardown, .cancelled | some .stoppingHeartbeat, .returned | some .stoppingHeartbeat, .cancelled
  | some .reportingError, .returned | some .reportingError, .cancelled | some .reconciling, .returned =>
    some { x with state := .closed, closeTask := none }
  | some .teardown, .raised | some .reportingError, .raised | some .reconciling, .raised | some .reconciling, .cancelled =>
    some { x with closeTask := none }
  | some .teardown, .returned | none, _ => none

/-- Such a segment finishes the close, or leaves the state as it is. -/
theorem ClientConnection.closeTurn_cases {x y : ClientConnection} {outcome : Outcome} (h : x.closeTurn outcome = some y) :
    x.closeTask ≠ none ∧ (x.closeTask = some .teardown → outcome ≠ .returned) ∧
      (y = { x with state := .closed, closeTask := none } ∨
        ∃ closeTask, y = { x with closeTask } ∧ closeTask ≠ some .teardown) := by
  unfold closeTurn at h
  refine ⟨fun ht => ?_, fun ht hreturned => ?_, ?_⟩
  · rw [ht] at h
    cases h
  · rw [ht, hreturned] at h
    cases h
  · split at h <;> cases h
    · exact .inr ⟨_, rfl, by simp⟩
    · exact .inl rfl
    · exact .inl rfl
    · exact .inl rfl
    · exact .inl rfl
    · exact .inl rfl
    · exact .inl rfl
    · exact .inr ⟨none, rfl, by simp⟩
    · exact .inr ⟨none, rfl, by simp⟩
    · exact .inr ⟨none, rfl, by simp⟩
    · exact .inr ⟨none, rfl, by simp⟩

/-- The heartbeat sender: the run it was created in, and whether its task is running. -/
structure HeartbeatSender where
  run : Nat
  running : Bool
  deriving DecidableEq, Repr

structure ClientRuntime where
  lifecycle : ComponentLifecycleState := .stopped
  stopInProgress : Bool := false
  connection : Option Nat := none
  startingConnection : Option Nat := none
  connectionClosedEvent : Bool := true
  heartbeatSender : Option HeartbeatSender := none
  connections : Nat → ClientConnection := fun _ => {}
  nextConnection : Nat := 0

namespace ClientRuntime
variable (c : ClientRuntime)

def running : Bool := c.lifecycle.active

def setConnection (n : Nat) (x : ClientConnection) : ClientRuntime :=
  { c with connections := Function.update c.connections n x }

@[simp] theorem setConnection_self (n : Nat) (x : ClientConnection) : (c.setConnection n x).connections n = x :=
  Function.update_self ..

theorem setConnection_of_ne {m n : Nat} (h : m ≠ n) (x : ClientConnection) :
    (c.setConnection n x).connections m = c.connections m := Function.update_of_ne h _ _

/-! ## Closing a connection -/

/-- `close()` up to its await. -/
def requestClose (n : Nat) : ClientRuntime := c.setConnection n (c.connections n).requestClose

/-- `_stop_heartbeat_sender` up to its await: the sender is detached, and awaited if its task is running. -/
def stopHeartbeatSender : ClientRuntime × Bool :=
  ({ c with heartbeatSender := none }, c.heartbeatSender.any (·.running))

/-- `_on_connection_closed` up to the heartbeat stop. -/
def onConnectionClosed (n : Nat) : ClientRuntime :=
  if c.connection = some n then
    { c with
      connection := none
      connectionClosedEvent := c.connectionClosedEvent || c.lifecycle != .stopping }
  else c

/-- The close task after the teardown: the callback runs. -/
def runClosedCallback (n : Nat) : ClientRuntime :=
  let (c, suspended) := (c.onConnectionClosed n).stopHeartbeatSender
  c.setConnection n ((c.connections n).afterCallback suspended)

def closeTurn (n : Nat) (outcome : Outcome) : Option ClientRuntime :=
  if (c.connections n).closeTask = some .teardown ∧ outcome = .returned then some (c.runClosedCallback n)
  else ((c.connections n).closeTurn outcome).map (c.setConnection n)

/-! ## The current connection -/

/-- A connection of the run is created, tracked, set to `CONNECTED`, and attached if the client is running, in one go. -/
def openConnection (run : Nat) : ClientRuntime :=
  let n := c.nextConnection
  let c : ClientRuntime := { (c.setConnection n { run, state := .connected }) with nextConnection := n + 1 }
  if c.lifecycle = .running then
    { c with connection := some n, startingConnection := none, connectionClosedEvent := false }
  else { c with startingConnection := none }

/-- `_start_heartbeat_sender`: no await of it suspends. -/
def startHeartbeatSender (settings : TcpClientSettings) (run : Nat) : ClientRuntime :=
  { c with heartbeatSender := if settings.heartbeatEnabled then some { run, running := true } else none }

end ClientRuntime

/-- `_close_current_connection` in progress: the two connections it read, and the targets that are left, the first of
which is awaited. -/
structure Closing where
  connection : Option Nat
  startingConnection : Option Nat
  targets : List Nat
  deriving DecidableEq, Repr

namespace ClientRuntime
variable (c : ClientRuntime)

/-- `_close_current_connection` up to the first target. -/
def beginClosing : ClientRuntime × Closing :=
  ({ c with startingConnection := none },
    { connection := c.connection
      startingConnection := c.startingConnection
      targets := ((c.startingConnection.toList ++ c.connection.toList).filter
        fun n => (c.connections n).state ≠ .closed).eraseDups })

def endClosing (closing : Closing) : ClientRuntime :=
  { c with
    connection :=
      if c.connection = closing.connection ∨ c.connection = closing.startingConnection then none else c.connection
    connectionClosedEvent := true }

/-- The next target, or the end. -/
def closeNext (closing : Closing) : ClientRuntime × Option Closing :=
  match closing.targets with
  | [] => (c.endClosing closing, none)
  | n :: _ => (c.requestClose n, some closing)

end ClientRuntime

end Aionetx
