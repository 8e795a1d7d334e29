import Aionetx.Model.Identifiers
import Aionetx.Model.Lifecycle
import Aionetx.Runs.Machine

/-!
# The TCP server

Calls of `start()` and `stop()`, the handler task and the close task of every accepted client share one lock. A section
under the lock runs in one step, with one exception: `start()` keeps the lock while it waits for a server to close that
was stopped before it could adopt it.

* `ServerRegistry` : the two dictionaries and the heartbeat senders, with one operation per section that writes them;
* `ServerStart`, `ServerStop`, `ClientHandler`, `ConnectionClose` : where each task is;
* `ServerRuntime.step`, `serverMachine`.
-/

namespace Aionetx

open Runs

structure TcpServerSettings where
  maxConnections : Nat
  heartbeatEnabled : Bool

/-! ## The registry -/

inductive ServerHeartbeat
  | idle | running | stopped
  deriving DecidableEq, Repr

/-- `_connection_sequence`, `_connections` and `_heartbeat_senders`, whose values are client numbers, with the clients
accepted so far, the identifiers they were given, and their heartbeat senders. -/
structure ServerRegistry where
  connectionSequence : Nat := 0
  connections : AList fun _ : String => Nat := ∅
  heartbeatSenders : AList fun _ : String => Nat := ∅
  accepted : List Nat := []
  connectionId : Nat → String := fun _ => ""
  sender : Nat → ServerHeartbeat := fun _ => .idle

namespace ServerRegistry

/-- `_next_connection_id` for a client that is rejected. -/
def reject (r : ServerRegistry) : ServerRegistry :=
  { r with connectionSequence := r.connectionSequence + 1 }

/-- A client is accepted under the next identifier. -/
def accept (r : ServerRegistry) (k : Nat) (peerInfo : PeerName) : ServerRegistry :=
  let connectionId := tcpServerConnectionId peerInfo (r.connectionSequence + 1)
  { r with
    connectionSequence := r.connectionSequence + 1
    connections := r.connections.insert connectionId k
    accepted := r.accepted ++ [k]
    connectionId := Function.update r.connectionId k connectionId }

/-- The heartbeat sender of a client enters the registry. -/
def register (r : ServerRegistry) (k : Nat) : ServerRegistry :=
  { r with heartbeatSenders := r.heartbeatSenders.insert (r.connectionId k) k }

def startSender (r : ServerRegistry) (k : Nat) : ServerRegistry :=
  { r with sender := Function.update r.sender k .running }

/-- `sender.stop()`, which does nothing unless the sender runs. -/
def stopSender (r : ServerRegistry) (k : Nat) : ServerRegistry :=
  { r with sender := if r.sender k = .running then Function.update r.sender k .stopped else r.sender }

/-- The sender that could not be started leaves the registry. -/
def unregister (r : ServerRegistry) (k : Nat) : ServerRegistry :=
  { r with heartbeatSenders := r.heartbeatSenders.erase (r.connectionId k) }

/-- `_on_connection_closed`. -/
def detach (r : ServerRegistry) (k : Nat) : ServerRegistry :=
  let popped := { r with
    heartbeatSenders := r.heartbeatSenders.erase (r.connectionId k)
    connections := r.connections.erase (r.connectionId k) }
  match r.heartbeatSenders.lookup (r.connectionId k) with
  | some k' => popped.stopSender k'
  | none => popped

/-- The part of `_plan_stop` that empties the registry. -/
def clear (r : ServerRegistry) : ServerRegistry :=
  { r with connections := ∅, heartbeatSenders := ∅ }

end ServerRegistry

/-! ## The tasks -/

inductive ServerStart
  | notCalled
  /-- before the section that applies `STARTING` -/
  | entering
  /-- `emit_and_wait` of `STARTING` -/
  | announcing
  /-- before the section that looks whether it has been stopped -/
  | checking
  /-- awaits the waiter of the stop -/
  | joining (stop : Nat)
  /-- creates the listening socket and calls `asyncio.start_server` -/
  | opening
  /-- the new server accepts clients, and `asyncio.start_server` has not returned -/
  | serving
  /-- before the section that adopts the server -/
  | adopting
  /-- keeps the lock and awaits `wait_closed()` of a server that it does not adopt -/
  | discarding
  /-- emits `RUNNING` -/
  | publishing
  /-- before the section that gives up after an error of `start_server` -/
  | failing
  /-- before the section of `_rollback_failed_startup`, which is given the server after an error of `publishing` -/
  | rollingBack (server : Bool)
  /-- awaits `wait_closed()` of these servers -/
  | closing (servers : List Nat)
  | ended
  deriving DecidableEq, Repr

/-- `TcpServerStopPlan`. -/
structure TcpServerTeardown where
  server : Option Nat
  stopping : Bool
  heartbeatSenders : List Nat
  connections : List Nat
  deriving DecidableEq, Repr

inductive ServerStop
  | notCalled
  /-- before the section of `_plan_stop` -/
  | planning
  /-- awaits the waiter of the stop that owns the teardown -/
  | joining (owner : Nat)
  /-- emits `STOPPING`, or stops the dispatcher from a handler -/
  | announcing (plan : TcpServerTeardown)
  /-- gathers `sender.stop()` -/
  | stoppingSenders (plan : TcpServerTeardown) (left : List Nat)
  /-- gathers `connection.close()` -/
  | closingConnections (plan : TcpServerTeardown)
  /-- awaits `wait_closed()` -/
  | closingListener (plan : TcpServerTeardown)
  /-- before the section that applies `STOPPED` -/
  | settling
  /-- emits `STOPPED` and stops the dispatcher -/
  | publishing
  /-- before the section that clears `_stop_waiter`, which is done -/
  | clearing
  | ended
  deriving DecidableEq, Repr

/-- What the section of `_plan_stop` has come to: the call awaits the stop in progress, or takes over heartbeat senders. -/
inductive ServerStopSection
  | joined (owner : Nat)
  | took (heartbeatSenders : List Nat)
  deriving DecidableEq, Repr

inductive ClientHandler
  | absent
  /-- the task has not run -/
  | scheduled
  /-- before the section that accepts or rejects the client -/
  | accepting
  | rejecting
  /-- inside `connection.start()` -/
  | opening
  /-- before the section that registers the heartbeat sender -/
  | registering
  /-- before the section that takes back a sender that could not be started -/
  | unregistering
  /-- closes the connection that could not be initialised -/
  | failing
  | ended
  deriving DecidableEq, Repr

inductive ConnectionClose
  | notClosed
  | closing
  /-- the writer is closed; before the section of `_on_connection_closed` -/
  | detaching
  | closed
  /-- the teardown has raised before the callback -/
  | raised
  deriving DecidableEq, Repr

structure ServerClient where
  server : Nat := 0
  peerInfo : PeerName := none
  transportOpen : Bool := false
  handler : ClientHandler := .absent
  close : ConnectionClose := .notClosed

/-- The server with its tasks. `lock` is the call of `start()` that keeps `_state_lock` over an await; `listener` is the
call whose server is in `_server`. -/
structure ServerRuntime extends ServerRegistry where
  lifecycle : ComponentLifecycleState := .stopped
  lock : Option Nat := none
  listener : Option Nat := none
  listening : Nat → Bool := fun _ => false
  stopWaiter : Option Nat := none
  starts : Nat → ServerStart := fun _ => .notCalled
  stops : Nat → ServerStop := fun _ => .notCalled
  /-- the section of each call of `stop()` that has got to it -/
  planned : Nat → Option ServerStopSection := fun _ => none
  client : Nat → ServerClient := fun _ => {}
  clientCount : Nat := 0

/-- The calls of `start()` and `stop()`, their turns, the tasks of the clients, and the peers. `ok` tells whether what the
task awaited has succeeded. -/
inductive ServerAct
  | start (i : Nat)
  | startTurn (i : Nat) (ok : Bool)
  | stop (j : Nat)
  | stopTurn (j : Nat)
  | stopSender (j k : Nat)
  | connect (i : Nat) (peerInfo : PeerName)
  | lose (k : Nat)
  | handlerTurn (k : Nat) (ok : Bool)
  | close (k : Nat)
  | closeTurn (k : Nat) (ok : Bool)

namespace ServerRuntime

/-- Every transport that the server has accepted is closed. -/
def Drained (s : ServerRuntime) (i : Nat) : Prop :=
  ∀ k < s.clientCount, (s.client k).server = i → (s.client k).transportOpen = false

instance (s : ServerRuntime) (i : Nat) : Decidable (s.Drained i) :=
  inferInstanceAs (Decidable (∀ k < s.clientCount, (s.client k).server = i → (s.client k).transportOpen = false))

def setStart (s : ServerRuntime) (i : Nat) (pc : ServerStart) : ServerRuntime :=
  { s with starts := Function.update s.starts i pc }

def setStop (s : ServerRuntime) (j : Nat) (pc : ServerStop) : ServerRuntime :=
  { s with stops := Function.update s.stops j pc }

def setHandler (s : ServerRuntime) (k : Nat) (pc : ClientHandler) : ServerRuntime :=
  { s with client := Function.update s.client k { s.client k with handler := pc } }

def setClose (s : ServerRuntime) (k : Nat) (pc : ConnectionClose) : ServerRuntime :=
  { s with client := Function.update s.client k { s.client k with close := pc } }

def closeTransport (s : ServerRuntime) (k : Nat) : ServerRuntime :=
  { s with client := Function.update s.client k { s.client k with transportOpen := false } }

/-- `server.close()`: no client is accepted any more. -/
def closeListener (s : ServerRuntime) (i : Nat) : ServerRuntime :=
  { s with listening := Function.update s.listening i false }

/-- `LifecycleTransitionPublisher.apply`; an illegal transition raises. -/
def applyLifecycleState (s : ServerRuntime) (target : ComponentLifecycleState) : Option ServerRuntime :=
  match LifecycleTransition.of s.lifecycle target with
  | .unchanged => some s
  | .applied _ => some { s with lifecycle := target }
  | .illegal => none

/-! ## `start()` -/

/-- The section of `start()` that adopts the new server, or keeps the lock to wait until it is closed. -/
def adopt (s : ServerRuntime) (i : Nat) : ServerRuntime :=
  if s.lifecycle ≠ .starting then { s.closeListener i with lock := some i }.setStart i .discarding
  else { s with listener := some i, lifecycle := .running }.setStart i .publishing

/-- The section of `_rollback_failed_startup`, and the `close()` of the servers. -/
def rollBack (s : ServerRuntime) (i : Nat) (server : Bool) : ServerRuntime :=
  let servers := (if server then [i] else []) ++ s.listener.toList
  let rolledBack : ServerRuntime := { servers.foldl closeListener s with
    listener := none
    lifecycle := if s.lifecycle = .running ∨ s.lifecycle = .starting then .stopped else s.lifecycle }
  rolledBack.setStart i (.closing servers)

/-- A section of `start()`; the lock is free. -/
def startSection (s : ServerRuntime) (i : Nat) : Option ServerRuntime :=
  match s.starts i with
  | .entering =>
    if s.lifecycle = .starting ∨ s.lifecycle = .running then some (s.setStart i .ended)
    else match s.applyLifecycleState .starting with
      | some s => some (s.setStart i .announcing)
      | none => some (s.setStart i .ended)
  | .checking =>
    if s.lifecycle = .starting then some (s.setStart i .opening)
    else some (s.setStart i (match s.stopWaiter with
      | some j => .joining j
      | none => .ended))
  | .adopting => some (s.adopt i)
  | .failing =>
    match { s with listener := none }.applyLifecycleState .stopped with
    | some s => some (s.setStart i .ended)
    | none => some ({ s with listener := none }.setStart i .ended)
  | .rollingBack server => some (s.rollBack i server)
  | _ => none

def startTurn (s : ServerRuntime) (i : Nat) (ok : Bool) : Option ServerRuntime :=
  match s.starts i with
  | .entering | .checking | .adopting | .failing | .rollingBack _ => if s.lock = none then s.startSection i else none
  | .announcing => some (s.setStart i (if ok then .checking else .rollingBack false))
  | .joining j => if s.stops j = .clearing ∨ s.stops j = .ended then some (s.setStart i .ended) else none
  | .opening =>
    if ok then some ({ s with listening := Function.update s.listening i true }.setStart i .serving)
    else some (s.setStart i .failing)
  | .serving => some (s.setStart i .adopting)
  | .discarding => if s.Drained i then some ({ s with lock := none }.setStart i .ended) else none
  | .publishing => some (s.setStart i (if ok then .ended else .rollingBack true))
  | .closing servers => if ∀ i' ∈ servers, s.Drained i' then some (s.setStart i .ended) else none
  | .notCalled | .ended => none

/-! ## `stop()`

A stop that comes from a handler defers what it publishes; it does the same to the server. -/

def planStop (s : ServerRuntime) (j : Nat) : ServerRuntime :=
  match s.stopWaiter with
  | some owner => { s with planned := Function.update s.planned j (some (.joined owner)) }.setStop j (.joining owner)
  | none =>
    let plan : TcpServerTeardown :=
      { server := s.listener
        stopping := !(applyStoppingTransitionIfActive s.lifecycle).2.isEmpty
        heartbeatSenders := s.heartbeatSenders.entries.map Sigma.snd
        connections := s.connections.entries.map Sigma.snd }
    { s with
      toServerRegistry := s.clear
      stopWaiter := some j
      planned := Function.update s.planned j (some (.took plan.heartbeatSenders))
      listener := none
      lifecycle := (applyStoppingTransitionIfActive s.lifecycle).1 }.setStop j (.announcing plan)

/-- `connection.close()` unless it is under way. -/
def beginClose (s : ServerRuntime) (k : Nat) : ServerRuntime :=
  if (s.client k).close = .notClosed then s.setClose k .closing else s

def stopTurn (s : ServerRuntime) (j : Nat) : Option ServerRuntime :=
  match s.stops j with
  | .planning => if s.lock = none then some (s.planStop j) else none
  | .joining owner => if s.stops owner = .clearing ∨ s.stops owner = .ended then some (s.setStop j .ended) else none
  | .announcing plan =>
    some ((plan.server.toList.foldl closeListener s).setStop j (.stoppingSenders plan plan.heartbeatSenders))
  | .stoppingSenders plan [] => some ((plan.connections.foldl beginClose s).setStop j (.closingConnections plan))
  | .closingConnections plan =>
    if ∀ k ∈ plan.connections, (s.client k).close = .closed ∨ (s.client k).close = .raised then
      some (s.setStop j (.closingListener plan))
    else none
  | .closingListener plan =>
    if ∀ i ∈ plan.server, s.Drained i then some (s.setStop j (if plan.stopping then .settling else .clearing)) else none
  | .settling =>
    if s.lock = none then
      some ({ s with lifecycle := (applyStoppedTransitionIfStopping s.lifecycle).1 }.setStop j .publishing)
    else none
  | .publishing => some (s.setStop j .clearing)
  | .clearing =>
    if s.lock = none then
      some ({ s with stopWaiter := if s.stopWaiter = some j then none else s.stopWaiter }.setStop j .ended)
    else none
  | .stoppingSenders _ (_ :: _) | .notCalled | .ended => none

/-! ## Clients -/

def acceptOrReject (settings : TcpServerSettings) (s : ServerRuntime) (k : Nat) : ServerRuntime :=
  if s.lifecycle ≠ .running then { s with toServerRegistry := s.reject }.setHandler k .rejecting
  else if settings.maxConnections ≤ s.connections.entries.length then
    { s with toServerRegistry := s.reject }.setHandler k .rejecting
  else { s with toServerRegistry := s.accept k (s.client k).peerInfo }.setHandler k .opening

/-- The section of `start_server_heartbeat_if_needed`, and `sender.start()`, which does not suspend. -/
def registerSender (s : ServerRuntime) (k : Nat) (ok : Bool) : ServerRuntime :=
  if s.lifecycle = .running ∧ s.connectionId k ∈ s.connections then
    if ok then { s with toServerRegistry := (s.register k).startSender k }.setHandler k .ended
    else { s with toServerRegistry := s.register k }.setHandler k .unregistering
  else s.setHandler k .ended

def handlerTurn (settings : TcpServerSettings) (s : ServerRuntime) (k : Nat) (ok : Bool) : Option ServerRuntime :=
  match (s.client k).handler with
  | .scheduled => some (s.setHandler k .accepting)
  | .accepting => if s.lock = none then some (s.acceptOrReject settings k) else none
  | .rejecting => some ((s.closeTransport k).setHandler k .ended)
  | .opening =>
    some (s.setHandler k (if !ok then .failing else if settings.heartbeatEnabled then .registering else .ended))
  | .registering => if s.lock = none then some (s.registerSender k ok) else none
  | .unregistering =>
    if s.lock = none then some ({ s with toServerRegistry := s.unregister k }.setHandler k .failing) else none
  | .failing => some ((s.beginClose k).setHandler k .ended)
  | .absent | .ended => none

def closeTurn (s : ServerRuntime) (k : Nat) (ok : Bool) : Option ServerRuntime :=
  match (s.client k).close with
  | .closing => some (if ok then (s.closeTransport k).setClose k .detaching else s.setClose k .raised)
  | .detaching => if s.lock = none then some ({ s with toServerRegistry := s.detach k }.setClose k .closed) else none
  | .notClosed | .closed | .raised => none

def step (settings : TcpServerSettings) (s : ServerRuntime) : ServerAct → Option ServerRuntime
  | .start i => if s.starts i = .notCalled then some (s.setStart i .entering) else none
  | .startTurn i ok => s.startTurn i ok
  | .stop j => if s.stops j = .notCalled then some (s.setStop j .planning) else none
  | .stopTurn j => s.stopTurn j
  | .stopSender j k =>
    match s.stops j with
    | .stoppingSenders plan left =>
      if k ∈ left then
        some ({ s with toServerRegistry := s.stopSender k }.setStop j (.stoppingSenders plan (left.erase k)))
      else none
    | _ => none
  | .connect i peerInfo =>
    if s.listening i then
      some { s with
        client := Function.update s.client s.clientCount { server := i, peerInfo, transportOpen := true, handler := .scheduled }
        clientCount := s.clientCount + 1 }
    else none
  | .lose k => some (s.closeTransport k)
  | .handlerTurn k ok => s.handlerTurn settings k ok
  | .close k => if k ∈ s.accepted then some (s.beginClose k) else none
  | .closeTurn k ok => s.closeTurn k ok

end ServerRuntime

def serverMachine (settings : TcpServerSettings) : Machine ServerRuntime ServerAct where
  init s := s = {}
  step := ServerRuntime.step settings

end Aionetx
