import Aionetx.Runs.Machine
import Aionetx.Client.Supervisor

/-!
# Sessions of a client that is not restarted

One run of the client: `start()`, its supervisor with any number of sessions, the close tasks of their connections, and
what `stop()` or a startup rollback does to the state the supervisor watches.

* `ClientSessions`, `SessionAct`, `ClientSessions.step` : the machine;
* `ClientSessions.Attentive` : a parked supervisor of a running client has a live connection whose callback is still to
  come, or its wait is over and it goes on to the reconnect decision;
* `ClientSessions.TeardownReturns` : no teardown of the current connection fails.
-/

namespace Aionetx

/-- The client in its one run. `cleanups` are the `_close_current_connection` calls of `stop()` and of the startup
rollback, which both leave `STARTING` and `RUNNING` before they clean up. -/
structure ClientSessions where
  runtime : ClientRuntime := {}
  started : Bool := false
  supervisor : Option SupervisorPc := none
  cancelRequested : Bool := false
  cleanups : List Closing := []

inductive SessionAct
  | start
  | supervise
  | beginStop
  | endStop
  | rollback
  | applyStopped
  | cancelSupervisor
  | cleanHeartbeat
  | beginCleanup
  | cleanupTurn (i : Nat) (outcome : Outcome)
  | close (n : Nat)
  | closeTurn (n : Nat) (outcome : Outcome)
  | heartbeatEnds
  | superviseTurn (outcome : Outcome)
  deriving DecidableEq, Repr

namespace ClientSessions
variable (settings : TcpClientSettings) (s : ClientSessions)

/-- The supervisor goes on, with the outcome of its await: it is cancelled if that was asked for, and a parked one wakes
if the event is set. -/
def superviseTurn (outcome : Outcome) : Option ClientSessions :=
  match s.supervisor with
  | none | some .ended => none
  | some pc =>
    if outcome = .cancelled ∧ s.cancelRequested = false ∨
        pc = .parked ∧ (outcome = .raised ∨ outcome = .returned ∧ s.runtime.connectionClosedEvent = false) then none
    else
      let (runtime, pc) := s.runtime.supervisorTurn settings 1 pc outcome
      some { s with
        runtime, supervisor := some pc
        cancelRequested := s.cancelRequested && outcome != .cancelled }

def step : SessionAct → Option ClientSessions
  | .start =>
    if s.started then none
    else some { s with started := true, runtime := { s.runtime with lifecycle := .starting } }
  | .supervise =>
    if s.runtime.lifecycle = .starting then
      some { s with supervisor := some .created, runtime := { s.runtime with lifecycle := .running } }
    else none
  | .beginStop =>
    if s.started then
      some { s with
        runtime := { s.runtime with
          lifecycle := if s.runtime.running then .stopping else s.runtime.lifecycle
          stopInProgress := true } }
    else none
  | .endStop => some { s with runtime := { s.runtime with stopInProgress := false } }
  | .rollback =>
    if s.runtime.running then some { s with runtime := { s.runtime with lifecycle := .stopped } } else none
  | .applyStopped =>
    if s.runtime.lifecycle = .stopping then some { s with runtime := { s.runtime with lifecycle := .stopped } }
    else none
  | .cancelSupervisor => some { s with cancelRequested := true }
  | .cleanHeartbeat =>
    if s.runtime.running ∨ s.started = false then none
    else some { s with runtime := s.runtime.stopHeartbeatSender.1 }
  | .beginCleanup =>
    if s.runtime.running ∨ s.started = false then none
    else
      let (runtime, closing) := s.runtime.beginClosing
      let (runtime, closing) := runtime.closeNext closing
      some { s with runtime, cleanups := s.cleanups ++ closing.toList }
  | .cleanupTurn i outcome =>
    s.cleanups[i]?.map fun closing =>
      if outcome = .returned then
        let (runtime, closing) := s.runtime.closeNext { closing with targets := closing.targets.tail }
        { s with runtime, cleanups := s.cleanups.eraseIdx i ++ closing.toList }
      else { s with runtime := s.runtime.endClosing closing, cleanups := s.cleanups.eraseIdx i }
  | .close n =>
    if n < s.runtime.nextConnection then some { s with runtime := s.runtime.requestClose n } else none
  | .closeTurn n outcome => (s.runtime.closeTurn n outcome).map fun runtime => { s with runtime }
  | .heartbeatEnds =>
    s.runtime.heartbeatSender.map fun sender =>
      { s with runtime := { s.runtime with heartbeatSender := some { sender with running := false } } }
  | .superviseTurn outcome => s.superviseTurn settings outcome

/-- The reconnect decision: the next delay is announced, or the client is stopped. -/
def decision : SupervisorPc :=
  if settings.reconnectEnabled then .scheduling false
  else .publishing [⟨.running, .stopping⟩, ⟨.stopping, .stopped⟩]

/-- No disconnect is missed while the client is `RUNNING` and its supervisor is parked: with the event unset, the current
connection exists, is not `CLOSED`, and its callback has not run; with the event set, the supervisor wakes to the
reconnect decision. -/
structure Attentive : Prop where
  watched : s.runtime.lifecycle = .running → s.supervisor = some .parked → s.runtime.connectionClosedEvent = false →
    ∃ n, s.runtime.connection = some n ∧ (s.runtime.connections n).state ≠ .closed ∧
      (s.runtime.connections n).callbackRan = false
  decides : s.runtime.lifecycle = .running → s.supervisor = some .parked → s.runtime.connectionClosedEvent = true →
    (s.step settings (.superviseTurn .returned)).bind ClientSessions.supervisor = some (decision settings)

/-- While the client is `RUNNING`, the teardown of its current connection gets to the callback. -/
def TeardownReturns (s : ClientSessions) : SessionAct → Prop
  | .closeTurn n outcome =>
    s.runtime.lifecycle = .running → s.runtime.connection = some n →
      (s.runtime.connections n).closeTask = some .teardown → outcome = .returned
  | _ => True

instance (s : ClientSessions) : ∀ a, Decidable (s.TeardownReturns a)
  | .closeTurn n outcome =>
    inferInstanceAs (Decidable (s.runtime.lifecycle = .running → s.runtime.connection = some n →
      (s.runtime.connections n).closeTask = some .teardown → outcome = .returned))
  | .start | .supervise | .beginStop | .endStop | .rollback | .applyStopped | .cancelSupervisor | .cleanHeartbeat
  | .beginCleanup | .cleanupTurn _ _ | .close _ | .heartbeatEnds | .superviseTurn _ => .isTrue trivial

end ClientSessions

def sessionMachine (settings : TcpClientSettings) : Runs.Machine ClientSessions SessionAct where
  init s := s = {}
  step s a := s.step settings a

end Aionetx
