import Aionetx.Runs.Machine
import Aionetx.Client.Supervisor

/-!
# The supervisors of a client that is restarted

A client that is started and stopped any number of times, with the supervisor of each run; a stop that does not await the
supervisor of its run leaves it to its next await.

* `ClientSupervisor`, `ClientSupervisions`, `SupervisionsAct` : the supervisors, the client, and the actions;
* `ClientSupervisions.KeepsToRun`, `Single` : one supervisor is in its loop, and one whose run was stopped keeps its hands off;
* `ClientSupervisions.OneAtATime` : the client is started again only when its earlier supervisors are finished.
-/

namespace Aionetx

/-! ## The supervisors -/

def SupervisorPc.looping : SupervisorPc → Bool
  | .finalHeartbeat | .finalClosing _ | .publishing _ | .stoppingDispatcher | .ended => false
  | _ => true

/-- It is in the two awaits of `_start_connect_attempt` up to the connection. -/
def SupervisorPc.attempting : SupervisorPc → Bool
  | .announcing | .connecting => true
  | _ => false

/-- It waits for its first step or for an `asyncio.Event`: a cancellation gets through. -/
def SupervisorPc.waits : SupervisorPc → Bool
  | .created | .parked => true
  | _ => false

/-- A supervisor, and whether its task was cancelled since it last went on. -/
structure ClientSupervisor where
  pc : SupervisorPc := .created
  cancelRequested : Bool := false
  deriving DecidableEq, Repr

namespace ClientSupervisor
variable (v : ClientSupervisor)

/-- It can only leave. -/
def doomed : Bool := v.cancelRequested && v.pc.waits

def attempts : Bool := v.pc.looping && !v.doomed

/-- Nothing is left of it but events and the dispatcher; or it was cancelled before its first step, and never takes it. -/
def finished : Bool :=
  match v.pc with
  | .publishing _ | .stoppingDispatcher | .ended => true
  | .created => v.cancelRequested
  | _ => false

def admits (event : Bool) : Outcome → Bool
  | .returned => !v.doomed && (v.pc != .parked || event)
  | .raised => !v.pc.waits
  | .cancelled => v.cancelRequested || !v.pc.waits

end ClientSupervisor

/-! ## The client -/

/-- The client with the supervisors of its runs, oldest first. `cleanups` are the `_close_current_connection` calls of the stops
and of the startup rollbacks. -/
structure ClientSupervisions where
  runtime : ClientRuntime := {}
  supervisors : List ClientSupervisor := []
  cleanups : List Closing := []

inductive SupervisionsAct
  | start
  | supervise
  | beginStop
  | endStop
  | rollback
  | applyStopped
  | cancel (run : Nat)
  | cleanHeartbeat
  | beginCleanup
  | cleanupTurn (i : Nat) (outcome : Outcome)
  | close (n : Nat)
  | closeTurn (n : Nat) (outcome : Outcome)
  | heartbeatEnds
  | superviseTurn (run : Nat) (outcome : Outcome)
  deriving DecidableEq, Repr

namespace ClientSupervisions
variable (settings : TcpClientSettings) (s : ClientSupervisions)

/-- The second section of `start()`. -/
def supervise : Option ClientSupervisions :=
  if s.runtime.lifecycle = .starting then
    some { s with runtime := { s.runtime with lifecycle := .running }, supervisors := s.supervisors ++ [{}] }
  else none

/-- `_plan_stop`: `_stop_waiter` is set. -/
def beginStop : ClientSupervisions :=
  { s with
    runtime := { s.runtime with
      lifecycle := if s.runtime.running then .stopping else s.runtime.lifecycle
      stopInProgress := true } }

/-- `_close_current_connection` of a stop or a rollback up to its first await. -/
def beginCleanup : ClientSupervisions :=
  let (runtime, closing) := s.runtime.beginClosing
  let (runtime, closing) := runtime.closeNext closing
  { s with runtime, cleanups := s.cleanups ++ closing.toList }

def cleanupTurn (i : Nat) (outcome : Outcome) : Option ClientSupervisions :=
  s.cleanups[i]?.map fun closing =>
    if outcome = .returned then
      let (runtime, closing) := s.runtime.closeNext { closing with targets := closing.targets.tail }
      { s with runtime, cleanups := s.cleanups.eraseIdx i ++ closing.toList }
    else { s with runtime := s.runtime.endClosing closing, cleanups := s.cleanups.eraseIdx i }

/-- The supervisor of the run `run` goes on. -/
def superviseTurn (run : Nat) (outcome : Outcome) : Option ClientSupervisions :=
  match s.supervisors[run]? with
  | none => none
  | some v =>
    if v.pc ≠ .ended ∧ v.admits s.runtime.connectionClosedEvent outcome = true then
      let (runtime, pc) := s.runtime.supervisorTurn settings run v.pc outcome
      some { s with runtime, supervisors := s.supervisors.set run { pc } }
    else none

def step : SupervisionsAct → Option ClientSupervisions
  | .start =>
    if s.runtime.lifecycle = .stopped then some { s with runtime := { s.runtime with lifecycle := .starting } } else none
  | .supervise => s.supervise
  | .beginStop => some s.beginStop
  | .endStop => some { s with runtime := { s.runtime with stopInProgress := false } }
  | .rollback =>
    if s.runtime.running then some { s with runtime := { s.runtime with lifecycle := .stopped } } else none
  | .applyStopped =>
    if s.runtime.lifecycle = .stopping then some { s with runtime := { s.runtime with lifecycle := .stopped } } else none
  | .cancel run =>
    some { s with supervisors := s.supervisors.modify run fun v => { v with cancelRequested := true } }
  | .cleanHeartbeat => some { s with runtime := s.runtime.stopHeartbeatSender.1 }
  | .beginCleanup => some s.beginCleanup
  | .cleanupTurn i outcome => s.cleanupTurn i outcome
  | .close n => if n < s.runtime.nextConnection then some { s with runtime := s.runtime.requestClose n } else none
  | .closeTurn n outcome => (s.runtime.closeTurn n outcome).map fun runtime => { s with runtime }
  | .heartbeatEnds =>
    s.runtime.heartbeatSender.map fun sender =>
      { s with runtime := { s.runtime with heartbeatSender := some { sender with running := false } } }
  | .superviseTurn run outcome => s.superviseTurn settings run outcome

/-! ## What the client promises -/

/-- The run was not stopped. -/
def Current (run : Nat) : Prop := run + 1 = s.supervisors.length ∧ s.runtime.lifecycle = .running

/-- What a segment of the supervisor of `run`, from `s` to `t`, keeps its hands off: once its run was stopped it starts no
attempt and attaches no connection, and it closes no connection or heartbeat sender of a later run and does not change the
lifecycle state of one. -/
structure KeepsToRun (t : ClientSupervisions) (run : Nat) : Prop where
  attempts : ∀ v, t.supervisors[run]? = some v → v.pc.attempting = true → s.Current run
  attaches : ∀ n, t.runtime.connection = some n → s.runtime.connection = some n ∨ s.Current run
  connections : ∀ n < s.runtime.nextConnection, run < (s.runtime.connections n).run →
    t.runtime.connections n = s.runtime.connections n ∧ (s.runtime.connection = some n → t.runtime.connection = some n)
  heartbeat : ∀ y, s.runtime.heartbeatSender = some y → run < y.run → t.runtime.heartbeatSender = some y
  lifecycle : t.runtime.lifecycle = s.runtime.lifecycle ∨ run + 1 = s.supervisors.length ∧ s.runtime.lifecycle ≠ .starting

/-- At most one supervisor may start another attempt, and whatever a supervisor does next, it keeps to its run. -/
structure Single : Prop where
  one : ∀ (i j : Nat) (v w : ClientSupervisor), s.supervisors[i]? = some v → s.supervisors[j]? = some w →
    v.attempts = true → w.attempts = true → i = j
  keeps : ∀ run outcome t, s.step settings (.superviseTurn run outcome) = some t → s.KeepsToRun t run

/-- `start()` begins a new run only when every earlier supervisor is finished. -/
def OneAtATime : SupervisionsAct → Prop
  | .start => ∀ v ∈ s.supervisors, v.finished = true
  | _ => True

instance : ∀ a, Decidable (s.OneAtATime a)
  | .start => inferInstanceAs (Decidable (∀ v ∈ s.supervisors, v.finished = true))
  | .supervise | .beginStop | .endStop | .rollback | .applyStopped | .cancel _ | .cleanHeartbeat | .beginCleanup
  | .cleanupTurn _ _ | .close _ | .closeTurn _ _ | .heartbeatEnds | .superviseTurn _ _ => .isTrue trivial

end ClientSupervisions

def supervisionsMachine (settings : TcpClientSettings) : Runs.Machine ClientSupervisions SupervisionsAct where
  init s := s = {}
  step s a := s.step settings a

end Aionetx
