import Aionetx.Runs.Machine
import Aionetx.Runs.Trace
import Aionetx.Client.Runtime

/-!
# The reconnect events of the TCP client

The supervision of a client that is started and stopped any number of times, seen at the awaits around its reconnect
events: `_connect_once`, the wait for the disconnect and the teardown after a failure are one await each, whatever happens
in them.

* `TcpReconnectSettings`, `nextDelay` : `ReconnectBackoff`;
* `ReconnectRuns`, `ReconnectAct`, `ReconnectRuns.step` : the client, its supervisors and the log of the events emitted;
* `ReconnectRuns.Grammar` : the grammar of the log.
-/

namespace Aionetx

/-! ## The backoff -/

inductive ReconnectJitter
  | none | full | equal
  deriving DecidableEq, Repr

/-- `TcpReconnectSettings`, apart from `enabled`. The delays are floats in the code; nothing depends on their
arithmetic. -/
structure TcpReconnectSettings (F : Type) where
  initialDelaySeconds : F
  maxDelaySeconds : F
  backoffFactor : F
  jitter : ReconnectJitter := .none

section Backoff
variable {F : Type} [Zero F] [OfNat F 2] [Add F] [Sub F] [Mul F] [Div F]

/-- `random.uniform(a, b)`; `draw` is the `random()` it makes. -/
def uniform (a b draw : F) : F := a + (b - a) * draw

def applyJitter (reconnect : TcpReconnectSettings F) (delay draw : F) : F :=
  match reconnect.jitter with
  | .none => delay
  | .full => uniform 0 delay draw
  | .equal => delay / 2 + uniform 0 (delay / 2) draw

/-- `next_delay`: the delay, and the `_current_delay` after it. -/
def nextDelay [Min F] (reconnect : TcpReconnectSettings F) (currentDelay draw : F) : F × F :=
  (applyJitter reconnect currentDelay draw, min (currentDelay * reconnect.backoffFactor) reconnect.maxDelaySeconds)

end Backoff

/-! ## The events and the supervisors -/

variable {F : Type}

/-- The reconnect events, with the fields that supervision computes. -/
inductive ReconnectEvent (F : Type)
  | started (attempt : Nat)
  | failed (attempt : Nat) (nextDelaySeconds : Option F)
  | scheduled (attempt : Nat) (delaySeconds : F)
  deriving DecidableEq, Repr

/-- The log of a client: the reconnect events with the run whose supervisor emitted them, and the times at which a
running client was stopped. -/
inductive ReconnectEntry (F : Type)
  | emitted (run : Nat) (event : ReconnectEvent F)
  | stopped
  deriving DecidableEq, Repr

/-- `_ReconnectPlan`: the delay if a retry is scheduled. -/
abbrev ReconnectPlan (F : Type) := Option F

/-- Where a supervisor is suspended: `announcing`, `reportingError`, `reportingFailure` and `scheduling` are the `emit`
of the attempt, of the network error, of the failure and of the delay; `handling` is set if the failure handler is around
the latter. -/
inductive ReconnectPc (F : Type)
  | created
  | announcing
  | connecting
  | terminating
  | reportingError (plan : ReconnectPlan F)
  | reportingFailure (plan : ReconnectPlan F)
  | tearingDown (plan : ReconnectPlan F)
  | scheduling (handling : Bool)
  | sleeping
  | finalizing
  deriving DecidableEq, Repr

/-- A supervisor, and whether its task was cancelled since it last went on. -/
structure ReconnectSupervisor (F : Type) where
  pc : ReconnectPc F := .created
  cancelRequested : Bool := false
  deriving DecidableEq, Repr

/-- What the supervisors of a client share; `supervisors` has one for each run, oldest first. -/
structure ReconnectRuns (F : Type) where
  lifecycle : ComponentLifecycleState := .stopped
  attemptCounter : Nat := 0
  currentDelay : F
  supervisors : List (ReconnectSupervisor F) := []
  log : List (ReconnectEntry F) := []
  deriving DecidableEq, Repr

/-- The actions: `start` applies `STARTING`, `supervise` is the second section of `start()`, `stop` applies `STOPPING` or
`STOPPED` for `stop()` or a startup rollback, `terminate` does so for a supervisor that finalizes. -/
inductive ReconnectAct (F : Type)
  | start
  | supervise
  | stop (target : ComponentLifecycleState)
  | terminate (run : Nat)
  | cancel (run : Nat)
  | resume (run : Nat) (outcome : Outcome) (draw : F)
  deriving DecidableEq, Repr

/-! ## The methods of the supervisor -/

namespace ReconnectRuns
variable (settings : TcpClientSettings) (reconnect : TcpReconnectSettings F) (run : Nat) (s : ReconnectRuns F)

def running : Bool := s.lifecycle.active

/-- A reconnect event is handed to `emit`. -/
def emit (event : ReconnectEvent F) : ReconnectRuns F := { s with log := s.log ++ [.emitted run event] }

/-- `_sleep_until_next_reconnect` up to the `emit` of the delay. -/
def sleepUntilNextReconnect (handling : Bool) (plan : ReconnectPlan F) : ReconnectRuns F × ReconnectPc F :=
  match plan with
  | none => (s, .finalizing)
  | some delay =>
    if s.running && settings.reconnectEnabled then
      (s.emit run (.scheduled (s.attemptCounter + 1) delay), .scheduling handling)
    else (s, .finalizing)

def emitFailure (plan : ReconnectPlan F) : ReconnectRuns F × ReconnectPc F :=
  (s.emit run (.failed s.attemptCounter plan), .reportingFailure plan)

def shouldStopAfterFailure : Bool :=
  settings.resolveErrorPolicy = .failFast || !s.running || !settings.reconnectEnabled

/-- `_handle_connect_cycle_failure` once the resources are torn down. -/
def afterTeardown (plan : ReconnectPlan F) : ReconnectRuns F × ReconnectPc F :=
  if s.shouldStopAfterFailure settings then (s, .finalizing) else s.sleepUntilNextReconnect settings run true plan

/-- `while client._running` and `_start_connect_attempt` up to the `emit` of the attempt. -/
def startConnectAttempt : ReconnectRuns F × ReconnectPc F :=
  if s.running then
    let s := { s with attemptCounter := s.attemptCounter + 1 }
    (s.emit run (.started s.attemptCounter), .announcing)
  else (s, .finalizing)

variable [Zero F] [OfNat F 2] [Add F] [Sub F] [Mul F] [Div F] [Min F] (draw : F)

def planReconnect : ReconnectRuns F × ReconnectPlan F :=
  if !s.running || !settings.reconnectEnabled then (s, none)
  else
    let (delay, currentDelay) := nextDelay reconnect s.currentDelay draw
    ({ s with currentDelay }, some delay)

/-- `_handle_connect_cycle_failure`: the plan is made, and the first of the failure events is emitted. -/
def handleConnectCycleFailure : ReconnectRuns F × ReconnectPc F :=
  let (s, plan) := s.planReconnect settings reconnect draw
  if settings.resolveErrorPolicy = .ignore then s.emitFailure run plan else (s, .reportingError plan)

def scheduleReconnectAfterDisconnect : ReconnectRuns F × ReconnectPc F :=
  let (s, plan) := s.planReconnect settings reconnect draw
  s.sleepUntilNextReconnect settings run false plan

def turn : ReconnectPc F → Outcome → ReconnectRuns F × ReconnectPc F
  | _, .cancelled => (s, .finalizing)
  | .created, .returned => s.startConnectAttempt run
  | .announcing, .returned => if s.lifecycle = .running then (s, .connecting) else (s, .finalizing)
  | .connecting, .returned =>
    if s.running then ({ s with currentDelay := reconnect.initialDelaySeconds }, .terminating) else (s, .finalizing)
  | .announcing, .raised | .connecting, .raised | .scheduling false, .raised =>
    s.handleConnectCycleFailure settings reconnect run draw
  | .terminating, .returned => s.scheduleReconnectAfterDisconnect settings reconnect run draw
  | .reportingError plan, .returned => s.emitFailure run plan
  | .reportingFailure plan, .returned => (s, .tearingDown plan)
  | .tearingDown plan, .returned => s.afterTeardown settings run plan
  | .scheduling _, .returned =>
    if s.running && settings.reconnectEnabled then (s, .sleeping) else (s, .finalizing)
  | .sleeping, .returned =>
    if s.running && settings.reconnectEnabled then s.startConnectAttempt run else (s, .finalizing)
  -- an exception in the failure handler leaves `run`
  | _, _ => (s, .finalizing)

end ReconnectRuns

/-! ## The machine -/

def ReconnectPc.left : ReconnectPc F → Bool
  | .finalizing => true
  | _ => false

/-- The supervisor waits for its first step or for an `asyncio.Event`: a cancellation gets through. In its other awaits a
handler, a close or `wait_for` may swallow it. -/
def ReconnectPc.waits : ReconnectPc F → Bool
  | .created | .terminating => true
  | _ => false

/-- The supervisor awaits code that may raise. -/
def ReconnectPc.mayRaise : ReconnectPc F → Bool
  | .created | .terminating | .sleeping | .finalizing => false
  | _ => true

def ReconnectSupervisor.admits (v : ReconnectSupervisor F) : Outcome → Bool
  | .returned => !v.pc.left && !(v.cancelRequested && v.pc.waits)
  | .raised => v.pc.mayRaise
  | .cancelled => !v.pc.left && v.cancelRequested

namespace ReconnectRuns
variable (settings : TcpClientSettings) (reconnect : TcpReconnectSettings F) (s : ReconnectRuns F)

/-- `STOPPING` or `STOPPED` is applied; `noted` is whether the log says that a running client was stopped. -/
def applyStop (noted : Bool) (target : ComponentLifecycleState) : ReconnectRuns F :=
  { s with lifecycle := target, log := if noted && s.running then s.log ++ [.stopped] else s.log }

def start : Option (ReconnectRuns F) := if s.running then none else some { s with lifecycle := .starting }

/-- The second section of `start()`. -/
def supervise : Option (ReconnectRuns F) :=
  if s.lifecycle = .starting then
    some { s with lifecycle := .running, supervisors := s.supervisors ++ [{}] }
  else none

/-- The terminal transitions of a supervisor; they stop the client if the supervisor is not that of its run. -/
def terminate (run : Nat) : Option (ReconnectRuns F) :=
  if s.supervisors[run]?.any (·.pc.left) then
    some (s.applyStop (run + 1 < s.supervisors.length) .stopped)
  else none

/-- The task of a supervisor is cancelled: its run was stopped before. -/
def cancel (run : Nat) : Option (ReconnectRuns F) :=
  if s.lifecycle = .running ∧ run + 1 = s.supervisors.length then none
  else some { s with supervisors := s.supervisors.modify run fun v => { v with cancelRequested := true } }

variable [Zero F] [OfNat F 2] [Add F] [Sub F] [Mul F] [Div F] [Min F]

def resume (run : Nat) (outcome : Outcome) (draw : F) : Option (ReconnectRuns F) :=
  match s.supervisors[run]? with
  | none => none
  | some v =>
    if v.admits outcome then
      let (s, pc) := s.turn settings reconnect run draw v.pc outcome
      some { s with supervisors := s.supervisors.set run { pc } }
    else none

def step : ReconnectAct F → Option (ReconnectRuns F)
  | .start => s.start
  | .supervise => s.supervise
  | .stop target => if target.active then none else some (s.applyStop true target)
  | .terminate run => s.terminate run
  | .cancel run => s.cancel run
  | .resume run outcome draw => s.resume settings reconnect run outcome draw

end ReconnectRuns

def reconnectMachine [Zero F] [OfNat F 2] [Add F] [Sub F] [Mul F] [Div F] [Min F] (settings : TcpClientSettings)
    (reconnect : TcpReconnectSettings F) : Runs.Machine (ReconnectRuns F) (ReconnectAct F) where
  init s := s = { currentDelay := reconnect.initialDelaySeconds }
  step s a := s.step settings reconnect a

/-! ## The grammar of the log -/

namespace ReconnectEntry

def event? : ReconnectEntry F → Option (Nat × ReconnectEvent F)
  | .emitted run event => some (run, event)
  | .stopped => none

def attemptStarted? : ReconnectEntry F → Option Nat
  | .emitted _ (.started attempt) => some attempt
  | _ => none

def lastEvent (log : List (ReconnectEntry F)) : Option (Nat × ReconnectEvent F) := (log.filterMap event?).getLast?

/-- What an entry of the log demands of the entries `before` and `after` it.

* The first event of a run starts an attempt, and any other start of the run comes right after the delay scheduled for it.
* A failure is that of the attempt started right before it. If it carries a delay, the retry is scheduled with this delay
  next, unless the client is stopped first or the failure is the last entry and the supervisor is `underway`.
* A scheduled delay comes right after the start or the failure of the attempt before, and is the one the failure carried. -/
def Law (underway : Nat → Prop) (before : List (ReconnectEntry F)) (entry : ReconnectEntry F)
    (after : List (ReconnectEntry F)) : Prop :=
  match entry with
  | .stopped => True
  | .emitted run (.started n) =>
    (∀ event, .emitted run event ∉ before) ∨ ∃ delay, lastEvent before = some (run, .scheduled n delay)
  | .emitted run (.failed n plan) =>
    lastEvent before = some (run, .started n) ∧
      ∀ delay, plan = some delay →
        after.head? = some (.emitted run (.scheduled (n + 1) delay)) ∨
          (after.head? = some .stopped ∨ before.getLast? = some .stopped) ∨ after = [] ∧ underway run
  | .emitted run (.scheduled m delay) =>
    ∃ n, m = n + 1 ∧
      (lastEvent before = some (run, .started n) ∨ lastEvent before = some (run, .failed n (some delay)))

end ReconnectEntry

namespace ReconnectRuns
variable (s : ReconnectRuns F)

/-- The supervisor of the run is in its loop. -/
def Underway (run : Nat) : Prop := ∃ v, s.supervisors[run]? = some v ∧ v.pc.left = false

/-- The trace grammar of the reconnect events: the attempts are numbered consecutively from 1, and each entry of the log
obeys its law. -/
structure Grammar : Prop where
  numbered : s.log.filterMap ReconnectEntry.attemptStarted? = List.range' 1 s.attemptCounter
  lawful : Runs.Everywhere (ReconnectEntry.Law s.Underway) s.log

end ReconnectRuns

end Aionetx
