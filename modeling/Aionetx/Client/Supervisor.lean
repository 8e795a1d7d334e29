import Aionetx.Client.Runtime

/-!
# The supervisor of the TCP client

`TcpClientConnectionSupervisor.run` cut at its awaits: `SupervisorPc` names the await the supervisor is suspended in, and
`ClientRuntime.supervisorTurn` runs it from there to the next one, given how the await ended. The stretches in between
carry the names of the methods they are in.
-/

namespace Aionetx

/-- Where the supervisor is suspended.

* `announcing` : `emit` of the attempt; `connecting` : the connection opener; `opening n` : `emit_and_wait` of the opened
  event of the connection `n`; `settling n` : the deferred close publication after it;
* `abandoning n left cause` : the awaits, `left` of them, between a failed opening and the exception leaving
  `connect_once`; `discarding n` : the close of a connection that the client no longer wants;
* `parked` : `_await_connection_termination`; `scheduling handling` : `emit` of the reconnect delay, `handling` if the
  failure handler is around it; `sleeping` : the delay;
* `reporting left plan` : the failure events; `tearingHeartbeat plan`, `tearingDown closing plan` :
  `_teardown_after_failure`; `plan` is whether the reconnect was planned;
* `finalHeartbeat`, `finalClosing`, `publishing`, `stoppingDispatcher` : `_finalize_supervision`. -/
inductive SupervisorPc
  | created
  | announcing
  | connecting
  | opening (n : Nat)
  | settling (n : Nat)
  | abandoning (n left : Nat) (cause : Outcome)
  | discarding (n : Nat)
  | parked
  | scheduling (handling : Bool)
  | sleeping
  | reporting (left : Nat) (plan : Bool)
  | tearingHeartbeat (plan : Bool)
  | tearingDown (closing : Closing) (plan : Bool)
  | finalHeartbeat
  | finalClosing (closing : Closing)
  | publishing (events : List ComponentLifecycleChangedEvent)
  | stoppingDispatcher
  | ended
  deriving DecidableEq, Repr

namespace ClientRuntime
variable (settings : TcpClientSettings) (run : Nat) (c : ClientRuntime)

/-! ## Finalization -/

/-- `_stop_dispatcher`, up to the dispatcher's own `stop()`. -/
def stopDispatcher : ClientRuntime × SupervisorPc :=
  if c.stopInProgress then (c, .ended) else (c, .stoppingDispatcher)

/-- The events that are left to publish, then the dispatcher. -/
def publishTerminal (events : List ComponentLifecycleChangedEvent) : ClientRuntime × SupervisorPc :=
  match events with
  | [] => c.stopDispatcher
  | _ :: _ => (c, .publishing events)

def collectTerminalLifecycleEvents : ClientRuntime × List ComponentLifecycleChangedEvent :=
  let first := applyStoppingTransitionIfActive c.lifecycle
  let second := applyStoppedTransitionIfStopping first.1
  ({ c with lifecycle := second.1 }, first.2 ++ second.2)

/-- `_finalize_supervision` once the resources are shut down. -/
def publishTerminalLifecycleTransitions : ClientRuntime × SupervisorPc :=
  if c.stopInProgress then c.stopDispatcher
  else
    let (c, events) := c.collectTerminalLifecycleEvents
    c.publishTerminal events

/-- `_close_current_connection` in `_shutdown_active_resources`. -/
def finalClose (closing : Closing) : ClientRuntime × SupervisorPc :=
  match c.closeNext closing with
  | (c, some closing) => (c, .finalClosing closing)
  | (c, none) => c.publishTerminalLifecycleTransitions

def finalizeSupervision : ClientRuntime × SupervisorPc :=
  let (c, suspended) := c.stopHeartbeatSender
  if suspended then (c, .finalHeartbeat)
  else
    let (c, closing) := c.beginClosing
    c.finalClose closing

/-! ## Reconnecting and failing -/

/-- `_sleep_until_next_reconnect` of a plan. -/
def sleepUntilNextReconnect (handling plan : Bool) : ClientRuntime × SupervisorPc :=
  if plan && c.running && settings.reconnectEnabled then (c, .scheduling handling) else c.finalizeSupervision

/-- `_plan_reconnect`: whether a reconnect is scheduled. -/
def planReconnect : Bool := c.running && settings.reconnectEnabled

def scheduleReconnectAfterDisconnect : ClientRuntime × SupervisorPc :=
  c.sleepUntilNextReconnect settings false (c.planReconnect settings)

/-- `_handle_connect_cycle_failure` up to the failure events. -/
def handleConnectCycleFailure : ClientRuntime × SupervisorPc :=
  (c, .reporting (if settings.resolveErrorPolicy = .ignore then 1 else 2) (c.planReconnect settings))

/-- `_should_stop_after_failure`, and the plan. -/
def afterTeardown (plan : Bool) : ClientRuntime × SupervisorPc :=
  if settings.resolveErrorPolicy = .failFast ∨ c.running = false ∨ settings.reconnectEnabled = false then
    c.finalizeSupervision
  else c.sleepUntilNextReconnect settings true plan

/-- `_close_current_connection` in `_teardown_after_failure`. -/
def teardownClose (closing : Closing) (plan : Bool) : ClientRuntime × SupervisorPc :=
  match c.closeNext closing with
  | (c, some closing) => (c, .tearingDown closing plan)
  | (c, none) => c.afterTeardown settings plan

def teardownAfterFailure (plan : Bool) : ClientRuntime × SupervisorPc :=
  let (c, suspended) := c.stopHeartbeatSender
  if suspended then (c, .tearingHeartbeat plan)
  else
    let (c, closing) := c.beginClosing
    c.teardownClose settings closing plan

/-! ## One connect cycle -/

/-- `while client._running` in `run`. -/
def startConnectAttempt : ClientRuntime × SupervisorPc :=
  if c.running then (c, .announcing) else c.finalizeSupervision

/-- `_await_connection_termination` after its wait. -/
def connectionTerminated : ClientRuntime × SupervisorPc :=
  let c := { c with connectionClosedEvent := false }
  if c.connection.all fun n => (c.connections n).state = .closed then c.scheduleReconnectAfterDisconnect settings
  else if c.running then (c, .parked)
  else c.scheduleReconnectAfterDisconnect settings

/-- `_await_connection_termination`; a wait for an event that is set does not suspend. -/
def awaitConnectionTermination : ClientRuntime × SupervisorPc :=
  if c.running then
    if c.connectionClosedEvent then c.connectionTerminated settings else (c, .parked)
  else c.scheduleReconnectAfterDisconnect settings

/-- The end of `_start_connect_attempt`. -/
def attemptSucceeded : ClientRuntime × SupervisorPc :=
  if c.running then c.awaitConnectionTermination settings else c.finalizeSupervision

/-- `_connect_once` once `connect_once` has returned the connection `n`. -/
def connectedOnce (n : Nat) : ClientRuntime × SupervisorPc :=
  let c := { c with startingConnection := if c.startingConnection = some n then none else c.startingConnection }
  if c.connection = some n then
    if c.lifecycle = .running ∧ (c.connections n).state = .connected then
      (c.startHeartbeatSender settings run).attemptSucceeded settings
    else c.attemptSucceeded settings
  else if c.lifecycle ≠ .running ∨ (c.connections n).state = .closed then
    if (c.connections n).state = .closed then { c with connectionClosedEvent := true }.attemptSucceeded settings
    else (c.requestClose n, .discarding n)
  else
    let c := { c with connection := some n, connectionClosedEvent := false }
    (c.startHeartbeatSender settings run).attemptSucceeded settings

/-- The awaits after a failed opening: the deferred close publication, and `close()` in `start` and in `connect_once`. -/
def abandon (n left : Nat) (cause : Outcome) : ClientRuntime × SupervisorPc :=
  match left with
  | left + 1 => (if left < 2 then c.requestClose n else c, .abandoning n (left + 1) cause)
  | 0 => if cause = .cancelled then c.finalizeSupervision else c.handleConnectCycleFailure settings

def supervisorTurn : SupervisorPc → Outcome → ClientRuntime × SupervisorPc
  | .created, .cancelled => (c, .ended)
  | .created, _ => c.startConnectAttempt
  | .announcing, .returned => if c.lifecycle = .running then (c, .connecting) else c.finalizeSupervision
  | .announcing, .raised => c.handleConnectCycleFailure settings
  | .announcing, .cancelled => c.finalizeSupervision
  | .connecting, .returned => (c.openConnection run, .opening c.nextConnection)
  | .connecting, .raised => c.handleConnectCycleFailure settings
  | .connecting, .cancelled => c.finalizeSupervision
  | .opening n, .returned => (c, .settling n)
  | .opening n, cause => c.abandon settings n 3 cause
  | .settling n, .returned => c.connectedOnce settings run n
  | .settling n, cause => c.abandon settings n 2 cause
  | .abandoning n left cause, _ => c.abandon settings n (left - 1) cause
  | .discarding _, _ => { c with connectionClosedEvent := true }.attemptSucceeded settings
  | .parked, .returned => c.connectionTerminated settings
  | .parked, _ => c.finalizeSupervision
  | .scheduling _, .returned =>
    if c.running && settings.reconnectEnabled then (c, .sleeping) else c.finalizeSupervision
  | .scheduling false, .raised => c.handleConnectCycleFailure settings
  | .scheduling _, _ => c.finalizeSupervision
  | .sleeping, .returned =>
    if c.running && settings.reconnectEnabled then c.startConnectAttempt else c.finalizeSupervision
  | .sleeping, _ => c.finalizeSupervision
  | .reporting left plan, .returned =>
    if 1 < left then (c, .reporting (left - 1) plan) else c.teardownAfterFailure settings plan
  | .reporting _ _, _ => c.finalizeSupervision
  | .tearingHeartbeat plan, .returned =>
    let (c, closing) := c.beginClosing
    c.teardownClose settings closing plan
  | .tearingHeartbeat _, _ => c.finalizeSupervision
  | .tearingDown closing plan, .returned =>
    c.teardownClose settings { closing with targets := closing.targets.tail } plan
  | .tearingDown closing _, _ => (c.endClosing closing).finalizeSupervision
  | .finalHeartbeat, .returned =>
    let (c, closing) := c.beginClosing
    c.finalClose closing
  | .finalHeartbeat, _ => c.stopDispatcher
  | .finalClosing closing, .returned => c.finalClose { closing with targets := closing.targets.tail }
  | .finalClosing closing, _ => (c.endClosing closing).stopDispatcher
  | .publishing events, .returned => c.publishTerminal events.tail
  | .publishing _, _ => c.stopDispatcher
  | .stoppingDispatcher, _ | .ended, _ => (c, .ended)

/-! ## What a segment leaves alone -/

/-- The supervisor changes the lifecycle state to `STOPPED` at most, and `_stop_waiter` not at all; and it is not
suspended while it tracks a connection that is not attached yet. -/
structure Frame (c c' : ClientRuntime) : Prop where
  stopInProgress : c'.stopInProgress = c.stopInProgress
  lifecycle : c'.lifecycle = c.lifecycle ∨ c'.lifecycle = .stopped
  startingConnection : c.startingConnection = none → c'.startingConnection = none

variable {settings run c} {c' : ClientRuntime}

theorem Frame.refl : Frame c c := ⟨rfl, .inl rfl, id⟩

theorem Frame.trans {c'' : ClientRuntime} (h : Frame c c') (h' : Frame c' c'') : Frame c c'' :=
  ⟨h'.stopInProgress.trans h.stopInProgress, h'.lifecycle.elim (fun he => he ▸ h.lifecycle) .inr,
    h'.startingConnection ∘ h.startingConnection⟩

theorem Frame.after {c'' : ClientRuntime} (h' : Frame c' c'') (h : Frame c c') : Frame c c'' := h.trans h'

theorem frame_stopDispatcher : Frame c c.stopDispatcher.1 := by
  unfold stopDispatcher
  split <;> exact .refl

theorem frame_publishTerminal (events : List ComponentLifecycleChangedEvent) :
    Frame c (c.publishTerminal events).1 := by
  cases events with
  | nil => exact frame_stopDispatcher
  | cons e es => exact .refl

theorem frame_collectTerminalLifecycleEvents : Frame c c.collectTerminalLifecycleEvents.1 :=
  ⟨rfl, .inr (applyStopped_of_applyStopping _), id⟩

theorem frame_publishTerminalLifecycleTransitions : Frame c c.publishTerminalLifecycleTransitions.1 := by
  unfold publishTerminalLifecycleTransitions
  split
  · exact frame_stopDispatcher
  · exact frame_collectTerminalLifecycleEvents.trans (frame_publishTerminal _)

theorem frame_endClosing (closing : Closing) : Frame c (c.endClosing closing) := ⟨rfl, .inl rfl, id⟩

theorem closeNext_lifecycle (closing : Closing) : (c.closeNext closing).1.lifecycle = c.lifecycle := by
  unfold closeNext
  split <;> rfl

theorem frame_finalClose (closing : Closing) : Frame c (c.finalClose closing).1 := by
  unfold finalClose closeNext
  cases closing.targets with
  | nil => exact (frame_endClosing closing).trans frame_publishTerminalLifecycleTransitions
  | cons n ns => exact ⟨rfl, .inl rfl, id⟩

theorem frame_beginClosing : Frame c c.beginClosing.1 := ⟨rfl, .inl rfl, fun _ => rfl⟩

theorem frame_stopHeartbeatSender : Frame c c.stopHeartbeatSender.1 := ⟨rfl, .inl rfl, id⟩

theorem frame_finalizeSupervision : Frame c c.finalizeSupervision.1 := by
  unfold finalizeSupervision
  dsimp only
  split
  · exact frame_stopHeartbeatSender
  · exact frame_stopHeartbeatSender.trans (frame_beginClosing.trans (frame_finalClose _))

theorem frame_sleepUntilNextReconnect (handling plan : Bool) :
    Frame c (c.sleepUntilNextReconnect settings handling plan).1 := by
  unfold sleepUntilNextReconnect
  split
  · exact .refl
  · exact frame_finalizeSupervision

theorem frame_afterTeardown (plan : Bool) : Frame c (c.afterTeardown settings plan).1 := by
  unfold afterTeardown
  split
  · exact frame_finalizeSupervision
  · exact frame_sleepUntilNextReconnect true plan

theorem frame_teardownClose (closing : Closing) (plan : Bool) :
    Frame c (c.teardownClose settings closing plan).1 := by
  unfold teardownClose closeNext
  cases closing.targets with
  | nil => exact (frame_endClosing closing).trans (frame_afterTeardown plan)
  | cons n ns => exact ⟨rfl, .inl rfl, id⟩

theorem frame_teardownAfterFailure (plan : Bool) : Frame c (c.teardownAfterFailure settings plan).1 := by
  unfold teardownAfterFailure
  dsimp only
  split
  · exact frame_stopHeartbeatSender
  · exact frame_stopHeartbeatSender.trans (frame_beginClosing.trans (frame_teardownClose _ plan))

theorem frame_startConnectAttempt : Frame c c.startConnectAttempt.1 := by
  unfold startConnectAttempt
  split
  · exact .refl
  · exact frame_finalizeSupervision

theorem frame_connectionTerminated : Frame c (c.connectionTerminated settings).1 := by
  have hevent : Frame c { c with connectionClosedEvent := false } := ⟨rfl, .inl rfl, id⟩
  unfold connectionTerminated
  dsimp only
  split
  · exact hevent.trans (frame_sleepUntilNextReconnect false _)
  · split
    · exact hevent
    · exact hevent.trans (frame_sleepUntilNextReconnect false _)

theorem frame_attemptSucceeded : Frame c (c.attemptSucceeded settings).1 := by
  unfold attemptSucceeded awaitConnectionTermination
  split
  · split
    · exact frame_connectionTerminated
    · exact .refl
  · exact frame_finalizeSupervision

theorem frame_connectedOnce (n : Nat) : Frame c (c.connectedOnce settings run n).1 := by
  have hstart : c.startingConnection = none →
      (if c.startingConnection = some n then none else c.startingConnection) = none := fun h => by simp [h]
  unfold connectedOnce
  dsimp only
  split
  · split
    · exact frame_attemptSucceeded.after ⟨rfl, .inl rfl, hstart⟩
    · exact frame_attemptSucceeded.after ⟨rfl, .inl rfl, hstart⟩
  · split
    · split
      · exact frame_attemptSucceeded.after ⟨rfl, .inl rfl, hstart⟩
      · exact ⟨rfl, .inl rfl, hstart⟩
    · exact frame_attemptSucceeded.after ⟨rfl, .inl rfl, hstart⟩

theorem frame_abandon (settings : TcpClientSettings) (n left : Nat) (cause : Outcome) : Frame c (c.abandon settings n left cause).1 := by
  unfold abandon
  split
  · dsimp only
    split
    · exact ⟨rfl, .inl rfl, id⟩
    · exact .refl
  · split
    · exact frame_finalizeSupervision
    · exact .refl

theorem frame_openConnection : Frame c (c.openConnection run) := by
  unfold openConnection
  dsimp only
  split <;> exact ⟨rfl, .inl rfl, fun _ => rfl⟩

theorem frame_supervisorTurn (settings : TcpClientSettings) (run : Nat) (pc : SupervisorPc) (outcome : Outcome) :
    Frame c (c.supervisorTurn settings run pc outcome).1 := by
  cases pc with
  | created =>
    cases outcome with
    | cancelled => exact .refl
    | returned | raised => exact frame_startConnectAttempt
  | announcing =>
    cases outcome with
    | returned =>
      simp only [supervisorTurn]
      split
      · exact .refl
      · exact frame_finalizeSupervision
    | raised => exact .refl
    | cancelled => exact frame_finalizeSupervision
  | connecting =>
    cases outcome with
    | returned => exact frame_openConnection
    | raised => exact .refl
    | cancelled => exact frame_finalizeSupervision
  | opening n =>
    cases outcome with
    | returned => exact .refl
    | raised | cancelled => exact frame_abandon settings n 3 _
  | settling n =>
    cases outcome with
    | returned => exact frame_connectedOnce n
    | raised | cancelled => exact frame_abandon settings n 2 _
  | abandoning n left cause => exact frame_abandon settings n (left - 1) cause
  | discarding n => exact frame_attemptSucceeded.after (⟨rfl, .inl rfl, id⟩)
  | parked =>
    cases outcome with
    | returned => exact frame_connectionTerminated
    | raised | cancelled => exact frame_finalizeSupervision
  | scheduling handling =>
    cases outcome with
    | returned =>
      simp only [supervisorTurn]
      split
      · exact .refl
      · exact frame_finalizeSupervision
    | raised =>
      cases handling with
      | false => exact .refl
      | true => exact frame_finalizeSupervision
    | cancelled => cases handling <;> exact frame_finalizeSupervision
  | sleeping =>
    cases outcome with
    | returned =>
      simp only [supervisorTurn]
      split
      · exact frame_startConnectAttempt
      · exact frame_finalizeSupervision
    | raised | cancelled => exact frame_finalizeSupervision
  | reporting left plan =>
    cases outcome with
    | returned =>
      simp only [supervisorTurn]
      split
      · exact .refl
      · exact frame_teardownAfterFailure plan
    | raised | cancelled => exact frame_finalizeSupervision
  | tearingHeartbeat plan =>
    cases outcome with
    | returned => exact frame_beginClosing.trans (frame_teardownClose _ plan)
    | raised | cancelled => exact frame_finalizeSupervision
  | tearingDown closing plan =>
    cases outcome with
    | returned => exact frame_teardownClose _ plan
    | raised | cancelled => exact (frame_endClosing closing).trans frame_finalizeSupervision
  | finalHeartbeat =>
    cases outcome with
    | returned => exact frame_beginClosing.trans (frame_finalClose _)
    | raised | cancelled => exact frame_stopDispatcher
  | finalClosing closing =>
    cases outcome with
    | returned => exact frame_finalClose _
    | raised | cancelled => exact (frame_endClosing closing).trans frame_stopDispatcher
  | publishing events =>
    cases outcome with
    | returned => exact frame_publishTerminal _
    | raised | cancelled => exact frame_stopDispatcher
  | stoppingDispatcher | ended => exact .refl

end ClientRuntime

end Aionetx
