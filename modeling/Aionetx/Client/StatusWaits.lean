import Aionetx.Runs.StatusBoard
import Aionetx.Client.Attentive

/-!
# Waiting for the client to connect

`wait_until_connected` of any number of callers, and the reconnect delay of the supervisor. They share `_status_changed`, which each
of them clears before it waits.

* `ClientStatus`, `ClientStatus.poll` : what `wait_until_client_connected` reads, and what it finds there;
* `ClientSite`, `clientStatus` : the stretches of the client between two awaits that write the status, in any order, each with
  whether it calls `_notify_status_changed`;
* `ClientRuntime.Fades` : no connection comes up and the lifecycle state stays, `announces_poll` : everything else is notified;
* `clientWaits_of_reachable` : no caller stays behind, and none spins;
* `ClientSessions.between_of_scheduling` : where the supervisor begins a reconnect delay.
-/

namespace Aionetx

open Runs

structure ClientStatus where
  runtime : ClientRuntime := {}
  hasStarted : Bool := false
  lastConnectError : Option String := none

inductive ConnectedAnswer
  | connected (n : Nat)
  | stopped
  | failedToConnect (error : String)
  deriving DecidableEq, Repr

namespace ClientStatus
variable (settings : TcpClientSettings) (s : ClientStatus)

def connection : Option Nat := s.runtime.connection.filter fun n => (s.runtime.connections n).state ≠ .closed

/-- One pass of the loop of `wait_until_client_connected`. -/
def poll : Option ConnectedAnswer :=
  match s.connection.filter fun n => (s.runtime.connections n).state = .connected with
  | some n => some (.connected n)
  | none =>
    if s.runtime.lifecycle = .stopped ∧ s.hasStarted then some .stopped
    else
      s.lastConnectError.bind fun error =>
        if settings.reconnectEnabled = false ∨ s.runtime.lifecycle = .stopped then some (.failedToConnect error) else none

/-- `_apply_lifecycle_state`; the flag tells whether the transition is applied, which notifies. -/
def applyLifecycleState (target : ComponentLifecycleState) : ClientStatus × Bool :=
  match LifecycleTransition.of s.runtime.lifecycle target with
  | .applied _ => ({ s with runtime := { s.runtime with lifecycle := target } }, true)
  | .unchanged | .illegal => (s, false)

/-- The locked section of `start()`. -/
def startSection : ClientStatus × Bool :=
  if s.runtime.running then (s, false)
  else { s with lastConnectError := none, hasStarted := true }.applyLifecycleState .starting

/-- `_connect_once` after `connect_once` has returned the connection `n`, up to its next await. -/
def connectedOnce (n : Nat) : ClientStatus × Bool :=
  let c := { s.runtime with
    startingConnection := if s.runtime.startingConnection = some n then none else s.runtime.startingConnection }
  if c.connection = some n then ({ s with runtime := c }, false)
  else if c.lifecycle ≠ .running ∨ (c.connections n).state = .closed then
    if (c.connections n).state = .closed then ({ s with runtime := { c with connectionClosedEvent := true } }, true)
    else ({ s with runtime := c.requestClose n }, false)
  else ({ s with runtime := { c with connection := some n, connectionClosedEvent := false } }, true)

end ClientStatus

/-- The stretches of the client that write the status. `connectionReady` : `connect_once` up to the opened event;
`discarded` : the end of `_connect_once` for a connection that it has closed; `beginClosing`, `endClosing` :
`_close_current_connection` before its first await and its `finally` block. -/
inductive ClientSite
  | startSection
  | applyLifecycleState (target : ComponentLifecycleState)
  | startConnectAttempt
  | connectionReady (run : Nat)
  | connectedOnce (n : Nat)
  | discarded
  | captureFailureState (error : String)
  | requestClose (n : Nat)
  | closeTurn (n : Nat) (outcome : Outcome)
  | beginClosing
  | endClosing (closing : Closing)

/-- `_on_connection_closed` of the connection `n` notifies. -/
def ClientRuntime.closeNotifies (c : ClientRuntime) (n : Nat) (outcome : Outcome) : Bool :=
  (c.connections n).closeTask = some .teardown ∧ outcome = .returned ∧ c.connection = some n ∧ c.lifecycle ≠ .stopping

/-- The sites, in whatever order the tasks of the client reach them. -/
def clientStatus : Notifier ClientStatus ClientSite where
  init s := s = {}
  step s
    | .startSection => some s.startSection
    | .applyLifecycleState target => some (s.applyLifecycleState target)
    | .startConnectAttempt => some ({ s with lastConnectError := none }, true)
    | .connectionReady run =>
      some ({ s with runtime := s.runtime.openConnection run }, s.runtime.lifecycle = .running)
    | .connectedOnce n => if n < s.runtime.nextConnection then some (s.connectedOnce n) else none
    | .discarded => some ({ s with runtime := { s.runtime with connectionClosedEvent := true } }, true)
    | .captureFailureState error => some ({ s with lastConnectError := some error }, true)
    | .requestClose n =>
      if n < s.runtime.nextConnection then some ({ s with runtime := s.runtime.requestClose n }, false) else none
    | .closeTurn n outcome =>
      (s.runtime.closeTurn n outcome).map fun runtime => ({ s with runtime }, s.runtime.closeNotifies n outcome)
    | .beginClosing => some ({ s with runtime := s.runtime.beginClosing.1 }, false)
    | .endClosing closing => some ({ s with runtime := s.runtime.endClosing closing }, true)

/-- The callers of the event: `wait_until_connected`, and `_wait_for_reconnect_delay_or_stop`, which goes on after one wait. -/
inductive ClientWaiter
  | waitUntilConnected
  | reconnectDelay
  deriving DecidableEq, Repr

def clientWatch (settings : TcpClientSettings) : ClientWaiter → Watch ClientStatus ConnectedAnswer
  | .waitUntilConnected => { poll := ClientStatus.poll settings }
  | .reconnectDelay => { poll := fun _ => none, again := false }

/-! ## What is notified -/

namespace ClientRuntime
variable {c c' c'' : ClientRuntime} {n : Nat}

def Created (c : ClientRuntime) : Prop := ∀ n, c.connection = some n → n < c.nextConnection

/-- The lifecycle state stays, and no connection is attached or comes up. -/
structure Fades (c c' : ClientRuntime) : Prop where
  lifecycle : c'.lifecycle = c.lifecycle
  nextConnection : c'.nextConnection = c.nextConnection
  connection : c'.connection = c.connection ∨ c'.connection = none
  connected : ∀ n, (c'.connections n).state = .connected → (c.connections n).state = .connected

theorem Fades.trans (h : Fades c c') (h' : Fades c' c'') : Fades c c'' := by
  refine ⟨h'.lifecycle.trans h.lifecycle, h'.nextConnection.trans h.nextConnection, ?_,
    fun n hn => h.connected n (h'.connected n hn)⟩
  rcases h'.connection with hc | hc
  · rw [hc]
    exact h.connection
  · exact .inr hc

theorem Fades.created (h : Fades c c') (hc : c.Created) : c'.Created := by
  intro n hn
  rw [h.nextConnection]
  rcases h.connection with heq | heq
  · exact hc n (heq ▸ hn)
  · rw [heq] at hn
    cases hn

theorem fades_setConnection {x : ClientConnection} (hx : x.state = .connected → (c.connections n).state = .connected) :
    Fades c (c.setConnection n x) := by
  refine ⟨rfl, rfl, .inl rfl, fun m hm => ?_⟩
  by_cases hmn : m = n
  · subst hmn
    rw [setConnection_self] at hm
    exact hx hm
  · rwa [setConnection_of_ne c hmn] at hm

theorem fades_requestClose (n : Nat) : Fades c (c.requestClose n) := by
  refine fades_setConnection fun h => ?_
  unfold ClientConnection.requestClose at h
  split at h
  · exact h
  · exact h
  · cases h
  · exact h

theorem fades_runClosedCallback (n : Nat) : Fades c (c.runClosedCallback n) := by
  have hdetach : Fades c (c.onConnectionClosed n).stopHeartbeatSender.1 := by
    unfold onConnectionClosed
    split
    · exact ⟨rfl, rfl, .inr rfl, fun _ h => h⟩
    · exact ⟨rfl, rfl, .inl rfl, fun _ h => h⟩
  refine hdetach.trans (fades_setConnection fun h => ?_)
  unfold ClientConnection.afterCallback at h
  split at h
  · exact h
  · cases h

theorem fades_closeTurn {outcome : Outcome} (h : c.closeTurn n outcome = some c') : Fades c c' := by
  unfold closeTurn at h
  split at h
  · cases h
    exact fades_runClosedCallback n
  · obtain ⟨x, hx, rfl⟩ := Option.map_eq_some_iff.mp h
    obtain ⟨-, -, rfl | ⟨_, rfl, -⟩⟩ := ClientConnection.closeTurn_cases hx
    · exact fades_setConnection nofun
    · exact fades_setConnection id

end ClientRuntime

namespace ClientStatus
variable {settings : TcpClientSettings} {s s' : ClientStatus}

theorem poll_eq_none_iff : s.poll settings = none ↔
    (∀ n, s.runtime.connection = some n → (s.runtime.connections n).state ≠ .connected) ∧
    (s.runtime.lifecycle = .stopped → s.hasStarted = false) ∧
    (s.lastConnectError ≠ none → settings.reconnectEnabled = true ∧ s.runtime.lifecycle ≠ .stopped) := by
  have hconn : (s.connection.filter fun n => (s.runtime.connections n).state = .connected) = none ↔
      ∀ n, s.runtime.connection = some n → (s.runtime.connections n).state ≠ .connected := by
    unfold ClientStatus.connection
    cases s.runtime.connection with
    | none => simp
    | some n =>
      simp only [Option.filter_filter, Option.filter_eq_none_iff, Option.some.injEq, forall_eq']
      cases (s.runtime.connections n).state <;> simp
  unfold poll
  rw [← hconn]
  cases hc : s.connection.filter fun n => (s.runtime.connections n).state = .connected with
  | some n => simp
  | none =>
    simp only [true_and]
    split
    · next h => simp [h]
    · next h =>
      rw [not_and, Bool.not_eq_true] at h
      cases s.lastConnectError with
      | none => simpa using h
      | some error => simp +contextual [h]

theorem poll_of_fades {runtime : ClientRuntime} (h : s.runtime.Fades runtime) (hnone : s.poll settings = none) :
    { s with runtime := runtime }.poll settings = none := by
  obtain ⟨hconn, hstopped, herror⟩ := poll_eq_none_iff.mp hnone
  refine poll_eq_none_iff.mpr ⟨fun n hn hc => ?_, ?_, ?_⟩
  · rcases h.connection with heq | heq
    · exact hconn n (heq ▸ hn) (h.connected n hc)
    · dsimp only at hn
      rw [heq] at hn
      cases hn
  · dsimp only
    rw [h.lifecycle]
    exact hstopped
  · dsimp only
    rw [h.lifecycle]
    exact herror

theorem fst_of_not_told {target : ComponentLifecycleState} (h : s.applyLifecycleState target = (s', false)) : s' = s := by
  unfold applyLifecycleState at h
  split at h <;> cases h <;> rfl

end ClientStatus

open ClientStatus in
theorem clientStatus_keeps : clientStatus.Keeps fun s => s.runtime.Created where
  init := by
    rintro s rfl n hn
    cases hn
  step := by
    intro s a s' told h hs
    have happly : ∀ {s : ClientStatus} target, s.runtime.Created → (s.applyLifecycleState target).1.runtime.Created := by
      intro s target h
      unfold applyLifecycleState
      split <;> exact h
    cases a with
    | startSection =>
      have hs : s.startSection = (s', told) := Option.some.inj hs
      rw [show s' = s.startSection.1 by rw [hs]]
      unfold startSection
      split
      · exact h
      · exact happly _ h
    | applyLifecycleState target =>
      have hs : s.applyLifecycleState target = (s', told) := Option.some.inj hs
      rw [show s' = (s.applyLifecycleState target).1 by rw [hs]]
      exact happly _ h
    | startConnectAttempt | discarded | captureFailureState error =>
      cases hs
      exact h
    | connectionReady run =>
      cases hs
      show (s.runtime.openConnection run).Created
      unfold ClientRuntime.openConnection
      dsimp only
      split
      · intro n hn
        cases hn
        exact Nat.lt_succ_self _
      · intro n hn
        exact Nat.lt_succ_of_lt (h n hn)
    | connectedOnce n =>
      obtain ⟨hn, hs⟩ := Option.ite_none_right_eq_some.mp hs
      have hs : s.connectedOnce n = (s', told) := Option.some.inj hs
      rw [show s' = (s.connectedOnce n).1 by rw [hs]]
      unfold ClientStatus.connectedOnce
      dsimp only
      split
      · exact h
      · split
        · split
          · exact h
          · exact (ClientRuntime.fades_requestClose n).created h
        · intro m hm
          cases hm
          exact hn
    | requestClose n =>
      obtain ⟨-, hs⟩ := Option.ite_none_right_eq_some.mp hs
      cases hs
      exact (ClientRuntime.fades_requestClose n).created h
    | closeTurn n outcome =>
      obtain ⟨runtime, hrt, heq⟩ := Option.map_eq_some_iff.mp hs
      cases heq
      exact (ClientRuntime.fades_closeTurn hrt).created h
    | beginClosing =>
      cases hs
      exact h
    | endClosing closing =>
      cases hs
      intro n hn
      refine h n ?_
      unfold ClientRuntime.endClosing at hn
      dsimp only at hn
      split at hn
      · cases hn
      · exact hn

/-- An answer appears only where the client notifies. -/
theorem announces_poll (settings : TcpClientSettings) :
    clientStatus.Announces (fun s => s.runtime.Created) { poll := ClientStatus.poll settings } := by
  intro s a s' hcreated hs hnone
  replace hnone : s.poll settings = none := hnone
  show s'.poll settings = none
  cases a with
  | startSection =>
    have hs : s.startSection = (s', false) := Option.some.inj hs
    unfold ClientStatus.startSection at hs
    split at hs
    · cases hs
      exact hnone
    · next hrun =>
      -- `start()` during `STOPPING` raises after it has written the two flags
      have hl : s.runtime.lifecycle ≠ .stopped := by
        intro hl
        unfold ClientStatus.applyLifecycleState at hs
        rw [hl] at hs
        cases hs
      rw [ClientStatus.fst_of_not_told hs]
      exact ClientStatus.poll_eq_none_iff.mpr
        ⟨(ClientStatus.poll_eq_none_iff.mp hnone).1, fun h => absurd h hl, fun h => absurd rfl h⟩
  | applyLifecycleState target =>
    rw [ClientStatus.fst_of_not_told (Option.some.inj hs)]
    exact hnone
  | connectionReady run =>
    have hs : (_, _) = (s', false) := Option.some.inj hs
    obtain ⟨rfl, hl⟩ := Prod.mk.inj hs
    have hl : s.runtime.lifecycle ≠ .running := of_decide_eq_false hl
    obtain ⟨hconn, hrest⟩ := ClientStatus.poll_eq_none_iff.mp hnone
    unfold ClientRuntime.openConnection
    dsimp only
    rw [if_neg (show ¬ (s.runtime.setConnection _ _).lifecycle = .running from hl)]
    refine ClientStatus.poll_eq_none_iff.mpr ⟨fun n hn => ?_, hrest⟩
    -- the connection that is opened is not the attached one
    have hne : n ≠ s.runtime.nextConnection := Nat.ne_of_lt (hcreated n hn)
    show ((s.runtime.setConnection _ _).connections n).state ≠ .connected
    rw [ClientRuntime.setConnection_of_ne _ hne]
    exact hconn n hn
  | connectedOnce n =>
    obtain ⟨-, hs⟩ := Option.ite_none_right_eq_some.mp hs
    have hs : s.connectedOnce n = (s', false) := Option.some.inj hs
    unfold ClientStatus.connectedOnce at hs
    dsimp only at hs
    split at hs
    · cases hs
      exact ClientStatus.poll_of_fades ⟨rfl, rfl, .inl rfl, fun _ h => h⟩ hnone
    · split at hs
      · split at hs
        · cases hs
        · cases hs
          have hclear : s.runtime.Fades { s.runtime with
              startingConnection := if s.runtime.startingConnection = some n then none else s.runtime.startingConnection } :=
            ⟨rfl, rfl, .inl rfl, fun _ h => h⟩
          exact ClientStatus.poll_of_fades (hclear.trans (ClientRuntime.fades_requestClose n)) hnone
      · cases hs
  | requestClose n =>
    obtain ⟨-, hs⟩ := Option.ite_none_right_eq_some.mp hs
    cases hs
    exact ClientStatus.poll_of_fades (ClientRuntime.fades_requestClose n) hnone
  | closeTurn n outcome =>
    obtain ⟨runtime, hrt, heq⟩ := Option.map_eq_some_iff.mp hs
    obtain ⟨rfl, -⟩ := Prod.mk.inj heq
    exact ClientStatus.poll_of_fades (ClientRuntime.fades_closeTurn hrt) hnone
  | beginClosing =>
    cases hs
    exact ClientStatus.poll_of_fades ⟨rfl, rfl, .inl rfl, fun _ h => h⟩ hnone
  | startConnectAttempt | discarded | captureFailureState | endClosing => cases hs

/-! ## Every run -/

/-- A reconnect delay begins on a running client with reconnect enabled, which `_sleep_until_next_reconnect` checks, and
while no connection is attached. -/
def delayBetween (settings : TcpClientSettings) (b : StatusBoard ClientStatus ClientWaiter ConnectedAnswer) :
    BoardAct ClientSite ClientWaiter → Bool
  | .turn i => b.waiters[i]?.all fun x => x.kind != .reconnectDelay || x.pc != .polling ||
    b.status.runtime.running && settings.reconnectEnabled && b.status.runtime.connection.isNone
  | _ => true

section
variable {settings : TcpClientSettings} {b : StatusBoard ClientStatus ClientWaiter ConnectedAnswer}

theorem poll_of_between (hrun : b.status.runtime.running = true) (hre : settings.reconnectEnabled = true)
    (hconn : b.status.runtime.connection = none) : b.status.poll settings = none := by
  have hl : b.status.runtime.lifecycle ≠ .stopped := by
    intro hl
    unfold ClientRuntime.running at hrun
    rw [hl] at hrun
    cases hrun
  refine ClientStatus.poll_eq_none_iff.mpr ⟨fun n hn => ?_, fun h => absurd h hl, fun _ => ⟨hre, hl⟩⟩
  rw [hconn] at hn
  cases hn

/-- Whoever clears the event between two connections finds nobody to disturb, and a caller of `wait_until_connected` that
clears it has found nothing itself. -/
theorem courteous_of_delayBetween {a : BoardAct ClientSite ClientWaiter} (h : delayBetween settings b a) :
    StatusBoard.courteous (clientWatch settings) b a := by
  refine StatusBoard.courteous_of_listens fun i y ha hy hpc hl k => ?_
  have hnone : b.status.poll settings = none := by
    cases hk : y.kind with
    | waitUntilConnected =>
      have := StatusBoard.poll_of_listens hl
      rwa [hk] at this
    | reconnectDelay =>
      subst ha
      simp only [delayBetween, hy, Option.all_some, hk, hpc, bne_self_eq_false, Bool.false_or, Bool.and_eq_true,
        Option.isNone_iff_eq_none] at h
      exact poll_of_between h.1.1 h.1.2 h.2
  cases k with
  | waitUntilConnected => exact hnone
  | reconnectDelay => rfl

/-- The wait begins in the turn of the caller from Python 3.12 on; before that `wait_for` wraps it in a task, and then the
delays have to begin between two connections. -/
theorem clientWaits_of_reachable {eager : Bool} (h : (watching clientStatus (clientWatch settings) eager).Reachable
    (fun b a => eager = true ∨ delayBetween settings b a) b) :
    b.Prompt clientStatus (clientWatch settings) eager ∧ b.Thrifty := by
  have hannounces : ∀ k, clientStatus.Announces (fun s => s.runtime.Created) (clientWatch settings k) := by
    intro k
    cases k with
    | waitUntilConnected => exact announces_poll settings
    | reconnectDelay => exact fun _ _ _ _ _ _ => rfl
  have hcourteous := h.mono fun _ _ ho => ho.imp_right courteous_of_delayBetween
  exact ⟨StatusBoard.prompt_of_reachable clientStatus_keeps hannounces hcourteous, StatusBoard.thrifty_of_reachable h⟩

end

/-- The supervisor of a client that is not restarted begins its delays between two connections: its turn from `scheduling`
to `sleeping` leaves the client as it is. -/
theorem ClientSessions.between_of_scheduling {settings : TcpClientSettings} {s : ClientSessions}
    (h : (sessionMachine settings).Reachable Machine.Any s) {handling : Bool} (hpc : s.supervisor = some (.scheduling handling))
    (hrun : s.runtime.running = true) : s.runtime.connection = none := by
  have hk : s.Kept False := kept_of_reachable h False.elim
  have hbetween : s.runtime.lifecycle = .running → s.runtime.Between := fun hl => hk.held hl _ hpc
  cases hl : s.runtime.lifecycle with
  | running => exact (hbetween hl).1
  | starting => exact (hk.starting hl).1.1
  | stopping | stopped =>
    unfold ClientRuntime.running at hrun
    rw [hl] at hrun
    cases hrun

/-! ## A run -/

/-- On Python 3.11: a caller waits for a client that fails once and then connects while the wait is about to begin. -/
def connectedAfterRetry : List (BoardAct ClientSite ClientWaiter) :=
  [.join .waitUntilConnected, .turn 0, .turn 0, .change .startSection, .turn 0, .change (.applyLifecycleState .running), .turn 0,
    .turn 0, .change .startConnectAttempt, .change (.captureFailureState "refused"), .turn 0, .join .reconnectDelay, .turn 1,
    .turn 0, .turn 1, .timeout 1, .change .startConnectAttempt, .turn 0, .turn 0, .change (.connectionReady 1)]

theorem clientWaits_of_connectedAfterRetry :
    ∃ b : StatusBoard ClientStatus ClientWaiter ConnectedAnswer,
      (b.waiters.map Waiter.pc = [.starting, .polling] ∧ b.status.poll {} = some (.connected 0)) ∧
      (b.Prompt clientStatus (clientWatch {}) false ∧ b.Thrifty) := by
  have hrun : ∃ b : StatusBoard ClientStatus ClientWaiter ConnectedAnswer,
      (watching clientStatus (clientWatch {}) false).Reachable (fun b a => false = true ∨ delayBetween {} b a) b ∧
        decide (b.waiters.map Waiter.pc = [.starting, .polling] ∧ b.status.poll {} = some (.connected 0)) :=
    Machine.Reachable.exists_of_execOk (M := watching clientStatus (clientWatch {}) false) (s := { status := {} }) ⟨rfl, rfl⟩
      connectedAfterRetry _ (by decide +kernel)
  obtain ⟨b, hb, hp⟩ := hrun
  exact ⟨b, of_decide_eq_true hp, clientWaits_of_reachable hb⟩

end Aionetx
