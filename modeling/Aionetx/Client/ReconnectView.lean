import Aionetx.Client.SingleSupervision
import Aionetx.Client.Reconnects

/-!
# The supervisors, seen at their reconnect events

The client with all its awaits, and the client that only plans and announces its reconnects: whatever the supervisors of the one
do, the supervisors of the other can do.

* `SupervisorPc.SeenAs`, `ClientSupervisor.SeenAs`, `ClientSupervisions.SeenAs` : places, supervisors and states that look alike;
* `ReconnectRuns.Goes` : where a segment of the coarse supervisor ends, `ReconnectRuns.Stands` : it has got there;
* `ReconnectRuns.Follows` : it has got to where a segment of the other supervisor ends, `Paired.supervisorTurn` : it always can;
* `ClientSupervisions.Ordinary` : a supervisor is cancelled by a stop only, and its delay does not raise;
* `ClientSupervisions.seenAs_of_reachable` : each state of such a run is seen as one that the coarse client reaches.
-/

namespace Aionetx

open Runs

variable {F : Type}

/-! ## What looks alike -/

/-- The place of a supervisor among its reconnect events. -/
def SupervisorPc.SeenAs : SupervisorPc → ReconnectPc F → Prop
  | .created, pc => pc = .created
  | .announcing, pc => pc = .announcing
  | .connecting, pc | .opening _, pc | .settling _, pc | .abandoning _ _ _, pc | .discarding _, pc => pc = .connecting
  | .parked, pc => pc = .terminating
  | .scheduling handling, pc => pc = .scheduling handling
  | .sleeping, pc => pc = .sleeping
  | .reporting left plan, pc =>
    ∃ p : ReconnectPlan F, p.isSome = plan ∧ (left = 2 ∧ pc = .reportingError p ∨ left = 1 ∧ pc = .reportingFailure p)
  | .tearingHeartbeat plan, pc | .tearingDown _ plan, pc => ∃ p : ReconnectPlan F, p.isSome = plan ∧ pc = .tearingDown p
  | .finalHeartbeat, pc | .finalClosing _, pc | .publishing _, pc | .stoppingDispatcher, pc | .ended, pc => pc = .finalizing

theorem SupervisorPc.SeenAs.waits {pc : SupervisorPc} {q : ReconnectPc F} (h : pc.SeenAs q) : q.waits = pc.waits := by
  cases pc with
  | reporting left plan =>
    obtain ⟨p, -, ⟨-, rfl⟩ | ⟨-, rfl⟩⟩ := h <;> rfl
  | tearingHeartbeat plan | tearingDown closing plan =>
    obtain ⟨p, -, rfl⟩ := h
    rfl
  | _ => cases h; rfl

/-- The coarse supervisor has a cancellation that the other one has, or has swallowed, or has begun to leave for. -/
structure ClientSupervisor.SeenAs (v : ClientSupervisor) (w : ReconnectSupervisor F) : Prop where
  pc : v.pc.SeenAs w.pc
  cancelled : v.cancelRequested = true → w.cancelRequested = true
  waits : v.pc.waits = true → w.cancelRequested = true → v.cancelRequested = true
  abandons : ∀ n left, v.pc = .abandoning n left .cancelled → w.cancelRequested = true

/-- It does not wait, nor does it give an attempt up for a cancellation. -/
def SupervisorPc.plain : SupervisorPc → Bool
  | .abandoning _ _ cause => cause ≠ .cancelled
  | pc => !pc.waits

theorem SupervisorPc.waits_of_plain {pc : SupervisorPc} (h : pc.plain = true) : pc.waits = false := by
  cases pc <;> first | rfl | cases h

theorem SupervisorPc.ne_of_plain {pc : SupervisorPc} (h : pc.plain = true) (n left : Nat) :
    pc ≠ .abandoning n left .cancelled := by
  rintro rfl
  cases h

/-- There, nothing is to be known of a cancellation. -/
theorem ClientSupervisor.SeenAs.of_plain {pc : SupervisorPc} {w : ReconnectSupervisor F} (hpc : pc.SeenAs w.pc)
    (hplain : pc.plain = true) : ({ pc } : ClientSupervisor).SeenAs w where
  pc := hpc
  cancelled h := by cases h
  waits h := by cases (SupervisorPc.waits_of_plain hplain).symm.trans h
  abandons n left heq := absurd heq (SupervisorPc.ne_of_plain hplain n left)

/-- An await of the coarse supervisor returns, unless it waits and was cancelled. -/
theorem ReconnectSupervisor.admits_returned {w : ReconnectSupervisor F} (hleft : w.pc.left = false)
    (hwaits : w.cancelRequested = true → w.pc.waits = false) : w.admits .returned = true := by
  rw [admits, hleft]
  cases hcancel : w.cancelRequested with
  | false => rfl
  | true =>
    rw [hwaits hcancel]
    rfl

theorem ReconnectSupervisor.admits_cancelled {w : ReconnectSupervisor F} (hleft : w.pc.left = false)
    (hcancel : w.cancelRequested = true) : w.admits .cancelled = true := by
  rw [admits, hleft, hcancel]
  rfl

structure ClientSupervisions.SeenAs (s : ClientSupervisions) (t : ReconnectRuns F) : Prop where
  lifecycle : t.lifecycle = s.runtime.lifecycle
  length : t.supervisors.length = s.supervisors.length
  supervisors : ∀ (run : Nat) (v : ClientSupervisor), s.supervisors[run]? = some v →
    ∃ w : ReconnectSupervisor F, t.supervisors[run]? = some w ∧ v.SeenAs w

/-- A supervisor is cancelled when its run has been stopped, and an await of it is cancelled when it was; `asyncio.sleep` does not
raise. -/
def ClientSupervisions.Ordinary (s : ClientSupervisions) : SupervisionsAct → Prop
  | .cancel run => s.runtime.lifecycle = .running → run + 1 ≠ s.supervisors.length
  | .superviseTurn run .cancelled => ∀ v ∈ s.supervisors[run]?, v.cancelRequested = true
  | .superviseTurn run .raised => ∀ v ∈ s.supervisors[run]?, v.pc ≠ .sleeping
  | _ => True

namespace ReconnectRuns

/-! ## The segments of the coarse supervisor -/

/-- A segment leaves the lifecycle state and the supervisors alone, and ends at `pc`. -/
structure Goes (t : ReconnectRuns F) (r : ReconnectRuns F × ReconnectPc F) (pc : ReconnectPc F) : Prop where
  lifecycle : r.1.lifecycle = t.lifecycle
  supervisors : r.1.supervisors = t.supervisors
  pc : r.2 = pc

variable {settings : TcpClientSettings} {reconnect : TcpReconnectSettings F} {run : Nat} {t u : ReconnectRuns F}
  {plan : ReconnectPlan F} {pc : ReconnectPc F} {handling : Bool}

theorem goes_startConnectAttempt : Goes t (t.startConnectAttempt run) (if t.running then .announcing else .finalizing) := by
  unfold startConnectAttempt
  split <;> exact ⟨rfl, rfl, rfl⟩

theorem goes_sleepUntilNextReconnect : Goes t (t.sleepUntilNextReconnect settings run handling plan)
    (if plan.isSome && t.running && settings.reconnectEnabled then .scheduling handling else .finalizing) := by
  unfold sleepUntilNextReconnect
  cases plan with
  | none => exact ⟨rfl, rfl, rfl⟩
  | some delay =>
    simp only [Option.isSome_some, Bool.true_and]
    split <;> exact ⟨rfl, rfl, rfl⟩

theorem goes_afterTeardown : Goes t (t.afterTeardown settings run plan)
    (if t.shouldStopAfterFailure settings then .finalizing
    else if plan.isSome && t.running && settings.reconnectEnabled then .scheduling true else .finalizing) := by
  unfold afterTeardown
  split
  · exact ⟨rfl, rfl, rfl⟩
  · exact goes_sleepUntilNextReconnect

section Planning

variable [Zero F] [OfNat F 2] [Add F] [Sub F] [Mul F] [Div F] [Min F] {draw : F}

/-- A delay is planned for a running client that reconnects. -/
theorem planReconnect_eq (settings : TcpClientSettings) (reconnect : TcpReconnectSettings F) (t : ReconnectRuns F) (draw : F) :
    ∃ currentDelay plan, t.planReconnect settings reconnect draw = ({ t with currentDelay }, plan) ∧
      plan.isSome = (t.running && settings.reconnectEnabled) := by
  unfold planReconnect
  split
  · next hno =>
    refine ⟨t.currentDelay, none, rfl, ?_⟩
    cases hrunning : t.running <;> simp_all
  · next hno =>
    refine ⟨_, _, rfl, ?_⟩
    cases hrunning : t.running <;> simp_all

theorem goes_handleConnectCycleFailure (settings : TcpClientSettings) (reconnect : TcpReconnectSettings F) (run : Nat)
    (t : ReconnectRuns F) (draw : F) : ∃ plan : ReconnectPlan F, plan.isSome = (t.running && settings.reconnectEnabled) ∧
      Goes t (t.handleConnectCycleFailure settings reconnect run draw)
        (if settings.resolveErrorPolicy = .ignore then .reportingFailure plan else .reportingError plan) := by
  obtain ⟨currentDelay, plan, heq, hplan⟩ := planReconnect_eq settings reconnect t draw
  refine ⟨plan, hplan, ?_⟩
  unfold handleConnectCycleFailure
  rw [heq]
  dsimp only
  split <;> exact ⟨rfl, rfl, rfl⟩

theorem goes_scheduleReconnectAfterDisconnect : Goes t (t.scheduleReconnectAfterDisconnect settings reconnect run draw)
    (if t.running && settings.reconnectEnabled then .scheduling false else .finalizing) := by
  obtain ⟨currentDelay, plan, heq, hplan⟩ := planReconnect_eq settings reconnect t draw
  unfold scheduleReconnectAfterDisconnect
  rw [heq]
  have hgoes : Goes { t with currentDelay } (sleepUntilNextReconnect settings run { t with currentDelay } false plan)
      (if plan.isSome && t.running && settings.reconnectEnabled then .scheduling false else .finalizing) :=
    goes_sleepUntilNextReconnect
  refine ⟨hgoes.lifecycle, hgoes.supervisors, hgoes.pc.trans ?_⟩
  rw [hplan]
  cases t.running <;> cases settings.reconnectEnabled <;> rfl

end Planning

/-! ## Where the coarse supervisor gets to -/

variable [Zero F] [OfNat F 2] [Add F] [Sub F] [Mul F] [Div F] [Min F] {w : ReconnectSupervisor F}

/-- The coarse client has got from `t` to `u`, where `w` is the supervisor of the run. -/
structure Stands (settings : TcpClientSettings) (reconnect : TcpReconnectSettings F) (run : Nat) (t : ReconnectRuns F)
    (lifecycle : ComponentLifecycleState) (w : ReconnectSupervisor F) (u : ReconnectRuns F) : Prop where
  reachable : (reconnectMachine settings reconnect).Reachable Machine.Any u
  lifecycle : u.lifecycle = lifecycle
  supervisors : u.supervisors = t.supervisors.set run w

/-- It has got to where a segment of the other supervisor ends. -/
def Follows (settings : TcpClientSettings) (reconnect : TcpReconnectSettings F) (run : Nat) (t : ReconnectRuns F)
    (r : ClientRuntime × SupervisorPc) : Prop :=
  ∃ w u, Stands settings reconnect run t r.1.lifecycle w u ∧ ({ pc := r.2 } : ClientSupervisor).SeenAs w

theorem stands_resume {outcome : Outcome} (h : (reconnectMachine settings reconnect).Reachable Machine.Any t)
    (hw : t.supervisors[run]? = some w) (hadmits : w.admits outcome = true)
    (hgoes : Goes t (t.turn settings reconnect run 0 w.pc outcome) pc) :
    ∃ u, Stands settings reconnect run t t.lifecycle { pc } u := by
  obtain ⟨hlifecycle, hsupervisors, hpc⟩ := hgoes
  refine ⟨{ (t.turn settings reconnect run 0 w.pc outcome).1 with supervisors := t.supervisors.set run { pc } }, ?_,
    hlifecycle, rfl⟩
  refine h.step (a := .resume run outcome 0) trivial ?_
  show t.resume settings reconnect run outcome 0 = _
  rw [resume, hw]
  dsimp only
  rw [if_pos hadmits]
  rw [← hpc, ← hsupervisors]

variable {lifecycle : ComponentLifecycleState}

theorem Stands.self (h : Stands settings reconnect run t lifecycle w u) (hrun : run < t.supervisors.length) :
    u.supervisors[run]? = some w := by
  rw [h.supervisors]
  exact List.getElem?_set_self hrun

theorem Stands.next {pc' : ReconnectPc F} (h : Stands settings reconnect run t lifecycle { pc } u)
    (hrun : run < t.supervisors.length) (outcome : Outcome)
    (hadmits : ({ pc } : ReconnectSupervisor F).admits outcome = true)
    (hgoes : Goes u (u.turn settings reconnect run 0 pc outcome) pc') :
    ∃ u', Stands settings reconnect run t lifecycle { pc := pc' } u' := by
  obtain ⟨u', hreachable, hlifecycle, hsupervisors⟩ := stands_resume h.reachable (h.self hrun) hadmits hgoes
  refine ⟨u', hreachable, hlifecycle.trans h.lifecycle, hsupervisors.trans ?_⟩
  rw [h.supervisors, List.set_set]

/-- A supervisor that has left its loop applies the terminal transitions. -/
theorem Stands.terminate (h : Stands settings reconnect run t lifecycle w u) (hpc : w.pc = .finalizing)
    (hrun : run < t.supervisors.length) : ∃ u', Stands settings reconnect run t .stopped w u' := by
  refine ⟨u.applyStop (run + 1 < u.supervisors.length) .stopped, ?_, rfl, h.supervisors⟩
  refine h.reachable.step (a := .terminate run) trivial ?_
  show u.terminate run = _
  have hleft : w.pc.left = true := by rw [hpc]; rfl
  rw [ReconnectRuns.terminate, h.self hrun, Option.any_some, if_pos hleft]

variable {c c' : ClientRuntime} {pc' : SupervisorPc}

theorem Stands.follows (h : Stands settings reconnect run t c.lifecycle w u) (hpc : pc'.SeenAs w.pc)
    (hwaits : pc'.waits = true → w.cancelRequested = false) (habandons : ∀ n left, pc' ≠ .abandoning n left .cancelled) :
    Follows settings reconnect run t (c, pc') :=
  ⟨w, u, h, hpc, fun h => (by cases h), fun hwait hcancel => (by cases (hwaits hwait).symm.trans hcancel),
    fun n left heq => absurd heq (habandons n left)⟩

theorem Stands.arrives (h : Stands settings reconnect run t c.lifecycle w u) (hpc : pc'.SeenAs w.pc) (hplain : pc'.plain = true) :
    Follows settings reconnect run t (c, pc') := ⟨w, u, h, .of_plain hpc hplain⟩

/-! ### Finalization -/

theorem follows_stopDispatcher (h : Stands settings reconnect run t c.lifecycle w u) (hpc : w.pc = .finalizing) :
    Follows settings reconnect run t c.stopDispatcher := by
  unfold ClientRuntime.stopDispatcher
  split <;> exact h.arrives hpc rfl

theorem follows_publishTerminal (h : Stands settings reconnect run t c.lifecycle w u) (hpc : w.pc = .finalizing)
    (events : List ComponentLifecycleChangedEvent) : Follows settings reconnect run t (c.publishTerminal events) := by
  cases events with
  | nil => exact follows_stopDispatcher h hpc
  | cons event events => exact h.arrives hpc rfl

theorem follows_publishTerminalLifecycleTransitions (hrun : run < t.supervisors.length)
    (h : Stands settings reconnect run t c.lifecycle w u) (hpc : w.pc = .finalizing) :
    Follows settings reconnect run t c.publishTerminalLifecycleTransitions := by
  unfold ClientRuntime.publishTerminalLifecycleTransitions
  split
  · exact follows_stopDispatcher h hpc
  · obtain ⟨u', hu'⟩ := h.terminate hpc hrun
    have hstopped : c.collectTerminalLifecycleEvents.1.lifecycle = .stopped := applyStopped_of_applyStopping _
    exact follows_publishTerminal (c := c.collectTerminalLifecycleEvents.1) (hstopped ▸ hu') hpc _

theorem follows_finalClose (hrun : run < t.supervisors.length) (h : Stands settings reconnect run t c.lifecycle w u)
    (hpc : w.pc = .finalizing) (closing : Closing) : Follows settings reconnect run t (c.finalClose closing) := by
  have hshed := ClientRuntime.shed_closeNext c closing
  unfold ClientRuntime.finalClose
  generalize c.closeNext closing = next at hshed
  obtain ⟨c', left⟩ := next
  have h' : Stands settings reconnect run t c'.lifecycle w u := hshed.lifecycle ▸ h
  cases left with
  | none => exact follows_publishTerminalLifecycleTransitions hrun h' hpc
  | some left => exact h'.arrives hpc rfl

theorem follows_finalizeSupervision (hrun : run < t.supervisors.length)
    (h : Stands settings reconnect run t c.lifecycle { pc := .finalizing } u) :
    Follows settings reconnect run t c.finalizeSupervision := by
  unfold ClientRuntime.finalizeSupervision
  dsimp only
  split
  · exact Stands.arrives (c := c.stopHeartbeatSender.1) h rfl rfl
  · exact follows_finalClose hrun (c := c.stopHeartbeatSender.1.beginClosing.1) h rfl _

/-! ### The loop -/

theorem Stands.running_eq (h : Stands settings reconnect run t c.lifecycle w u) : u.running = c.running := by
  rw [ReconnectRuns.running, h.lifecycle]
  rfl

theorem follows_sleepUntilNextReconnect (hrun : run < t.supervisors.length) {plan handling : Bool}
    (h : Stands settings reconnect run t c.lifecycle
      { pc := if plan && c.running && settings.reconnectEnabled then .scheduling handling else .finalizing } u) :
    Follows settings reconnect run t (c.sleepUntilNextReconnect settings handling plan) := by
  unfold ClientRuntime.sleepUntilNextReconnect
  split
  · next hgo =>
    rw [if_pos hgo] at h
    exact h.arrives rfl rfl
  · next hgo =>
    rw [if_neg hgo] at h
    exact follows_finalizeSupervision hrun h

/-- The resources are torn down after a failure, and the coarse supervisor has gone on. -/
theorem follows_afterTeardown (hrun : run < t.supervisors.length)
    (h : Stands settings reconnect run t c.lifecycle
      { pc := if settings.resolveErrorPolicy = .failFast || !c.running || !settings.reconnectEnabled then .finalizing
        else if plan.isSome && c.running && settings.reconnectEnabled then .scheduling true else .finalizing } u) :
    Follows settings reconnect run t (c.afterTeardown settings plan.isSome) := by
  unfold ClientRuntime.afterTeardown
  split
  · next hstop =>
    rw [if_pos (by simpa [or_assoc] using hstop)] at h
    exact follows_finalizeSupervision hrun h
  · next hstop =>
    rw [if_neg (by simpa [or_assoc] using hstop)] at h
    exact follows_sleepUntilNextReconnect hrun h

theorem follows_teardownClose {plan : Bool} (closing : Closing)
    (hcloses : ∀ (c' : ClientRuntime) closing, c'.lifecycle = c.lifecycle →
      Follows settings reconnect run t (c', .tearingDown closing plan))
    (hgoes : ∀ c' : ClientRuntime, c'.lifecycle = c.lifecycle →
      Follows settings reconnect run t (c'.afterTeardown settings plan)) :
    Follows settings reconnect run t (c.teardownClose settings closing plan) := by
  have hshed := ClientRuntime.shed_closeNext c closing
  unfold ClientRuntime.teardownClose
  generalize c.closeNext closing = next at hshed
  obtain ⟨c', left⟩ := next
  cases left with
  | none => exact hgoes c' hshed.lifecycle
  | some left => exact hcloses c' left hshed.lifecycle

theorem follows_teardownAfterFailure (hrun : run < t.supervisors.length)
    (h : Stands settings reconnect run t c.lifecycle { pc := .tearingDown plan } u) :
    Follows settings reconnect run t (c.teardownAfterFailure settings plan.isSome) := by
  obtain ⟨u', hu'⟩ := h.next hrun .returned rfl goes_afterTeardown
  rw [shouldStopAfterFailure, h.running_eq] at hu'
  unfold ClientRuntime.teardownAfterFailure
  dsimp only
  split
  · exact Stands.arrives (c := c.stopHeartbeatSender.1) h ⟨plan, rfl, rfl⟩ rfl
  · refine follows_teardownClose (c := c.stopHeartbeatSender.1.beginClosing.1) _ (fun c' closing hc => ?_) fun c' hc => ?_
    · exact Stands.arrives (hc ▸ h) ⟨plan, rfl, rfl⟩ rfl
    · refine follows_afterTeardown hrun (u := u') ?_
      rw [ClientRuntime.running, hc]
      exact hu'

theorem follows_startConnectAttempt (hrun : run < t.supervisors.length)
    (h : Stands settings reconnect run t c.lifecycle { pc := if c.running then .announcing else .finalizing } u) :
    Follows settings reconnect run t c.startConnectAttempt := by
  unfold ClientRuntime.startConnectAttempt
  split
  · next hrunning =>
    rw [if_pos hrunning] at h
    exact h.arrives rfl rfl
  · next hrunning =>
    rw [if_neg hrunning] at h
    exact follows_finalizeSupervision hrun h

theorem follows_handleConnectCycleFailure
    (h : Stands settings reconnect run t c.lifecycle
      { pc := if settings.resolveErrorPolicy = .ignore then .reportingFailure plan else .reportingError plan } u)
    (hplan : plan.isSome = (c.running && settings.reconnectEnabled)) :
    Follows settings reconnect run t (c.handleConnectCycleFailure settings) := by
  have hseen : SupervisorPc.SeenAs
      (.reporting (if settings.resolveErrorPolicy = .ignore then 1 else 2) (c.planReconnect settings))
      (if settings.resolveErrorPolicy = .ignore then .reportingFailure plan else .reportingError plan) := by
    refine ⟨plan, hplan, ?_⟩
    split
    · exact .inr ⟨rfl, rfl⟩
    · exact .inl ⟨rfl, rfl⟩
  exact h.arrives hseen rfl

/-- A disconnect: the next delay is planned, or the client is not running any more. -/
theorem follows_scheduleReconnectAfterDisconnect (hrun : run < t.supervisors.length)
    (h : Stands settings reconnect run t c.lifecycle
      { pc := if c.running && settings.reconnectEnabled then .scheduling false else .finalizing } u) :
    Follows settings reconnect run t (c.scheduleReconnectAfterDisconnect settings) := by
  have hsame : (c.planReconnect settings && c.running && settings.reconnectEnabled) =
      (c.running && settings.reconnectEnabled) := by
    rw [ClientRuntime.planReconnect]
    cases c.running <;> cases settings.reconnectEnabled <;> rfl
  rw [← hsame] at h
  exact follows_sleepUntilNextReconnect hrun h

theorem follows_connectionTerminated (hrun : run < t.supervisors.length)
    (h : Stands settings reconnect run t c.lifecycle { pc := .terminating } u) :
    Follows settings reconnect run t (c.connectionTerminated settings) := by
  obtain ⟨u', hu'⟩ := h.next hrun .returned rfl goes_scheduleReconnectAfterDisconnect
  rw [h.running_eq] at hu'
  unfold ClientRuntime.connectionTerminated
  dsimp only
  split
  · exact follows_scheduleReconnectAfterDisconnect hrun (c := { c with connectionClosedEvent := false }) hu'
  · split
    · exact Stands.follows (c := { c with connectionClosedEvent := false }) h rfl (fun _ => rfl) nofun
    · exact follows_scheduleReconnectAfterDisconnect hrun (c := { c with connectionClosedEvent := false }) hu'

theorem follows_attemptSucceeded (hrun : run < t.supervisors.length)
    (h : Stands settings reconnect run t c.lifecycle { pc := if c.running then .terminating else .finalizing } u) :
    Follows settings reconnect run t (c.attemptSucceeded settings) := by
  unfold ClientRuntime.attemptSucceeded ClientRuntime.awaitConnectionTermination
  split
  · next hrunning =>
    rw [if_pos hrunning] at h
    split
    · exact follows_connectionTerminated hrun h
    · exact h.follows rfl (fun _ => rfl) nofun
  · next hrunning =>
    rw [if_neg hrunning] at h
    exact follows_finalizeSupervision hrun h

/-! ## The segments -/

/-- Nothing has happened that the coarse supervisor could see. -/
theorem follows_same (hreachable : (reconnectMachine settings reconnect).Reachable Machine.Any t)
    (hlifecycle : t.lifecycle = c.lifecycle) (hw : t.supervisors[run]? = some w)
    (hseen : ({ pc := pc' } : ClientSupervisor).SeenAs w) : Follows settings reconnect run t (c, pc') := by
  obtain ⟨hlt, rfl⟩ := List.getElem?_eq_some_iff.mp hw
  exact ⟨_, t, ⟨hreachable, hlifecycle, (List.set_getElem_self hlt).symm⟩, hseen⟩

section Turn

variable (hreachable : (reconnectMachine settings reconnect).Reachable Machine.Any t) (hlifecycle : t.lifecycle = c.lifecycle)
  (hw : t.supervisors[run]? = some w)
include hreachable hlifecycle hw

/-- The connection is opened, and the client goes on if it is still running. -/
theorem follows_connected (hpc : w.pc = .connecting) (hc : c'.lifecycle = c.lifecycle) :
    Follows settings reconnect run t (c'.attemptSucceeded settings) := by
  have hgoes : Goes t (t.turn settings reconnect run 0 w.pc .returned) (if t.running then .terminating else .finalizing) := by
    rw [hpc, turn]
    split <;> exact ⟨rfl, rfl, rfl⟩
  obtain ⟨u, hu⟩ := stands_resume hreachable hw (ReconnectSupervisor.admits_returned (hpc ▸ rfl) fun _ => hpc ▸ rfl) hgoes
  have hrunning : t.running = c'.running := by
    rw [ReconnectRuns.running, hlifecycle, ← hc]
    rfl
  rw [hlifecycle, ← hc, hrunning] at hu
  exact follows_attemptSucceeded (List.getElem?_eq_some_iff.mp hw).1 hu

theorem follows_connectedOnce (n : Nat) (hpc : w.pc = .connecting) :
    Follows settings reconnect run t (c.connectedOnce settings run n) := by
  unfold ClientRuntime.connectedOnce
  dsimp only
  split
  · split <;> exact follows_connected hreachable hlifecycle hw hpc rfl
  · split
    · split
      · exact follows_connected hreachable hlifecycle hw hpc rfl
      · exact follows_same hreachable hlifecycle hw (.of_plain hpc rfl)
    · exact follows_connected hreachable hlifecycle hw hpc rfl

theorem follows_failure (hraised : t.turn settings reconnect run 0 w.pc .raised =
      t.handleConnectCycleFailure settings reconnect run 0) (hmay : w.admits .raised = true) :
    Follows settings reconnect run t (c.handleConnectCycleFailure settings) := by
  obtain ⟨plan, hplan, hgoes⟩ := goes_handleConnectCycleFailure settings reconnect run t 0
  obtain ⟨u, hu⟩ := stands_resume hreachable hw hmay (hraised ▸ hgoes)
  rw [hlifecycle] at hu
  refine follows_handleConnectCycleFailure hu (hplan.trans ?_)
  rw [ReconnectRuns.running, hlifecycle]
  rfl

theorem follows_leave (outcome : Outcome) (hadmits : w.admits outcome = true)
    (hturn : t.turn settings reconnect run 0 w.pc outcome = (t, .finalizing)) (hc : c'.lifecycle = c.lifecycle) :
    Follows settings reconnect run t c'.finalizeSupervision := by
  have hgoes : Goes t (t.turn settings reconnect run 0 w.pc outcome) .finalizing := by
    rw [hturn]
    exact ⟨rfl, rfl, rfl⟩
  obtain ⟨u, hu⟩ := stands_resume hreachable hw hadmits hgoes
  rw [hlifecycle, ← hc] at hu
  exact follows_finalizeSupervision (List.getElem?_eq_some_iff.mp hw).1 hu

/-- The attempt is given up, after the awaits that are left. -/
theorem follows_abandon (n left : Nat) (cause : Outcome) (hpc : w.pc = .connecting)
    (hcancelled : cause = .cancelled → w.cancelRequested = true) :
    Follows settings reconnect run t (c.abandon settings n left cause) := by
  unfold ClientRuntime.abandon
  split
  · have hseen : ∀ left, ({ pc := .abandoning n left cause } : ClientSupervisor).SeenAs w := fun left =>
      ⟨hpc, nofun, nofun, fun _ _ heq => hcancelled (by cases heq; rfl)⟩
    split
    · exact follows_same hreachable hlifecycle hw (hseen _)
    · exact follows_same hreachable hlifecycle hw (hseen _)
  · split
    · next hcause =>
      refine follows_leave hreachable hlifecycle hw .cancelled ?_ ?_ rfl
      · exact ReconnectSupervisor.admits_cancelled (hpc ▸ rfl) (hcancelled hcause)
      · rw [hpc]
        rfl
    · refine follows_failure hreachable hlifecycle hw ?_ ?_
      · rw [hpc]
        rfl
      · rw [ReconnectSupervisor.admits, hpc]
        rfl

end Turn

/-- A supervisor whose await ends, and the coarse one of its run. -/
structure Paired (settings : TcpClientSettings) (reconnect : TcpReconnectSettings F) (run : Nat) (t : ReconnectRuns F)
    (c : ClientRuntime) (v : ClientSupervisor) (w : ReconnectSupervisor F) (outcome : Outcome) : Prop where
  reachable : (reconnectMachine settings reconnect).Reachable Machine.Any t
  lifecycle : t.lifecycle = c.lifecycle
  supervisor : t.supervisors[run]? = some w
  seen : v.SeenAs w
  returned : outcome = .returned → v.doomed = false
  raised : outcome = .raised → v.pc.waits = false ∧ v.pc ≠ .sleeping
  cancelled : outcome = .cancelled → v.cancelRequested = true

namespace Paired
variable {v : ClientSupervisor} {outcome : Outcome} (h : Paired settings reconnect run t c v w outcome)
include h

theorem lt : run < t.supervisors.length := (List.getElem?_eq_some_iff.mp h.supervisor).1

theorem running : t.running = c.running := by
  rw [ReconnectRuns.running, h.lifecycle]
  rfl

theorem stands : Stands settings reconnect run t c.lifecycle w t := by
  obtain ⟨hlt, heq⟩ := List.getElem?_eq_some_iff.mp h.supervisor
  refine ⟨h.reachable, h.lifecycle, ?_⟩
  rw [← heq]
  exact (List.set_getElem_self hlt).symm

theorem stay (hc : c'.lifecycle = c.lifecycle) (hpc : pc'.SeenAs w.pc) (hplain : pc'.plain = true) :
    Follows settings reconnect run t (c', pc') :=
  follows_same h.reachable (h.lifecycle.trans hc.symm) h.supervisor (.of_plain hpc hplain)

/-- An await that returns is none that a cancellation gets through. -/
theorem waits (ho : outcome = .returned) (hcancel : w.cancelRequested = true) : w.pc.waits = false := by
  by_contra hwait
  have hwait' := h.seen.pc.waits.symm.trans (Bool.of_not_eq_false hwait)
  have hdoomed := h.returned ho
  rw [ClientSupervisor.doomed, hwait', h.seen.waits hwait' hcancel] at hdoomed
  cases hdoomed

/-- The coarse supervisor goes on as its await returns. -/
theorem goes {q : ReconnectPc F} (ho : outcome = .returned) (hleft : w.pc.left = false)
    (hgoes : Goes t (t.turn settings reconnect run 0 w.pc .returned) q) :
    ∃ u, Stands settings reconnect run t c.lifecycle { pc := q } u := by
  rw [← h.lifecycle]
  exact stands_resume h.reachable h.supervisor (ReconnectSupervisor.admits_returned hleft (h.waits ho)) hgoes

/-- It leaves its loop, cancelled or by an error. -/
theorem leaves (hc : c'.lifecycle = c.lifecycle) (hadmits : w.admits outcome = true)
    (hturn : t.turn settings reconnect run 0 w.pc outcome = (t, .finalizing)) :
    Follows settings reconnect run t c'.finalizeSupervision :=
  follows_leave h.reachable h.lifecycle h.supervisor outcome hadmits hturn hc

theorem leaves_cancelled (ho : outcome = .cancelled) (hc : c'.lifecycle = c.lifecycle) (hleft : w.pc.left = false) :
    Follows settings reconnect run t c'.finalizeSupervision := by
  refine h.leaves hc ?_ ?_
  · rw [ho]
    exact ReconnectSupervisor.admits_cancelled hleft (h.seen.cancelled (h.cancelled ho))
  · rw [ho]
    cases w.pc <;> rfl

theorem fails (ho : outcome = .raised) (hpc : w.pc = .announcing ∨ w.pc = .connecting ∨ w.pc = .scheduling false) :
    Follows settings reconnect run t (c.handleConnectCycleFailure settings) := by
  subst ho
  rcases hpc with hpc | hpc | hpc <;>
    exact follows_failure h.reachable h.lifecycle h.supervisor (hpc ▸ rfl) (by rw [ReconnectSupervisor.admits, hpc]; rfl)

theorem created (hpc : w.pc = .created) (hwaits : v.pc.waits = true) :
    Follows settings reconnect run t (c.supervisorTurn settings run .created outcome) := by
  cases outcome with
  | returned =>
    obtain ⟨u, hu⟩ := h.goes rfl (hpc ▸ rfl) (by rw [hpc]; exact goes_startConnectAttempt)
    rw [h.running] at hu
    exact follows_startConnectAttempt h.lt hu
  | raised => cases (h.raised rfl).1.symm.trans hwaits
  | cancelled =>
    obtain ⟨u, hu⟩ := stands_resume h.reachable h.supervisor
      (ReconnectSupervisor.admits_cancelled (hpc ▸ rfl) (h.seen.cancelled (h.cancelled rfl)))
      (by rw [hpc]; exact ⟨rfl, rfl, rfl⟩)
    rw [h.lifecycle] at hu
    exact hu.arrives rfl rfl

theorem announcing (hpc : w.pc = .announcing) :
    Follows settings reconnect run t (c.supervisorTurn settings run .announcing outcome) := by
  cases outcome with
  | returned =>
    simp only [ClientRuntime.supervisorTurn]
    split
    · next hlife =>
      obtain ⟨u, hu⟩ := h.goes rfl (hpc ▸ rfl)
        (by rw [hpc, turn, if_pos (h.lifecycle.trans hlife)]; exact ⟨rfl, rfl, rfl⟩)
      exact hu.arrives rfl rfl
    · next hlife =>
      obtain ⟨u, hu⟩ := h.goes rfl (hpc ▸ rfl)
        (by rw [hpc, turn, if_neg (h.lifecycle ▸ hlife)]; exact ⟨rfl, rfl, rfl⟩)
      exact follows_finalizeSupervision h.lt hu
  | raised => exact h.fails rfl (.inl hpc)
  | cancelled => exact h.leaves_cancelled rfl rfl (hpc ▸ rfl)

theorem connecting (hpc : w.pc = .connecting) :
    Follows settings reconnect run t (c.supervisorTurn settings run .connecting outcome) := by
  cases outcome with
  | returned =>
    refine h.stay ?_ hpc rfl
    unfold ClientRuntime.openConnection
    dsimp only
    split <;> rfl
  | raised => exact h.fails rfl (.inr (.inl hpc))
  | cancelled => exact h.leaves_cancelled rfl rfl (hpc ▸ rfl)

theorem abandons (n left : Nat) (hpc : w.pc = .connecting) :
    Follows settings reconnect run t (c.abandon settings n left outcome) :=
  follows_abandon h.reachable h.lifecycle h.supervisor n left outcome hpc fun ho => h.seen.cancelled (h.cancelled ho)

theorem parked (hpc : w.pc = .terminating) (hwaits : v.pc.waits = true) :
    Follows settings reconnect run t (c.supervisorTurn settings run .parked outcome) := by
  cases outcome with
  | returned =>
    have hcancel : w.cancelRequested = false := by
      by_contra hcancel
      cases (h.waits rfl (Bool.of_not_eq_false hcancel)).symm.trans (hpc ▸ rfl : w.pc.waits = true)
    have hstands := h.stands
    have hlt := h.lt
    obtain ⟨pc, cancelRequested⟩ := w
    obtain rfl : pc = .terminating := hpc
    obtain rfl : cancelRequested = false := hcancel
    exact follows_connectionTerminated hlt hstands
  | raised => cases (h.raised rfl).1.symm.trans hwaits
  | cancelled => exact h.leaves_cancelled rfl rfl (hpc ▸ rfl)

theorem scheduling (handling : Bool) (hpc : w.pc = .scheduling handling) :
    Follows settings reconnect run t (c.supervisorTurn settings run (.scheduling handling) outcome) := by
  cases outcome with
  | returned =>
    obtain ⟨u, hu⟩ := h.goes rfl (hpc ▸ rfl) (q := if c.running && settings.reconnectEnabled then .sleeping else .finalizing)
      (by rw [hpc, turn, h.running]; split <;> exact ⟨rfl, rfl, rfl⟩)
    simp only [ClientRuntime.supervisorTurn]
    split
    · next hgo =>
      rw [if_pos hgo] at hu
      exact hu.arrives rfl rfl
    · next hgo =>
      rw [if_neg hgo] at hu
      exact follows_finalizeSupervision h.lt hu
  | raised =>
    cases handling with
    | false => exact h.fails rfl (.inr (.inr hpc))
    | true => exact h.leaves rfl (by rw [ReconnectSupervisor.admits, hpc]; rfl) (hpc ▸ rfl)
  | cancelled => cases handling <;> exact h.leaves_cancelled rfl rfl (hpc ▸ rfl)

theorem sleeping (hpc : w.pc = .sleeping) (hv : v.pc = .sleeping) :
    Follows settings reconnect run t (c.supervisorTurn settings run .sleeping outcome) := by
  cases outcome with
  | returned =>
    simp only [ClientRuntime.supervisorTurn]
    split
    · next hgo =>
      obtain ⟨u, hu⟩ := h.goes rfl (hpc ▸ rfl) (by rw [hpc, turn, h.running, if_pos hgo]; exact goes_startConnectAttempt)
      rw [h.running] at hu
      exact follows_startConnectAttempt h.lt hu
    · next hgo =>
      obtain ⟨u, hu⟩ := h.goes rfl (hpc ▸ rfl) (by rw [hpc, turn, h.running, if_neg hgo]; exact ⟨rfl, rfl, rfl⟩)
      exact follows_finalizeSupervision h.lt hu
  | raised => exact absurd hv (h.raised rfl).2
  | cancelled => exact h.leaves_cancelled rfl rfl (hpc ▸ rfl)

/-- The error event and the failure event; then the resources are torn down. -/
theorem reporting {left : Nat} {p : ReconnectPlan F}
    (hpc : left = 2 ∧ w.pc = .reportingError p ∨ left = 1 ∧ w.pc = .reportingFailure p) :
    Follows settings reconnect run t (c.supervisorTurn settings run (.reporting left p.isSome) outcome) := by
  obtain ⟨rfl, hpc⟩ | ⟨rfl, hpc⟩ := hpc
  · cases outcome with
    | returned =>
      obtain ⟨u, hu⟩ := h.goes rfl (hpc ▸ rfl) (q := .reportingFailure p) (by rw [hpc]; exact ⟨rfl, rfl, rfl⟩)
      exact hu.arrives ⟨p, rfl, .inr ⟨rfl, rfl⟩⟩ rfl
    | raised => exact h.leaves rfl (by rw [ReconnectSupervisor.admits, hpc]; rfl) (hpc ▸ rfl)
    | cancelled => exact h.leaves_cancelled rfl rfl (hpc ▸ rfl)
  · cases outcome with
    | returned =>
      obtain ⟨u, hu⟩ := h.goes rfl (hpc ▸ rfl) (q := .tearingDown p) (by rw [hpc]; exact ⟨rfl, rfl, rfl⟩)
      exact follows_teardownAfterFailure h.lt hu
    | raised => exact h.leaves rfl (by rw [ReconnectSupervisor.admits, hpc]; rfl) (hpc ▸ rfl)
    | cancelled => exact h.leaves_cancelled rfl rfl (hpc ▸ rfl)

/-- The teardown after a failure goes on; the coarse supervisor only sees its end. -/
theorem teardownClose (c' : ClientRuntime) (hc : c'.lifecycle = c.lifecycle) (ho : outcome = .returned) {p : ReconnectPlan F}
    (hpc : w.pc = .tearingDown p) (closing : Closing) :
    Follows settings reconnect run t (c'.teardownClose settings closing p.isSome) := by
  refine follows_teardownClose closing (fun c'' closing hc' => ?_) fun c'' hc' => ?_
  · exact h.stay (hc'.trans hc) ⟨p, rfl, hpc⟩ rfl
  · obtain ⟨u, hu⟩ := h.goes ho (hpc ▸ rfl) (by rw [hpc]; exact goes_afterTeardown)
    refine follows_afterTeardown h.lt (u := u) ?_
    rw [ClientRuntime.running, hc'.trans hc, ← ClientRuntime.running, ← h.running]
    exact hu

theorem tearingDown (hc : c'.lifecycle = c.lifecycle) (ho : outcome ≠ .returned) {p : ReconnectPlan F}
    (hpc : w.pc = .tearingDown p) : Follows settings reconnect run t c'.finalizeSupervision := by
  cases outcome with
  | returned => exact absurd rfl ho
  | raised => exact h.leaves hc (by rw [ReconnectSupervisor.admits, hpc]; rfl) (hpc ▸ rfl)
  | cancelled => exact h.leaves_cancelled rfl hc (hpc ▸ rfl)

/-- Whatever a segment of a supervisor does, the coarse one can get to where it ends. -/
theorem supervisorTurn : Follows settings reconnect run t (c.supervisorTurn settings run v.pc outcome) := by
  have hpc := h.seen.pc
  cases hv : v.pc with
  | created =>
    rw [hv] at hpc
    exact h.created hpc (hv ▸ rfl)
  | announcing =>
    rw [hv] at hpc
    exact h.announcing hpc
  | connecting =>
    rw [hv] at hpc
    exact h.connecting hpc
  | opening n =>
    rw [hv] at hpc
    cases outcome with
    | returned => exact h.stay rfl hpc rfl
    | raised | cancelled => exact h.abandons n 3 hpc
  | settling n =>
    rw [hv] at hpc
    cases outcome with
    | returned => exact follows_connectedOnce h.reachable h.lifecycle h.supervisor n hpc
    | raised | cancelled => exact h.abandons n 2 hpc
  | abandoning n left cause =>
    have hwas : cause = .cancelled → w.cancelRequested = true := by
      rintro rfl
      exact h.seen.abandons n left hv
    rw [hv] at hpc
    exact follows_abandon h.reachable h.lifecycle h.supervisor n (left - 1) cause hpc hwas
  | discarding n =>
    rw [hv] at hpc
    exact follows_connected h.reachable h.lifecycle h.supervisor hpc rfl
  | parked =>
    rw [hv] at hpc
    exact h.parked hpc (hv ▸ rfl)
  | scheduling handling =>
    rw [hv] at hpc
    exact h.scheduling handling hpc
  | sleeping =>
    rw [hv] at hpc
    exact h.sleeping hpc hv
  | reporting left plan =>
    rw [hv] at hpc
    obtain ⟨p, rfl, hpc⟩ := hpc
    exact h.reporting hpc
  | tearingHeartbeat plan =>
    rw [hv] at hpc
    obtain ⟨p, rfl, hpc⟩ := hpc
    cases outcome with
    | returned => exact h.teardownClose c.beginClosing.1 rfl rfl hpc _
    | raised | cancelled => exact h.tearingDown rfl (by decide) hpc
  | tearingDown closing plan =>
    rw [hv] at hpc
    obtain ⟨p, rfl, hpc⟩ := hpc
    cases outcome with
    | returned => exact h.teardownClose c rfl rfl hpc _
    | raised | cancelled => exact h.tearingDown rfl (by decide) hpc
  | finalHeartbeat =>
    rw [hv] at hpc
    cases outcome with
    | returned => exact follows_finalClose h.lt (c := c.beginClosing.1) h.stands hpc _
    | raised | cancelled => exact follows_stopDispatcher h.stands hpc
  | finalClosing closing =>
    rw [hv] at hpc
    cases outcome with
    | returned => exact follows_finalClose h.lt h.stands hpc _
    | raised | cancelled => exact follows_stopDispatcher (c := c.endClosing closing) h.stands hpc
  | publishing events =>
    rw [hv] at hpc
    cases outcome with
    | returned => exact follows_publishTerminal h.stands hpc _
    | raised | cancelled => exact follows_stopDispatcher h.stands hpc
  | stoppingDispatcher | ended =>
    rw [hv] at hpc
    exact h.stands.arrives hpc rfl

end Paired

end ReconnectRuns

/-! ## Runs -/

namespace ClientSupervisions

variable {s s' : ClientSupervisions} {t : ReconnectRuns F}

theorem SeenAs.of_eq (h : s.SeenAs t) (hlifecycle : s'.runtime.lifecycle = s.runtime.lifecycle)
    (hsupervisors : s'.supervisors = s.supervisors) : s'.SeenAs t :=
  ⟨h.lifecycle.trans hlifecycle.symm, h.length.trans (congrArg List.length hsupervisors.symm), hsupervisors ▸ h.supervisors⟩

variable [Zero F] [OfNat F 2] [Add F] [Sub F] [Mul F] [Div F] [Min F] {settings : TcpClientSettings}
  {reconnect : TcpReconnectSettings F}

/-- The coarse client is reached, and the other one is seen as it. -/
def Matched (settings : TcpClientSettings) (reconnect : TcpReconnectSettings F) (s : ClientSupervisions) : Prop :=
  ∃ t : ReconnectRuns F, (reconnectMachine settings reconnect).Reachable Machine.Any t ∧ s.SeenAs t

theorem SeenAs.stop (h : s.SeenAs t) (hreachable : (reconnectMachine settings reconnect).Reachable Machine.Any t)
    (target : ComponentLifecycleState) (htarget : target.active = false) (hlifecycle : s'.runtime.lifecycle = target)
    (hsupervisors : s'.supervisors = s.supervisors) : s'.Matched settings reconnect := by
  refine ⟨t.applyStop true target, hreachable.step (a := .stop target) trivial ?_, hlifecycle.symm, ?_, ?_⟩
  · show (if target.active = true then none else _) = _
    rw [if_neg (by rw [htarget]; nofun)]
  · rw [hsupervisors]
    exact h.length
  · rw [hsupervisors]
    exact h.supervisors

theorem SeenAs.supervise (h : s.SeenAs t) (hreachable : (reconnectMachine settings reconnect).Reachable Machine.Any t)
    (hs : s.supervise = some s') : s'.Matched settings reconnect := by
  unfold ClientSupervisions.supervise at hs
  split at hs <;> cases hs
  next hstarting =>
  refine ⟨{ t with lifecycle := .running, supervisors := t.supervisors ++ [{}] },
    hreachable.step (a := .supervise) trivial ?_, rfl, ?_, fun run v hv => ?_⟩
  · show t.supervise = _
    rw [ReconnectRuns.supervise, if_pos (h.lifecycle.trans hstarting)]
  · simp [h.length]
  · by_cases hlt : run < s.supervisors.length
    · rw [List.getElem?_append_left hlt] at hv
      rw [List.getElem?_append_left (h.length ▸ hlt)]
      exact h.supervisors run v hv
    · rw [List.getElem?_append_right (Nat.le_of_not_lt hlt)] at hv
      rw [List.getElem?_append_right (h.length ▸ Nat.le_of_not_lt hlt), h.length]
      have hnew := List.mem_of_getElem? hv
      obtain rfl := List.mem_singleton.mp hnew
      have hindex : run - s.supervisors.length = 0 := by
        have hlt' := (List.getElem?_eq_some_iff.mp hv).1
        simpa using hlt'
      rw [hindex]
      exact ⟨{}, rfl, rfl, nofun, nofun, nofun⟩

/-- The task of a supervisor is cancelled: so is that of the coarse one. -/
theorem SeenAs.cancel (h : s.SeenAs t) (hreachable : (reconnectMachine settings reconnect).Reachable Machine.Any t) {run : Nat}
    (hok : s.Ordinary (.cancel run)) :
    ({ s with supervisors := s.supervisors.modify run fun v => { v with cancelRequested := true } } : ClientSupervisions).Matched
      settings reconnect := by
  refine ⟨{ t with supervisors := t.supervisors.modify run fun v => { v with cancelRequested := true } },
    hreachable.step (a := .cancel run) trivial ?_, h.lifecycle, ?_, fun i v hv => ?_⟩
  · show t.cancel run = _
    rw [ReconnectRuns.cancel, if_neg]
    rw [h.lifecycle, h.length]
    exact fun hlast => hok hlast.1 hlast.2
  · simp [h.length]
  · rw [List.getElem?_modify] at hv ⊢
    split at hv
    · next hi =>
      obtain ⟨v', hv', rfl⟩ := Option.map_eq_some_iff.mp hv
      obtain ⟨w, hw, hseen⟩ := h.supervisors i v' hv'
      refine ⟨{ w with cancelRequested := true }, ?_, hseen.pc, fun _ => rfl, fun _ _ => rfl, fun _ _ _ => rfl⟩
      rw [hw]
      show some (if run = i then _ else _) = _
      rw [if_pos hi]
    · next hi =>
      obtain ⟨v', hv', rfl⟩ := Option.map_eq_some_iff.mp hv
      obtain ⟨w, hw, hseen⟩ := h.supervisors i _ hv'
      refine ⟨w, ?_, hseen⟩
      rw [hw]
      show some (if run = i then _ else _) = _
      rw [if_neg hi]

/-- A supervisor goes on: the coarse one gets to where it ends. -/
theorem SeenAs.superviseTurn (h : s.SeenAs t) (hreachable : (reconnectMachine settings reconnect).Reachable Machine.Any t)
    {run : Nat} {outcome : Outcome} (hok : s.Ordinary (.superviseTurn run outcome))
    (hs : s.superviseTurn settings run outcome = some s') : s'.Matched settings reconnect := by
  unfold ClientSupervisions.superviseTurn at hs
  split at hs
  · cases hs
  · next v hv =>
    split at hs
    · next hadmits =>
      cases hs
      obtain ⟨w, hw, hseen⟩ := h.supervisors run v hv
      have hfollows : ReconnectRuns.Follows settings reconnect run t (s.runtime.supervisorTurn settings run v.pc outcome) := by
        refine ReconnectRuns.Paired.supervisorTurn ⟨hreachable, h.lifecycle, hw, hseen, ?_, ?_, ?_⟩
        · rintro rfl
          simpa using (Bool.and_eq_true_iff.mp hadmits.2).1
        · rintro rfl
          exact ⟨by simpa [ClientSupervisor.admits] using hadmits.2, hok v hv⟩
        · rintro rfl
          exact hok v hv
      obtain ⟨w', u, hstands, hseen'⟩ := hfollows
      refine ⟨u, hstands.reachable, hstands.lifecycle, ?_, fun i v' hv' => ?_⟩
      · rw [hstands.supervisors, List.length_set, List.length_set]
        exact h.length
      · have hlt := (List.getElem?_eq_some_iff.mp hw).1
        rw [hstands.supervisors]
        by_cases hi : run = i
        · subst hi
          rw [List.getElem?_set_self (h.length ▸ hlt)] at hv'
          rw [List.getElem?_set_self hlt]
          cases hv'
          exact ⟨w', rfl, hseen'⟩
        · rw [List.getElem?_set_ne hi] at hv' ⊢
          exact h.supervisors i v' hv'
    · cases hs

theorem SeenAs.step (h : s.SeenAs t) (hreachable : (reconnectMachine settings reconnect).Reachable Machine.Any t)
    {a : SupervisionsAct} (hok : s.Ordinary a) (hs : s.step settings a = some s') : s'.Matched settings reconnect := by
  -- the runtime changes, and neither the lifecycle state nor a supervisor does
  have hstay : s'.runtime.lifecycle = s.runtime.lifecycle → s'.supervisors = s.supervisors → s'.Matched settings reconnect :=
    fun hlifecycle hsupervisors => ⟨t, hreachable, h.of_eq hlifecycle hsupervisors⟩
  cases a with
  | start =>
    simp only [ClientSupervisions.step] at hs
    split at hs <;> cases hs
    next hstopped =>
    refine ⟨{ t with lifecycle := .starting }, hreachable.step (a := .start) trivial ?_, rfl, h.length, h.supervisors⟩
    show t.start = _
    rw [ReconnectRuns.start, ReconnectRuns.running, h.lifecycle, hstopped]
    rfl
  | supervise => exact h.supervise hreachable hs
  | beginStop =>
    cases hs
    by_cases hrunning : s.runtime.running = true
    · exact h.stop hreachable .stopping rfl (if_pos hrunning) rfl
    · exact hstay (if_neg hrunning) rfl
  | endStop => cases hs; exact hstay rfl rfl
  | rollback | applyStopped =>
    simp only [ClientSupervisions.step] at hs
    split at hs <;> cases hs
    exact h.stop hreachable .stopped rfl rfl rfl
  | cancel run => cases hs; exact h.cancel hreachable hok
  | cleanHeartbeat => cases hs; exact hstay rfl rfl
  | beginCleanup =>
    cases hs
    exact hstay (ClientRuntime.closeNext_lifecycle (c := s.runtime.beginClosing.1) _) rfl
  | cleanupTurn i outcome =>
    obtain ⟨closing, -, rfl⟩ := Option.map_eq_some_iff.mp hs
    refine hstay ?_ ?_
    · split
      · exact ClientRuntime.closeNext_lifecycle _
      · rfl
    · split <;> rfl
  | close n =>
    simp only [ClientSupervisions.step] at hs
    split at hs <;> cases hs
    exact hstay rfl rfl
  | closeTurn n outcome =>
    obtain ⟨runtime, hruntime, rfl⟩ := Option.map_eq_some_iff.mp hs
    exact hstay (ClientRuntime.shed_closeTurn hruntime).lifecycle rfl
  | heartbeatEnds =>
    obtain ⟨sender, -, rfl⟩ := Option.map_eq_some_iff.mp hs
    exact hstay rfl rfl
  | superviseTurn run outcome => exact h.superviseTurn hreachable hok hs

/-- Whatever the supervisors of a client do, however often it is started and stopped, the client that only plans and announces its
reconnects gets to the same lifecycle state, with its supervisors at the same places. -/
theorem seenAs_of_reachable (reconnect : TcpReconnectSettings F)
    (h : (supervisionsMachine settings).Reachable Ordinary s) :
    ∃ t : ReconnectRuns F, (reconnectMachine settings reconnect).Reachable Machine.Any t ∧ s.SeenAs t := by
  refine h.simulate SeenAs ?_ fun s a s' t hok hs ht hseen => hseen.step ht hok hs
  rintro _ rfl
  exact ⟨_, .init rfl, rfl, rfl, nofun⟩

end ClientSupervisions

end Aionetx
