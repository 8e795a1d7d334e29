import Aionetx.Lifecycle.ConvergenceTcp
import Aionetx.Lifecycle.ConvergenceDatagram

/-!
# Convergence in every state reached

* `Settled` : what a component is like between the calls; `settled_of_reachable`;
* `Component.stop_converges_iff` : an owning `stop()` converges exactly under its condition on the failures;
* `not_converged_of_cancelledClose` : a failure under which it does not.
-/

namespace Aionetx

open Runs

/-! ## Over the runs -/

/-- What holds between the calls: the TCP components are never left in `STOPPING`, a stopped server has no dispatcher that
accepts, and a stopped receiver has no socket. -/
def Settled (component : Component) (w : StopWorld) : Prop :=
  match component with
  | .tcpClient => w.lifecycle ≠ .stopping
  | .tcpServer => w.lifecycle ≠ .stopping ∧ (w.lifecycle = .stopped → w.accepting = false)
  | .datagramReceiver => w.lifecycle = .stopped → w.held .socket = false

theorem TcpServerStopPlan.planned_of_planStop {w : StopWorld} (hw : Settled .tcpServer w) :
    Planned w (TcpServerStopPlan.planStop w.beginStop).2 (TcpServerStopPlan.planStop w.beginStop).1.shouldTransitionToStopped := by
  obtain ⟨hne, hstopped⟩ := hw
  have hb : w.beginStop.lifecycle = w.lifecycle := rfl
  cases hl : w.lifecycle
  · refine ⟨rfl, rfl, rfl, rfl, rfl, .inr ⟨?_, ?_, hstopped hl⟩⟩ <;>
      simp [planStop, applyStoppingTransitionIfActive, hb, hl]
  · refine ⟨rfl, rfl, rfl, rfl, rfl, .inl ⟨?_, .inl ?_⟩⟩ <;>
      simp [planStop, applyStoppingTransitionIfActive, hb, hl]
  · refine ⟨rfl, rfl, rfl, rfl, rfl, .inl ⟨?_, .inl ?_⟩⟩ <;>
      simp [planStop, applyStoppingTransitionIfActive, hb, hl]
  · exact absurd hl hne

theorem TcpServerStopPlan.converged (caller : StopCaller) {w v : StopWorld} {stop : OwnedStop}
    (hplan : Component.tcpServer.planStop caller w = some (stop, v)) (hw : Settled .tcpServer w)
    (own later : StopOp → Option Failure) : (stop.finish own later v).Converged := by
  cases hplan
  exact OwnedStop.finish_converged
    (TcpServerStopPlan.converged_executeOwnedStop _ caller own (planned_of_planStop hw).lifecycle)
    completeDeferredStop_keeps

/-- Nothing between the steps of a client's two paths leaves `STOPPED`. -/
theorem TcpClientStopPlan.apply_stopped (plan : TcpClientStopPlan) (caller : StopCaller) (f : StopPath → StopPath)
    (hf : Stmt.apply f ∈ plan.executeOwnedStop caller ∨ Stmt.apply f ∈ plan.completeDeferredStop caller) (p : StopPath)
    (hp : p.state.lifecycle = .stopped) : (f p).state.lifecycle = .stopped := by
  have hcases : f = StopPath.update StopWorld.applyStoppedIfStopping ∨ f = StopPath.absorbCancellation ∨
      f = StopPath.scheduleDeferredStopEvents ∨ f = StopPath.update (fun w => w.inlineDeliveryContext true) ∨
      f = StopPath.update fun w => w.inlineDeliveryContext false := by
    rcases hf with hf | hf
    · rw [executeOwnedStop_eq, List.mem_append] at hf
      rcases hf with hf | hf
      · simp [Stmt.attempt] at hf
      · unfold finishStopWithDispatcher at hf
        split_ifs at hf <;> simp [Stmt.attempt, Stmt.ifClean] at hf <;> tauto
    · unfold completeDeferredStop at hf
      split_ifs at hf <;> simp [Stmt.plain] at hf <;> tauto
  rcases hcases with rfl | rfl | rfl | rfl | rfl
  · exact applyStoppedIfStopping_lifecycle (.inr hp)
  · exact (absorbCancellation_core p).lifecycle.trans hp
  · exact (scheduleDeferredStopEvents_core p).lifecycle.trans hp
  · exact hp
  · exact hp

theorem TcpClientStopPlan.stopped (caller : StopCaller) {w v : StopWorld} {stop : OwnedStop}
    (hplan : Component.tcpClient.planStop caller w = some (stop, v)) (hw : Settled .tcpClient w)
    (own later : StopOp → Option Failure) : (stop.finish own later v).lifecycle = .stopped := by
  obtain ⟨⟨plan, u⟩, hp, heq⟩ := Option.map_eq_some_iff.1 hplan
  cases heq
  have hkeep := plan.apply_stopped caller
  have hpath : (execute StopOp.perform own (plan.executeOwnedStop caller) { state := v }).state.lifecycle = .stopped := by
    rcases (plan.planned_of_planStop caller hp hw).lifecycle with ⟨hs, hl⟩ | ⟨-, hu⟩
    · have hmem : ∀ f, Stmt.apply f ∈ finishStopWithDispatcher caller → Stmt.apply f ∈ plan.executeOwnedStop caller := by
        intro f hf
        rw [executeOwnedStop_eq, if_pos hs]
        exact List.mem_append_right _ (List.mem_cons_of_mem _ hf)
      rw [executeOwnedStop_eq, execute_append, execute_attempts _ rfl, if_pos hs, execute_apply rfl]
      exact stopped_execute (fun f hf => hkeep f (.inl (hmem f hf)))
        (applyStoppedIfStopping_lifecycle (foldl_perform_lifecycle (plan.steps caller) own v ▸ hl))
    · exact stopped_execute (fun f hf => hkeep f (.inl hf)) hu.1
  unfold OwnedStop.finish
  dsimp only
  split_ifs
  · exact stopped_execute (fun f hf => hkeep f (.inr hf)) hpath
  · exact hpath

/-- Nothing between the steps of a receiver's paths gives it a resource. -/
theorem DatagramStopSnapshot.apply_held (snapshot : DatagramStopSnapshot) (caller : StopCaller)
    (f : StopPath → StopPath)
    (hf : Stmt.apply f ∈ (snapshot.ownedStop caller).path ∨ Stmt.apply f ∈ (snapshot.ownedStop caller).completion)
    (p : StopPath) : (f p).state.held = p.state.held := by
  have hcases : f = StopPath.update StopWorld.applyStopped ∨ f = StopPath.scheduleDeferredStopEvents ∨
      f = StopPath.update (fun w => w.inlineDeliveryContext true) ∨
      f = StopPath.update fun w => w.inlineDeliveryContext false := by
    unfold ownedStop runDeferredStopPath runOrdinaryStopPath completeAfterDeferredStopEvents
      completeAfterDeferredCloseAndStop teardownDatagramStopResources publishStopClosedEvent publishStoppedTransition at hf
    split_ifs at hf <;> simp [Stmt.attempt, Stmt.ifClean, Stmt.plain] at hf <;> tauto
  rcases hcases with rfl | rfl | rfl | rfl
  · rfl
  · unfold StopPath.scheduleDeferredStopEvents
    split_ifs <;> rfl
  · rfl
  · rfl

theorem DatagramStopSnapshot.socket_detached (caller : StopCaller) {w v : StopWorld} {stop : OwnedStop}
    (hplan : Component.datagramReceiver.planStop caller w = some (stop, v)) (own later : StopOp → Option Failure) :
    (stop.finish own later v).held .socket = false := by
  obtain ⟨⟨snapshot, u⟩, hp, heq⟩ := Option.map_eq_some_iff.1 hplan
  cases heq
  have hkeep : ∀ (fails : StopOp → Option Failure) (stmts : List StopStmt) (p : StopPath),
      (∀ f, Stmt.apply f ∈ stmts → ∀ q : StopPath, (f q).state.held = q.state.held) → p.state.held .socket = false →
      (execute StopOp.perform fails stmts p).state.held .socket = false := by
    intro fails stmts p hf hp
    refine execute_inv (I := fun p : StopPath => p.state.held .socket = false) (fun stmt hstmt p outcome hp => ?_) hp
    cases stmt with
    | apply f => exact (congrFun (hf f hstmt p) _).trans hp
    | run op runs leaves =>
      simp only [Stmt.turn]
      split_ifs
      · rw [Path.record_state]
        exact StopOp.perform_held_eq_false op outcome _ hp
      · exact hp
  have hv : v.held .socket = false := by
    unfold planStop at hp
    split_ifs at hp
    cases hp
    simp [StopWorld.detach, StopResources.detach]
  have hpath := hkeep own _ { state := v } (fun f hf => snapshot.apply_held caller f (.inl hf)) hv
  unfold OwnedStop.finish
  dsimp only
  split_ifs
  · exact hkeep later _ _ (fun f hf => snapshot.apply_held caller f (.inr hf)) hpath
  · exact hpath

theorem settled_of_step (component : Component) {w t : StopWorld} {a : ComponentAct} (hw : Settled component w)
    (ht : component.step w a = some t) : Settled component t := by
  cases a with
  | stop caller own later =>
    obtain ⟨⟨stop, v⟩, hplan, rfl⟩ := Option.map_eq_some_iff.1 ht
    cases component with
    | tcpClient =>
      intro h
      cases (TcpClientStopPlan.stopped caller hplan hw own later).symm.trans h
    | tcpServer =>
      obtain ⟨hl, ha⟩ := TcpServerStopPlan.converged caller hplan hw own later
      exact ⟨fun h => (by cases hl.symm.trans h), fun _ => ha⟩
    | datagramReceiver => exact fun _ => DatagramStopSnapshot.socket_detached caller hplan own later
  | start =>
    simp only [Component.step] at ht
    split_ifs at ht with hactive
    cases ht
    have hd : w.startDispatcher.lifecycle = w.lifecycle := by
      unfold StopWorld.startDispatcher
      split_ifs <;> rfl
    rcases hl : w.lifecycle with _ | _ | _ | _
    · have ht : (w.startDispatcher.applyLifecycleState .starting).1.lifecycle = .starting := by
        simp [StopWorld.applyLifecycleState, LifecycleTransition.of, LifecycleTransition.event,
          ComponentLifecycleState.allows, hd, hl]
      cases component <;> simp [Settled, ht]
    · exact absurd (by rw [hl]; rfl) hactive
    · exact absurd (by rw [hl]; rfl) hactive
    · have ht : (w.startDispatcher.applyLifecycleState .starting).1.lifecycle = .stopping := by
        simp [StopWorld.applyLifecycleState, LifecycleTransition.of, LifecycleTransition.event,
          ComponentLifecycleState.allows, hd, hl]
      cases component
      · exact absurd hl hw
      · exact absurd hl hw.1
      · simp [Settled, ht]
  | run | rollBack | terminate | stopDispatcher | workerEnds =>
    simp only [Component.step] at ht
    split_ifs at ht
    cases ht
    cases component <;> simp_all [Settled, StopWorld.accepting]
  | acquire r =>
    simp only [Component.step] at ht
    split_ifs at ht with hactive
    cases ht
    cases component
    · exact hw
    · exact hw
    · intro h
      rw [show w.lifecycle = .stopped from h] at hactive
      cases hactive
  | drop r =>
    cases ht
    cases component
    · exact hw
    · exact hw
    · intro h
      by_cases hr : StopResource.socket = r
      · rw [hr]
        exact Function.update_self ..
      · exact (Function.update_of_ne hr ..).trans (hw h)
  | observe =>
    cases ht
    cases component <;> exact hw

theorem settled_of_reachable {component : Component} {w : StopWorld} (h : component.machine.Reachable Machine.Any w) :
    Settled component w :=
  h.invariant (I := Settled component)
    (fun w hw => by
      obtain ⟨mode, rfl⟩ := hw
      cases component <;> simp [Settled, StopWorld.accepting])
    fun _ _ _ hw _ ht => settled_of_step component hw ht

/-- In every state that a component reaches, an owning `stop()` converges exactly under its condition on the failures. -/
theorem Component.stop_converges_iff {component : Component} {w v : StopWorld} {caller : StopCaller} {stop : OwnedStop}
    (h : component.machine.Reachable Machine.Any w) (hplan : component.planStop caller w = some (stop, v))
    (own later : StopOp → Option Failure) :
    (stop.finish own later v).Converged ↔ component.StopConverges caller own later w := by
  have hw := settled_of_reachable h
  cases component with
  | tcpClient =>
    obtain ⟨⟨plan, u⟩, hp, heq⟩ := Option.map_eq_some_iff.1 hplan
    cases heq
    rw [plan.converged_iff caller hp hw own later]
    constructor
    · intro hc plan' v' hp'
      cases hp.symm.trans hp'
      exact hc
    · exact fun hc => hc plan _ hp
  | tcpServer => exact iff_of_true (TcpServerStopPlan.converged caller hplan hw own later) trivial
  | datagramReceiver =>
    obtain ⟨⟨snapshot, u⟩, hp, heq⟩ := Option.map_eq_some_iff.1 hplan
    cases heq
    have hne : w.lifecycle ≠ .stopped := by
      intro hl
      have hb : w.beginStop.lifecycle = w.lifecycle := rfl
      have hsock : w.beginStop.held .socket = false := hw hl
      unfold DatagramStopSnapshot.planStop at hp
      rw [if_pos (by simp [DatagramStopSnapshot.isFullyStopped, hb, hl, hsock])] at hp
      cases hp
    obtain ⟨hs, hl, hv⟩ := snapshot.planned_of_planStop hp hne
    have hiff : ((snapshot.ownedStop caller).finish own later v).Converged ↔
        snapshot.StopConverges caller own later w := by
      by_cases hd : caller.origin.defersTerminalEvents = true
      · exact snapshot.converged_deferred_iff caller hd hs hl hv own later
      · exact snapshot.converged_ordinary_iff caller (by simpa using hd) hs hl hv own later
    rw [hiff]
    constructor
    · intro hc snapshot' v' hp'
      cases hp.symm.trans hp'
      exact hc
    · exact fun hc => hc snapshot _ hp

def failsAt (op : StopOp) (e : Failure) : StopOp → Option Failure := fun o => if o = op then some e else none

/-- A running client of a BACKGROUND dispatcher with its supervisor and a connection. -/
def runningClient : StopWorld :=
  { lifecycle := .running
    dispatchMode := .background
    worker := true
    held := Function.update (Function.update (fun _ => false) .supervisorTask true) .connections true }

theorem reachable_runningClient : Component.tcpClient.machine.Reachable Machine.Any runningClient :=
  .of_exec (.init ⟨.background, rfl⟩) [.start, .run, .acquire .supervisorTask, .acquire .connections] rfl

/-- The condition is met by a handler's stop whose completion task fails. -/
theorem converged_runningClient :
    ∃ stop v, Component.tcpClient.planStop { origin := .handler } runningClient = some (stop, v) ∧
      (stop.finish (fun _ => none) (failsAt .emitStopping .error) v).Converged := by
  refine ⟨_, _, rfl, (Component.stop_converges_iff reachable_runningClient rfl _ _).2 ?_⟩
  rintro plan v hplan
  cases hplan
  exact .inr (.inr (.inl rfl))

/-- A handler's stop whose await of the connection close is cancelled: the client is `STOPPED`, and its dispatcher goes on
accepting events. -/
theorem not_converged_of_cancelledClose :
    ∃ w, Component.tcpClient.machine.Reachable Machine.Any w ∧
      ∃ stop v, Component.tcpClient.planStop { origin := .handler } w = some (stop, v) ∧
        ¬(stop.finish (failsAt (.release .connections) .cancelled) (fun _ => none) v).Converged :=
  ⟨runningClient, reachable_runningClient, _, _, rfl, by decide⟩

end Aionetx
