import Aionetx.Lifecycle.ConvergenceTcp
import Aionetx.Lifecycle.Restarts
import Aionetx.Datagram.Sockets

/-!
# The stop of a component that is restarted, statement by statement

`RestartedComponent` has two segments of a stop, the teardown and the stop of the dispatcher; the path that `planStop` makes has
every statement. Unless a deferred path fails, they agree.

* `RestartedComponent.SeenIn` : the component, as the stop paths have it; `RestartedComponent.EndsWith` : the end of a teardown, and
  the end of its path;
* `execute_tcpStopPath`, `TcpServerStopPlan.execute_end`, `TcpClientStopPlan.execute_end` : what the paths do to what both know;
* `RestartedComponent.stop_follows` : a stop is planned as its path is, and its teardown ends with it;
* `ReceiverRuntime.planStop_follows` : the plan of a receiver and its snapshot.
-/

namespace Aionetx

open Runs

/-! ## The paths -/

namespace StopOp

theorem perform_stopping (op : StopOp) (outcome : Option Failure) (w : StopWorld) :
    (op.perform outcome w).stopping = (w.stopping || op.stopsDispatcher) := by
  unfold perform
  split <;> simp [stopsDispatcher, StopWorld.emitLifecycleEvent, StopWorld.release]

theorem perform_completionDeferred {op : StopOp} (h : op ≠ .awaitDeferredClose) (outcome : Option Failure) (w : StopWorld) :
    (op.perform outcome w).completionDeferred = w.completionDeferred := by
  unfold perform
  split <;> first | rfl | exact absurd rfl h

end StopOp

theorem foldl_perform_stopping (ops : List StopOp) (fails : StopOp → Option Failure) (w : StopWorld) :
    (ops.foldl (fun s op => op.perform (fails op) s) w).stopping = (w.stopping || ops.any (·.stopsDispatcher)) := by
  induction ops generalizing w with
  | nil => simp
  | cons op ops ih => rw [List.foldl_cons, ih, StopOp.perform_stopping, List.any_cons, Bool.or_assoc]

theorem foldl_perform_completionDeferred {ops : List StopOp} (h : .awaitDeferredClose ∉ ops) (fails : StopOp → Option Failure)
    (w : StopWorld) : (ops.foldl (fun s op => op.perform (fails op) s) w).completionDeferred = w.completionDeferred := by
  induction ops generalizing w with
  | nil => rfl
  | cons op ops ih =>
    rw [List.mem_cons, not_or] at h
    rw [List.foldl_cons, ih h.2, StopOp.perform_completionDeferred (Ne.symm h.1)]

theorem execute_finishOrdinary (own : StopOp → Option Failure) (w : StopWorld) (error : Option Failure) :
    let v := (execute StopOp.perform own [.ifClean .emitStopped, .attempt .stopDispatcher] { state := w, error }).state
    v.lifecycle = w.lifecycle ∧ v.stopping = true ∧ v.completionDeferred = w.completionDeferred := by
  have hend : ∀ (p : StopPath), p.left = false →
      let v := (execute StopOp.perform own [.attempt .stopDispatcher] p).state
      v.lifecycle = p.state.lifecycle ∧ v.stopping = true ∧ v.completionDeferred = p.state.completionDeferred := by
    intro p hp
    rw [execute_attempt hp, execute_nil]
    exact ⟨StopOp.perform_lifecycle .., (StopOp.perform_stopping ..).trans (Bool.or_true _),
      StopOp.perform_completionDeferred (by decide) ..⟩
  cases error with
  | some e => rw [execute_ifClean_of_error rfl]; exact hend _ rfl
  | none =>
    rw [execute_ifClean_of_clean]
    obtain ⟨h1, h2, h3⟩ := hend { state := StopOp.emitStopped.perform (own .emitStopped) w, error := own .emitStopped } rfl
    exact ⟨h1.trans (StopOp.perform_lifecycle ..), h2, h3.trans (StopOp.perform_completionDeferred (by decide) ..)⟩

/-- The paths of both components: the steps, and then, if `STOPPED` is to be applied, the end of a deferred or of an ordinary path.
`early` if a deferred one stops the dispatcher there. -/
def tcpStopPath (steps : List StopOp) (applies early : Bool) (origin : StopOrigin) : List StopStmt :=
  steps.map .attempt ++
    if applies then
      .apply (StopPath.update StopWorld.applyStoppedIfStopping) ::
        if origin.defersTerminalEvents then
          (if early then [.ifClean .stopDispatcherFromHandlerOrigin] else []) ++
            ((if origin = .activeInlineHandler then [.apply StopPath.absorbCancellation] else []) ++
              [.apply StopPath.scheduleDeferredStopEvents])
        else [.ifClean .emitStopped, .attempt .stopDispatcher]
    else if origin.defersTerminalEvents then [.apply StopPath.scheduleDeferredStopEvents]
    else []

/-- The end of a deferred path in which nothing has failed. -/
theorem execute_finishDeferred (own : StopOp → Option Failure) (hown : ∀ op, own op = none) (early : Bool) (origin : StopOrigin)
    (w : StopWorld) :
    let v := (execute StopOp.perform own ((if early then [.ifClean .stopDispatcherFromHandlerOrigin] else []) ++
      ((if origin = .activeInlineHandler then [.apply StopPath.absorbCancellation] else []) ++
        [.apply StopPath.scheduleDeferredStopEvents])) { state := w }).state
    v.lifecycle = w.lifecycle ∧ v.stopping = (w.stopping || early) ∧ v.completionDeferred = true := by
  have hend : ∀ w, (execute StopOp.perform own
      ((if origin = .activeInlineHandler then [.apply StopPath.absorbCancellation] else []) ++
        [.apply StopPath.scheduleDeferredStopEvents]) { state := w }).state = { w with completionDeferred := true } := fun w => by
    split_ifs <;> rfl
  dsimp only
  cases early with
  | false =>
    rw [if_neg Bool.false_ne_true, List.nil_append, hend]
    exact ⟨rfl, (Bool.or_false _).symm, rfl⟩
  | true =>
    rw [if_pos rfl, List.singleton_append, execute_ifClean_of_clean, hown, hend]
    exact ⟨rfl, (Bool.or_true _).symm, rfl⟩

/-- What such a path does to what both models know, if nothing fails in a deferred one. -/
theorem execute_tcpStopPath {steps : List StopOp} (hsteps : .awaitDeferredClose ∉ steps) (applies early : Bool)
    (origin : StopOrigin) {own : StopOp → Option Failure} (hown : origin.defersTerminalEvents = true → ∀ op, own op = none)
    {v : StopWorld} (hv : v.completionDeferred = false) :
    let w := (execute StopOp.perform own (tcpStopPath steps applies early origin) { state := v }).state
    w.lifecycle = (if applies then (applyStoppedTransitionIfStopping v.lifecycle).1 else v.lifecycle) ∧
      w.stopping = (v.stopping || steps.any (·.stopsDispatcher) || (applies && (early || !origin.defersTerminalEvents))) ∧
      w.completionDeferred = origin.defersTerminalEvents := by
  unfold tcpStopPath
  rw [execute_append, execute_attempts _ rfl]
  set u := steps.foldl (fun s op => op.perform (own op) s) v
  have hlifecycle : u.lifecycle = v.lifecycle := foldl_perform_lifecycle ..
  have hstopping : u.stopping = (v.stopping || steps.any (·.stopsDispatcher)) := foldl_perform_stopping ..
  have hcompletion : u.completionDeferred = false := (foldl_perform_completionDeferred hsteps own v).trans hv
  rw [← hlifecycle, ← hstopping]
  rcases hd : origin.defersTerminalEvents with _ | _
  · cases applies with
    | false => exact ⟨rfl, (Bool.or_false _).symm, hcompletion⟩
    | true =>
      rw [if_pos rfl, execute_apply rfl, if_neg Bool.false_ne_true]
      obtain ⟨hl, hs, hc⟩ := execute_finishOrdinary own u.applyStoppedIfStopping
        ((none : Option Failure).or (steps.findSome? own))
      exact ⟨hl, hs.trans (by simp), hc.trans hcompletion⟩
  · have herror : steps.findSome? own = none := List.findSome?_eq_none_iff.mpr fun op _ => hown hd op
    rw [herror]
    cases applies with
    | false => exact ⟨rfl, (Bool.or_false _).symm, rfl⟩
    | true =>
      rw [if_pos rfl, execute_apply rfl, if_pos rfl]
      obtain ⟨hl, hs, hc⟩ := execute_finishDeferred own (hown hd) early origin u.applyStoppedIfStopping
      exact ⟨hl, hs.trans (by simp [StopWorld.applyStoppedIfStopping]), hc⟩

namespace TcpServerStopPlan
variable (plan : TcpServerStopPlan) (caller : StopCaller)

theorem executeOwnedStop_eq_tcpStopPath : plan.executeOwnedStop caller =
    tcpStopPath (plan.steps caller) plan.shouldTransitionToStopped false caller.origin := by
  rw [executeOwnedStop_eq]
  unfold tcpStopPath finishStopWithDispatcher
  rfl

/-- What the path of a server does, if nothing fails in a deferred one. -/
theorem execute_end {own : StopOp → Option Failure} {v : StopWorld} (hv : v.completionDeferred = false)
    (hown : caller.origin.defersTerminalEvents = true → ∀ op, own op = none) :
    let w := (execute StopOp.perform own (plan.executeOwnedStop caller) { state := v }).state
    w.lifecycle = (if plan.shouldTransitionToStopped then (applyStoppedTransitionIfStopping v.lifecycle).1 else v.lifecycle) ∧
      w.stopping = (v.stopping || (plan.shouldTransitionToStopped || caller.origin.defersTerminalEvents)) ∧
      w.completionDeferred = caller.origin.defersTerminalEvents := by
  have hsteps : .awaitDeferredClose ∉ plan.steps caller := by
    unfold steps
    cases caller.origin.defersTerminalEvents <;> cases plan.server <;> cases plan.connections <;> decide
  have hstops : (plan.steps caller).any (·.stopsDispatcher) = caller.origin.defersTerminalEvents := by
    unfold steps
    cases caller.origin.defersTerminalEvents <;> cases plan.server <;> cases plan.connections <;> rfl
  rw [executeOwnedStop_eq_tcpStopPath]
  obtain ⟨hl, hs, hc⟩ := execute_tcpStopPath hsteps plan.shouldTransitionToStopped false caller.origin hown hv
  refine ⟨hl, hs.trans ?_, hc⟩
  rw [hstops]
  cases v.stopping <;> cases plan.shouldTransitionToStopped <;> cases caller.origin.defersTerminalEvents <;> rfl

/-- What a plan keeps and changes of what both know. -/
theorem planStop_spec (w : StopWorld) :
    (planStop w).1.shouldTransitionToStopped = w.lifecycle.active ∧
      (planStop w).2.lifecycle = (if w.lifecycle.active then .stopping else w.lifecycle) ∧
      (planStop w).2.stopping = w.stopping ∧ (planStop w).2.completionDeferred = w.completionDeferred := by
  unfold planStop
  cases hl : w.lifecycle <;> simp [applyStoppingTransitionIfActive, ComponentLifecycleState.active, StopWorld.detach]

end TcpServerStopPlan

namespace TcpClientStopPlan
variable (plan : TcpClientStopPlan) (caller : StopCaller)

theorem executeOwnedStop_eq_tcpStopPath : plan.executeOwnedStop caller =
    tcpStopPath (plan.steps caller) plan.shouldStopDispatcher true caller.origin := by
  rw [executeOwnedStop_eq]
  unfold tcpStopPath finishStopWithDispatcher
  rfl

/-- As the server, except that a deferred path stops the dispatcher at its end. -/
theorem execute_end {own : StopOp → Option Failure} {v : StopWorld} (hv : v.completionDeferred = false)
    (hown : caller.origin.defersTerminalEvents = true → ∀ op, own op = none) :
    let w := (execute StopOp.perform own (plan.executeOwnedStop caller) { state := v }).state
    w.lifecycle = (if plan.shouldStopDispatcher then (applyStoppedTransitionIfStopping v.lifecycle).1 else v.lifecycle) ∧
      w.stopping = (v.stopping || plan.shouldStopDispatcher) ∧
      w.completionDeferred = caller.origin.defersTerminalEvents := by
  have hsteps : .awaitDeferredClose ∉ plan.steps caller := by
    unfold steps cleanup
    split_ifs <;> decide
  have hstops : (plan.steps caller).any (·.stopsDispatcher) = false := by
    unfold steps cleanup
    split_ifs <;> rfl
  rw [executeOwnedStop_eq_tcpStopPath]
  obtain ⟨hl, hs, hc⟩ := execute_tcpStopPath hsteps plan.shouldStopDispatcher true caller.origin hown hv
  refine ⟨hl, hs.trans ?_, hc⟩
  rw [hstops, Bool.or_false, Bool.true_or, Bool.and_true]

theorem planStop_spec {w v : StopWorld} {plan : TcpClientStopPlan} (h : planStop caller w = some (plan, v)) :
    plan.shouldStopDispatcher = (w.lifecycle.active || w.worker) ∧
      v.lifecycle = (if w.lifecycle.active then .stopping else w.lifecycle) ∧
      v.stopping = w.stopping ∧ v.completionDeferred = w.completionDeferred := by
  unfold planStop at h
  split_ifs at h with hfull hstop
  · have hactive : w.lifecycle.active = false := by rcases hstop with hl | hl <;> rw [hl] <;> rfl
    rw [hactive, Bool.false_or, if_neg Bool.false_ne_true]
    unfold addExistingSupervisor at h
    split_ifs at h <;> cases h <;> exact ⟨rfl, rfl, rfl, rfl⟩
  · have hactive : w.lifecycle.active = true := by
      cases hl : w.lifecycle <;> simp_all [ComponentLifecycleState.active]
    rw [StopWorld.applyLifecycleState_stopping _ hactive] at h
    cases h
    exact ⟨by rw [hactive]; rfl, by rw [hactive]; rfl, rfl, rfl⟩

end TcpClientStopPlan

/-! ## The component that is restarted -/

def TcpComponent.managed : TcpComponent → Component
  | .client => .tcpClient
  | .server => .tcpServer

namespace RestartedComponent

/-- The component, as the stop paths have it. -/
structure SeenIn (s : RestartedComponent) (w : StopWorld) : Prop where
  lifecycle : w.lifecycle = s.lifecycle
  stopping : w.stopping = s.stopping
  worker : w.worker = s.worker.isSome

/-- The end of the teardown of a stop is the end of its path; an ordinary stop has yet to stop the dispatcher. -/
structure EndsWith (s : RestartedComponent) (deferred stopsDispatcher : Bool) (w : StopWorld) : Prop where
  lifecycle : w.lifecycle = s.lifecycle
  stopping : w.stopping = (s.stopping || (!deferred && stopsDispatcher))
  completionDeferred : w.completionDeferred = deferred

theorem tornDown_lifecycle (component : TcpComponent) (s : RestartedComponent) (i : Nat) (x : LifecycleTask)
    (deferred transitions stopsDispatcher : Bool) :
    (s.tornDown component i x deferred transitions stopsDispatcher).lifecycle =
      if transitions then (applyStoppedTransitionIfStopping s.lifecycle).1 else s.lifecycle := by
  have hlifecycle : (s.tornDown component i x deferred transitions stopsDispatcher).lifecycle =
      if transitions ∧ s.lifecycle = .stopping then .stopped else s.lifecycle := by
    unfold tornDown
    cases deferred <;> rfl
  rw [hlifecycle]
  cases transitions <;> cases s.lifecycle <;> rfl

theorem tornDown_stopping (component : TcpComponent) (s : RestartedComponent) (i : Nat) (x : LifecycleTask)
    (deferred transitions stopsDispatcher : Bool) :
    (s.tornDown component i x deferred transitions stopsDispatcher).stopping =
      (s.stopping || (deferred && (component = .client && stopsDispatcher))) := by
  unfold tornDown
  cases deferred
  · exact (Bool.or_false _).symm
  · rfl

/-- A stop is planned as its path is, and its teardown ends with it, unless a deferred one fails. -/
theorem stop_follows (component : TcpComponent) {s t : RestartedComponent} {w v : StopWorld} {stop : OwnedStop}
    (caller : StopCaller) (h : s.SeenIn w) (hplan : component.managed.planStop caller w = some (stop, v))
    (ht : s.stop component caller.origin.defersTerminalEvents = some t) {own : StopOp → Option Failure}
    (hown : caller.origin.defersTerminalEvents = true → ∀ op, own op = none) :
    ∃ transitions stopsDispatcher,
      t.tasks = s.tasks ++ [⟨.stop caller.origin.defersTerminalEvents transitions stopsDispatcher, s.runs, .working⟩] ∧
      ∀ i x, (t.tornDown component i x caller.origin.defersTerminalEvents transitions stopsDispatcher).EndsWith
        caller.origin.defersTerminalEvents stopsDispatcher (execute StopOp.perform own stop.path { state := v }).state := by
  unfold RestartedComponent.stop at ht
  split_ifs at ht
  have hkept : w.beginStop.lifecycle = s.lifecycle := h.lifecycle
  have hactive : w.beginStop.lifecycle.active = s.lifecycle.active := congrArg _ hkept
  cases component with
  | client =>
    cases ht
    obtain ⟨⟨plan, v'⟩, hp, he⟩ := Option.map_eq_some_iff.mp hplan
    cases he
    obtain ⟨hstops, hlifecycle, hstopping, hcompletion⟩ := TcpClientStopPlan.planStop_spec caller hp
    obtain ⟨hend, hend', hend''⟩ := plan.execute_end caller (v := v) hcompletion hown
    have hworker : w.beginStop.worker = s.worker.isSome := h.worker
    rw [hactive, hworker] at hstops
    refine ⟨_, _, rfl, fun i x => ⟨hend.trans ?_, hend'.trans ?_, hend''⟩⟩
    · rw [tornDown_lifecycle, hstops, hlifecycle, hactive, hkept]
    · have hflag : w.beginStop.stopping = s.stopping := h.stopping
      rw [tornDown_stopping, hstops, hstopping, hflag]
      cases caller.origin.defersTerminalEvents <;> simp
  | server =>
    cases ht
    replace hplan : some ((TcpServerStopPlan.planStop w.beginStop).1.ownedStop caller,
      (TcpServerStopPlan.planStop w.beginStop).2) = some (stop, v) := hplan
    cases hplan
    obtain ⟨hstops, hlifecycle, hstopping, hcompletion⟩ := TcpServerStopPlan.planStop_spec w.beginStop
    obtain ⟨hend, hend', hend''⟩ := (TcpServerStopPlan.planStop w.beginStop).1.execute_end caller hcompletion hown
    refine ⟨_, _, rfl, fun i x => ⟨hend.trans ?_, hend'.trans ?_, hend''⟩⟩
    · rw [tornDown_lifecycle, hstops, hlifecycle, hactive, hkept]
    · have hflag : w.beginStop.stopping = s.stopping := h.stopping
      rw [tornDown_stopping, hstops, hstopping, hflag, hactive]
      cases caller.origin.defersTerminalEvents <;> simp

end RestartedComponent

/-! ## The datagram receiver -/

namespace ReceiverRuntime

/-- The receiver, as the stop paths have it. -/
structure SeenIn (s : ReceiverRuntime) (w : StopWorld) : Prop where
  lifecycle : w.lifecycle = s.lifecycle
  socket : w.held .socket = s.socket.isSome
  receiveTask : w.held .receiveTask = s.task.isSome

variable {s : ReceiverRuntime} {w : StopWorld}

/-- The two find the same stops to plan. -/
theorem planStop_eq_none_iff (hs : s.Inv) (h : s.SeenIn w) :
    DatagramStopSnapshot.planStop w = none ↔ s.isFullyStopped = true := by
  have hfull : DatagramStopSnapshot.isFullyStopped w = s.isFullyStopped := by
    unfold DatagramStopSnapshot.isFullyStopped isFullyStopped
    rw [h.lifecycle, h.socket]
    cases hsocket : s.socket with
    | none =>
      have hrunning : s.running = false := Bool.eq_false_iff.mpr fun hr => hs.socket hr hsocket
      simp [hrunning]
    | some k => simp
  unfold DatagramStopSnapshot.planStop
  rw [hfull]
  cases s.isFullyStopped <;> simp

/-- In every state reached they take the same out of the fields, and the path is to do with it what the runtime does. -/
theorem planStop_follows (hs : receiverMachine.Reachable OneStart s) (h : s.SeenIn w) {snapshot : DatagramStopSnapshot}
    {v : StopWorld} (hplan : DatagramStopSnapshot.planStop w = some (snapshot, v)) (origin : StopOrigin) (current : Option Nat)
    (t : ReceiverTurn) :
    let c := s.planStop origin current t
    s.detach.SeenIn v ∧ snapshot.sock = c.socket.isSome ∧ snapshot.shouldEmitClosedEvent = c.session.isSome ∧
      (.release .receiveTask ∈ snapshot.teardown { origin, onOwnTask := s.task = current } ↔ c.awaits = true) := by
  replace hs := inv_of_reachable hs
  have hactive : s.isFullyStopped = false := by
    rw [← Bool.not_eq_true, ← planStop_eq_none_iff hs h, hplan]
    exact Option.some_ne_none _
  have hstopped : s.lifecycle ≠ .stopped := fun hl => by
    have hrunning : s.running = false := Bool.eq_false_iff.mpr fun hr => by cases (hs.run.mp hr).symm.trans hl
    have hsocket := (hs.fields_none (by rw [hl]; decide)).1
    simp [isFullyStopped, hl, hrunning, hsocket] at hactive
  have hlifecycle : (w.applyLifecycleState .stopping).1.lifecycle = .stopping := by
    unfold StopWorld.applyLifecycleState
    cases hl : w.lifecycle with
    | stopped => exact absurd (h.lifecycle.symm.trans hl) hstopped
    | starting | running | stopping => rfl
  unfold DatagramStopSnapshot.planStop at hplan
  split_ifs at hplan
  cases hplan
  refine ⟨⟨hlifecycle, ?_, ?_⟩, h.socket, ?_, ?_⟩
  · simp [StopWorld.detach, StopResources.detach, detach]
  · simp [StopWorld.detach, StopResources.detach, detach]
  · simp only [planStop, h.lifecycle]
    by_cases hl : s.lifecycle = .starting <;> simp [hl]
  · simp [DatagramStopSnapshot.teardown, planStop, h.receiveTask]
    exact and_right_comm

end ReceiverRuntime

end Aionetx
