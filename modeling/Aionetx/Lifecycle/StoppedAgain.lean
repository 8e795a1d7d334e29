import Aionetx.Lifecycle.Cancellation

/-!
# The stop of a component that is done

A `stop()` after a stop owns a path of its own as long as the dispatcher's worker is left, and for a server always. Nothing
of it changes what the first stop has done.

* `Idle` : the invariant of such a path; `Idle.turn` : what every statement keeps;
* `pathOk_again` : the plan of a component that is done gives a path that ends well, or none.
-/

namespace Aionetx

open Runs

/-- A path of a component that is done. -/
structure Idle (component : Component) (first : Bool) (before : StopWorld) (deferred : Bool) (p : StopPath) : Prop where
  done : Done component first before p.state
  stoppingEvent : p.state.stoppingEvent = none
  stoppedEvent : p.state.stoppedEvent = none
  raise : p.state.raiseCancelAfterStopWaiter = false
  completionDeferred : p.state.completionDeferred = deferred
  error : p.error = none
  left : p.left = false

/-- The resources that an operation releases are resources of the component. -/
def Component.owns (component : Component) (first : Bool) : StopOp → Bool
  | .release r => r ∈ component.cleanup first
  | _ => true

/-- Code between the operations that leaves a component that is done as it is. -/
def KeepsIdle (component : Component) (first : Bool) (before : StopWorld) (stmts : List StopStmt) : Prop :=
  ∀ f, .apply f ∈ stmts → ∀ deferred p, Idle component first before deferred p → Idle component first before deferred (f p)

namespace Idle
variable {component : Component} {first : Bool} {before : StopWorld} {deferred : Bool}

theorem release {w : StopWorld} (h : Done component first before w) {r : StopResource} (hr : r ∈ component.cleanup first) :
    w.toStopResources.release r = w.toStopResources :=
  StopResources.release_of_not (h.nothingLeft r hr).1 (h.nothingLeft r hr).2

theorem perform {w : StopWorld} (h : Idle component first before deferred { state := w }) {op : StopOp}
    (hop : component.owns first op = true) : Idle component first before deferred { state := op.perform none w } := by
  obtain ⟨hdone, hstopping, hstopped, hraise, hdeferred, -, -⟩ := h
  have hemit : w.emitLifecycleEvent none = w := by
    unfold StopWorld.emitLifecycleEvent
    simp
  have hrelease : ∀ r, component.owns first (.release r) = true → w.release r = w := fun r hr =>
    congrArg (fun x => ({ w with toStopResources := x } : StopWorld)) (release hdone (of_decide_eq_true hr))
  have hwaiters : ∀ d, Idle component first before deferred { state := { w with deferredCloseWaiters := d } } := fun _ =>
    ⟨⟨⟨hdone.lifecycle, hdone.stopping, hdone.released, hdone.published⟩, hdone.nothingLeft⟩, hstopping, hstopped, hraise,
      hdeferred, rfl, rfl⟩
  cases op with
  | emitStopping =>
    change Idle _ _ _ _ { state := w.emitLifecycleEvent w.stoppingEvent }
    rw [show w.stoppingEvent = none from hstopping, hemit]
    exact hwaiters w.deferredCloseWaiters
  | emitStopped =>
    change Idle _ _ _ _ { state := w.emitLifecycleEvent w.stoppedEvent }
    rw [show w.stoppedEvent = none from hstopped, hemit]
    exact hwaiters w.deferredCloseWaiters
  | release r =>
    have hr := hrelease r hop
    cases r with
    | connections =>
      change Idle _ _ _ _ { state := { w.release .connections with deferredCloseWaiters := w.closeIsDeferred } }
      rw [hr]
      exact hwaiters w.closeIsDeferred
    | _ =>
      change Idle _ _ _ _ { state := w.release _ }
      rw [hr]
      exact hwaiters w.deferredCloseWaiters
  | publishClosed => exact hwaiters w.closeIsDeferred
  | stopDispatcher | stopDispatcherFromHandlerOrigin =>
    exact ⟨⟨⟨hdone.lifecycle, rfl, hdone.released, hdone.published⟩, hdone.nothingLeft⟩, hstopping, hstopped, hraise,
      hdeferred, rfl, rfl⟩
  | _ => exact hwaiters w.deferredCloseWaiters

theorem turn {stmts : List StopStmt} (hall : stmts.all (StopStmt.all (component.owns first)) = true)
    (hkeeps : KeepsIdle component first before stmts) {stmt : StopStmt} (hstmt : stmt ∈ stmts) {p : StopPath}
    (h : Idle component first before deferred p) :
    Idle component first before deferred (stmt.turn StopOp.perform none p) := by
  cases stmt with
  | apply f => exact hkeeps f hstmt deferred p h
  | run op runs leaves =>
    have hop : component.owns first op = true := List.all_eq_true.1 hall _ hstmt
    rw [Stmt.turn_run]
    split_ifs
    · obtain ⟨w, error, left⟩ := p
      have herror : error = none := h.error
      have hleft : left = false := h.left
      subst herror hleft
      exact h.perform hop
    · exact h

/-- An operation at which the path of a component that is done does not suspend. -/
def quiet (component : Component) (first : Bool) : StopOp → Bool
  | .emitStopping | .emitStopped | .stopDispatcherFromHandlerOrigin => true
  | .release r => r ∈ component.cleanup first
  | _ => false

theorem owns_of_quiet {op : StopOp} (h : quiet component first op = true) : component.owns first op = true := by
  cases op <;> first | exact h | rfl

theorem all_owns {stmts : List StopStmt} (hall : stmts.all (StopStmt.all (quiet component first)) = true) :
    stmts.all (StopStmt.all (component.owns first)) = true := by
  rw [List.all_eq_true] at hall ⊢
  intro stmt hstmt
  cases stmt with
  | apply f => rfl
  | run op runs leaves => exact owns_of_quiet (hall _ hstmt)

theorem ne_of_quiet (op : StopOp) (h : quiet component first op = true) :
    op ≠ .awaitDeferredClose ∧ op ≠ .stopDispatcher := by
  constructor <;> rintro rfl <;> cases h

theorem not_suspends {p : StopPath} (h : Idle component first before deferred p) {op : StopOp}
    (hop : quiet component first op = true) : op.suspends p.state = false := by
  cases op with
  | emitStopping => simp [StopOp.suspends, h.stoppingEvent]
  | emitStopped => simp [StopOp.suspends, h.stoppedEvent]
  | stopDispatcherFromHandlerOrigin => rfl
  | release r =>
    obtain ⟨hheld, hdetached⟩ := h.done.nothingLeft r (of_decide_eq_true hop)
    cases r <;> simp [StopOp.suspends, hheld, hdetached]
  | _ => cases hop

/-- Statements at which nothing can be cancelled lead from such a path to such a path. -/
theorem always {stmts m : List StopStmt} (hall : stmts.all (StopStmt.all (quiet component first)) = true)
    (hkeeps : KeepsIdle component first before stmts) {inlineHandler : Bool} {Q : StopPath → Prop}
    (hm : ∀ p, Idle component first before deferred p → Always StopOp.perform (MayCancel component inlineHandler) Q m p)
    {p : StopPath} (h : Idle component first before deferred p) :
    Always StopOp.perform (MayCancel component inlineHandler) Q (stmts ++ m) p := by
  refine always_append_of_inv (I := Idle component first before deferred) (fun stmt hstmt p outcome hp ho => ?_)
    (fun p hp => hp.left) hm h
  cases outcome with
  | none => exact hp.turn (all_owns hall) hkeeps hstmt
  | some e =>
    obtain ⟨op, hop, -, hsuspends, -⟩ := ho e rfl
    cases stmt with
    | apply f => cases hop
    | run o runs leaves =>
      have ho : quiet component first o = true := List.all_eq_true.1 hall _ hstmt
      simp only [Stmt.operation, Option.ite_none_right_eq_some, Option.some.injEq] at hop
      rw [hop.2] at ho
      rw [hp.not_suspends ho] at hsuspends
      cases hsuspends

/-- Statements without a failure lead from such a path to such a path. -/
theorem executed {stmts : List StopStmt} (hall : stmts.all (StopStmt.all (component.owns first)) = true)
    (hkeeps : KeepsIdle component first before stmts) {p : StopPath} (h : Idle component first before deferred p) :
    Idle component first before deferred (execute StopOp.perform (fun _ => none) stmts p) :=
  execute_none_inv (fun _ hstmt _ hp => hp.turn hall hkeeps hstmt) h

/-! ### The code between the operations -/

theorem applyStoppedIfStopping {p : StopPath} (h : Idle component first before deferred p) :
    Idle component first before deferred (StopPath.update StopWorld.applyStoppedIfStopping p) := by
  have hevents : applyStoppedTransitionIfStopping p.state.lifecycle = (.stopped, []) := by
    rw [h.done.lifecycle]
    rfl
  refine ⟨⟨⟨congrArg Prod.fst hevents, h.done.stopping, h.done.released, h.done.published⟩, h.done.nothingLeft⟩,
    h.stoppingEvent, ?_, h.raise, h.completionDeferred, h.error, h.left⟩
  exact congrArg (fun r => r.2.head?) hevents

theorem absorbCancellation {p : StopPath} (h : Idle component first before deferred p) :
    Idle component first before deferred (StopPath.absorbCancellation p) := by
  unfold StopPath.absorbCancellation
  rw [if_neg (by simp [h.error])]
  exact h

theorem inlineDeliveryContext {p : StopPath} (h : Idle component first before deferred p) (active : Bool) :
    Idle component first before deferred (StopPath.update (fun w => w.inlineDeliveryContext active) p) :=
  ⟨⟨⟨h.done.lifecycle, h.done.stopping, h.done.released, h.done.published⟩, h.done.nothingLeft⟩, h.stoppingEvent,
    h.stoppedEvent, h.raise, h.completionDeferred, h.error, h.left⟩

theorem keepsIdle {stmts : List StopStmt}
    (h : ∀ f, .apply f ∈ stmts → f = StopPath.update StopWorld.applyStoppedIfStopping ∨ f = StopPath.absorbCancellation ∨
      ∃ active, f = StopPath.update fun w => w.inlineDeliveryContext active) : KeepsIdle component first before stmts := by
  intro f hf deferred p hp
  obtain rfl | rfl | ⟨active, rfl⟩ := h f hf
  · exact hp.applyStoppedIfStopping
  · exact hp.absorbCancellation
  · exact hp.inlineDeliveryContext active

/-! ### The owner's path -/

/-- The stop of the dispatcher leaves the rest as it is, whatever comes of it. -/
theorem stopDispatcher {p : StopPath} (h : Idle component first before deferred p) (outcome : Option Failure) :
    Done component first before (StopOp.stopDispatcher.perform outcome p.state) := by
  cases outcome <;>
    exact ⟨⟨h.done.lifecycle, rfl, h.done.released, h.done.published⟩, h.done.nothingLeft⟩

theorem pathOk_external {l m : List StopStmt} (hall : l.all (StopStmt.all (quiet component first)) = true)
    (hkeeps : KeepsIdle component first before l) (hm : m = [] ∨ m = [.attempt .stopDispatcher])
    (completion : List StopStmt) {p : StopPath} (h : Idle component first before false p) :
    PathOk component first before completion false (l ++ m) p := by
  have hwell : ∀ p : StopPath, p.state.completionDeferred = false → Done component first before p.state →
      EndsWell component first before completion false p := by
    intro p hdeferred hdone
    unfold EndsWell
    rw [if_neg (by simp [hdeferred])]
    exact ⟨rfl, hdone⟩
  have hend := h.executed (all_owns hall) hkeeps
  refine ⟨always hall hkeeps (fun p hp => ?_) h, ?_, fun _ => endsAtCancellation_append ne_of_quiet hall ?_⟩
  · rcases hm with rfl | rfl
    · exact hwell p hp.completionDeferred hp.done
    · refine ⟨fun hleft => ?_, fun _ outcome _ => hwell _ ?_ ?_⟩
      · rw [hp.left] at hleft
        cases hleft
      · cases outcome <;> exact hp.completionDeferred
      · rw [Stmt.attempt, Stmt.turn_run, if_pos rfl, Path.record_state]
        exact hp.stopDispatcher outcome
  · rw [execute_append]
    generalize execute StopOp.perform (fun _ => none) l p = q at hend
    obtain ⟨w, error, left⟩ := q
    obtain rfl : error = none := hend.error
    obtain rfl : left = false := hend.left
    rcases hm with rfl | rfl
    · exact ⟨rfl, hend.raise⟩
    · rw [execute_none_attempt]
      exact ⟨rfl, hend.raise⟩
  · rcases hm with rfl | rfl
    · trivial
    · exact ⟨fun h => (by cases h), fun _ => rfl, trivial⟩

theorem pathOk_inline {l completion : List StopStmt} (hall : l.all (StopStmt.all (quiet component first)) = true)
    (hkeeps : KeepsIdle component first before l)
    (hall' : completion.all (StopStmt.all (component.owns first)) = true)
    (hkeeps' : KeepsIdle component first before completion) {p : StopPath} (h : Idle component first before false p) :
    PathOk component first before completion true (l ++ [.apply StopPath.scheduleDeferredStopEvents]) p := by
  have hschedule : ∀ p, Idle component first before false p →
      Idle component first before true (StopPath.scheduleDeferredStopEvents p) := by
    intro p hp
    unfold StopPath.scheduleDeferredStopEvents
    rw [if_pos (by simp [Path.clean, hp.error])]
    exact ⟨⟨⟨hp.done.lifecycle, hp.done.stopping, hp.done.released, hp.done.published⟩, hp.done.nothingLeft⟩,
      hp.stoppingEvent, hp.stoppedEvent, hp.raise, rfl, hp.error, hp.left⟩
  refine ⟨always hall hkeeps (fun p hp => ?_) h, ?_, fun h => (by cases h)⟩
  · refine ⟨fun hleft => ?_, fun _ outcome _ => ?_⟩
    · rw [hp.left] at hleft
      cases hleft
    have hq := hschedule p hp
    refine endsWell_of_deferred hq.completionDeferred hq.error ?_
    have hcompletion : Idle component first before true { state := (StopPath.scheduleDeferredStopEvents p).state } :=
      ⟨hq.done, hq.stoppingEvent, hq.stoppedEvent, hq.raise, hq.completionDeferred, rfl, rfl⟩
    have hdone := hcompletion.executed hall' hkeeps'
    exact ⟨hdone.error, hdone.done⟩
  · have hend := h.executed (all_owns hall) hkeeps
    rw [execute_append, execute_apply hend.left]
    exact ⟨(hschedule _ hend).error, (hschedule _ hend).raise⟩

theorem beginStop {w : StopWorld} (h : Done component first before w) :
    Idle component first before false { state := w.beginStop } :=
  ⟨⟨⟨h.lifecycle, h.stopping, h.released, h.published⟩, h.nothingLeft⟩, rfl, rfl, rfl, rfl, rfl, rfl⟩

end Idle

/-! ## The plans -/

theorem TcpClientStopPlan.planStop_done {first : Bool} {before w : StopWorld} (h : Done .tcpClient first before w)
    (caller : StopCaller) :
    planStop caller w.beginStop = if w.worker then some ({ shouldStopDispatcher := true }, w.beginStop) else none := by
  have hl : w.beginStop.lifecycle = .stopped := h.lifecycle
  have hheld : ∀ r ∈ Component.tcpClient.cleanup first, w.beginStop.held r = false := fun r hr => (h.nothingLeft r hr).1
  have hs := hheld .supervisorTask (by simp [Component.cleanup])
  have hfull : isFullyStopped w.beginStop = !w.worker := by
    unfold isFullyStopped
    rw [hl, hs, hheld .heartbeatSenders (by simp [Component.cleanup]), hheld .connections (by simp [Component.cleanup])]
    rfl
  unfold planStop
  rw [hfull]
  rcases hw : w.worker with _ | _
  · rfl
  · have hw' : w.beginStop.worker = true := hw
    rw [if_neg (by simp), if_pos (.inr hl), if_pos rfl, addExistingSupervisor, if_neg (by simp [hs]), hs, hw']
    rfl

theorem pathOk_again_tcpClient {first : Bool} {before w : StopWorld} (h : Done .tcpClient first before w)
    (inlineHandler : Bool) {stop : OwnedStop} {v : StopWorld}
    (hplan : Component.tcpClient.planStop { origin := externalOrigin inlineHandler } w = some (stop, v)) :
    PathOk .tcpClient first before stop.completion inlineHandler stop.path { state := v } := by
  unfold Component.planStop at hplan
  dsimp only at hplan
  rw [TcpClientStopPlan.planStop_done h] at hplan
  split_ifs at hplan
  on_goal 2 => cases hplan
  cases hplan
  cases inlineHandler with
  | false =>
    refine Idle.pathOk_external (l := [.attempt .emitStopping, .attempt (.release .heartbeatSenders),
      .attempt (.release .connections), .apply (StopPath.update StopWorld.applyStoppedIfStopping), .ifClean .emitStopped])
      rfl (Idle.keepsIdle ?_) (.inr rfl) _ (.beginStop h)
    simp [Stmt.attempt, Stmt.ifClean]
  | true =>
    refine Idle.pathOk_inline (l := [.attempt (.release .heartbeatSenders), .attempt (.release .connections),
      .apply (StopPath.update StopWorld.applyStoppedIfStopping), .ifClean .stopDispatcherFromHandlerOrigin,
      .apply StopPath.absorbCancellation]) rfl (Idle.keepsIdle ?_) rfl (Idle.keepsIdle ?_) (.beginStop h)
    · simp [Stmt.attempt, Stmt.ifClean]
    · simp [TcpClientStopPlan.ownedStop, TcpClientStopPlan.completeDeferredStop, Stmt.plain]

theorem TcpServerStopPlan.planStop_done {first : Bool} {before w : StopWorld} (h : Done .tcpServer first before w) :
    planStop w.beginStop = ({}, { w.beginStop.detach [.listener, .heartbeatSenders, .connections] with
      lifecycle := .stopped, stoppingEvent := none }) := by
  have happly : applyStoppingTransitionIfActive w.beginStop.lifecycle = (.stopped, []) := by
    rw [show w.beginStop.lifecycle = .stopped from h.lifecycle]
    rfl
  have hheld : ∀ r ∈ Component.tcpServer.cleanup first, w.beginStop.held r = false := fun r hr => (h.nothingLeft r hr).1
  unfold planStop
  rw [happly, hheld .listener (by simp [Component.cleanup]), hheld .connections (by simp [Component.cleanup])]
  rfl

theorem pathOk_again_tcpServer {first : Bool} {before w : StopWorld} (h : Done .tcpServer first before w)
    (inlineHandler : Bool) {stop : OwnedStop} {v : StopWorld}
    (hplan : Component.tcpServer.planStop { origin := externalOrigin inlineHandler } w = some (stop, v)) :
    PathOk .tcpServer first before stop.completion inlineHandler stop.path { state := v } := by
  unfold Component.planStop at hplan
  dsimp only at hplan
  rw [TcpServerStopPlan.planStop_done h] at hplan
  cases hplan
  have hidle : Idle .tcpServer first before false
      { state := { w.beginStop.detach [.listener, .heartbeatSenders, .connections] with
        lifecycle := .stopped, stoppingEvent := none } } := by
    refine ⟨⟨⟨rfl, h.stopping, h.released, h.published⟩, fun r hr => ?_⟩, rfl, rfl, rfl, rfl, rfl, rfl⟩
    obtain ⟨hheld, hdetached⟩ := h.nothingLeft r hr
    simp [StopWorld.detach, StopResources.detach, StopWorld.beginStop, hheld, hdetached]
  cases inlineHandler with
  | false =>
    refine Idle.pathOk_external (l := [.attempt .emitStopping, .attempt (.release .heartbeatSenders)])
      rfl (Idle.keepsIdle ?_) (.inl rfl) _ hidle
    simp [Stmt.attempt]
  | true =>
    refine Idle.pathOk_inline (l := [.attempt .stopDispatcherFromHandlerOrigin, .attempt (.release .heartbeatSenders)])
      rfl (Idle.keepsIdle ?_) rfl (Idle.keepsIdle ?_) hidle
    · simp [Stmt.attempt]
    · simp [TcpServerStopPlan.ownedStop, TcpServerStopPlan.completeDeferredStop, Stmt.plain]

/-- The plan of a component that is done gives a path that ends well, or there is nothing to stop. -/
theorem pathOk_again {component : Component} {first : Bool} {before w : StopWorld} (h : Done component first before w)
    (inlineHandler : Bool) {stop : OwnedStop} {v : StopWorld}
    (hplan : component.planStop { origin := externalOrigin inlineHandler } w = some (stop, v)) :
    PathOk component first before stop.completion inlineHandler stop.path { state := v } := by
  cases component with
  | tcpClient => exact pathOk_again_tcpClient h inlineHandler hplan
  | tcpServer => exact pathOk_again_tcpServer h inlineHandler hplan
  | datagramReceiver =>
    have hl : w.beginStop.lifecycle = .stopped := h.lifecycle
    have hsocket : w.beginStop.held .socket = false := (h.nothingLeft .socket (by cases first <;> simp [Component.cleanup])).1
    unfold Component.planStop at hplan
    dsimp only at hplan
    rw [DatagramStopSnapshot.planStop, if_pos (by simp [DatagramStopSnapshot.isFullyStopped, hl, hsocket])] at hplan
    cases hplan

end Aionetx
