import Aionetx.Lifecycle.Cancellation

/-!
# The receiver's paths under the cancellation of their owner

* `pathOk_datagramReceiver` : the plan of an active receiver gives a path that ends well.
-/

namespace Aionetx

open Runs

/-! ## The datagram receiver -/

namespace DatagramStopSnapshot

/-- The plan of a receiver that is active. -/
def ofActive (w : ActiveComponent) : DatagramStopSnapshot where
  shouldTransitionToStopped := true
  shouldEmitClosedEvent := w.lifecycle ≠ .starting
  task := w.held .receiveTask
  sock := w.held .socket

theorem execute_none_socket (w : ActiveComponent) {v : StopWorld} (hv : v.receiveTaskRaised = false) {l : List StopResource}
    (hresources : v.toStopResources = l.foldl StopResources.release (w.toStopResources.detach [.receiveTask, .socket])) :
    execute StopOp.perform (fun _ => none)
        (if (ofActive w).sock then [.run (.release .socket) (fun p => !p.state.receiveTaskRaised) fun _ => false] else [])
        { state := v } =
      { state := { v with toStopResources := v.toStopResources.release .socket } } := by
  rcases h : w.held .socket with _ | _
  · rw [StopResources.release_of_not]
    · simp [ofActive, h]
    · simp [hresources, StopResources.foldl_release_held, StopResources.detach, h]
    · simp [hresources, StopResources.foldl_release_detached, StopResources.detach, w.nothingDetached, h]
  · have hsock : (ofActive w).sock = true := h
    rw [if_pos hsock, execute_none_run (by simp [hv])]
    rfl

theorem teardown_ofActive (w : ActiveComponent) (inlineHandler : Bool) :
    (ofActive w).teardownDatagramStopResources { origin := externalOrigin inlineHandler } =
      (if w.held .receiveTask && !inlineHandler then [.attempt (.release .receiveTask)] else []) ++
        if (ofActive w).sock then [.run (.release .socket) (fun p => !p.state.receiveTaskRaised) fun _ => false] else [] := by
  unfold teardownDatagramStopResources
  cases inlineHandler <;> simp [ofActive, externalOrigin]

/-- The receive task, unless its handler is active, and the socket are released. -/
theorem execute_none_teardown (w : ActiveComponent) (inlineHandler : Bool) {v : StopWorld}
    (hv : v.receiveTaskRaised = false) (hresources : v.toStopResources = w.toStopResources.detach [.receiveTask, .socket]) :
    execute StopOp.perform (fun _ => none)
        ((ofActive w).teardownDatagramStopResources { origin := externalOrigin inlineHandler }) { state := v } =
      { state := { v with
          toStopResources := (Component.datagramReceiver.cleanup inlineHandler).foldl StopResources.release
            (w.toStopResources.detach [.receiveTask, .socket]) } } := by
  rw [teardown_ofActive, execute_append]
  cases inlineHandler with
  | true =>
    rw [Bool.not_true, Bool.and_false]
    change execute _ _ _ { state := v } = _
    rw [execute_none_socket w hv (l := []) hresources, hresources]
    rfl
  | false =>
    rw [Bool.not_false, Bool.and_true]
    rcases h : w.held .receiveTask with _ | _
    · change execute _ _ _ { state := v } = _
      rw [execute_none_socket w hv (l := []) hresources, hresources]
      exact congrArg (fun x : StopResources => ({ state := { v with toStopResources := x.release .socket } } : StopPath))
        (w.release_planned h).symm
    · rw [if_pos rfl, execute_none_attempt, execute_nil]
      change execute _ _ _ { state := v.release .receiveTask } = _
      rw [execute_none_socket w (v := v.release .receiveTask) hv (l := [.receiveTask])
        (congrArg (fun x : StopResources => x.release .receiveTask) hresources)]
      exact congrArg (fun x : StopResources =>
        ({ state := { v with toStopResources := (x.release .receiveTask).release .socket } } : StopPath)) hresources

/-- The receiver before the publication of `STOPPED`. -/
structure ReadyForStopped (inlineHandler : Bool) (w : ActiveComponent) (v : StopWorld) : Prop where
  resources : v.toStopResources = (Component.datagramReceiver.cleanup inlineHandler).foldl StopResources.release
    (w.toStopResources.detach [.receiveTask, .socket])
  lifecycle : v.lifecycle = .stopping
  delivers : v.stopping = false ∨ v.inlineDelivery = true
  published : v.published = [⟨w.lifecycle, .stopping⟩]

/-- The component after it. -/
def afterStopped (v : StopWorld) : StopWorld := StopOp.emitStopped.perform none v.applyStopped

theorem ReadyForStopped.almostDone {inlineHandler : Bool} {w : ActiveComponent} {v : StopWorld}
    (h : ReadyForStopped inlineHandler w v) : AlmostDone .datagramReceiver inlineHandler w (afterStopped v) where
  planned := ⟨_, h.resources⟩
  lifecycle := by
    simp [afterStopped, StopWorld.applyStopped, StopWorld.applyLifecycleState, h.lifecycle, LifecycleTransition.of,
      LifecycleTransition.event, ComponentLifecycleState.allows]
  published := by
    rcases h.delivers with hs | hs
    all_goals
      simp [afterStopped, StopOp.perform, StopWorld.emitLifecycleEvent, StopWorld.applyStopped,
        StopWorld.applyLifecycleState, h.lifecycle, hs, h.published, LifecycleTransition.of,
        LifecycleTransition.event, ComponentLifecycleState.allows]

theorem execute_publishStopped (leaves : Failure → Bool) (v : StopWorld) (w : ActiveComponent) :
    execute StopOp.perform (fun _ => none) ((ofActive w).publishStoppedTransition leaves) { state := v } =
      { state := afterStopped v } := by
  change execute _ _
    [.apply (StopPath.update StopWorld.applyStopped), .run StopOp.emitStopped Path.clean leaves] _ = _
  rw [execute_none_update, execute_none_run rfl]
  rfl

theorem always_publishStopped {w : ActiveComponent} {v : StopWorld} (h : ReadyForStopped false w v)
    (hdeferred : v.completionDeferred = false) (completion : List StopStmt) :
    Always StopOp.perform (MayCancel .datagramReceiver false)
      (EndsWell .datagramReceiver false w.toStopWorld completion false)
      ((ofActive w).publishStoppedTransition (fun _ => true) ++ [.attempt .stopDispatcher]) { state := v } := by
  refine always_append_of_all (t := Component.datagramReceiver.sure) rfl Component.not_mayCancel_of_sure ?_
  rw [execute_publishStopped]
  exact always_stopDispatcher h.almostDone hdeferred completion

theorem completionEnds_deferredClose {w : ActiveComponent} {v : StopWorld} (h : ReadyForStopped false w v) :
    CompletionEnds .datagramReceiver false w.toStopWorld (ofActive w).completeAfterDeferredCloseAndStop { state := v } := by
  unfold CompletionEnds completeAfterDeferredCloseAndStop
  rw [List.cons_append, execute_none_attempt, execute_append]
  change (execute _ _ _ (execute _ _ _ { state := v })).error = none ∧ Done _ _ _ (execute _ _ _ (execute _ _ _ _)).state
  rw [execute_publishStopped, execute_none_attempt]
  exact ⟨rfl, h.almostDone.done none⟩

/-- The await of the deferred close: a cancellation leaves the rest to the completion task. -/
theorem always_awaitDeferredClose {w : ActiveComponent} {v : StopWorld} (h : ReadyForStopped false w v)
    (hdeferred : v.completionDeferred = false) :
    Always StopOp.perform (MayCancel .datagramReceiver false)
      (EndsWell .datagramReceiver false w.toStopWorld (ofActive w).completeAfterDeferredCloseAndStop false)
      (.run .awaitDeferredClose (fun p => p.clean && p.state.deferredCloseWaiters) (fun e => e = .cancelled) ::
        ((ofActive w).publishStoppedTransition (fun _ => true) ++ [.attempt .stopDispatcher])) { state := v } := by
  refine ⟨fun hp => (by cases hp), fun _ outcome ho => ?_⟩
  cases outcome with
  | none =>
    have hturn : (Stmt.run StopOp.awaitDeferredClose (fun p => p.clean && p.state.deferredCloseWaiters)
        (fun e => e = .cancelled) : StopStmt).turn StopOp.perform none { state := v } = { state := v } := by
      rw [Stmt.turn_run]
      split_ifs <;> rfl
    rw [hturn]
    exact always_publishStopped h hdeferred _
  | some e =>
    obtain ⟨op, hop, rfl, -, -⟩ := ho e rfl
    simp only [Stmt.operation, Option.ite_none_right_eq_some] at hop
    have hturn : (Stmt.run StopOp.awaitDeferredClose (fun p => p.clean && p.state.deferredCloseWaiters)
        (fun e => e = .cancelled) : StopStmt).turn StopOp.perform (some .cancelled) { state := v } =
          { state := { v with completionDeferred := true }, error := some .cancelled, left := true } := by
      rw [Stmt.turn_run, if_pos hop.1]
      rfl
    rw [hturn]
    refine ⟨fun _ => ?_, fun hp => (by cases hp)⟩
    unfold EndsWell
    rw [if_pos rfl]
    exact ⟨completionEnds_deferredClose ⟨h.resources, h.lifecycle, h.delivers, h.published⟩, fun h => (by cases h)⟩

/-- The receiver after the steps before the publication of its close. -/
def afterTeardown (w : ActiveComponent) : StopWorld :=
  { StopOp.emitStopping.perform none (w.planned [.receiveTask, .socket]) with
    toStopResources := (Component.datagramReceiver.cleanup false).foldl StopResources.release
      (w.toStopResources.detach [.receiveTask, .socket]) }

theorem readyForStopped_afterTeardown (w : ActiveComponent) (d : Bool) :
    ReadyForStopped false w { afterTeardown w with deferredCloseWaiters := d } where
  resources := rfl
  lifecycle := rfl
  delivers := .inl w.accepts
  published := by
    simp [afterTeardown, StopOp.perform, StopWorld.emitLifecycleEvent, ActiveComponent.planned, StopWorld.detach,
      StopWorld.beginStop, w.accepts, w.nothingPublished]

theorem execute_emitStopping_teardown (w : ActiveComponent) :
    execute StopOp.perform (fun _ => none)
        (.attempt .emitStopping :: (ofActive w).teardownDatagramStopResources { origin := .external })
        { state := w.planned [.receiveTask, .socket] } =
      { state := afterTeardown w } := by
  rw [execute_none_attempt]
  exact execute_none_teardown w false rfl rfl

theorem all_emitStopping_teardown (w : ActiveComponent) :
    (.attempt .emitStopping :: (ofActive w).teardownDatagramStopResources { origin := .external } : List StopStmt).all
      (StopStmt.all Component.datagramReceiver.sure) = true := by
  change (.attempt .emitStopping ::
    (ofActive w).teardownDatagramStopResources { origin := externalOrigin false } : List StopStmt).all _ = true
  rw [teardown_ofActive]
  unfold ofActive
  cases w.held .receiveTask <;> cases w.held .socket <;> rfl

theorem ne_of_sure (op : StopOp) (h : Component.datagramReceiver.sure op = true) :
    op ≠ .awaitDeferredClose ∧ op ≠ .stopDispatcher := by
  constructor <;> rintro rfl <;> cases h

theorem pathOk_ordinary (w : ActiveComponent) :
    PathOk .datagramReceiver false w.toStopWorld (ofActive w).completeAfterDeferredCloseAndStop false
      ((ofActive w).runOrdinaryStopPath { origin := .external }) { state := w.planned [.receiveTask, .socket] } := by
  have hready := readyForStopped_afterTeardown w
  by_cases hl : w.lifecycle = .starting
  · have hpath : (ofActive w).runOrdinaryStopPath { origin := .external } =
        ((.attempt .emitStopping :: (ofActive w).teardownDatagramStopResources { origin := .external }) ++
          (ofActive w).publishStoppedTransition fun _ => true) ++ [.attempt .stopDispatcher] := by
      simp [runOrdinaryStopPath, publishStopClosedEvent, ofActive, hl]
    rw [hpath]
    refine Aionetx.pathOk_ordinary _ ?_ ?_ (hready false).almostDone rfl rfl ?_
    · rw [List.all_append, all_emitStopping_teardown]
      rfl
    · rw [execute_append, execute_emitStopping_teardown, execute_publishStopped]
      rfl
    · rw [List.append_assoc]
      exact endsAtCancellation_append ne_of_sure (all_emitStopping_teardown w)
        ⟨fun h => (by cases h), fun h => (by cases h), fun h => (by cases h), fun _ => rfl, trivial⟩
  · have hpath : (ofActive w).runOrdinaryStopPath { origin := .external } =
        ((.attempt .emitStopping :: (ofActive w).teardownDatagramStopResources { origin := .external }) ++
          [.ifClean .publishClosed]) ++
          .run .awaitDeferredClose (fun p => p.clean && p.state.deferredCloseWaiters) (fun e => e = .cancelled) ::
            ((ofActive w).publishStoppedTransition (fun _ => true) ++ [.attempt .stopDispatcher]) := by
      simp [runOrdinaryStopPath, publishStopClosedEvent, ofActive, hl]
    have hrun : execute StopOp.perform (fun _ => none)
        ((.attempt .emitStopping :: (ofActive w).teardownDatagramStopResources { origin := .external }) ++
          [.ifClean .publishClosed]) { state := w.planned [.receiveTask, .socket] } =
        { state := { afterTeardown w with deferredCloseWaiters := w.closeIsDeferred } } := by
      rw [execute_append, execute_emitStopping_teardown, execute_none_ifClean]
      rfl
    rw [hpath]
    refine ⟨always_append_of_all ?_ Component.not_mayCancel_of_sure ?_, ?_, fun _ => ?_⟩
    · rw [List.all_append, all_emitStopping_teardown]
      rfl
    · rw [hrun]
      exact always_awaitDeferredClose (hready _) rfl
    · rw [execute_append, hrun, execute_none_idle rfl, execute_append, execute_publishStopped, execute_none_attempt]
      exact ⟨rfl, rfl⟩
    · rw [List.append_assoc]
      exact endsAtCancellation_append ne_of_sure (all_emitStopping_teardown w)
        ⟨fun h => (by cases h), fun h => (by cases h), fun _ => rfl, fun h => (by cases h),
          fun h => (by cases h), fun h => (by cases h), fun h => (by cases h), fun _ => rfl, trivial⟩

theorem completionEnds_deferred {w : ActiveComponent} {v : StopWorld}
    (hresources : v.toStopResources = (Component.datagramReceiver.cleanup true).foldl StopResources.release
      (w.toStopResources.detach [.receiveTask, .socket]))
    (hlifecycle : v.lifecycle = .stopping) (hevent : v.stoppingEvent = some ⟨w.lifecycle, .stopping⟩)
    (hpublished : v.published = []) :
    CompletionEnds .datagramReceiver true w.toStopWorld (ofActive w).completeAfterDeferredStopEvents { state := v } := by
  have hready : ∀ d, ReadyForStopped true w { StopOp.emitStopping.perform none (v.inlineDeliveryContext true) with
      deferredCloseWaiters := d } := fun d =>
    ⟨hresources, hlifecycle, .inr rfl, by
      simp [StopOp.perform, StopWorld.emitLifecycleEvent, StopWorld.inlineDeliveryContext, hevent, hpublished]⟩
  have hend : ∀ d, CompletionEnds .datagramReceiver true w.toStopWorld
      ((ofActive w).publishStoppedTransition (fun _ => false) ++
        [.apply (StopPath.update fun w => w.inlineDeliveryContext false), .attempt .stopDispatcher])
      { state := { StopOp.emitStopping.perform none (v.inlineDeliveryContext true) with deferredCloseWaiters := d } } := by
    intro d
    unfold CompletionEnds
    rw [execute_append, execute_publishStopped, execute_none_update, execute_none_attempt]
    exact ⟨rfl, ((hready d).almostDone.inlineDeliveryContext false).done none⟩
  unfold CompletionEnds completeAfterDeferredStopEvents
  rw [List.append_assoc, List.append_assoc, execute_append, execute_none_plain, execute_none_update,
    execute_none_attempt, execute_nil]
  by_cases hl : w.lifecycle = .starting
  · have hclosed : (ofActive w).shouldEmitClosedEvent = false := by simp [ofActive, hl]
    rw [hclosed]
    exact hend v.deferredCloseWaiters
  · have hclosed : (ofActive w).shouldEmitClosedEvent = true := by simp [ofActive, hl]
    rw [hclosed, if_pos rfl, List.cons_append, List.singleton_append, execute_none_ifClean, execute_none_join]
    exact hend v.closeIsDeferred

/-- The owner's path for a caller that finds an active inline handler: nothing of it can be cancelled. -/
theorem pathOk_deferred (w : ActiveComponent) :
    PathOk .datagramReceiver true w.toStopWorld (ofActive w).completeAfterDeferredStopEvents true
      ((ofActive w).runDeferredStopPath { origin := .activeInlineHandler })
      { state := w.planned [.receiveTask, .socket] } := by
  have hrun : execute StopOp.perform (fun _ => none)
      ((ofActive w).runDeferredStopPath { origin := .activeInlineHandler }) { state := w.planned [.receiveTask, .socket] } =
      { state := { w.planned [.receiveTask, .socket] with
          toStopResources := (Component.datagramReceiver.cleanup true).foldl StopResources.release
            (w.toStopResources.detach [.receiveTask, .socket])
          stopping := true
          completionDeferred := true } } := by
    unfold runDeferredStopPath
    rw [execute_append]
    change execute _ _ _ (execute _ _
      ((ofActive w).teardownDatagramStopResources { origin := externalOrigin true }) _) = _
    rw [execute_none_teardown w true rfl rfl, execute_none_ifClean, execute_none_schedule]
    rfl
  have hsure : ((ofActive w).runDeferredStopPath { origin := .activeInlineHandler }).all
      (StopStmt.all fun op => op = .release .socket ∨ op = .stopDispatcherFromHandlerOrigin) = true := by
    change ((ofActive w).teardownDatagramStopResources { origin := externalOrigin true } ++ _).all _ = true
    rw [teardown_ofActive]
    unfold ofActive
    cases w.held .receiveTask <;> cases w.held .socket <;> rfl
  refine ⟨?_, ?_, fun h => (by cases h)⟩
  · rw [← List.append_nil ((ofActive w).runDeferredStopPath _)]
    refine always_append_of_all hsure (fun op p e hop hmay => ?_) ?_
    · have hs := hmay.2.1
      rcases of_decide_eq_true hop with rfl | rfl <;> cases hs
    · rw [hrun]
      exact endsWell_of_deferred rfl rfl (completionEnds_deferred rfl rfl rfl w.nothingPublished)
  · rw [hrun]
    exact ⟨rfl, rfl⟩

end DatagramStopSnapshot

theorem pathOk_datagramReceiver (w : ActiveComponent) (inlineHandler : Bool) :
    ∃ stop v,
      Component.datagramReceiver.planStop { origin := externalOrigin inlineHandler } w.toStopWorld = some (stop, v) ∧
      PathOk .datagramReceiver inlineHandler w.toStopWorld stop.completion inlineHandler stop.path { state := v } := by
  unfold Component.planStop
  dsimp only
  rw [DatagramStopSnapshot.planStop_active]
  refine ⟨_, _, rfl, ?_⟩
  cases inlineHandler with
  | false => exact DatagramStopSnapshot.pathOk_ordinary w
  | true => exact DatagramStopSnapshot.pathOk_deferred w

/-- The plan of an active component gives a path that ends well. -/
theorem pathOk_active (component : Component) (w : ActiveComponent) (inlineHandler : Bool) :
    ∃ stop v, component.planStop { origin := externalOrigin inlineHandler } w.toStopWorld = some (stop, v) ∧
      PathOk component inlineHandler w.toStopWorld stop.completion inlineHandler stop.path { state := v } := by
  cases component with
  | tcpClient => exact pathOk_tcpClient w inlineHandler
  | tcpServer => exact pathOk_tcpServer w inlineHandler
  | datagramReceiver => exact pathOk_datagramReceiver w inlineHandler

end Aionetx
