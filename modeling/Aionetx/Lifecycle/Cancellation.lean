import Aionetx.Lifecycle.Callers

/-!
# The paths of a stop under the cancellation of their owner

* `foldl_release` : releasing resources one after the other;
* `Done` : the component after a stop, in a state in which a further stop finds nothing to release;
* `CompletionEnds` : the completion task, left alone, ends without an error in a component that is done;
* `EndsWell` : how the path of an owner may end; `PathOk` : what the path in progress promises, whatever cancellation it
  absorbs;
* `pathOk_tcpClient`, `pathOk_tcpServer`, `pathOk_datagramReceiver` : the plan of an active component gives such a path;
  `pathOk_again` : so does the plan of a component that is done.
-/

namespace Aionetx

open Runs

/-! ## Releasing resources -/

namespace StopResources

theorem release_of_not {x : StopResources} {r : StopResource} (h : x.held r = false) (h' : x.detached r = false) :
    x.release r = x := by
  unfold release
  rw [if_neg (by simp [h, h'])]

theorem release_held (x : StopResources) (r r' : StopResource) :
    (x.release r).held r' = (x.held r' && !decide (r' = r)) := by
  unfold release
  split_ifs with h
  · by_cases hr : r' = r <;> simp [Function.update, hr]
  · by_cases hr : r' = r
    · subst hr
      simp_all
    · simp [hr]

theorem release_detached (x : StopResources) (r r' : StopResource) :
    (x.release r).detached r' = (x.detached r' && !decide (r' = r)) := by
  unfold release
  split_ifs with h
  · by_cases hr : r' = r <;> simp [Function.update, hr]
  · by_cases hr : r' = r
    · subst hr
      simp_all
    · simp [hr]

theorem release_released (x : StopResources) (r : StopResource) :
    (x.release r).released = x.released ++ [r].filter fun r => x.held r || x.detached r := by
  unfold release
  split_ifs with h <;> simp [h]

theorem foldl_release_held (rs : List StopResource) (x : StopResources) (r : StopResource) :
    (rs.foldl release x).held r = (x.held r && !decide (r ∈ rs)) := by
  induction rs generalizing x with
  | nil => simp
  | cons r' rs ih =>
    rw [List.foldl_cons, ih, release_held]
    by_cases h : r = r' <;> simp [h]

theorem foldl_release_detached (rs : List StopResource) (x : StopResources) (r : StopResource) :
    (rs.foldl release x).detached r = (x.detached r && !decide (r ∈ rs)) := by
  induction rs generalizing x with
  | nil => simp
  | cons r' rs ih =>
    rw [List.foldl_cons, ih, release_detached]
    by_cases h : r = r' <;> simp [h]

/-- Resources that are released one after the other: each that is there is recorded once. -/
theorem foldl_release_released {rs : List StopResource} (hrs : rs.Nodup) (x : StopResources) :
    (rs.foldl release x).released = x.released ++ rs.filter fun r => x.held r || x.detached r := by
  induction rs generalizing x with
  | nil => simp
  | cons r rs ih =>
    obtain ⟨hr, hrs⟩ := List.nodup_cons.1 hrs
    have hfilter : rs.filter (fun r' => (x.release r).held r' || (x.release r).detached r') =
        rs.filter fun r' => x.held r' || x.detached r' := by
      refine List.filter_congr fun r' hr' => ?_
      have hne : r' ≠ r := fun h => hr (h ▸ hr')
      simp [release_held, release_detached, hne]
    rw [List.foldl_cons, ih hrs, hfilter, release_released, List.append_assoc, ← List.filter_append,
      List.singleton_append]

end StopResources

/-! ## What the paths lead to -/

/-- The component after a stop: nothing is left that a further stop would release. -/
structure Done (component : Component) (inlineHandler : Bool) (before after : StopWorld) : Prop
    extends Completed component inlineHandler before after where
  nothingLeft : ∀ r ∈ component.cleanup inlineHandler, after.held r = false ∧ after.detached r = false

theorem nodup_cleanup (component : Component) (inlineHandler : Bool) : (component.cleanup inlineHandler).Nodup := by
  cases component <;> cases inlineHandler <;> decide

/-- A component is done once its plan's resources were released one after the other and both events published. -/
theorem done_of {component : Component} {inlineHandler : Bool} {w : ActiveComponent} {after : StopWorld}
    (planned : List StopResource)
    (hresources : after.toStopResources =
      (component.cleanup inlineHandler).foldl StopResources.release (w.toStopResources.detach planned))
    (hlifecycle : after.lifecycle = .stopped) (hstopping : after.stopping = true)
    (hpublished : after.published = [⟨w.lifecycle, .stopping⟩, ⟨.stopping, .stopped⟩]) :
    Done component inlineHandler w.toStopWorld after := by
  have hthere : ∀ r, ((w.toStopResources.detach planned).held r || (w.toStopResources.detach planned).detached r) =
      w.held r := by
    intro r
    simp only [StopResources.detach, w.nothingDetached, Bool.false_or]
    cases w.held r <;> simp
  refine ⟨⟨hlifecycle, hstopping, ?_, hpublished⟩, fun r hr => ?_⟩
  · rw [hresources, StopResources.foldl_release_released (nodup_cleanup ..)]
    simp only [hthere]
    exact (congrArg (· ++ _) w.nothingReleased).trans (List.nil_append _)
  · rw [hresources, StopResources.foldl_release_held, StopResources.foldl_release_detached]
    simp [hr]

/-- The completion task, which nobody cancels. -/
def CompletionEnds (component : Component) (inlineHandler : Bool) (before : StopWorld) (rest : List StopStmt)
    (p : StopPath) : Prop :=
  (execute StopOp.perform (fun _ => none) rest p).error = none ∧
    Done component inlineHandler before (execute StopOp.perform (fun _ => none) rest p).state

/-- The end of an owner's path: the component is done, or the completion task has been created. -/
def EndsWell (component : Component) (first : Bool) (before : StopWorld) (completion : List StopStmt)
    (inlineHandler : Bool) (p : StopPath) : Prop :=
  if p.state.completionDeferred then
    CompletionEnds component first before completion { state := p.state } ∧ (inlineHandler = true → p.error = none)
  else inlineHandler = false ∧ Done component first before p.state

/-- The cancellations of an owner at the awaits of its path: where the path absorbs them, and at the last one. -/
def MayCancel (component : Component) (inlineHandler : Bool) (p : StopPath) (op : StopOp) (e : Failure) : Prop :=
  e = .cancelled ∧ op.suspends p.state = true ∧
    (component.absorbsCancellation inlineHandler op = true ∨ op = .stopDispatcher)

/-- Whether the operation of a statement satisfies a test. -/
def StopStmt.all (test : StopOp → Bool) : StopStmt → Bool
  | .apply _ => true
  | .run op _ _ => test op

def EndsAtCancellation : List StopStmt → Prop
  | [] => True
  | .apply _ :: rest => EndsAtCancellation rest
  | .run op _ leaves :: rest =>
    (op = .awaitDeferredClose → leaves .cancelled = true) ∧ (op = .stopDispatcher → rest = []) ∧ EndsAtCancellation rest

theorem endsAtCancellation_append {test : StopOp → Bool}
    (htest : ∀ op, test op = true → op ≠ .awaitDeferredClose ∧ op ≠ .stopDispatcher) {l m : List StopStmt}
    (hl : l.all (StopStmt.all test) = true) (hm : EndsAtCancellation m) : EndsAtCancellation (l ++ m) := by
  induction l with
  | nil => exact hm
  | cons stmt l ih =>
    obtain ⟨hstmt, hrest⟩ : stmt.all test = true ∧ l.all (StopStmt.all test) = true := by simpa using hl
    cases stmt with
    | apply f => exact ih hrest
    | run op runs leaves =>
      have hop := htest op hstmt
      exact ⟨fun h => absurd h hop.1, fun h => absurd h hop.2, ih hrest⟩

/-- What the path of an owner promises: it ends well, without an error if nothing is cancelled. -/
structure PathOk (component : Component) (first : Bool) (before : StopWorld) (completion : List StopStmt)
    (inlineHandler : Bool) (rest : List StopStmt) (p : StopPath) : Prop where
  always : Always StopOp.perform (MayCancel component inlineHandler)
    (EndsWell component first before completion inlineHandler) rest p
  clean : (execute StopOp.perform (fun _ => none) rest p).error = none ∧
    (execute StopOp.perform (fun _ => none) rest p).state.raiseCancelAfterStopWaiter = false
  ends : inlineHandler = false → EndsAtCancellation rest

/-! ## The plans of an active component -/

def ActiveComponent.planned (w : ActiveComponent) (rs : List StopResource) : StopWorld :=
  { w.beginStop.detach rs with lifecycle := .stopping, stoppingEvent := some ⟨w.lifecycle, .stopping⟩ }

@[simp] theorem externalOrigin_handlerOriginated (inlineHandler : Bool) :
    (externalOrigin inlineHandler).handlerOriginated = false := by cases inlineHandler <;> rfl

@[simp] theorem externalOrigin_defers (inlineHandler : Bool) :
    (externalOrigin inlineHandler).defersTerminalEvents = inlineHandler := by cases inlineHandler <;> rfl

theorem ActiveComponent.lifecycle_ne (w : ActiveComponent) : w.lifecycle ≠ .stopped ∧ w.lifecycle ≠ .stopping := by
  constructor <;> intro h <;> have := w.active <;> rw [h] at this <;> cases this

theorem ActiveComponent.release_planned (w : ActiveComponent) {l : List StopResource} {r : StopResource}
    (h : w.held r = false) : (w.toStopResources.detach l).release r = w.toStopResources.detach l :=
  StopResources.release_of_not (by simp [StopResources.detach, h])
    (by simp [StopResources.detach, w.nothingDetached, h])

theorem TcpClientStopPlan.planStop_active (w : ActiveComponent) (inlineHandler : Bool) :
    planStop { origin := externalOrigin inlineHandler } w.beginStop =
      some ({ supervisorTask := w.held .supervisorTask, shouldStopDispatcher := true }, w.planned [.supervisorTask]) := by
  have hl : w.beginStop.lifecycle = w.lifecycle := rfl
  unfold planStop
  rw [if_neg (by simp [isFullyStopped, hl, w.lifecycle_ne.1]), if_neg (by simp [hl, w.lifecycle_ne]),
    StopWorld.applyLifecycleState_stopping w.beginStop w.active]
  simp only [externalOrigin_handlerOriginated, Bool.or_false, Bool.and_false, Bool.false_and]
  rfl

theorem TcpServerStopPlan.planStop_active (w : ActiveComponent) :
    planStop w.beginStop =
      ({ server := w.held .listener, shouldTransitionToStopped := true, connections := w.held .connections },
        w.planned [.listener, .heartbeatSenders, .connections]) := by
  have happly : applyStoppingTransitionIfActive w.beginStop.lifecycle = (.stopping, [⟨w.lifecycle, .stopping⟩]) := by
    change applyStoppingTransitionIfActive w.lifecycle = _
    unfold applyStoppingTransitionIfActive
    rcases h : w.lifecycle with _ | _ | _ | _
    · exact absurd h w.lifecycle_ne.1
    · simp
    · simp
    · exact absurd h w.lifecycle_ne.2
  unfold planStop
  rw [happly]
  rfl

theorem DatagramStopSnapshot.planStop_active (w : ActiveComponent) :
    planStop w.beginStop =
      some ({ shouldTransitionToStopped := true
              shouldEmitClosedEvent := w.lifecycle ≠ .starting
              task := w.held .receiveTask
              sock := w.held .socket }, w.planned [.receiveTask, .socket]) := by
  have hl : w.beginStop.lifecycle = w.lifecycle := rfl
  unfold planStop
  rw [if_neg (by simp [isFullyStopped, hl, w.lifecycle_ne.1]),
    StopWorld.applyLifecycleState_stopping w.beginStop w.active]
  simp only [hl, ne_eq, w.lifecycle_ne.1, not_false_eq_true, decide_true]
  rfl

/-! ## The ends of the paths -/

/-- A statement whose operation does not fail. -/
theorem execute_none_run {op : StopOp} {runs : StopPath → Bool} {w : StopWorld} (h : runs { state := w } = true)
    (leaves : Failure → Bool) (stmts : List StopStmt) :
    execute StopOp.perform (fun _ => none) (.run op runs leaves :: stmts) { state := w } =
      execute StopOp.perform (fun _ => none) stmts { state := op.perform none w } := by
  rw [execute_cons]
  simp [executeStep, Stmt.turn, Stmt.operation, h]

section
variable {w : StopWorld} (stmts : List StopStmt)

@[simp] theorem execute_none_attempt (op : StopOp) :
    execute StopOp.perform (fun _ => none) (.attempt op :: stmts) { state := w } =
      execute StopOp.perform (fun _ => none) stmts { state := op.perform none w } := execute_none_run rfl _ _

@[simp] theorem execute_none_ifClean (op : StopOp) :
    execute StopOp.perform (fun _ => none) (.ifClean op :: stmts) { state := w } =
      execute StopOp.perform (fun _ => none) stmts { state := op.perform none w } := execute_none_run rfl _ _

@[simp] theorem execute_none_plain (op : StopOp) :
    execute StopOp.perform (fun _ => none) (.plain op :: stmts) { state := w } =
      execute StopOp.perform (fun _ => none) stmts { state := op.perform none w } := execute_none_run rfl _ _

@[simp] theorem execute_none_update (f : StopWorld → StopWorld) :
    execute StopOp.perform (fun _ => none) (.apply (StopPath.update f) :: stmts) { state := w } =
      execute StopOp.perform (fun _ => none) stmts { state := f w } := rfl

@[simp] theorem execute_none_absorbCancellation :
    execute StopOp.perform (fun _ => none) (.apply StopPath.absorbCancellation :: stmts) { state := w } =
      execute StopOp.perform (fun _ => none) stmts { state := w } := rfl

@[simp] theorem execute_none_schedule :
    execute StopOp.perform (fun _ => none) (.apply StopPath.scheduleDeferredStopEvents :: stmts) { state := w } =
      execute StopOp.perform (fun _ => none) stmts { state := { w with completionDeferred := true } } := rfl

end

/-- Everything but the stop of the dispatcher has been done. -/
structure AlmostDone (component : Component) (inlineHandler : Bool) (w : ActiveComponent) (after : StopWorld) : Prop where
  planned : ∃ rs, after.toStopResources =
    (component.cleanup inlineHandler).foldl StopResources.release (w.toStopResources.detach rs)
  lifecycle : after.lifecycle = .stopped
  published : after.published = [⟨w.lifecycle, .stopping⟩, ⟨.stopping, .stopped⟩]

theorem AlmostDone.inlineDeliveryContext {component : Component} {inlineHandler : Bool} {w : ActiveComponent}
    {after : StopWorld} (h : AlmostDone component inlineHandler w after) (active : Bool) :
    AlmostDone component inlineHandler w (after.inlineDeliveryContext active) := ⟨h.planned, h.lifecycle, h.published⟩

theorem AlmostDone.done {component : Component} {inlineHandler : Bool} {w : ActiveComponent} {after : StopWorld}
    (h : AlmostDone component inlineHandler w after) (outcome : Option Failure) :
    Done component inlineHandler w.toStopWorld (StopOp.stopDispatcher.perform outcome after) := by
  obtain ⟨rs, hrs⟩ := h.planned
  cases outcome
  · exact done_of rs hrs h.lifecycle rfl h.published
  · exact done_of rs hrs h.lifecycle rfl h.published

theorem always_stopDispatcher {component : Component} {w : ActiveComponent} {after : StopWorld}
    (h : AlmostDone component false w after) (hdeferred : after.completionDeferred = false) (completion : List StopStmt) :
    Always StopOp.perform (MayCancel component false) (EndsWell component false w.toStopWorld completion false)
      [.attempt .stopDispatcher] { state := after } := by
  refine ⟨fun hp => (by cases hp), fun _ outcome _ => ?_⟩
  have hd : ∀ p : StopPath, p.state = StopOp.stopDispatcher.perform outcome after →
      EndsWell component false w.toStopWorld completion false p := by
    intro p hp
    unfold EndsWell
    rw [hp, if_neg]
    · exact ⟨rfl, h.done outcome⟩
    · cases outcome <;> simp [StopOp.perform, hdeferred]
  exact hd _ (by simp [Stmt.attempt, Stmt.turn])

/-- An operation of an ordinary path at which the owner is not cancelled. -/
def Component.sure (component : Component) (op : StopOp) : Bool :=
  op ≠ .stopDispatcher && !component.absorbsCancellation false op

/-- Statements whose operations satisfy a test that rules out a cancellation are simply executed. -/
theorem always_append_of_all {component : Component} {inlineHandler : Bool} {Q : StopPath → Prop} {l m : List StopStmt}
    {t : StopOp → Bool} (hl : l.all (StopStmt.all t) = true)
    (htest : ∀ op p e, t op = true → ¬MayCancel component inlineHandler p op e) {p : StopPath}
    (h : Always StopOp.perform (MayCancel component inlineHandler) Q m (execute StopOp.perform (fun _ => none) l p)) :
    Always StopOp.perform (MayCancel component inlineHandler) Q (l ++ m) p := by
  refine always_append_sure (fun stmt hstmt q op e hop hmay => ?_) h
  cases stmt with
  | apply f => cases hop
  | run o runs leaves =>
    have ho : t o = true := List.all_eq_true.1 hl _ hstmt
    simp only [Stmt.operation, Option.ite_none_right_eq_some, Option.some.injEq] at hop
    rw [hop.2] at ho
    exact htest op q e ho hmay

theorem Component.not_mayCancel_of_sure {component : Component} (op : StopOp) (p : StopPath) (e : Failure)
    (h : component.sure op = true) : ¬MayCancel component false p op e := by
  obtain ⟨hne, hnot⟩ : op ≠ .stopDispatcher ∧ component.absorbsCancellation false op = false := by
    simpa [Component.sure] using h
  rintro ⟨-, -, habs | hlast⟩
  · rw [hnot] at habs
    cases habs
  · exact hne hlast

/-- An ordinary path: only its last statement can be cancelled. -/
theorem pathOk_ordinary {component : Component} {w : ActiveComponent} {after v : StopWorld} {stmts : List StopStmt}
    (completion : List StopStmt) (hops : stmts.all (StopStmt.all component.sure) = true)
    (hrun : execute StopOp.perform (fun _ => none) stmts { state := v } = { state := after })
    (h : AlmostDone component false w after) (hdeferred : after.completionDeferred = false)
    (hraise : after.raiseCancelAfterStopWaiter = false) (hends : EndsAtCancellation (stmts ++ [.attempt .stopDispatcher])) :
    PathOk component false w.toStopWorld completion false (stmts ++ [.attempt .stopDispatcher]) { state := v } := by
  refine ⟨always_append_of_all hops Component.not_mayCancel_of_sure ?_, ?_, fun _ => hends⟩
  · rw [hrun]
    exact always_stopDispatcher h hdeferred completion
  · rw [execute_append, hrun]
    exact ⟨rfl, hraise⟩

/-- A deferred path has left the terminal publication to the completion task. -/
structure LeftToCompletion (component : Component) (inlineHandler : Bool) (w : ActiveComponent) (after : StopWorld) :
    Prop where
  planned : ∃ rs, after.toStopResources =
    (component.cleanup inlineHandler).foldl StopResources.release (w.toStopResources.detach rs)
  lifecycle : after.lifecycle = .stopped
  stoppingEvent : after.stoppingEvent = some ⟨w.lifecycle, .stopping⟩
  stoppedEvent : after.stoppedEvent = some ⟨.stopping, .stopped⟩
  published : after.published = []

theorem execute_none_idle {op : StopOp} {w : StopWorld} (h : op.perform none w = w) (runs : StopPath → Bool)
    (leaves : Failure → Bool) (stmts : List StopStmt) :
    execute StopOp.perform (fun _ => none) (.run op runs leaves :: stmts) { state := w } =
      execute StopOp.perform (fun _ => none) stmts { state := w } := by
  rcases hr : runs { state := w } with _ | _
  · exact execute_run_of_not hr ..
  · rw [execute_none_run hr, h]

@[simp] theorem execute_none_join {w : StopWorld} (runs : StopPath → Bool) (leaves : Failure → Bool)
    (stmts : List StopStmt) :
    execute StopOp.perform (fun _ => none) (.run .joinDeferredClose runs leaves :: stmts) { state := w } =
      execute StopOp.perform (fun _ => none) stmts { state := w } := execute_none_idle rfl ..

/-- The completion task of a TCP component publishes both events and stops the dispatcher. -/
theorem completionEnds_tcp {component : Component} {w : ActiveComponent} {after : StopWorld}
    (h : LeftToCompletion component true w after) {awaits : List StopStmt}
    (hawaits : awaits = [] ∨ awaits = [.plain (.release .supervisorTask)] ∧ .supervisorTask ∈ component.cleanup true) :
    CompletionEnds component true w.toStopWorld
      ([.plain .waitForHandlerContext, .apply (StopPath.update fun w => w.inlineDeliveryContext true),
        .plain .emitStopping, .run .joinDeferredClose (fun p => p.state.deferredCloseWaiters) fun _ => true] ++ awaits ++
        [.plain .emitStopped, .apply (StopPath.update fun w => w.inlineDeliveryContext false), .plain .stopDispatcher])
      { state := after } := by
  obtain ⟨rs, hrs⟩ := h.planned
  unfold CompletionEnds
  rcases hawaits with rfl | ⟨rfl, hmem⟩
  · simp only [List.cons_append, List.nil_append, execute_none_plain, execute_none_update, execute_none_join, execute_nil]
    simp only [StopOp.perform, StopWorld.emitLifecycleEvent, StopWorld.inlineDeliveryContext]
    refine ⟨trivial, done_of rs hrs h.lifecycle rfl ?_⟩
    simp [h.stoppingEvent, h.stoppedEvent, h.published]
  · simp only [List.cons_append, List.nil_append, execute_none_plain, execute_none_update, execute_none_join, execute_nil]
    simp only [StopOp.perform, StopWorld.emitLifecycleEvent, StopWorld.inlineDeliveryContext, StopWorld.release]
    refine ⟨trivial, done_of rs ?_ h.lifecycle rfl ?_⟩
    · rw [StopResources.release_of_not, hrs]
      · rw [hrs, StopResources.foldl_release_held]
        simp [hmem]
      · rw [hrs, StopResources.foldl_release_detached]
        simp [hmem]
    · simp [h.stoppingEvent, h.stoppedEvent, h.published]

def StopOp.releases : StopOp → Bool
  | .release .receiveTask => false
  | .release _ | .waitListenerClosed => true
  | _ => false

def StopOp.onResources (op : StopOp) (x : StopResources) : StopResources :=
  match op with
  | .release r => x.release r
  | _ => x

/-- What such steps do one after the other. -/
def StopResources.releaseAll (x : StopResources) (ops : List StopOp) : StopResources :=
  ops.foldl (fun x op => op.onResources x) x

@[simp] theorem StopResources.releaseAll_nil (x : StopResources) : x.releaseAll [] = x := rfl

@[simp] theorem StopResources.releaseAll_cons (x : StopResources) (op : StopOp) (ops : List StopOp) :
    x.releaseAll (op :: ops) = (op.onResources x).releaseAll ops := rfl

/-- Whatever comes of it, such a step releases its resource and touches nothing else but the deferred close. -/
theorem StopOp.perform_of_releases {op : StopOp} (h : op.releases = true) (outcome : Option Failure) (w : StopWorld) :
    ∃ d, op.perform outcome w =
      { w with toStopResources := op.onResources w.toStopResources, deferredCloseWaiters := d } := by
  cases op with
  | release r =>
    cases r with
    | receiveTask => cases h
    | connections =>
      cases outcome
      · exact ⟨w.closeIsDeferred, rfl⟩
      · exact ⟨w.deferredCloseWaiters, rfl⟩
    | _ => exact ⟨w.deferredCloseWaiters, by cases outcome <;> rfl⟩
  | waitListenerClosed => exact ⟨w.deferredCloseWaiters, by cases outcome <;> rfl⟩
  | _ => cases h

/-- Attempts that only release resources, each of which may be cancelled. -/
theorem always_releases {component : Component} {inlineHandler : Bool} {Q : StopPath → Prop} {m : List StopStmt}
    (w : StopWorld) (ops : List StopOp) (hops : ops.all StopOp.releases = true)
    (hm : ∀ d, ∀ error, error = none ∨ error = some .cancelled →
      Always StopOp.perform (MayCancel component inlineHandler) Q m
        { state := { w with
            toStopResources := w.releaseAll ops
            deferredCloseWaiters := d }
          error := error }) :
    Always StopOp.perform (MayCancel component inlineHandler) Q (ops.map .attempt ++ m) { state := w } := by
  refine always_attempts
    (I := fun rest s => rest.all StopOp.releases = true ∧ ∃ x d,
      s = { w with toStopResources := x, deferredCloseWaiters := d } ∧
        x.releaseAll rest = w.releaseAll ops)
    (E := fun error => error = none ∨ error = some .cancelled) ?_ ?_ ops
    ⟨hops, w.toStopResources, w.deferredCloseWaiters, rfl, rfl⟩ (.inl rfl)
  · rintro op rest s error e ⟨hall, x, d, rfl, hx⟩ hmay
    obtain ⟨hop, hrest⟩ : op.releases = true ∧ rest.all StopOp.releases = true := by simpa using hall
    obtain ⟨d', hd'⟩ := StopOp.perform_of_releases hop e { w with toStopResources := x, deferredCloseWaiters := d }
    refine ⟨⟨hrest, op.onResources x, d', hd', hx⟩, fun herror => ?_⟩
    rcases herror with rfl | rfl
    · cases e with
      | none => exact .inl rfl
      | some e => exact .inr (congrArg some (hmay e rfl).1)
    · exact .inr rfl
  · rintro s error ⟨-, x, d, rfl, hx⟩ herror
    rw [← hx] at hm
    exact hm d error herror

/-- `stop_from_handler_origin` awaits nothing, so the statements around it cannot be cancelled. -/
theorem always_handlerOrigin {component : Component} {inlineHandler : Bool} {Q : StopPath → Prop} {l m : List StopStmt}
    (hl : l.all (StopStmt.all fun op => op = .stopDispatcherFromHandlerOrigin) = true) {p : StopPath}
    (h : Always StopOp.perform (MayCancel component inlineHandler) Q m (execute StopOp.perform (fun _ => none) l p)) :
    Always StopOp.perform (MayCancel component inlineHandler) Q (l ++ m) p := by
  refine always_append_of_all hl (fun op p e hop hmay => ?_) h
  have hs := hmay.2.1
  rw [of_decide_eq_true hop] at hs
  cases hs

theorem endsWell_of_deferred {component : Component} {first inlineHandler : Bool} {before : StopWorld}
    {completion : List StopStmt} {p : StopPath} (hdeferred : p.state.completionDeferred = true) (herror : p.error = none)
    (h : CompletionEnds component first before completion { state := p.state }) :
    EndsWell component first before completion inlineHandler p := by
  unfold EndsWell
  rw [if_pos hdeferred]
  exact ⟨h, fun _ => herror⟩

/-! ## The TCP components -/

/-- Attempts that only release resources, with nothing cancelled. -/
theorem execute_none_releases {ops : List StopOp} (hops : ops.all StopOp.releases = true) (w : StopWorld) :
    ∃ d, execute StopOp.perform (fun _ => none) (ops.map .attempt) { state := w } =
      { state := { w with
          toStopResources := w.releaseAll ops, deferredCloseWaiters := d } } := by
  induction ops generalizing w with
  | nil => exact ⟨w.deferredCloseWaiters, rfl⟩
  | cons op ops ih =>
    obtain ⟨hop, hrest⟩ : op.releases = true ∧ ops.all StopOp.releases = true := by simpa using hops
    obtain ⟨d, hd⟩ := StopOp.perform_of_releases hop none w
    obtain ⟨d', hd'⟩ := ih hrest { w with toStopResources := op.onResources w.toStopResources, deferredCloseWaiters := d }
    refine ⟨d', ?_⟩
    rw [List.map_cons, execute_none_attempt, hd, hd']
    rfl

/-- Attempts that only release resources satisfy what all such steps satisfy. -/
theorem all_map_attempt {test : StopOp → Bool} (htest : ∀ op, op.releases = true → test op = true) {ops : List StopOp}
    (hops : ops.all StopOp.releases = true) :
    (ops.map Stmt.attempt : List StopStmt).all (StopStmt.all test) = true := by
  rw [List.all_map, List.all_eq_true]
  exact fun op hop => htest op (List.all_eq_true.1 hops op hop)

theorem StopWorld.applyStoppedIfStopping_stopping (v : StopWorld) : v.applyStoppedIfStopping.stopping = v.stopping := rfl

theorem StopWorld.applyStoppedIfStopping_raiseCancelAfterStopWaiter (v : StopWorld) :
    v.applyStoppedIfStopping.raiseCancelAfterStopWaiter = v.raiseCancelAfterStopWaiter := rfl

/-- The end of a deferred path: a cancellation is absorbed, and the completion task created. -/
def deferredEnd (stopsDispatcher : Bool) : List StopStmt :=
  .apply (StopPath.update StopWorld.applyStoppedIfStopping) ::
    ((if stopsDispatcher then [.ifClean .stopDispatcherFromHandlerOrigin] else []) ++
      [.apply StopPath.absorbCancellation, .apply StopPath.scheduleDeferredStopEvents])

theorem execute_deferredEnd (stopsDispatcher : Bool) (v : StopWorld) {error : Option Failure}
    (herror : error = none ∨ error = some .cancelled) :
    ∃ stopping, execute StopOp.perform (fun _ => none) (deferredEnd stopsDispatcher) { state := v, error } =
      { state := { v.applyStoppedIfStopping with
          stopping
          raiseCancelAfterStopWaiter := v.raiseCancelAfterStopWaiter || error.isSome
          completionDeferred := true } } := by
  rcases herror with rfl | rfl <;> cases stopsDispatcher
  · exact ⟨v.stopping, by simp [deferredEnd, v.applyStoppedIfStopping_stopping,
      v.applyStoppedIfStopping_raiseCancelAfterStopWaiter]⟩
  · exact ⟨true, by simp [deferredEnd, StopWorld.applyStoppedIfStopping, StopOp.perform]⟩
  · exact ⟨v.stopping, by simp [deferredEnd, v.applyStoppedIfStopping_stopping, execute_cons, executeStep, Stmt.turn, StopPath.update,
      StopPath.absorbCancellation, StopPath.scheduleDeferredStopEvents, Path.clean]⟩
  · exact ⟨v.stopping, by simp [deferredEnd, v.applyStoppedIfStopping_stopping, execute_cons, executeStep, Stmt.turn, Stmt.ifClean, StopPath.update,
      StopPath.absorbCancellation, StopPath.scheduleDeferredStopEvents, Path.clean]⟩

/-- The stop of a TCP component, as far as both are alike: the steps that release what it holds are those of its cleanup. -/
structure TcpStop (component : Component) (w : ActiveComponent) (rs : List StopResource) (ops : List StopOp) : Prop where
  tcp : component ≠ .datagramReceiver
  releases : ops.all StopOp.releases = true
  resources : ∀ inlineHandler, (w.planned rs).releaseAll ops =
    (component.cleanup inlineHandler).foldl StopResources.release (w.toStopResources.detach rs)

namespace TcpStop
variable {component : Component} {w : ActiveComponent} {rs : List StopResource} {ops : List StopOp}

theorem absorbsCancellation (h : TcpStop component w rs ops) (inlineHandler : Bool) (op : StopOp) :
    component.absorbsCancellation inlineHandler op = inlineHandler := by
  cases component with
  | datagramReceiver => exact absurd rfl h.tcp
  | _ => rfl

theorem pathOk_external (h : TcpStop component w rs ops) (completion : List StopStmt) :
    PathOk component false w.toStopWorld completion false
      ((.attempt .emitStopping :: (ops.map .attempt ++
        [.apply (StopPath.update StopWorld.applyStoppedIfStopping), .ifClean .emitStopped])) ++ [.attempt .stopDispatcher])
      { state := w.planned rs } := by
  obtain ⟨d, hd⟩ := execute_none_releases h.releases (StopOp.emitStopping.perform none (w.planned rs))
  have hrun : execute StopOp.perform (fun _ => none)
      (.attempt .emitStopping :: (ops.map .attempt ++
        [.apply (StopPath.update StopWorld.applyStoppedIfStopping), .ifClean .emitStopped])) { state := w.planned rs } =
      { state := StopOp.emitStopped.perform none { StopOp.emitStopping.perform none (w.planned rs) with
          toStopResources := (w.planned rs).releaseAll ops
          deferredCloseWaiters := d }.applyStoppedIfStopping } := by
    rw [execute_none_attempt, execute_append, hd, execute_none_update, execute_none_ifClean]
    rfl
  refine pathOk_ordinary _ ?_ hrun ⟨⟨rs, h.resources false⟩, rfl, ?_⟩ rfl rfl ?_
  · have hsure : ∀ op, component.sure op = decide (op ≠ .stopDispatcher) := fun op => by
      rw [Component.sure, h.absorbsCancellation, Bool.not_false, Bool.and_true]
    simp only [List.all_cons, List.all_append, Bool.and_eq_true]
    refine ⟨hsure .emitStopping, all_map_attempt (fun op hop => ?_) h.releases, rfl, hsure .emitStopped, rfl⟩
    rw [hsure]
    cases op <;> first | rfl | cases hop
  · simp [StopOp.perform, StopWorld.emitLifecycleEvent, StopWorld.applyStoppedIfStopping,
      applyStoppedTransitionIfStopping, ActiveComponent.planned, StopWorld.detach, StopWorld.beginStop, w.accepts,
      w.nothingPublished]
  · have hends : ∀ op : StopOp, op.releases = true → op ≠ .awaitDeferredClose ∧ op ≠ .stopDispatcher := by
      intro op hop
      constructor <;> rintro rfl <;> cases hop
    rw [List.cons_append, List.append_assoc]
    exact ⟨fun h => (by cases h), fun h => (by cases h),
      endsAtCancellation_append hends (all_map_attempt (fun _ h => h) h.releases)
        ⟨fun h => (by cases h), fun h => (by cases h), fun h => (by cases h), fun _ => rfl, trivial⟩⟩

/-- What the path of an inline caller leaves to the completion task. -/
theorem leftToCompletion (h : TcpStop component w rs ops) (stopping raise : Bool) (d : Bool) :
    LeftToCompletion component true w
      { { w.planned rs with
          toStopResources := (w.planned rs).releaseAll ops, deferredCloseWaiters := d }.applyStoppedIfStopping with
        stopping, raiseCancelAfterStopWaiter := raise, completionDeferred := true } where
  planned := ⟨rs, h.resources true⟩
  lifecycle := rfl
  stoppingEvent := rfl
  stoppedEvent := rfl
  published := w.nothingPublished

/-- The owner's path for a caller that finds an active inline handler. -/
theorem pathOk_inline (h : TcpStop component w rs ops) {completion : List StopStmt}
    (hcompletion : ∀ after, LeftToCompletion component true w after →
      CompletionEnds component true w.toStopWorld completion { state := after }) (first last : Bool) :
    PathOk component true w.toStopWorld completion true
      ((if first then [.attempt .stopDispatcherFromHandlerOrigin] else []) ++ (ops.map .attempt ++ deferredEnd last))
      { state := w.planned rs } := by
  have hfirst : ∃ stopping, execute StopOp.perform (fun _ => none)
      (if first then [.attempt .stopDispatcherFromHandlerOrigin] else []) { state := w.planned rs } =
        { state := { w.planned rs with stopping } } := by
    cases first
    · exact ⟨w.stopping, rfl⟩
    · exact ⟨true, rfl⟩
  obtain ⟨stopping, hfirst⟩ := hfirst
  have hend : ∀ d error, error = none ∨ error = some .cancelled → ∀ p,
      p = execute StopOp.perform (fun _ => none) (deferredEnd last)
        { state := { w.planned rs with
            stopping, toStopResources := (w.planned rs).releaseAll ops, deferredCloseWaiters := d }
          error } →
      EndsWell component true w.toStopWorld completion true p := by
    rintro d error herror p rfl
    obtain ⟨stopping', hd⟩ := execute_deferredEnd last { w.planned rs with
      stopping, toStopResources := (w.planned rs).releaseAll ops, deferredCloseWaiters := d } herror
    rw [hd]
    exact endsWell_of_deferred rfl rfl (hcompletion _ (h.leftToCompletion stopping' _ d))
  refine ⟨always_handlerOrigin ?_ ?_, ?_, fun h => (by cases h)⟩
  · cases first <;> rfl
  · rw [hfirst]
    refine always_releases _ _ h.releases fun d error herror => ?_
    have hlast : Always StopOp.perform (MayCancel component true) (EndsWell component true w.toStopWorld completion true)
        (deferredEnd last ++ []) _ :=
      always_handlerOrigin (by cases last <;> rfl) (hend d error herror _ rfl)
    rwa [List.append_nil] at hlast
  · obtain ⟨d, hd⟩ := execute_none_releases h.releases { w.planned rs with stopping }
    obtain ⟨stopping', hd'⟩ := execute_deferredEnd last { w.planned rs with
      stopping, toStopResources := (w.planned rs).releaseAll ops, deferredCloseWaiters := d } (.inl rfl)
    rw [execute_append, execute_append, hfirst, hd, hd']
    exact ⟨rfl, rfl⟩

end TcpStop

def TcpClientStopPlan.releases (w : StopWorld) : List StopOp :=
  (if w.held .supervisorTask then [.release .supervisorTask] else []) ++ [.release .heartbeatSenders, .release .connections]

theorem TcpClientStopPlan.completeDeferredStop_external {plan : TcpClientStopPlan} (h : plan.shouldStopDispatcher = true)
    (origin : StopOrigin) :
    plan.completeDeferredStop { origin } =
      [.plain .waitForHandlerContext, .apply (StopPath.update fun w => w.inlineDeliveryContext true),
        .plain .emitStopping, .run .joinDeferredClose (fun p => p.state.deferredCloseWaiters) fun _ => true] ++
        (if plan.supervisorTask then [.plain (.release .supervisorTask)] else []) ++
        [.plain .emitStopped, .apply (StopPath.update fun w => w.inlineDeliveryContext false), .plain .stopDispatcher] := by
  unfold completeDeferredStop
  rw [if_pos h, List.append_assoc]
  simp only [Bool.not_false, Bool.and_true]
  rfl

theorem tcpStop_client (w : ActiveComponent) :
    TcpStop .tcpClient w [.supervisorTask] (TcpClientStopPlan.releases w.toStopWorld) where
  tcp := by decide
  releases := by
    unfold TcpClientStopPlan.releases
    split_ifs <;> rfl
  resources _ := by
    unfold TcpClientStopPlan.releases
    split_ifs with h
    · rfl
    · have hrelease := w.release_planned (l := [.supervisorTask]) (r := .supervisorTask) (by simpa using h)
      change _ = ((((w.toStopResources.detach _).release _).release _).release _)
      rw [hrelease]
      rfl

def TcpServerStopPlan.releases (w : StopWorld) : List StopOp :=
  (if w.held .listener then [.release .listener] else []) ++ [.release .heartbeatSenders] ++
    (if w.held .connections then [.release .connections] else []) ++ if w.held .listener then [.waitListenerClosed] else []

theorem tcpStop_server (w : ActiveComponent) :
    TcpStop .tcpServer w [.listener, .heartbeatSenders, .connections] (TcpServerStopPlan.releases w.toStopWorld) where
  tcp := by decide
  releases := by
    unfold TcpServerStopPlan.releases
    split_ifs <;> rfl
  resources _ := by
    have hnot {r : StopResource} (h : w.held r = false) (l : List StopResource) :
        (l.foldl StopResources.release (w.toStopResources.detach [.listener, .heartbeatSenders, .connections])).release r =
          l.foldl StopResources.release (w.toStopResources.detach [.listener, .heartbeatSenders, .connections]) := by
      refine StopResources.release_of_not ?_ ?_
      · simp [StopResources.foldl_release_held, StopResources.detach, h]
      · simp [StopResources.foldl_release_detached, StopResources.detach, w.nothingDetached, h]
    unfold TcpServerStopPlan.releases
    change _ = ((((w.toStopResources.detach _).release .listener).release .heartbeatSenders).release .connections)
    rcases hl : w.held .listener with _ | _ <;> rcases hc : w.held .connections with _ | _
    · rw [w.release_planned hl]
      exact (hnot hc [.heartbeatSenders]).symm
    · rw [w.release_planned hl]
      rfl
    · exact (hnot hc [.listener, .heartbeatSenders]).symm
    · rfl

/-! ## The plans of an active component -/

theorem pathOk_tcpClient (w : ActiveComponent) (inlineHandler : Bool) :
    ∃ stop v, Component.tcpClient.planStop { origin := externalOrigin inlineHandler } w.toStopWorld = some (stop, v) ∧
      PathOk .tcpClient inlineHandler w.toStopWorld stop.completion inlineHandler stop.path { state := v } := by
  unfold Component.planStop
  dsimp only
  rw [TcpClientStopPlan.planStop_active]
  refine ⟨_, _, rfl, ?_⟩
  cases inlineHandler with
  | false =>
    convert (tcpStop_client w).pathOk_external _ using 2
    unfold TcpClientStopPlan.releases
    cases w.held .supervisorTask <;> rfl
  | true =>
    convert (tcpStop_client w).pathOk_inline ?_ false true using 2
    · unfold TcpClientStopPlan.releases
      cases w.held .supervisorTask <;> rfl
    · intro after hafter
      dsimp only [TcpClientStopPlan.ownedStop]
      rw [TcpClientStopPlan.completeDeferredStop_external rfl]
      refine completionEnds_tcp hafter ?_
      cases w.held .supervisorTask
      · exact .inl rfl
      · exact .inr ⟨rfl, by decide⟩

theorem pathOk_tcpServer (w : ActiveComponent) (inlineHandler : Bool) :
    ∃ stop v, Component.tcpServer.planStop { origin := externalOrigin inlineHandler } w.toStopWorld = some (stop, v) ∧
      PathOk .tcpServer inlineHandler w.toStopWorld stop.completion inlineHandler stop.path { state := v } := by
  unfold Component.planStop
  dsimp only
  rw [TcpServerStopPlan.planStop_active]
  refine ⟨_, _, rfl, ?_⟩
  cases inlineHandler with
  | false =>
    convert (tcpStop_server w).pathOk_external _ using 2
    unfold TcpServerStopPlan.releases
    cases w.held .listener <;> cases w.held .connections <;> rfl
  | true =>
    convert (tcpStop_server w).pathOk_inline (fun after hafter => ?_) true false using 2
    · unfold TcpServerStopPlan.releases
      cases w.held .listener <;> cases w.held .connections <;> rfl
    · have hends := completionEnds_tcp hafter (.inl (rfl : ([] : List StopStmt) = []))
      rw [List.append_nil] at hends
      dsimp only [TcpServerStopPlan.ownedStop, TcpServerStopPlan.completeDeferredStop]
      exact hends

end Aionetx
