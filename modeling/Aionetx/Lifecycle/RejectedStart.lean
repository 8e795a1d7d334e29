import Aionetx.Lifecycle.Convergence

/-!
# A start during a stop

`start()` starts the dispatcher before it validates the transition to `STARTING`.

* `StopWorld.start` : the locked section of `start()`, the same for the three components;
* `ManagedComponent` : a component with the stop in progress, whose statements are taken one by one; `ManagedComponent.step`;
* `ManagedComponent.AtomicStart` : the start raises and leaves everything as it was;
* `atomicStart_iff` : in every reachable `STOPPING` state so it is exactly if the dispatcher is inline or still has its worker;
  else the start turns event delivery on again.
-/

namespace Aionetx

open Runs

/-- What the locked section of `start()` comes to. -/
inductive StartResult
  | alreadyRunning
  /-- the `RuntimeError` of an illegal transition -/
  | raised
  | starting (event : Option ComponentLifecycleChangedEvent)
  deriving DecidableEq, Repr

/-- The locked section of `start()`, for the receiver that of `_begin_startup`. -/
def StopWorld.start (w : StopWorld) : StartResult × StopWorld :=
  if w.lifecycle.active then (.alreadyRunning, w)
  else
    let w := w.startDispatcher
    match LifecycleTransition.of w.lifecycle .starting with
    | .unchanged => (.starting none, w)
    | .illegal => (.raised, w)
    | .applied event => (.starting (some event), { w with lifecycle := .starting })

/-- A stop in progress: the owner's statements that are left, those of its completion task, the first error, and whether the
owner runs on the dispatcher's worker. -/
structure StopInProgress where
  rest : List StopStmt
  completion : List StopStmt
  error : Option Failure := none
  left : Bool := false
  onWorker : Bool := false

structure ManagedComponent where
  world : StopWorld
  operation : Option StopInProgress := none

/-- The calls, the statements of the stop in progress, and what happens between them. -/
inductive ManagedAct
  | start
  | stop (caller : StopCaller)
  | operate (outcome : Option Failure)
  | between (a : ComponentAct)

namespace ManagedComponent

variable (component : Component) (s : ManagedComponent)

def start : StartResult × ManagedComponent := (s.world.start.1, { s with world := s.world.start.2 })

/-- `stop()`, up to its first await: it joins a stop in progress, owns one, or has nothing to stop. -/
def stop (caller : StopCaller) : ManagedComponent :=
  match s.operation with
  | some _ => s
  | none =>
    match component.planStop caller s.world with
    | none => { s with world := { s.world with stopping := s.world.stopping || decide (component = Component.datagramReceiver) } }
    | some (stop, w) =>
      { world := w, operation := some { rest := stop.path, completion := stop.completion, onWorker := caller.onWorker } }

/-- A statement has been taken: the path goes on, its completion task takes over, or the stop is over. -/
def afterTurn (o : StopInProgress) (rest : List StopStmt) (p : StopPath) : ManagedComponent :=
  if rest = [] ∨ p.left = true then
    if p.state.completionDeferred ∧ o.completion ≠ [] then
      { world := p.state, operation := some { rest := o.completion, completion := [] } }
    else { world := p.state }
  else { world := p.state, operation := some { o with rest, error := p.error, left := p.left } }

/-- The next statement of the stop in progress. -/
def operate (outcome : Option Failure) : Option ManagedComponent :=
  match s.operation with
  | none => none
  | some o =>
    match o.rest with
    | [] => none
    | stmt :: rest =>
      some (afterTurn o rest (stmt.turn StopOp.perform outcome { state := s.world, error := o.error, left := o.left }))

/-- What happens between the calls: the worker does not end while the owner of a stop runs on it. -/
def between : ComponentAct → Option ManagedComponent
  | .start | .stop _ _ _ => none
  | .workerEnds =>
    if s.operation.any (·.onWorker) then none else (component.step s.world .workerEnds).map fun w => { s with world := w }
  | a => (component.step s.world a).map fun w => { s with world := w }

def step : ManagedAct → Option ManagedComponent
  | .start => some s.start.2
  | .stop caller => some (s.stop component caller)
  | .operate outcome => s.operate outcome
  | .between a => s.between component a

end ManagedComponent

def managedMachine (component : Component) : Machine ManagedComponent ManagedAct where
  init s := ∃ mode, s = { world := { dispatchMode := mode } }
  step := ManagedComponent.step component

namespace ManagedComponent

/-- The start raises, and leaves the lifecycle, the dispatcher and the stop in progress as they were. -/
def AtomicStart (s : ManagedComponent) : Prop := s.start = (.raised, s)

theorem start_of_stopping {w : StopWorld} (h : w.lifecycle = .stopping) : w.start = (.raised, w.startDispatcher) := by
  have hlifecycle : w.startDispatcher.lifecycle = .stopping := by
    unfold StopWorld.startDispatcher
    split
    · exact h
    · exact h
  unfold StopWorld.start
  rw [if_neg (by rw [h]; decide)]
  simp only [hlifecycle]
  rfl

/-- Starting the dispatcher creates a worker exactly if it is in BACKGROUND mode and has none. -/
theorem startDispatcher_eq_self_iff (w : StopWorld) :
    w.startDispatcher = w ↔ (w.dispatchMode = .inline ∨ w.worker = true) := by
  unfold StopWorld.startDispatcher
  split
  · next h =>
    constructor
    · intro hsame
      have hworker := congrArg StopWorld.worker hsame
      exact .inr hworker.symm
    · rintro (hmode | hworker)
      · cases h.1.symm.trans hmode
      · cases h.2.symm.trans hworker
  · next h =>
    refine ⟨fun _ => ?_, fun _ => rfl⟩
    by_contra hnot
    rw [not_or, Bool.not_eq_true] at hnot
    refine h ⟨?_, hnot.2⟩
    cases hmode : w.dispatchMode with
    | inline => exact absurd hmode hnot.1
    | background => rfl

/-! ## What the runs keep -/

/-- Once a component has left `STOPPED`, its dispatcher has a worker or has been stopped. -/
def Kept (w : StopWorld) : Prop :=
  w.dispatchMode = .background → w.lifecycle ≠ .stopped → w.worker = true ∨ w.stopping = true

/-- The code of the stop paths between their operations. -/
def StopCode (f : StopPath → StopPath) : Prop :=
  f = StopPath.update StopWorld.applyStoppedIfStopping ∨ f = StopPath.update StopWorld.applyStopped ∨
    f = StopPath.absorbCancellation ∨ f = StopPath.scheduleDeferredStopEvents ∨
      ∃ active, f = StopPath.update fun w => w.inlineDeliveryContext active

theorem Kept.of_eq {w v : StopWorld} (h : Kept w) (hmode : v.dispatchMode = w.dispatchMode) (hworker : v.worker = w.worker)
    (hstopping : v.stopping = w.stopping) (hlifecycle : v.lifecycle ≠ .stopped → w.lifecycle ≠ .stopped) : Kept v := by
  intro hbackground hne
  rw [hworker, hstopping]
  exact h (hmode ▸ hbackground) (hlifecycle hne)

theorem Kept.code {f : StopPath → StopPath} (hf : StopCode f) {p : StopPath} (h : Kept p.state) : Kept (f p).state := by
  rcases hf with rfl | rfl | rfl | rfl | ⟨active, rfl⟩
  · refine h.of_eq rfl rfl rfl fun hne hstopped => hne ?_
    show (applyStoppedTransitionIfStopping p.state.lifecycle).1 = .stopped
    rw [hstopped]
    rfl
  · refine h.of_eq rfl rfl rfl fun hne hstopped => hne ?_
    show (if _ then _ else _) = _
    split
    · rfl
    · exact hstopped
  · unfold StopPath.absorbCancellation
    split
    · exact h.of_eq rfl rfl rfl id
    · exact h
  · unfold StopPath.scheduleDeferredStopEvents
    split
    · exact h.of_eq rfl rfl rfl id
    · exact h
  · exact h.of_eq rfl rfl rfl id

theorem Kept.perform {w : StopWorld} (h : Kept w) (op : StopOp) (outcome : Option Failure) :
    Kept (op.perform outcome w) := by
  unfold StopOp.perform
  split <;> first | exact h.of_eq rfl rfl rfl id | exact fun _ _ => .inr rfl

/-- A stop path consists of operations and of such code. -/
def StopStmts (stmts : List StopStmt) : Prop := ∀ f, .apply f ∈ stmts → StopCode f

section StopStmts
variable {l m : List StopStmt} {op : StopOp} {f : StopPath → StopPath}

@[simp] theorem stopStmts_nil : StopStmts [] := nofun

@[simp] theorem stopStmts_run {runs : StopPath → Bool} {leaves : Failure → Bool} :
    StopStmts (.run op runs leaves :: l) ↔ StopStmts l := by
  simp [StopStmts]

@[simp] theorem stopStmts_attempt : StopStmts (.attempt op :: l) ↔ StopStmts l := stopStmts_run

@[simp] theorem stopStmts_ifClean : StopStmts (.ifClean op :: l) ↔ StopStmts l := stopStmts_run

@[simp] theorem stopStmts_plain : StopStmts (.plain op :: l) ↔ StopStmts l := stopStmts_run

@[simp] theorem stopStmts_apply : StopStmts (.apply f :: l) ↔ StopCode f ∧ StopStmts l := by
  simp [StopStmts]

@[simp] theorem stopStmts_append : StopStmts (l ++ m) ↔ StopStmts l ∧ StopStmts m := by
  simp only [StopStmts, List.mem_append, or_imp, forall_and]

@[simp] theorem stopStmts_ite {c : Prop} [Decidable c] :
    StopStmts (if c then l else m) ↔ (c → StopStmts l) ∧ (¬ c → StopStmts m) := by
  split <;> simp_all

@[simp] theorem stopCode_applyStoppedIfStopping : StopCode (StopPath.update StopWorld.applyStoppedIfStopping) := .inl rfl

@[simp] theorem stopCode_applyStopped : StopCode (StopPath.update StopWorld.applyStopped) := .inr (.inl rfl)

@[simp] theorem stopCode_absorbCancellation : StopCode StopPath.absorbCancellation := .inr (.inr (.inl rfl))

@[simp] theorem stopCode_scheduleDeferredStopEvents : StopCode StopPath.scheduleDeferredStopEvents :=
  .inr (.inr (.inr (.inl rfl)))

@[simp] theorem stopCode_inlineDeliveryContext (active : Bool) :
    StopCode (StopPath.update fun w => w.inlineDeliveryContext active) := .inr (.inr (.inr (.inr ⟨active, rfl⟩)))

end StopStmts

theorem stopStmts_planStop {component : Component} {caller : StopCaller} {w v : StopWorld} {stop : OwnedStop}
    (h : component.planStop caller w = some (stop, v)) : StopStmts stop.path ∧ StopStmts stop.completion := by
  cases component with
  | tcpClient =>
    obtain ⟨⟨plan, u⟩, -, heq⟩ := Option.map_eq_some_iff.mp h
    cases heq
    simp [TcpClientStopPlan.ownedStop, TcpClientStopPlan.executeOwnedStop, TcpClientStopPlan.awaitOrCancelSupervisor,
      TcpClientStopPlan.teardownClientStopResources, TcpClientStopPlan.finishStopWithDispatcher,
      TcpClientStopPlan.completeDeferredStop]
  | tcpServer =>
    cases h
    simp [TcpServerStopPlan.ownedStop, TcpServerStopPlan.executeOwnedStop, TcpServerStopPlan.teardownServerStopResources,
      TcpServerStopPlan.finishStopWithDispatcher, TcpServerStopPlan.completeDeferredStop]
  | datagramReceiver =>
    obtain ⟨⟨snapshot, u⟩, -, heq⟩ := Option.map_eq_some_iff.mp h
    cases heq
    unfold DatagramStopSnapshot.ownedStop
    split
    · simp [DatagramStopSnapshot.runDeferredStopPath, DatagramStopSnapshot.teardownDatagramStopResources,
        DatagramStopSnapshot.completeAfterDeferredStopEvents, DatagramStopSnapshot.publishStoppedTransition]
    · simp [DatagramStopSnapshot.runOrdinaryStopPath, DatagramStopSnapshot.teardownDatagramStopResources,
        DatagramStopSnapshot.publishStopClosedEvent, DatagramStopSnapshot.completeAfterDeferredCloseAndStop,
        DatagramStopSnapshot.publishStoppedTransition]

/-- The `STOPPING` transition leaves the dispatcher alone, and a component in `STOPPED` too. -/
theorem Kept.applyStopping {w : StopWorld} (h : Kept w) : Kept (w.applyLifecycleState .stopping).1 := by
  refine h.of_eq rfl rfl rfl fun hne hstopped => hne ?_
  unfold StopWorld.applyLifecycleState
  rw [hstopped]
  rfl

theorem Kept.planStop {component : Component} {caller : StopCaller} {w v : StopWorld} {stop : OwnedStop} (h : Kept w)
    (hplan : component.planStop caller w = some (stop, v)) : Kept v := by
  have hbegin : Kept w.beginStop := h.of_eq rfl rfl rfl id
  cases component with
  | tcpClient =>
    obtain ⟨⟨plan, u⟩, hclient, heq⟩ := Option.map_eq_some_iff.mp hplan
    cases heq
    unfold TcpClientStopPlan.planStop at hclient
    split at hclient
    · cases hclient
    · split at hclient
      · unfold TcpClientStopPlan.addExistingSupervisor at hclient
        split at hclient
        · cases hclient
          exact hbegin.of_eq rfl rfl rfl id
        · cases hclient
          exact hbegin
      · cases hclient
        exact hbegin.applyStopping.of_eq rfl rfl rfl id
  | tcpServer =>
    cases hplan
    refine hbegin.of_eq rfl rfl rfl fun hne hstopped => hne ?_
    show (applyStoppingTransitionIfActive _).1 = _
    rw [hstopped]
    rfl
  | datagramReceiver =>
    obtain ⟨⟨snapshot, u⟩, hreceiver, heq⟩ := Option.map_eq_some_iff.mp hplan
    cases heq
    unfold DatagramStopSnapshot.planStop at hreceiver
    split at hreceiver
    · cases hreceiver
    · cases hreceiver
      exact hbegin.applyStopping.of_eq rfl rfl rfl id

theorem startDispatcher_worker {w : StopWorld} (h : w.dispatchMode = .background) : w.startDispatcher.worker = true := by
  unfold StopWorld.startDispatcher
  split
  · rfl
  · next hnot =>
    by_contra hworker
    exact hnot ⟨h, Bool.eq_false_iff.mpr hworker⟩

theorem startDispatcher_dispatchMode (w : StopWorld) : w.startDispatcher.dispatchMode = w.dispatchMode := by
  unfold StopWorld.startDispatcher
  split <;> rfl

theorem Kept.start {w : StopWorld} (h : Kept w) : Kept w.start.2 := by
  have hstarted : Kept w.startDispatcher := fun hmode _ =>
    .inl (startDispatcher_worker ((startDispatcher_dispatchMode w).symm.trans hmode))
  unfold StopWorld.start
  split
  · exact h
  · dsimp only
    split
    · exact hstarted
    · exact hstarted
    · exact fun hmode _ => .inl (startDispatcher_worker ((startDispatcher_dispatchMode w).symm.trans hmode))

/-- What happens between the calls ends in `STOPPED`, or takes the worker only from a dispatcher that has been stopped. -/
theorem Kept.between {component : Component} {s t : ManagedComponent} {a : ComponentAct} (h : Kept s.world)
    (hstep : s.between component a = some t) : Kept t.world ∧ t.operation = s.operation := by
  cases a with
  | start | stop => cases hstep
  | run =>
    obtain ⟨w, hw, rfl⟩ := Option.map_eq_some_iff.mp hstep
    simp only [Component.step] at hw
    split at hw
    · next hstarting =>
      cases hw
      exact ⟨h.of_eq rfl rfl rfl fun _ => by rw [hstarting]; nofun, rfl⟩
    · cases hw
  | rollBack =>
    obtain ⟨w, hw, rfl⟩ := Option.map_eq_some_iff.mp hstep
    simp only [Component.step] at hw
    split at hw
    · cases hw
      exact ⟨fun _ hne => absurd rfl hne, rfl⟩
    · cases hw
  | terminate =>
    obtain ⟨w, hw, rfl⟩ := Option.map_eq_some_iff.mp hstep
    simp only [Component.step] at hw
    split at hw
    · cases hw
      exact ⟨fun _ hne => absurd rfl hne, rfl⟩
    · cases hw
  | stopDispatcher =>
    obtain ⟨w, hw, rfl⟩ := Option.map_eq_some_iff.mp hstep
    simp only [Component.step] at hw
    split at hw
    · cases hw
      exact ⟨fun _ _ => .inr rfl, rfl⟩
    · cases hw
  | workerEnds =>
    simp only [ManagedComponent.between] at hstep
    split at hstep
    · cases hstep
    · obtain ⟨w, hw, rfl⟩ := Option.map_eq_some_iff.mp hstep
      simp only [Component.step] at hw
      split at hw
      · next hstopped =>
        cases hw
        exact ⟨fun _ _ => .inr hstopped, rfl⟩
      · cases hw
  | acquire r =>
    obtain ⟨w, hw, rfl⟩ := Option.map_eq_some_iff.mp hstep
    simp only [Component.step] at hw
    split at hw
    · cases hw
      exact ⟨h.of_eq rfl rfl rfl id, rfl⟩
    · cases hw
  | drop r =>
    cases hstep
    exact ⟨h.of_eq rfl rfl rfl id, rfl⟩
  | observe supervisorDone connectionStartupInProgress closeIsDeferred =>
    cases hstep
    exact ⟨h.of_eq rfl rfl rfl id, rfl⟩

/-- The dispatcher is kept, and the stop in progress consists of statements of the stop paths. -/
structure Inv (s : ManagedComponent) : Prop where
  kept : Kept s.world
  stmts : ∀ o, s.operation = some o → StopStmts o.rest ∧ StopStmts o.completion

theorem Inv.operate {s t : ManagedComponent} {outcome : Option Failure} (h : s.Inv) (hstep : s.operate outcome = some t) :
    t.Inv := by
  unfold ManagedComponent.operate at hstep
  split at hstep
  · cases hstep
  · next o ho =>
    split at hstep
    · cases hstep
    · next stmt rest hrest =>
      cases hstep
      obtain ⟨hstmts, hcompletion⟩ := h.stmts o ho
      rw [hrest] at hstmts
      have hrestStmts : StopStmts rest := fun f hf => hstmts f (List.mem_cons_of_mem _ hf)
      have hkept : Kept (stmt.turn StopOp.perform outcome { state := s.world, error := o.error, left := o.left }).state := by
        cases stmt with
        | apply f => exact Kept.code (hstmts f List.mem_cons_self) h.kept
        | run op runs leaves =>
          rw [Stmt.turn_run]
          split
          · rw [Path.record_state]
            exact h.kept.perform op outcome
          · exact h.kept
      unfold afterTurn
      split
      · split
        · exact ⟨hkept, fun _ h' => by cases h'; exact ⟨hcompletion, nofun⟩⟩
        · exact ⟨hkept, nofun⟩
      · exact ⟨hkept, fun _ h' => by cases h'; exact ⟨hrestStmts, hcompletion⟩⟩

theorem Inv.step {component : Component} {s t : ManagedComponent} {a : ManagedAct} (h : s.Inv)
    (hstep : s.step component a = some t) : t.Inv := by
  cases a with
  | start =>
    cases hstep
    exact ⟨h.kept.start, h.stmts⟩
  | stop caller =>
    cases hstep
    unfold ManagedComponent.stop
    split
    · exact h
    · next hnone =>
      split
      · refine ⟨fun hmode hne => ?_, h.stmts⟩
        exact (h.kept hmode hne).imp id fun hs => by rw [hs]; rfl
      · next stop w hplan =>
        exact ⟨h.kept.planStop hplan, fun _ h' => by cases h'; exact stopStmts_planStop hplan⟩
  | operate outcome => exact h.operate hstep
  | between a =>
    obtain ⟨hkept, hoperation⟩ := h.kept.between hstep
    exact ⟨hkept, fun o ho => h.stmts o (hoperation.symm.trans ho)⟩

theorem kept_of_reachable {component : Component} {s : ManagedComponent}
    (h : (managedMachine component).Reachable Machine.Any s) : Kept s.world := by
  refine (h.invariant (I := Inv) ?_ fun s a t hi _ hstep => hi.step hstep).kept
  rintro _ ⟨mode, rfl⟩
  exact ⟨fun _ hne => absurd rfl hne, nofun⟩

/-- In every reachable `STOPPING` state `start()` raises and leaves everything as it was if and only if the dispatcher is
inline or still has its worker. Otherwise it turns on the delivery that had been shut down. -/
theorem atomicStart_iff {component : Component} {s : ManagedComponent}
    (h : (managedMachine component).Reachable Machine.Any s) (hstopping : s.world.lifecycle = .stopping) :
    (s.AtomicStart ↔ (s.world.dispatchMode = .inline ∨ s.world.worker = true)) ∧
      (¬ s.AtomicStart → s.world.stopping = true ∧ s.start.2.world.accepting = true) := by
  have hstart : s.start = (.raised, { s with world := s.world.startDispatcher }) := by
    unfold ManagedComponent.start
    rw [start_of_stopping hstopping]
  have hiff : s.AtomicStart ↔ (s.world.dispatchMode = .inline ∨ s.world.worker = true) := by
    rw [← startDispatcher_eq_self_iff, AtomicStart, hstart]
    exact ⟨fun hsame => congrArg (fun r => r.2.world) hsame, fun hsame => by rw [hsame]⟩
  refine ⟨hiff, fun hnot => ?_⟩
  rw [hiff, not_or, Bool.not_eq_true] at hnot
  have hmode : s.world.dispatchMode = .background := by
    cases hmode : s.world.dispatchMode with
    | inline => exact absurd hmode hnot.1
    | background => rfl
  have hstopped : s.world.stopping = true := by
    refine (kept_of_reachable h hmode (by rw [hstopping]; nofun)).resolve_left fun hworker => ?_
    cases hnot.2.symm.trans hworker
  refine ⟨hstopped, ?_⟩
  rw [hstart]
  show s.world.startDispatcher.accepting = true
  unfold StopWorld.startDispatcher
  rw [if_pos ⟨hmode, hnot.2⟩]
  simp [StopWorld.accepting, hmode]

end ManagedComponent

theorem managedMachine_init (component : Component) (mode : EventDispatchMode) :
    (managedMachine component).init { world := { dispatchMode := mode } } := ⟨mode, rfl⟩

def runningServer : List ManagedAct := [.start, .between .run, .between (.acquire .connections)]

/-- A handler stops it, on the worker: a start finds the worker. -/
theorem atomicStart_of_handlerStop : ∃ s : ManagedComponent,
    s.world.lifecycle = .stopping ∧ (s.AtomicStart ↔ (s.world.dispatchMode = .inline ∨ s.world.worker = true)) ∧
      (¬ s.AtomicStart → s.world.stopping = true ∧ s.start.2.world.accepting = true) := by
  have hrun : ∃ s : ManagedComponent, (managedMachine .tcpServer).Reachable Machine.Any s ∧
      decide (s.world.lifecycle = .stopping ∧ s.world.worker = true) :=
    Machine.Reachable.exists_of_exec (managedMachine_init .tcpServer .background)
      (runningServer ++ [.stop { origin := .handler, onWorker := true }, .operate none]) _ (by decide)
  obtain ⟨s, hs, hp⟩ := hrun
  obtain ⟨hstopping, -⟩ := of_decide_eq_true hp
  exact ⟨s, hstopping, ManagedComponent.atomicStart_iff hs hstopping⟩

/-- A task created by a handler stops it, and the worker ends before the connection is closed: a start creates a new one. -/
theorem not_atomicStart_of_childOfHandlerStop :
    ¬ ∀ s : ManagedComponent, (managedMachine .tcpServer).Reachable Machine.Any s → s.world.lifecycle = .stopping →
      s.AtomicStart := by
  have hrun : ∃ s : ManagedComponent, (managedMachine .tcpServer).Reachable Machine.Any s ∧
      decide (s.world.lifecycle = .stopping ∧ s.world.dispatchMode = .background ∧ s.world.worker = false) :=
    Machine.Reachable.exists_of_exec (managedMachine_init .tcpServer .background)
      (runningServer ++ [.stop { origin := .childOfHandler }, .operate none, .between .workerEnds]) _ (by decide)
  obtain ⟨s, hs, hp⟩ := hrun
  obtain ⟨hstopping, hmode, hworker⟩ := of_decide_eq_true hp
  intro hall
  have hsame := congrArg (fun r => r.2.world) (hall s hs hstopping)
  change s.world.start.2 = s.world at hsame
  rw [ManagedComponent.start_of_stopping hstopping, ManagedComponent.startDispatcher_eq_self_iff, hmode, hworker] at hsame
  rcases hsame with h | h
  · cases h
  · cases h

end Aionetx
