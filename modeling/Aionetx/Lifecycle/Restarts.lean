import Aionetx.Runs.Machine
import Aionetx.Client.Runtime

/-!
# Restarts and the dispatcher

A TCP client or server with BACKGROUND dispatch that is started and stopped any number of times, seen at the awaits around its
lifecycle transitions and around the start and the stop of its dispatcher.

* `LifecycleTask` : a call of `start()` or `stop()`, the completion task of a deferred stop, or a supervisor;
* `RestartedComponent` : the component, its worker and every task it has ever had;
* `RestartedComponent.Coherent` : a component that is `RUNNING` has a dispatcher that accepts events, one that is `STOPPED` has no
  worker, and no task stops the dispatcher of a later run;
* `RestartedComponent.Settled` : a run begins only when nothing that belongs to an earlier one will stop the dispatcher, and the
  cleanup of a server's start is not cancelled.
-/

namespace Aionetx

/-- The components whose dispatcher is shared by their runs. -/
inductive TcpComponent
  | client | server
  deriving DecidableEq, Repr

/-! ## The tasks -/

/-- What a task does. A call of `stop()` that joins another one, or finds nothing to stop, does nothing here. -/
inductive LifecycleTaskKind
  | start
  /-- whether the terminal events are deferred, whether `STOPPED` is to be applied, and whether the dispatcher is to be stopped -/
  | stop (deferred transitions stopsDispatcher : Bool)
  /-- `_complete_stop_waiter_after_deferred_stop_events` -/
  | completion (stopsDispatcher : Bool)
  | supervisor
  deriving DecidableEq, Repr

inductive LifecycleTaskPc
  /-- `start()`: the `STARTING` event, `asyncio.start_server`, the `RUNNING` event -/
  | starting
  | binding
  | announcing
  /-- the cleanup of a startup that has failed; that of a running server awaits `wait_closed()` of its listener first -/
  | rollingBack
  | closingListener
  /-- a stop before its terminal transition, or a supervisor before it has shut its resources down -/
  | working
  /-- the terminal events -/
  | publishing
  /-- `stop()` of the dispatcher, which awaits the worker -/
  | stoppingDispatcher (worker : Nat)
  | ended
  deriving DecidableEq, Repr

structure LifecycleTask where
  kind : LifecycleTaskKind
  run : Nat
  pc : LifecycleTaskPc
  deriving DecidableEq, Repr

namespace LifecycleTask
variable (x : LifecycleTask)

def calling : Bool :=
  match x.kind with
  | .start | .stop .. => x.pc != .ended
  | .completion _ | .supervisor => false

/-- It is the one that `_stop_waiter` stands for. -/
def holdsWaiter : Bool :=
  match x.kind with
  | .stop .. | .completion _ => x.pc != .ended
  | .start | .supervisor => false

/-- It has stopped the component, or will: its next step may be the stop of the dispatcher. -/
def stopsSoon : Bool :=
  match x.kind, x.pc with
  | .start, .rollingBack | .start, .closingListener | .start, .stoppingDispatcher _ => true
  | .start, _ => false
  | .supervisor, .working | _, .ended => false
  | _, _ => true

/-- It may still stop the dispatcher. -/
def unsettled : Bool :=
  match x.kind with
  | .start => x.stopsSoon
  | .stop .. | .completion _ | .supervisor => x.pc != .ended

/-- It awaits a supervisor that it has cancelled. -/
def cancels : Bool :=
  match x.kind, x.pc with
  | .start, .rollingBack | .stop _ _ true, .working | .completion true, .publishing => true
  | _, _ => false

end LifecycleTask

/-! ## The component -/

/-- The lifecycle state, the dispatcher and the tasks. `workers` counts the workers, `runs` the starts; `stoppedFor` records, for
each stop of the dispatcher by a supervisor or a completion task, the run of this task and the last run there was. -/
structure RestartedComponent where
  lifecycle : ComponentLifecycleState := .stopped
  stopping : Bool := false
  worker : Option Nat := none
  workers : Nat := 0
  runs : Nat := 0
  tasks : List LifecycleTask := []
  stoppedFor : List (Nat × Nat) := []
  deriving DecidableEq, Repr

inductive RestartAct
  | start
  | stop (deferred : Bool)
  | turn (i : Nat) (outcome : Outcome)
  /-- the worker has drained its queue -/
  | workerEnds
  deriving DecidableEq, Repr

namespace RestartedComponent
variable (component : TcpComponent) (s : RestartedComponent)

/-- `_stop_waiter` is set. -/
def stopInProgress : Bool := s.tasks.any (·.holdsWaiter)

/-! ### The dispatcher -/

/-- `AsyncioEventDispatcher.start`. -/
def startDispatcher : RestartedComponent :=
  if s.worker.isSome then s else { s with stopping := false, worker := some s.workers, workers := s.workers + 1 }

/-- Where `AsyncioEventDispatcher.stop` is suspended, if it is. -/
def stopDispatcherPc : LifecycleTaskPc :=
  match s.worker with
  | none => .ended
  | some w => .stoppingDispatcher w

/-- The task `i` goes on to the place `pc`. -/
def setTask (i : Nat) (x : LifecycleTask) (pc : LifecycleTaskPc) : RestartedComponent :=
  { s with tasks := s.tasks.set i { x with pc } }

def stopDispatcher (i : Nat) (x : LifecycleTask) : RestartedComponent :=
  { s with
    stopping := true
    tasks := s.tasks.set i { x with pc := s.stopDispatcherPc }
    stoppedFor := match x.kind with
      | .completion _ | .supervisor => s.stoppedFor ++ [(x.run, s.runs)]
      | .start | .stop .. => s.stoppedFor }

/-! ### `start()` -/

/-- The first section; the call raises in `STOPPING`, after it has started the dispatcher. -/
def start : Option RestartedComponent :=
  if s.lifecycle.active then none
  else
    let s := s.startDispatcher
    if s.lifecycle = .stopped then
      some { s with lifecycle := .starting, runs := s.runs + 1, tasks := s.tasks ++ [⟨.start, s.runs + 1, .starting⟩] }
    else some s

/-- The `STARTING` event has been handled: the second section. -/
def started (i : Nat) (x : LifecycleTask) : RestartedComponent :=
  if s.lifecycle = .starting then
    match component with
    | .client =>
      { s with
        lifecycle := .running
        tasks := s.tasks.set i { x with pc := .announcing } ++ [⟨.supervisor, s.runs, .working⟩] }
    | .server => s.setTask i x .binding
  else s.setTask i x .ended

/-- The server listens: the third section. -/
def bound (i : Nat) (x : LifecycleTask) : RestartedComponent :=
  if s.lifecycle = .starting then { s with lifecycle := .running }.setTask i x .announcing else s.setTask i x .ended

/-- The server cannot listen. `apply` raises in `RUNNING`. -/
def bindFailed (i : Nat) (x : LifecycleTask) : RestartedComponent :=
  if s.lifecycle = .running then s.setTask i x .ended else { s with lifecycle := .stopped }.setTask i x .rollingBack

/-- The locked section of `_rollback_failed_startup`. -/
def rollback (i : Nat) (x : LifecycleTask) : RestartedComponent :=
  { s with lifecycle := if s.lifecycle.active then .stopped else s.lifecycle }.setTask i x
    (if component = TcpComponent.server ∧ x.pc = LifecycleTaskPc.announcing then .closingListener else .rollingBack)

/-! ### `stop()` -/

/-- `_plan_stop`, if no other stop is in progress. A deferred stop of the server tells the dispatcher to stop at once. -/
def stop (deferred : Bool) : Option RestartedComponent :=
  if s.stopInProgress then none
  else
    let active := s.lifecycle.active
    let (transitions, stopsDispatcher) :=
      match component with
      | .client => (active || s.worker.isSome, active || s.worker.isSome)
      | .server => (active, active || deferred)
    some { s with
      lifecycle := if active then .stopping else s.lifecycle
      stopping := s.stopping || (component = .server && deferred)
      tasks := s.tasks ++ [⟨.stop deferred transitions stopsDispatcher, s.runs, .working⟩] }

/-- The end of the teardown: `STOPPED` is applied, and a deferred stop leaves the rest to a completion task; that of the client
tells the dispatcher to stop here. -/
def tornDown (i : Nat) (x : LifecycleTask) (deferred transitions stopsDispatcher : Bool) : RestartedComponent :=
  let s : RestartedComponent :=
    { s with lifecycle := if transitions ∧ s.lifecycle = .stopping then .stopped else s.lifecycle }
  if deferred then
    { s with
      stopping := s.stopping || (component = .client && stopsDispatcher)
      tasks := s.tasks.set i { x with pc := .ended } ++ [⟨.completion stopsDispatcher, x.run, .publishing⟩] }
  else s.setTask i x (if stopsDispatcher then .publishing else .ended)

/-! ### The supervisor -/

/-- `_finalize_supervision` up to the terminal events: nothing is applied while a stop is in progress. -/
def leave (i : Nat) (x : LifecycleTask) : RestartedComponent :=
  { s with lifecycle := if s.stopInProgress then s.lifecycle else .stopped }.setTask i x .publishing

def stopDispatcherUnlessStopping (i : Nat) (x : LifecycleTask) : RestartedComponent :=
  if s.stopInProgress then s.setTask i x .ended else s.stopDispatcher i x

/-! ### The machine -/

def turn (i : Nat) (outcome : Outcome) : Option RestartedComponent :=
  match s.tasks[i]? with
  | none => none
  | some x =>
    match x.kind, x.pc, outcome with
    | _, .stoppingDispatcher w, .returned => if s.worker = some w then none else some (s.setTask i x .ended)
    | .start, .starting, .returned => some (s.started component i x)
    | .start, .binding, .returned => some (s.bound i x)
    | .start, .announcing, .returned => some (s.setTask i x .ended)
    | .start, .starting, _ | .start, .announcing, _ => some (s.rollback component i x)
    | .start, .binding, _ => some (s.bindFailed i x)
    | .start, .rollingBack, _ => some (s.stopDispatcher i x)
    -- only an `Exception` of `wait_closed()` is suppressed
    | .start, .closingListener, .cancelled => some (s.setTask i x .ended)
    | .start, .closingListener, _ => some (s.stopDispatcher i x)
    -- an ordinary stop goes on after an error
    | .stop false transitions stopsDispatcher, .working, _ =>
      some (s.tornDown component i x false transitions stopsDispatcher)
    | .stop true transitions stopsDispatcher, .working, .returned =>
      some (s.tornDown component i x true transitions stopsDispatcher)
    | .stop .., .publishing, _ => some (s.stopDispatcher i x)
    | .completion stopsDispatcher, .publishing, .returned =>
      some (if stopsDispatcher then s.stopDispatcher i x else s.setTask i x .ended)
    -- cancelled before its first step, by a stop or a rollback that awaits it
    | .supervisor, .working, .cancelled => if s.tasks.any (·.cancels) then some (s.setTask i x .ended) else none
    | .supervisor, .working, _ => some (s.leave i x)
    | .supervisor, .publishing, _ => some (s.stopDispatcherUnlessStopping i x)
    | _, _, _ => none

def step : RestartAct → Option RestartedComponent
  | .start => s.start
  | .stop deferred => s.stop component deferred
  | .turn i outcome => s.turn component i outcome
  | .workerEnds => if s.stopping ∧ s.worker.isSome then some { s with worker := none } else none

/-! ### What the component promises -/

/-- No call of `start()` or `stop()` is in progress. -/
def Idle : Prop := ∀ x ∈ s.tasks, x.calling = false

/-- The lifecycle state agrees with the dispatcher, and no task of an earlier run stops it. -/
structure Coherent : Prop where
  running : s.lifecycle = .running → s.Idle → s.worker.isSome = true ∧ s.stopping = false
  stopped : s.lifecycle = .stopped → s.Idle → (∀ x ∈ s.tasks, x.kind ≠ .start → x.pc = .ended) → s.worker = none
  own : ∀ p ∈ s.stoppedFor, p.1 = p.2

/-- `start()` begins a run only when no task is left that may still stop the dispatcher, and is not cancelled once more while its
cleanup awaits the listener. -/
def Settled : RestartAct → Prop
  | .start => s.lifecycle = .stopped → ∀ x ∈ s.tasks, x.unsettled = false
  | .turn i .cancelled => ∀ x ∈ s.tasks[i]?, x.pc ≠ .closingListener
  | _ => True

instance : ∀ a, Decidable (s.Settled a)
  | .start => inferInstanceAs (Decidable (s.lifecycle = .stopped → ∀ x ∈ s.tasks, x.unsettled = false))
  | .turn i .cancelled => inferInstanceAs (Decidable (∀ x ∈ s.tasks[i]?, x.pc ≠ .closingListener))
  | .stop _ | .turn _ .returned | .turn _ .raised | .workerEnds => .isTrue trivial

end RestartedComponent

def restartMachine (component : TcpComponent) : Runs.Machine RestartedComponent RestartAct where
  init s := s = {}
  step s a := s.step component a

end Aionetx
