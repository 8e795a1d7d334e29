import Aionetx.Runs.Machine
import Aionetx.Lifecycle.StopPaths

/-!
# Overlapping callers of `stop()`

Any number of external callers of one component, each cancelled or not at any of its awaits. Cleanup succeeds: a step
raises nothing but the cancellation of the caller that awaits it.

* `StopCallerState`, `StopOperation`, `StopCalls` : the callers, the stop in progress and the shared futures;
* `Component.stopCallStep` : a call, the next step of the path in progress, the return of an await of a shared future, and
  the cancellation of a caller;
* `Component.absorbsCancellation` : the awaits of the owner whose cancellation does not fail the shared stop;
* `Component.gathers` : the awaits whose work is left undone when the cancellation comes before the tasks of the `gather`;
* `StaysLocal` : what the cancellations leave intact; `not_staysLocal_of_cancelledOwner` : a run that breaks it.
-/

namespace Aionetx

open Runs

universe u

/-- A component that is starting or running, with no stop behind it. -/
structure ActiveComponent extends StopWorld where
  active : lifecycle.active = true
  accepts : stopping = false
  nothingDetached : detached = fun _ => false
  nothingReleased : released = []
  nothingPublished : published = []

/-- A caller: not called yet, at the shared future of another owner, the owner of the path, at its own future (`raises`:
it will raise `CancelledError` after it), or returned or raised. -/
inductive StopCallerState
  | absent
  | waiting (future : Nat)
  | owning
  | awaitingOwn (future : Nat) (raises : Bool)
  | ended (result : Option Failure)
  deriving DecidableEq

/-- The stop in progress: the owner with whether it found an active inline handler, or the completion task. -/
structure StopOperation (κ : Type u) where
  future : Nat
  owner : Option (κ × Bool)
  rest : List StopStmt
  completion : List StopStmt
  error : Option Failure := none
  left : Bool := false
  /-- the tasks that the path's `gather` created have taken their first step -/
  begun : Bool := false

structure StopCalls (κ : Type u) where
  world : StopWorld
  operation : Option (StopOperation κ) := none
  /-- the shared futures, by the number of the stop: the result of those that are done -/
  futures : Nat → Option (Option Failure) := fun _ => none
  next : Nat := 0
  callers : κ → StopCallerState := fun _ => .absent
  cancelled : κ → Bool := fun _ => false
  /-- the first owner found an active inline handler -/
  inlineHandler : Bool := false

inductive StopCallAct (κ : Type u)
  | call (k : κ) (inlineHandler : Bool)
  | begin
  | operate
  | resume (k : κ)
  | cancel (k : κ)

/-- Whether a step suspends, so that its task can be cancelled at it. -/
def StopOp.suspends (w : StopWorld) : StopOp → Bool
  | .emitStopping => w.stoppingEvent.isSome
  | .emitStopped => w.stoppedEvent.isSome
  | .release .listener | .release .socket | .cancelSupervisor | .stopDispatcherFromHandlerOrigin => false
  | .release r => w.held r || w.detached r
  | .stopDispatcher => w.worker
  | .waitListenerClosed | .publishClosed | .awaitDeferredClose | .joinDeferredClose | .waitForHandlerContext => true

namespace StopOperation
variable {κ : Type u} (o : StopOperation κ)

def path (w : StopWorld) : StopPath := { state := w, error := o.error, left := o.left }

/-- The step that the path is about to make. -/
def next (w : StopWorld) : Option StopOp := o.rest.head?.bind fun stmt => stmt.operation (o.path w)

end StopOperation

def externalOrigin (inlineHandler : Bool) : StopOrigin := if inlineHandler then .activeInlineHandler else .external

namespace StopCalls
variable {κ : Type u} [DecidableEq κ] (s : StopCalls κ)

def setCaller (k : κ) (c : StopCallerState) : StopCalls κ := { s with callers := Function.update s.callers k c }

/-- The shared future is done, and `_stop_waiter` cleared. -/
def complete (future : Nat) (result : Option Failure) : StopCalls κ :=
  { s with operation := none, futures := Function.update s.futures future (some result) }

/-- The end of the owner's path: it returns or raises, or awaits the completion task, to which the shared future is left. -/
def finishOwned (o : StopOperation κ) (k : κ) (p : StopPath) : StopCalls κ :=
  if p.state.completionDeferred then
    { s with
      operation := some { future := o.future, owner := none, rest := o.completion, completion := [] } }.setCaller k
        (match p.error with
          | none => .awaitingOwn o.future p.state.raiseCancelAfterStopWaiter
          | some e => .ended (some e))
  else (s.complete o.future p.error).setCaller k (.ended p.error)

/-- The path has made a step: it goes on, or it ends in the same stretch of code. -/
def afterTurn (o : StopOperation κ) (rest : List StopStmt) (p : StopPath) : StopCalls κ :=
  let s := { s with world := p.state }
  if rest = [] ∨ p.left = true then
    match o.owner with
    | some (k, _) => s.finishOwned o k p
    | none => s.complete o.future p.error
  else { s with operation := some { o with rest, error := p.error, left := p.left, begun := false } }

/-- The next statement of the path in progress. -/
def operate (outcome : Option Failure) : Option (StopCalls κ) :=
  match s.operation with
  | none => none
  | some o =>
    match o.rest with
    | [] => none
    | stmt :: rest => some (s.afterTurn o rest (stmt.turn StopOp.perform outcome (o.path s.world)))

/-- How many steps the stop in progress makes at most. -/
def remaining : Nat :=
  match s.operation with
  | none => 0
  | some o => o.rest.length + (if o.owner.isSome then o.completion.length + 1 else 0) + 1

end StopCalls

namespace Component
variable {κ : Type u} [DecidableEq κ] (component : Component)

/-- `stop()` up to its first await: it waits for an owner, owns a new stop, or finds nothing to stop. -/
def stopCall (s : StopCalls κ) (k : κ) (inlineHandler : Bool) : StopCalls κ :=
  match s.operation with
  | some o => s.setCaller k (.waiting o.future)
  | none =>
    match component.planStop { origin := externalOrigin inlineHandler } s.world with
    | none =>
      -- a receiver calls `stop()` of its dispatcher even then
      { s with world := { s.world with stopping := s.world.stopping || decide (component = Component.datagramReceiver) } }.setCaller k
        (.ended none)
    | some (stop, w) =>
      { s with
        world := w
        operation :=
          some { future := s.next, owner := some (k, inlineHandler), rest := stop.path, completion := stop.completion }
        next := s.next + 1
        inlineHandler := if s.next = 0 then inlineHandler else s.inlineHandler }.setCaller k .owning

/-- The server stops its heartbeat senders, and closes its connections, in tasks that a `gather` creates and awaits. -/
def gathers : StopOp → Bool
  | .release .heartbeatSenders | .release .connections => component = .tcpServer
  | _ => false

/-- The owner is cancelled at the await of its path. The tasks of a `gather` that have not begun are cancelled with it, so
nothing is released; any others release what they hold. -/
def cancelOwner (s : StopCalls κ) (o : StopOperation κ) (op : StopOp) : Option (StopCalls κ) :=
  if component.gathers op && !o.begun then
    (s.operate (some .cancelled)).map fun t => { t with world.toStopResources := s.world.toStopResources }
  else s.operate (some .cancelled)

/-- The cancellation of a caller that awaits its own future: the TCP components raise it after the future is done. -/
def cancelAwaitingOwn (future : Nat) : StopCallerState :=
  if component = .datagramReceiver then .ended (some .cancelled) else .awaitingOwn future true

def stopCallStep (s : StopCalls κ) : StopCallAct κ → Option (StopCalls κ)
  | .call k inlineHandler => if s.callers k = .absent then some (component.stopCall s k inlineHandler) else none
  | .begin => s.operation.map fun o => { s with operation := some { o with begun := true } }
  | .operate => s.operate none
  | .resume k =>
    match s.callers k with
    | .waiting f => (s.futures f).map fun r => s.setCaller k (.ended r)
    | .awaitingOwn f raises =>
      (s.futures f).map fun r => s.setCaller k (.ended (r.or (if raises then some .cancelled else none)))
    | .absent | .owning | .ended _ => none
  | .cancel k =>
    let t := { s with cancelled := Function.update s.cancelled k true }
    match s.callers k with
    | .waiting _ => some (t.setCaller k (.ended (some .cancelled)))
    | .awaitingOwn f _ => some (t.setCaller k (component.cancelAwaitingOwn f))
    | .owning =>
      match s.operation with
      | none => none
      | some o =>
        match o.next s.world with
        | none => none
        | some op => if op.suspends s.world then component.cancelOwner t o op else none
    | .absent | .ended _ => none

def stopMachine (w : ActiveComponent) : Machine (StopCalls κ) (StopCallAct κ) where
  init s := s = { world := w.toStopWorld }
  step := component.stopCallStep

end Component

/-! ## What a cancellation leaves intact -/

/-- The resources that a stop of the component releases. A receive task whose handler is active ends by itself. -/
def Component.cleanup (component : Component) (inlineHandler : Bool) : List StopResource :=
  match component with
  | .tcpClient => [.supervisorTask, .heartbeatSenders, .connections]
  | .tcpServer => [.listener, .heartbeatSenders, .connections]
  | .datagramReceiver => if inlineHandler then [.socket] else [.receiveTask, .socket]

/-- The component after a stop: cleanup ran once, and `STOPPING` and `STOPPED` were published once each. -/
structure Completed (component : Component) (inlineHandler : Bool) (before after : StopWorld) : Prop where
  lifecycle : after.lifecycle = .stopped
  stopping : after.stopping = true
  released : after.released = (component.cleanup inlineHandler).filter before.held
  published : after.published = [⟨before.lifecycle, .stopping⟩, ⟨.stopping, .stopped⟩]

/-- The cancellations have stayed local: callers that were not cancelled return normally, cleanup is made once, a stop that
is over has published `STOPPED`, the stop in progress can go on, and every suspended caller waits for it or can resume. -/
structure StaysLocal {κ : Type u} [DecidableEq κ] (component : Component) (before : StopWorld) (s : StopCalls κ) : Prop where
  returns : ∀ k r, s.callers k = .ended r → s.cancelled k = false → r = none
  completes : s.operation = none → s.next ≠ 0 → Completed component s.inlineHandler before s.world
  moves : s.operation ≠ none → ∃ t, component.stopCallStep s .operate = some t ∧ t.remaining < s.remaining
  served : ∀ k f, s.callers k = .waiting f ∨ (∃ raises, s.callers k = .awaitingOwn f raises) →
    s.futures f ≠ none ∨ ∃ o, s.operation = some o ∧ o.future = f

/-- The awaits of an owner's path whose cancellation the path absorbs or hands to the completion task. -/
def Component.absorbsCancellation (component : Component) (inlineHandler : Bool) (op : StopOp) : Bool :=
  match component with
  | .tcpClient | .tcpServer => inlineHandler
  | .datagramReceiver => op = .awaitDeferredClose

/-- The owner is cancelled only where its path absorbs it and every task of a `gather` has begun, or, at the last await of
the path, while nobody waits. -/
def Component.CancelsSafely {κ : Type u} (component : Component) (s : StopCalls κ) : StopCallAct κ → Prop
  | .cancel k => ∀ o inlineHandler op, s.operation = some o → o.owner = some (k, inlineHandler) → o.next s.world = some op →
      component.absorbsCancellation inlineHandler op = true ∧ (component.gathers op = true → o.begun = true) ∨
        op = .stopDispatcher ∧ ∀ k', s.callers k' ≠ .waiting o.future
  | _ => True

end Aionetx
