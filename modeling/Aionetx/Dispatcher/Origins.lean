import Mathlib.Data.Finset.Basic
import Mathlib.Tactic
import Aionetx.Runs.Machine
import Aionetx.Model.Api

/-!
# Handler origins

Whether the current task is inside a handler of a dispatcher is reconstructed from two context variables, which every
task inherits from its creator, and from four containers of the dispatcher. The context variables hold `id()` values,
and those are given out again once their object is gone.

* `HandlerOrigins` : the containers of one dispatcher; `HandlerTask` : a task with its context and the context managers
  it is in;
* `currentTaskIsDispatchingHandler`, `currentTaskHasHandlerOriginContext`, `currentTaskInheritsHandlerOriginContext` :
  the three checks;
* `Provenance.step` : objects come and go, tasks enter and leave handler calls;
* `Provenance.Sound` : what the checks and the containers are meant to say;
* `Provenance.NoStale` : no object is created, and no token taken, that a left-over context entry already names.
-/

namespace Aionetx

/-- The bookkeeping of one dispatcher; `addr` is its `id()`. -/
structure HandlerOrigins where
  addr : Nat
  nextHandlerOriginToken : Nat := 0
  activeHandlerOriginTokens : Finset Nat := ∅
  activeHandlerOriginResources : Nat → Option (Option ResourceId) := fun _ => none
  activeHandlerOriginOwnerTasks : Nat → Option (Option Nat) := fun _ => none
  activeHandlerOriginChildProvenanceTokens : Finset Nat := ∅

/-- Which context manager a task is in: `_handler_dispatch_context` around the handler, or
`_handler_origin_context_only` around the stop callback. -/
inductive CallKind
  | handler | stopCallback
  deriving DecidableEq, Repr

/-- One entered context manager: the dispatcher `dispatcher` with the `id()` `addr`, the token taken, the number of the
call, and the values that the two context variables are reset to. -/
structure HandlerFrame where
  dispatcher : Nat
  addr : Nat
  token : Nat
  kind : CallKind
  resource : Option ResourceId
  call : Nat
  savedDispatch : Finset (Nat × Nat)
  savedOrigin : Finset (Nat × Nat)

/-- What identifies a call among the active ones. -/
def HandlerFrame.key (f : HandlerFrame) : Nat × Nat := (f.dispatcher, f.token)

/-- A task: its `id()`, its two context variables, the context managers it is in, innermost first, the dispatch
context it was created with, and the calls it descends from. -/
structure HandlerTask where
  addr : Nat
  handlerDispatchContext : Finset (Nat × Nat) := ∅
  handlerOriginContext : Finset (Nat × Nat) := ∅
  frames : List HandlerFrame := []
  inherited : Finset (Nat × Nat) := ∅
  descends : List Nat := []

/-! ## The checks -/

def currentTaskHasHandlerOriginContext (d : HandlerOrigins) (t : HandlerTask) (resource : Option ResourceId) : Prop :=
  ∃ p ∈ t.handlerOriginContext, p.1 = d.addr ∧ p.2 ∈ d.activeHandlerOriginTokens ∧
    ((d.activeHandlerOriginOwnerTasks p.2).join = none ∨ (d.activeHandlerOriginOwnerTasks p.2).join = some t.addr) ∧
    (resource = none ∨ (d.activeHandlerOriginResources p.2).join = resource)

def currentTaskIsDispatchingHandler (d : HandlerOrigins) (t : HandlerTask) (resource : Option ResourceId) : Prop :=
  (d.addr, t.addr) ∈ t.handlerDispatchContext ∧ (resource = none ∨ currentTaskHasHandlerOriginContext d t resource)

def currentTaskInheritsHandlerOriginContext (d : HandlerOrigins) (t : HandlerTask) (resource : Option ResourceId) :
    Prop :=
  ∃ p ∈ t.handlerOriginContext, p.1 = d.addr ∧ p.2 ∈ d.activeHandlerOriginTokens ∧
    (p.2 ∈ d.activeHandlerOriginChildProvenanceTokens ∨
      (d.activeHandlerOriginOwnerTasks p.2).join = some t.addr) ∧
    (resource = none ∨ (d.activeHandlerOriginResources p.2).join = resource)

/-! ## Entering and leaving a handler call -/

/-- The dispatcher's side of entering: a fresh token in the containers. -/
def HandlerOrigins.enter (d : HandlerOrigins) (kind : CallKind) (resource : Option ResourceId) (currentTask : Nat) :
    HandlerOrigins :=
  let token := d.nextHandlerOriginToken + 1
  { d with
    nextHandlerOriginToken := token
    activeHandlerOriginTokens := insert token d.activeHandlerOriginTokens
    activeHandlerOriginResources := Function.update d.activeHandlerOriginResources token (some resource)
    activeHandlerOriginOwnerTasks := Function.update d.activeHandlerOriginOwnerTasks token (some (some currentTask))
    activeHandlerOriginChildProvenanceTokens := match kind with
      | .handler => insert token d.activeHandlerOriginChildProvenanceTokens
      | .stopCallback => d.activeHandlerOriginChildProvenanceTokens }

/-- The `finally` block of either context manager, on the dispatcher's side. -/
def HandlerOrigins.leave (d : HandlerOrigins) (token : Nat) : HandlerOrigins :=
  { d with
    activeHandlerOriginTokens := d.activeHandlerOriginTokens.erase token
    activeHandlerOriginResources := Function.update d.activeHandlerOriginResources token none
    activeHandlerOriginOwnerTasks := Function.update d.activeHandlerOriginOwnerTasks token none
    activeHandlerOriginChildProvenanceTokens := d.activeHandlerOriginChildProvenanceTokens.erase token }

/-- The value of `_handler_dispatch_context` inside a call. -/
def CallKind.dispatchContext (kind : CallKind) (dispatcher task : Nat) (saved : Finset (Nat × Nat)) :
    Finset (Nat × Nat) :=
  match kind with
  | .handler => insert (dispatcher, task) saved
  | .stopCallback => saved

/-- The task's side of entering the call `call` of the dispatcher `n`. -/
def HandlerTask.enter (t : HandlerTask) (n : Nat) (d : HandlerOrigins) (kind : CallKind) (resource : Option ResourceId)
    (call : Nat) : HandlerTask :=
  let token := d.nextHandlerOriginToken + 1
  { t with
    handlerDispatchContext := kind.dispatchContext d.addr t.addr t.handlerDispatchContext
    handlerOriginContext := insert (d.addr, token) t.handlerOriginContext
    frames :=
      { dispatcher := n, addr := d.addr, token, kind, resource, call, savedDispatch := t.handlerDispatchContext,
        savedOrigin := t.handlerOriginContext } :: t.frames }

/-- A task created by `t`: it inherits a copy of the context. -/
def HandlerTask.child (t : HandlerTask) (addr : Nat) : HandlerTask :=
  { addr
    handlerDispatchContext := t.handlerDispatchContext
    handlerOriginContext := t.handlerOriginContext
    inherited := t.handlerDispatchContext
    descends := t.frames.map HandlerFrame.call ++ t.descends }

/-! ## The machine -/

/-- The live dispatchers and tasks, by numbers that are never used again, with the number of the next handler call. -/
structure Provenance where
  dispatchers : Nat → Option HandlerOrigins := fun _ => none
  tasks : Nat → Option HandlerTask := fun _ => none
  nextDispatcher : Nat := 0
  nextTask : Nat := 0
  nextCall : Nat := 0

/-- The actions: objects are created at an `id()` that no live one of their kind has, and freed; a task enters or
leaves a handler call or its stop callback. -/
inductive ProvenanceAct
  | createDispatcher (addr : Nat)
  | freeDispatcher (d : Nat)
  | createTask (parent : Option Nat) (addr : Nat)
  | endTask (t : Nat)
  | enter (t d : Nat) (kind : CallKind) (resource : Option ResourceId)
  | leave (t : Nat)

namespace Provenance

/-- Some task is inside a call of the dispatcher. -/
def entered (s : Provenance) (d : Nat) : Prop :=
  ∃ t < s.nextTask, ∃ T ∈ s.tasks t, ∃ f ∈ T.frames, f.dispatcher = d

instance (s : Provenance) (d : Nat) : Decidable (s.entered d) := by
  unfold entered; infer_instance

def step (s : Provenance) : ProvenanceAct → Option Provenance
  | .createDispatcher addr =>
    if ∃ d < s.nextDispatcher, ∃ D ∈ s.dispatchers d, D.addr = addr then none
    else some
      { s with
        dispatchers := Function.update s.dispatchers s.nextDispatcher (some { addr })
        nextDispatcher := s.nextDispatcher + 1 }
  | .freeDispatcher d =>
    if s.entered d then none else some { s with dispatchers := Function.update s.dispatchers d none }
  | .createTask parent addr =>
    if ∃ t < s.nextTask, ∃ T ∈ s.tasks t, T.addr = addr then none
    else
      match parent with
      | none =>
        some { s with tasks := Function.update s.tasks s.nextTask (some { addr }), nextTask := s.nextTask + 1 }
      | some p => (s.tasks p).map fun T =>
        { s with tasks := Function.update s.tasks s.nextTask (some (T.child addr)), nextTask := s.nextTask + 1 }
  | .endTask t =>
    match s.tasks t with
    | some T => if T.frames.isEmpty then some { s with tasks := Function.update s.tasks t none } else none
    | none => none
  | .enter t d kind resource =>
    match s.tasks t, s.dispatchers d with
    | some T, some D =>
      some { s with
        dispatchers := Function.update s.dispatchers d (some (D.enter kind resource T.addr))
        tasks := Function.update s.tasks t (some (T.enter d D kind resource s.nextCall))
        nextCall := s.nextCall + 1 }
    | _, _ => none
  | .leave t =>
    match s.tasks t with
    | some T =>
      match T.frames with
      | f :: rest =>
        some { s with
          dispatchers := Function.update s.dispatchers f.dispatcher ((s.dispatchers f.dispatcher).map (·.leave f.token))
          tasks := Function.update s.tasks t
            (some { T with
              handlerDispatchContext := f.savedDispatch
              handlerOriginContext := f.savedOrigin
              frames := rest }) }
      | [] => none
    | none => none

/-- The live task `t`, with the `id()` `addr`, is inside the call `f`. -/
def InCall (s : Provenance) (t addr : Nat) (f : HandlerFrame) : Prop :=
  ∃ T, s.tasks t = some T ∧ T.addr = addr ∧ f ∈ T.frames

/-- The tokens with `P` are those of the active calls of the dispatcher `d` with `q`. -/
def Lists (s : Provenance) (d : Nat) (P : Nat → Prop) (q : Nat → HandlerFrame → Prop) : Prop :=
  ∀ k, P k ↔ ∃ t a f, s.InCall t a f ∧ f.key = (d, k) ∧ q a f

/-- The containers of the dispatcher `d` hold its active calls and nothing else; of these, the handlers alone lend
their provenance to children. -/
structure Exact (s : Provenance) (d : Nat) (D : HandlerOrigins) : Prop where
  tokens : s.Lists d (· ∈ D.activeHandlerOriginTokens) fun _ _ => True
  resources : ∀ r, s.Lists d (D.activeHandlerOriginResources · = some r) fun _ f => f.resource = r
  owners : ∀ o, s.Lists d (D.activeHandlerOriginOwnerTasks · = some o) fun a _ => some a = o
  childProvenance : s.Lists d (· ∈ D.activeHandlerOriginChildProvenanceTokens) fun _ f => f.kind = .handler

/-- What the checks and the containers are meant to say. -/
structure Sound (s : Provenance) : Prop where
  dispatching : ∀ t T d D r, s.tasks t = some T → s.dispatchers d = some D → currentTaskIsDispatchingHandler D T r →
    ∃ f ∈ T.frames, f.dispatcher = d ∧ (r = none ∨ f.resource = r)
  hasOrigin : ∀ t T d D r, s.tasks t = some T → s.dispatchers d = some D → currentTaskHasHandlerOriginContext D T r →
    ∃ f ∈ T.frames, f.dispatcher = d ∧ (r = none ∨ f.resource = r)
  inherits : ∀ t T d D r, s.tasks t = some T → s.dispatchers d = some D →
    currentTaskInheritsHandlerOriginContext D T r →
      ∃ t' a f, s.InCall t' a f ∧ f.dispatcher = d ∧ (t' = t ∨ f.call ∈ T.descends) ∧ (r = none ∨ f.resource = r)
  exact : ∀ d D, s.dispatchers d = some D → s.Exact d D

/-- The action gives out no `id()` and no token that a left-over context entry names: a child is not created at the
`id()` of a task that ran a handler it inherits the mark of, a dispatcher is not created at the `id()` of one whose
mark its task still has, and no other task has the pair of the dispatcher's `id()` and the token a handler call takes. -/
def NoStale (s : Provenance) : ProvenanceAct → Prop
  | .createDispatcher addr => ∀ t < s.nextTask, ∀ T ∈ s.tasks t, (addr, T.addr) ∉ T.handlerDispatchContext
  | .createTask (some p) addr =>
    ∀ T ∈ s.tasks p, ∀ d < s.nextDispatcher, ∀ D ∈ s.dispatchers d, (D.addr, addr) ∉ T.handlerDispatchContext
  | .enter t d .handler _ =>
    ∀ D ∈ s.dispatchers d, ∀ t' < s.nextTask, t' ≠ t → ∀ T ∈ s.tasks t',
      (D.addr, D.nextHandlerOriginToken + 1) ∉ T.handlerOriginContext
  | .createTask none _ | .enter _ _ .stopCallback _ | .freeDispatcher _ | .endTask _ | .leave _ => True

end Provenance

def provenanceMachine : Runs.Machine Provenance ProvenanceAct where
  init s := s = {}
  step := Provenance.step

end Aionetx
