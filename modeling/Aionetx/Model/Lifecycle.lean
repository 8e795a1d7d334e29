import Aionetx.Model.Api

/-!
# Lifecycle transitions

* `ComponentLifecycleState.allows` : the transition table, the same for every role;
* `ComponentLifecycleChangedEvent`, `LifecycleTransition` : what `LifecycleTransitionPublisher.apply` returns;
* `applyStoppingTransitionIfActive`, `applyStoppedTransitionIfStopping` : the two helpers of the terminal paths.
-/

namespace Aionetx

/-- `_BASE_TRANSITIONS`. -/
def ComponentLifecycleState.allows : ComponentLifecycleState → ComponentLifecycleState → Bool
  | .stopped, .starting => true
  | .starting, .running | .starting, .stopping | .starting, .stopped => true
  | .running, .stopping => true
  | .stopping, .stopped => true
  | _, _ => false

/-- `_running`, which `_on_lifecycle_state_applied` mirrors. -/
def ComponentLifecycleState.active : ComponentLifecycleState → Bool
  | .starting | .running => true
  | .stopping | .stopped => false

structure ComponentLifecycleChangedEvent where
  previous : ComponentLifecycleState
  current : ComponentLifecycleState
  deriving DecidableEq, Repr

/-- What `LifecycleTransitionPublisher.apply` does: it leaves an equal state alone, raises on an illegal transition and
returns the event of a legal one. -/
inductive LifecycleTransition
  | unchanged | illegal | applied (event : ComponentLifecycleChangedEvent)
  deriving DecidableEq, Repr

/-- `LifecycleTransitionPublisher.apply` in the state `previous`. -/
def LifecycleTransition.of (previous target : ComponentLifecycleState) : LifecycleTransition :=
  if previous = target then .unchanged
  else if previous.allows target then .applied ⟨previous, target⟩
  else .illegal

/-- `apply_stopping_transition_if_active`: the new state and the events. -/
def applyStoppingTransitionIfActive (s : ComponentLifecycleState) :
    ComponentLifecycleState × List ComponentLifecycleChangedEvent :=
  if s = .running ∨ s = .starting then (.stopping, [⟨s, .stopping⟩]) else (s, [])

def applyStoppedTransitionIfStopping (s : ComponentLifecycleState) :
    ComponentLifecycleState × List ComponentLifecycleChangedEvent :=
  if s = .stopping then (.stopped, [⟨.stopping, .stopped⟩]) else (s, [])

theorem applyStopped_of_applyStopping (s : ComponentLifecycleState) :
    (applyStoppedTransitionIfStopping (applyStoppingTransitionIfActive s).1).1 = .stopped := by
  cases s <;> rfl

end Aionetx
