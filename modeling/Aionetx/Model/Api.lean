import Mathlib.Tactic.Common

/-!
# The enumerations of the public API

The state, mode and policy enumerations that the runtime branches on, and the delivery settings of a dispatcher.
Identifiers (`resource_id`, `connection_id`) are only ever compared, so they are numbers here.
-/

namespace Aionetx

abbrev ResourceId := Nat

/-- A payload. -/
abbrev Bytes := List UInt8

inductive ConnectionState
  | created | connecting | connected | closing | closed
  deriving DecidableEq, Repr

inductive ComponentLifecycleState
  | stopped | starting | running | stopping
  deriving DecidableEq, Repr

inductive EventDispatchMode
  | inline | background
  deriving DecidableEq, Repr

inductive EventBackpressurePolicy
  | block | dropOldest | dropNewest
  deriving DecidableEq, Repr

inductive EventHandlerFailurePolicy
  | logOnly | raiseInInlineMode | emitErrorEvent | stopComponent
  deriving DecidableEq, Repr

/-- The part of `EventDeliverySettings` that queueing and dispatch read, with the bound that its `validate` checks. -/
structure EventDeliverySettings where
  dispatchMode : EventDispatchMode := .background
  backpressurePolicy : EventBackpressurePolicy := .block
  handlerFailurePolicy : EventHandlerFailurePolicy := .logOnly
  maxPendingEvents : Nat := 1024
  maxPendingEvents_pos : 0 < maxPendingEvents := by decide

end Aionetx
