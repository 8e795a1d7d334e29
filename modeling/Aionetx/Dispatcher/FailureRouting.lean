import Aionetx.Runs.Machine
import Aionetx.Model.Api

/-!
# The routing of a handler failure

`_emit_now`, `_handle_handler_failure` and `_emit_handler_failure_control_event` call each other. One task dispatches one
event; what other tasks do to the dispatcher meanwhile is up to them.

* `FailureRouting` : the stack of the calls of `_emit_now`, what the task reads of the dispatcher, and the record of what was
  handed to the handler, queued, dropped, and of the stop callback;
* `FailureRouting.handleHandlerFailure`, `emitControl`, `enqueueTurn`, `resume` : the functions;
* `FailureRouting.Routed` : what the routing promises, with the place of the stop event left to `StopEventFirst`;
* `routed_of_reachable` : it promises this, and the stop event is handed over first unless the dispatch is an inline fallback
  during which the dispatcher was started or stopped; `not_stopEventFirst_of_startedMeanwhile` : then it need not be.
-/

namespace Aionetx

open Runs

inductive EventClass
  | networkError | handlerFailurePolicyStop | other
  deriving DecidableEq, Repr

structure DispatcherStopPolicy where
  enabled : Bool
  callback : Bool
  deriving DecidableEq, Repr

structure RoutingSettings extends EventDeliverySettings where
  stopPolicy : DispatcherStopPolicy

inductive RoutingPc
  /-- it awaits `on_event` -/
  | handling
  /-- it awaits the emission of the control event -/
  | control
  /-- the same, in `_enqueue`, waiting for space in the queue -/
  | enqueuing (e : EventClass)
  /-- it awaits the stop callback -/
  | callback
  deriving DecidableEq, Repr

/-- A call of `_emit_now`. -/
structure RoutingFrame where
  event : EventClass
  pc : RoutingPc
  deriving DecidableEq, Repr

/-- What a dispatch has done so far. -/
inductive RoutingEntry
  | handed (e : EventClass)
  | queued (e : EventClass)
  | dropped (e : EventClass)
  | stopCallback
  deriving DecidableEq, Repr

/-- A task that dispatches `event`, and what it reads of the dispatcher. `phaseChanged`: since the dispatch began, the
dispatcher has had a worker or has been stopped. -/
structure FailureRouting where
  event : EventClass
  onWorker : Bool
  inlineContext : Bool
  stopping : Bool
  worker : Bool
  pending : Nat
  /-- an event in the queue may be dropped for a newer one -/
  droppable : Bool
  phaseChanged : Bool
  stack : List RoutingFrame
  log : List RoutingEntry
  deriving DecidableEq, Repr

/-- The steps of the dispatching task, and what other tasks do. -/
inductive RoutingAct
  | handlerReturned
  /-- an `Exception`, or a `CancelledError` without a cancellation of the task -/
  | handlerFailed
  /-- the cancellation of the task, or another `BaseException` -/
  | handlerRaised
  /-- the wait for space is over -/
  | enqueueTurn
  | enqueueCancelled
  | callbackReturned
  | callbackRaised
  | others (stopping worker droppable : Bool) (pending : Nat)
  deriving DecidableEq, Repr

namespace FailureRouting

variable (settings : RoutingSettings) (s : FailureRouting)

def emitNow (e : EventClass) (callers : List RoutingFrame) : FailureRouting :=
  { s with stack := ⟨e, .handling⟩ :: callers, log := s.log ++ [.handed e] }

/-- The control event of the innermost of these calls has been emitted: each goes on after it, from the innermost one out. -/
def resume : List RoutingFrame → FailureRouting
  | [] => { s with stack := [] }
  | f :: callers =>
    if settings.handlerFailurePolicy = .stopComponent then
      { s with stack := ⟨f.event, .callback⟩ :: callers, log := s.log ++ [.stopCallback] }
    else resume callers

def enqueueTurn (e : EventClass) (f : RoutingFrame) (callers : List RoutingFrame) : FailureRouting :=
  let queued (pending : Nat) := resume settings { s with pending, log := s.log ++ [.queued e] } (f :: callers)
  let dropped := resume settings { s with log := s.log ++ [.dropped e] } (f :: callers)
  if s.stopping then dropped
  else if s.pending < settings.maxPendingEvents then queued (s.pending + 1)
  else
    match settings.backpressurePolicy with
    | .block => { s with stack := ⟨f.event, .enqueuing e⟩ :: callers }
    | .dropOldest => if s.droppable then queued s.pending else dropped
    | .dropNewest => dropped

def emit (e : EventClass) (f : RoutingFrame) (callers : List RoutingFrame) : FailureRouting :=
  let inline := s.emitNow e (⟨f.event, .control⟩ :: callers)
  if settings.dispatchMode = .inline then inline
  else if s.inlineContext then inline
  else if s.stopping then resume settings { s with log := s.log ++ [.dropped e] } (f :: callers)
  else if s.onWorker then inline
  else if !s.worker then inline
  else s.enqueueTurn settings e f callers

/-- `_emit_handler_failure_control_event`. -/
def emitControl (e : EventClass) (f : RoutingFrame) (callers : List RoutingFrame) : FailureRouting :=
  if settings.dispatchMode = .background ∧ s.onWorker then s.emitNow e (⟨f.event, .control⟩ :: callers)
  else s.emit settings e f callers

/-- `_handle_handler_failure`, for the innermost call of `_emit_now`. -/
def handleHandlerFailure (f : RoutingFrame) (callers : List RoutingFrame) : FailureRouting :=
  match settings.handlerFailurePolicy with
  | .logOnly => s.resume settings callers
  | .raiseInInlineMode =>
    if settings.dispatchMode = .inline then { s with stack := [] } else s.resume settings callers
  | .emitErrorEvent =>
    if f.event = .networkError then s.resume settings callers else s.emitControl settings .networkError f callers
  | .stopComponent =>
    if !settings.stopPolicy.enabled || !settings.stopPolicy.callback then s.resume settings callers
    else if f.event = .handlerFailurePolicyStop then s.resume settings callers
    else s.emitControl settings .handlerFailurePolicyStop f callers

/-- One action. A worker does not end while it dispatches, and an exception leaves all calls. -/
def step (s : FailureRouting) : RoutingAct → Option FailureRouting
  | .others stopping worker droppable pending =>
    if s.onWorker && !worker then none
    else some { s with
      stopping, worker, droppable, pending
      phaseChanged := s.phaseChanged || stopping || worker }
  | a =>
    match s.stack with
    | [] => none
    | f :: callers =>
      match f.pc, a with
      | .handling, .handlerReturned => some (s.resume settings callers)
      | .handling, .handlerFailed => some (s.handleHandlerFailure settings f callers)
      | .handling, .handlerRaised => some { s with stack := [] }
      | .enqueuing e, .enqueueTurn => some (s.enqueueTurn settings e f callers)
      | .enqueuing _, .enqueueCancelled => some { s with stack := [] }
      | .callback, .callbackReturned => some (s.resume settings callers)
      | .callback, .callbackRaised => some { s with stack := [] }
      | _, _ => none

/-- `_emit_now` begins: in INLINE mode, on the worker, in an inline-delivery context, or before the dispatcher has a worker. -/
structure Begins (s : FailureRouting) : Prop where
  stack : s.stack = [⟨s.event, .handling⟩]
  log : s.log = [.handed s.event]
  path : settings.dispatchMode = .inline ∨ settings.dispatchMode = .background ∧ s.onWorker = true ∧ s.worker = true ∨
    s.inlineContext = true ∨ s.stopping = false ∧ s.worker = false
  inlineMode : settings.dispatchMode = .inline → s.onWorker = false
  phase : s.phaseChanged = (s.stopping || s.worker)

end FailureRouting

def routingMachine (settings : RoutingSettings) : Machine FailureRouting RoutingAct where
  init := FailureRouting.Begins settings
  step := FailureRouting.step settings

/-- The entry is an event that was handed over or queued. -/
def RoutingEntry.delivers : RoutingEntry → Bool
  | .handed _ | .queued _ => true
  | .dropped _ | .stopCallback => false

def RoutingAct.own : RoutingAct → Bool
  | .others _ _ _ _ => false
  | _ => true

namespace FailureRouting

/-! ## What the routing promises -/

/-- How many steps the task makes at most, apart from waiting for space again. -/
def rank (s : FailureRouting) : Nat :=
  match s.stack with
  | [] => 0
  | [f] =>
    match f.pc with
    | .handling => 3
    | .enqueuing _ => 2
    | .callback => 1
    | .control => 0
  | _ :: _ :: _ => 2

/-- The routing ends; it delivers one control event and makes one call of the stop callback at most; a failure at a control
event has no effect; and the worker waits for nothing but the handler and the callback. -/
structure Routed (settings : RoutingSettings) (s : FailureRouting) : Prop where
  terminates : ∀ a t, a.own = true → s.step settings a = some t → t.rank < s.rank ∨ t = s ∧ s.onWorker = false
  goesOn : s.stack ≠ [] → ∃ a t, a.own = true ∧ s.step settings a = some t
  first : s.log.head? = some (.handed s.event)
  oneControl : s.log.tail.countP RoutingEntry.delivers ≤ 1
  oneCallback : s.log.count .stopCallback ≤ 1
  errorEvent : settings.handlerFailurePolicy = .emitErrorEvent → s.event = .networkError → s.log = [.handed .networkError]
  stopEvent : settings.handlerFailurePolicy = .stopComponent → s.event = .handlerFailurePolicyStop →
    s.log = [.handed .handlerFailurePolicyStop]
  controlFailure : 2 ≤ s.stack.length → s.step settings .handlerFailed = s.step settings .handlerReturned
  workerFree : s.onWorker = true → ∀ f ∈ s.stack, ∀ e, f.pc ≠ .enqueuing e

def beforeCallback (s : FailureRouting) : List RoutingEntry := s.log.takeWhile (· ≠ .stopCallback)

/-- The stop event has been handed to the handler before the stop callback runs. -/
def StopEventFirst (s : FailureRouting) : Prop :=
  .stopCallback ∈ s.log → .handed .handlerFailurePolicyStop ∈ s.beforeCallback

/-- It has been handed over, queued or dropped. -/
def StopEventEmitted (s : FailureRouting) : Prop :=
  .stopCallback ∈ s.log → .handed .handlerFailurePolicyStop ∈ s.beforeCallback ∨
    .queued .handlerFailurePolicyStop ∈ s.beforeCallback ∨ .dropped .handlerFailurePolicyStop ∈ s.beforeCallback

/-- An inline fallback during which the dispatcher was started or stopped. -/
def FallbackOvertaken (settings : RoutingSettings) (s : FailureRouting) : Prop :=
  settings.dispatchMode = .background ∧ s.onWorker = false ∧ s.inlineContext = false ∧ s.phaseChanged = true

/-! ## The states of a dispatch -/

/-- The policy answers a failure at `e` with the control event `c`. -/
def Answers (settings : RoutingSettings) (e c : EventClass) : Prop :=
  settings.handlerFailurePolicy = .emitErrorEvent ∧ c = .networkError ∧ e ≠ .networkError ∨
    settings.handlerFailurePolicy = .stopComponent ∧ c = .handlerFailurePolicyStop ∧ e ≠ .handlerFailurePolicyStop

/-- What became of the control event: it was handed over, or the dispatch is an overtaken fallback. -/
def Emitted (settings : RoutingSettings) (s : FailureRouting) (c : EventClass) (x : RoutingEntry) : Prop :=
  x = .handed c ∨ (x = .queued c ∨ x = .dropped c) ∧ s.FallbackOvertaken settings

/-- The stack and the record belong together. -/
inductive Stage (settings : RoutingSettings) (s : FailureRouting) : List RoutingFrame → List RoutingEntry → Prop
  | handling : Stage settings s [⟨s.event, .handling⟩] [.handed s.event]
  | control {c : EventClass} (h : Answers settings s.event c) :
      Stage settings s [⟨c, .handling⟩, ⟨s.event, .control⟩] [.handed s.event, .handed c]
  | enqueuing {c : EventClass} (h : Answers settings s.event c) (hover : s.FallbackOvertaken settings) :
      Stage settings s [⟨s.event, .enqueuing c⟩] [.handed s.event]
  | callback {c : EventClass} {x : RoutingEntry} (h : Answers settings s.event c) (hx : s.Emitted settings c x)
      (hpolicy : settings.handlerFailurePolicy = .stopComponent) :
      Stage settings s [⟨s.event, .callback⟩] [.handed s.event, x, .stopCallback]
  | ended : Stage settings s [] [.handed s.event]
  | endedControl {c : EventClass} {x : RoutingEntry} (h : Answers settings s.event c) (hx : s.Emitted settings c x) :
      Stage settings s [] [.handed s.event, x]
  | endedCallback {c : EventClass} {x : RoutingEntry} (h : Answers settings s.event c) (hx : s.Emitted settings c x)
      (hpolicy : settings.handlerFailurePolicy = .stopComponent) :
      Stage settings s [] [.handed s.event, x, .stopCallback]

structure Inv (settings : RoutingSettings) (s : FailureRouting) : Prop where
  stage : s.Stage settings s.stack s.log
  phase : s.stopping = true ∨ s.worker = true → s.phaseChanged = true
  worker : s.onWorker = true → settings.dispatchMode = .background

variable {settings : RoutingSettings} {s t : FailureRouting} {c : EventClass} {x : RoutingEntry} {f : RoutingFrame}

theorem Inv.of_stage (h : s.Inv settings) (hstage : t.Stage settings t.stack t.log) (hstopping : t.stopping = s.stopping)
    (hworker : t.worker = s.worker) (honWorker : t.onWorker = s.onWorker) (hphase : t.phaseChanged = s.phaseChanged) :
    t.Inv settings := by
  refine ⟨hstage, ?_, ?_⟩
  · rw [hstopping, hworker, hphase]
    exact h.phase
  · rw [honWorker]
    exact h.worker

/-- After its control event the call goes on: the callback is next, or the dispatch is over. -/
theorem stage_resume (hlog : t.log = [.handed t.event, x]) (ha : Answers settings t.event c) (hx : t.Emitted settings c x)
    (hf : f.event = t.event) :
    (t.resume settings [f]).Stage settings (t.resume settings [f]).stack (t.resume settings [f]).log := by
  unfold resume
  split
  · next hpolicy =>
    rw [hf, hlog]
    exact .callback ha hx hpolicy
  · unfold resume
    show Stage settings _ [] t.log
    rw [hlog]
    exact .endedControl ha hx

theorem resume_frame (settings : RoutingSettings) (t : FailureRouting) (callers : List RoutingFrame) :
    (t.resume settings callers).stopping = t.stopping ∧ (t.resume settings callers).worker = t.worker ∧
      (t.resume settings callers).onWorker = t.onWorker ∧ (t.resume settings callers).phaseChanged = t.phaseChanged := by
  induction callers with
  | nil => exact ⟨rfl, rfl, rfl, rfl⟩
  | cons f callers ih =>
    unfold resume
    split
    · exact ⟨rfl, rfl, rfl, rfl⟩
    · exact ih

/-- A dispatch goes on whose control event has been emitted one way or another. -/
theorem Inv.resume (h : s.Inv settings) (pending : Nat) (hlog : s.log = [.handed s.event]) (ha : Answers settings s.event c)
    (hx : s.Emitted settings c x) (hf : f.event = s.event) :
    (FailureRouting.resume settings { s with pending, log := s.log ++ [x] } [f]).Inv settings := by
  obtain ⟨hstopping, hworker, honWorker, hphase⟩ :=
    resume_frame settings { s with pending, log := s.log ++ [x] } [f]
  refine h.of_stage (stage_resume (c := c) (x := x) ?_ ha hx hf) hstopping hworker honWorker hphase
  show s.log ++ [x] = _
  rw [hlog]
  rfl

theorem Inv.enqueueTurn (h : s.Inv settings) (hlog : s.log = [.handed s.event]) (ha : Answers settings s.event c)
    (hover : s.FallbackOvertaken settings) (hf : f.event = s.event) : (s.enqueueTurn settings c f []).Inv settings := by
  have hqueued : s.Emitted settings c (.queued c) := .inr ⟨.inl rfl, hover⟩
  have hdropped : s.Emitted settings c (.dropped c) := .inr ⟨.inr rfl, hover⟩
  unfold FailureRouting.enqueueTurn
  dsimp only
  split
  · exact h.resume s.pending hlog ha hdropped hf
  · split
    · exact h.resume (s.pending + 1) hlog ha hqueued hf
    · split
      · refine h.of_stage ?_ rfl rfl rfl rfl
        show Stage settings _ [⟨f.event, .enqueuing c⟩] s.log
        rw [hf, hlog]
        exact .enqueuing ha hover
      · split
        · exact h.resume s.pending hlog ha hqueued hf
        · exact h.resume s.pending hlog ha hdropped hf
      · exact h.resume s.pending hlog ha hdropped hf

theorem Inv.emitNow (h : s.Inv settings) (hlog : s.log = [.handed s.event]) (ha : Answers settings s.event c)
    (hf : f.event = s.event) : (s.emitNow c [⟨f.event, .control⟩]).Inv settings := by
  refine h.of_stage ?_ rfl rfl rfl rfl
  show Stage settings _ [⟨c, .handling⟩, ⟨f.event, .control⟩] (s.log ++ [.handed c])
  rw [hf, hlog]
  exact .control ha

theorem Inv.emitControl (h : s.Inv settings) (hlog : s.log = [.handed s.event]) (ha : Answers settings s.event c)
    (hf : f.event = s.event) : (s.emitControl settings c f []).Inv settings := by
  unfold FailureRouting.emitControl
  split
  · exact h.emitNow hlog ha hf
  · next hworker =>
    have honWorker : s.onWorker = false := by
      by_contra hon
      have hon := Bool.of_not_eq_false hon
      exact hworker ⟨h.worker hon, hon⟩
    have hover : settings.dispatchMode ≠ .inline → ¬ s.inlineContext = true → (s.stopping = true ∨ s.worker = true) →
        s.FallbackOvertaken settings := by
      intro hmode hcontext hphase
      refine ⟨?_, honWorker, Bool.eq_false_iff.mpr hcontext, h.phase hphase⟩
      cases hm : settings.dispatchMode with
      | inline => exact absurd hm hmode
      | background => rfl
    unfold FailureRouting.emit
    dsimp only
    split
    · exact h.emitNow hlog ha hf
    · next hmode =>
      split
      · exact h.emitNow hlog ha hf
      · next hcontext =>
        split
        · next hstopping =>
          exact h.resume s.pending hlog ha (.inr ⟨.inr rfl, hover hmode hcontext (.inl hstopping)⟩) hf
        · split
          · exact h.emitNow hlog ha hf
          · split
            · exact h.emitNow hlog ha hf
            · next hmissing =>
              refine h.enqueueTurn hlog ha (hover hmode hcontext (.inr ?_)) hf
              by_contra hno
              exact hmissing (by rw [Bool.of_not_eq_true hno]; rfl)

theorem Stage.transfer {stack : List RoutingFrame} {log : List RoutingEntry} (h : s.Stage settings stack log)
    (hevent : t.event = s.event) (hover : s.FallbackOvertaken settings → t.FallbackOvertaken settings) :
    t.Stage settings stack log := by
  have hemitted : ∀ {c x}, s.Emitted settings c x → t.Emitted settings c x := Or.imp id (And.imp id hover)
  cases h with
  | handling => rw [← hevent]; exact .handling
  | control ha => rw [← hevent] at ha ⊢; exact .control ha
  | enqueuing ha h => rw [← hevent] at ha ⊢; exact .enqueuing ha (hover h)
  | callback ha hx hpolicy => rw [← hevent] at ha ⊢; exact .callback ha (hemitted hx) hpolicy
  | ended => rw [← hevent]; exact .ended
  | endedControl ha hx => rw [← hevent] at ha ⊢; exact .endedControl ha (hemitted hx)
  | endedCallback ha hx hpolicy => rw [← hevent] at ha ⊢; exact .endedCallback ha (hemitted hx) hpolicy

theorem Inv.ended (h : s.Inv settings) (hstage : s.Stage settings [] s.log) :
    ({ s with stack := [] } : FailureRouting).Inv settings :=
  h.of_stage (hstage.transfer rfl id) rfl rfl rfl rfl

theorem Inv.handlerFailed (h : s.Inv settings) (hlog : s.log = [.handed s.event]) :
    (s.handleHandlerFailure settings ⟨s.event, .handling⟩ []).Inv settings := by
  have hended : ({ s with stack := [] } : FailureRouting).Inv settings := by
    refine h.ended ?_
    rw [hlog]
    exact .ended
  unfold handleHandlerFailure
  split
  · exact hended
  · split
    · exact hended
    · exact hended
  · next hpolicy =>
    split
    · exact hended
    · next hevent => exact h.emitControl hlog (.inl ⟨hpolicy, rfl, hevent⟩) rfl
  · next hpolicy =>
    split
    · exact hended
    · split
      · exact hended
      · next hevent => exact h.emitControl hlog (.inr ⟨hpolicy, rfl, hevent⟩) rfl

theorem handleHandlerFailure_control (ha : Answers settings s.event c) (callers : List RoutingFrame) :
    s.handleHandlerFailure settings ⟨c, .handling⟩ callers = s.resume settings callers := by
  unfold handleHandlerFailure
  rcases ha with ⟨hpolicy, rfl, -⟩ | ⟨hpolicy, rfl, -⟩
  · rw [hpolicy]
    exact if_pos rfl
  · rw [hpolicy]
    dsimp only
    split
    · rfl
    · exact if_pos rfl

theorem Inv.others (h : s.Inv settings) {stopping worker droppable : Bool} {pending : Nat}
    (hstep : s.step settings (.others stopping worker droppable pending) = some t) : t.Inv settings := by
  simp only [FailureRouting.step] at hstep
  split at hstep
  · cases hstep
  · cases hstep
    refine ⟨h.stage.transfer rfl fun hover => ⟨hover.1, hover.2.1, hover.2.2.1, ?_⟩, fun hphase => ?_, h.worker⟩
    · show (s.phaseChanged || stopping || worker) = true
      rw [hover.2.2.2]
      rfl
    · show (s.phaseChanged || stopping || worker) = true
      rcases hphase with hstopping | hworker
      · rw [show stopping = true from hstopping, Bool.or_true]
        rfl
      · rw [show worker = true from hworker, Bool.or_true]

/-- What a step of the task does: the innermost call returns, is routed, waits again, or raises. -/
theorem step_own {a : RoutingAct} (hown : a.own = true) (hstep : s.step settings a = some t) :
    ∃ f callers, s.stack = f :: callers ∧
      ((f.pc = .handling ∧ (t = s.resume settings callers ∨ t = s.handleHandlerFailure settings f callers ∨
          t = { s with stack := [] })) ∨
        (∃ e, f.pc = .enqueuing e ∧ (t = s.enqueueTurn settings e f callers ∨ t = { s with stack := [] })) ∨
          f.pc = .callback ∧ (t = s.resume settings callers ∨ t = { s with stack := [] })) := by
  cases hstack : s.stack with
  | nil => cases a <;> simp_all [FailureRouting.step, RoutingAct.own]
  | cons f callers =>
    refine ⟨f, callers, rfl, ?_⟩
    cases hpc : f.pc <;> cases a <;> simp_all [FailureRouting.step, RoutingAct.own]

theorem Inv.step {a : RoutingAct} (h : s.Inv settings) (hstep : s.step settings a = some t) : t.Inv settings := by
  by_cases hown : a.own = true
  · obtain ⟨f, callers, hstack, hcase⟩ := step_own hown hstep
    have hstage := h.stage
    rw [hstack] at hstage
    generalize hlog : s.log = log at hstage
    cases hstage with
    | handling =>
      rcases hcase with ⟨-, rfl | rfl | rfl⟩ | ⟨e, hpc, -⟩ | ⟨hpc, -⟩
      · exact h.ended (by rw [hlog]; exact .ended)
      · exact h.handlerFailed hlog
      · exact h.ended (by rw [hlog]; exact .ended)
      · cases hpc
      · cases hpc
    | @control c ha =>
      have hresumed : (s.resume settings [⟨s.event, .control⟩]).Inv settings := by
        obtain ⟨hstopping, hworker, honWorker, hphase⟩ := resume_frame settings s [⟨s.event, .control⟩]
        exact h.of_stage (stage_resume hlog ha (.inl rfl) rfl) hstopping hworker honWorker hphase
      rcases hcase with ⟨-, rfl | rfl | rfl⟩ | ⟨e, hpc, -⟩ | ⟨hpc, -⟩
      · exact hresumed
      · rw [handleHandlerFailure_control ha]
        exact hresumed
      · exact h.ended (by rw [hlog]; exact .endedControl ha (.inl rfl))
      · cases hpc
      · cases hpc
    | enqueuing ha hover =>
      rcases hcase with ⟨hpc, -⟩ | ⟨e, hpc, rfl | rfl⟩ | ⟨hpc, -⟩
      · cases hpc
      · cases hpc
        exact h.enqueueTurn hlog ha hover rfl
      · exact h.ended (by rw [hlog]; exact .ended)
      · cases hpc
    | callback ha hx hpolicy =>
      have hended : ({ s with stack := [] } : FailureRouting).Inv settings :=
        h.ended (by rw [hlog]; exact .endedCallback ha hx hpolicy)
      rcases hcase with ⟨hpc, -⟩ | ⟨e, hpc, -⟩ | ⟨-, rfl | rfl⟩
      · cases hpc
      · cases hpc
      · exact hended
      · exact hended
  · cases a with
    | others => exact h.others hstep
    | _ => exact absurd rfl hown

theorem inv_of_reachable {ok : FailureRouting → RoutingAct → Prop} (h : (routingMachine settings).Reachable ok s) :
    s.Inv settings := by
  refine h.invariant (I := Inv settings) (fun s h0 => ⟨?_, fun hphase => ?_, fun hworker => ?_⟩)
    fun s a t hi _ hstep => hi.step hstep
  · rw [h0.stack, h0.log]
    exact .handling
  · rw [h0.phase]
    simpa using hphase
  · cases hmode : settings.dispatchMode with
    | inline => cases (h0.inlineMode hmode).symm.trans hworker
    | background => rfl

/-! ## The rank -/

theorem rank_resume_le (t : FailureRouting) (f : RoutingFrame) : (t.resume settings [f]).rank ≤ 1 := by
  unfold resume
  split
  · exact Nat.le_refl 1
  · exact Nat.zero_le 1

theorem rank_enqueueTurn (settings : RoutingSettings) (s : FailureRouting) (c : EventClass) (f : RoutingFrame) :
    (s.enqueueTurn settings c f []).rank ≤ 1 ∨
      s.enqueueTurn settings c f [] = { s with stack := [⟨f.event, .enqueuing c⟩] } := by
  unfold enqueueTurn
  dsimp only
  split
  · exact .inl (rank_resume_le _ f)
  · split
    · exact .inl (rank_resume_le _ f)
    · split
      · exact .inr rfl
      · split
        · exact .inl (rank_resume_le _ f)
        · exact .inl (rank_resume_le _ f)
      · exact .inl (rank_resume_le _ f)

theorem rank_emitControl_le (s : FailureRouting) (c : EventClass) (f : RoutingFrame) :
    (s.emitControl settings c f []).rank ≤ 2 := by
  have hresume : ∀ t : FailureRouting, (t.resume settings [f]).rank ≤ 2 := fun t =>
    Nat.le_succ_of_le (rank_resume_le t f)
  unfold emitControl emit
  dsimp only
  split
  · exact Nat.le_refl 2
  · split
    · exact Nat.le_refl 2
    · split
      · exact Nat.le_refl 2
      · split
        · exact hresume _
        · split
          · exact Nat.le_refl 2
          · split
            · exact Nat.le_refl 2
            · rcases rank_enqueueTurn settings s c f with hrank | hwaits
              · exact Nat.le_succ_of_le hrank
              · rw [hwaits]
                exact Nat.le_refl 2

theorem rank_handleHandlerFailure_le (s : FailureRouting) (f : RoutingFrame) :
    (s.handleHandlerFailure settings f []).rank ≤ 2 := by
  have hended : (s.resume settings []).rank ≤ 2 := Nat.zero_le 2
  unfold handleHandlerFailure
  split
  · exact hended
  · split
    · exact Nat.zero_le 2
    · exact hended
  · split
    · exact hended
    · exact rank_emitControl_le s .networkError f
  · split
    · exact hended
    · split
      · exact hended
      · exact rank_emitControl_le s .handlerFailurePolicyStop f

/-- Every step of the task leads on, unless a task that is not the worker has to wait for space again. -/
theorem Inv.rank_lt {a : RoutingAct} (h : s.Inv settings) (hown : a.own = true) (hstep : s.step settings a = some t) :
    t.rank < s.rank ∨ t = s ∧ s.onWorker = false := by
  obtain ⟨f, callers, hstack, hcase⟩ := step_own hown hstep
  have hrank : s.rank = ({ s with stack := f :: callers } : FailureRouting).rank := by rw [← hstack]
  have hstage := h.stage
  rw [hstack] at hstage
  generalize s.log = log at hstage
  cases hstage with
  | handling =>
    rw [hrank]
    left
    rcases hcase with ⟨-, rfl | rfl | rfl⟩ | ⟨e, hpc, -⟩ | ⟨hpc, -⟩
    · exact Nat.zero_lt_succ 2
    · exact Nat.lt_succ_of_le (rank_handleHandlerFailure_le s _)
    · exact Nat.zero_lt_succ 2
    · cases hpc
    · cases hpc
  | control ha =>
    rw [hrank]
    left
    rcases hcase with ⟨-, rfl | rfl | rfl⟩ | ⟨e, hpc, -⟩ | ⟨hpc, -⟩
    · exact Nat.lt_succ_of_le (rank_resume_le s _)
    · rw [handleHandlerFailure_control ha]
      exact Nat.lt_succ_of_le (rank_resume_le s _)
    · exact Nat.zero_lt_succ 1
    · cases hpc
    · cases hpc
  | enqueuing ha hover =>
    rcases hcase with ⟨hpc, -⟩ | ⟨e, hpc, rfl | rfl⟩ | ⟨hpc, -⟩
    · cases hpc
    · cases hpc
      rcases rank_enqueueTurn settings s _ ⟨s.event, .enqueuing _⟩ with hlt | hwaits
      · rw [hrank]
        exact .inl (Nat.lt_succ_of_le hlt)
      · refine .inr ⟨hwaits.trans ?_, hover.2.1⟩
        rw [← hstack]
    · rw [hrank]
      exact .inl (Nat.zero_lt_succ 1)
    · cases hpc
  | callback ha hx hpolicy =>
    rw [hrank]
    left
    rcases hcase with ⟨hpc, -⟩ | ⟨e, hpc, -⟩ | ⟨-, rfl | rfl⟩
    · cases hpc
    · cases hpc
    · exact Nat.zero_lt_succ 0
    · exact Nat.zero_lt_succ 0

/-! ## The promise -/

theorem Inv.goesOn (h : s.Inv settings) (hne : s.stack ≠ []) : ∃ a t, a.own = true ∧ s.step settings a = some t := by
  have hstage := h.stage
  generalize hstack : s.stack = stack at hstage hne
  generalize s.log = log at hstage
  cases hstage with
  | handling | control =>
    refine ⟨.handlerReturned, FailureRouting.resume settings s s.stack.tail, rfl, ?_⟩
    simp only [FailureRouting.step, hstack, List.tail_cons]
  | enqueuing =>
    refine ⟨.enqueueCancelled, { s with stack := [] }, rfl, ?_⟩
    simp only [FailureRouting.step, hstack]
  | callback =>
    refine ⟨.callbackReturned, FailureRouting.resume settings s s.stack.tail, rfl, ?_⟩
    simp only [FailureRouting.step, hstack, List.tail_cons]
  | ended | endedControl | endedCallback => exact absurd rfl hne

theorem Answers.ne_event {e : EventClass} (ha : Answers settings e c) :
    (settings.handlerFailurePolicy = .emitErrorEvent → e ≠ .networkError) ∧
      (settings.handlerFailurePolicy = .stopComponent → e ≠ .handlerFailurePolicyStop) := by
  rcases ha with ⟨hpolicy, -, hne⟩ | ⟨hpolicy, -, hne⟩
  · exact ⟨fun _ => hne, fun h => by cases hpolicy.symm.trans h⟩
  · exact ⟨fun h => (by cases hpolicy.symm.trans h), fun _ => hne⟩

theorem Emitted.mem (hx : s.Emitted settings c x) : x = .handed c ∨ x = .queued c ∨ x = .dropped c :=
  hx.imp id And.left

/-- The record of a dispatch: the event, then perhaps a control event, then perhaps the callback of the stop event. -/
theorem Inv.log_cases (h : s.Inv settings) : s.log = [.handed s.event] ∨
    (∃ c x, Answers settings s.event c ∧ s.Emitted settings c x ∧ s.log = [.handed s.event, x]) ∨
      ∃ x, Answers settings s.event .handlerFailurePolicyStop ∧ s.Emitted settings .handlerFailurePolicyStop x ∧
        s.log = [.handed s.event, x, .stopCallback] := by
  have hstop : ∀ {c}, Answers settings s.event c → settings.handlerFailurePolicy = .stopComponent →
      c = .handlerFailurePolicyStop := by
    rintro c (⟨hpolicy, -, -⟩ | ⟨-, hc, -⟩) hstop
    · cases hpolicy.symm.trans hstop
    · exact hc
  have hstage := h.stage
  generalize s.stack = stack at hstage
  generalize hlog : s.log = log at hstage
  cases hstage with
  | handling | enqueuing | ended => exact .inl rfl
  | control ha => exact .inr (.inl ⟨_, _, ha, .inl rfl, rfl⟩)
  | endedControl ha hx => exact .inr (.inl ⟨_, _, ha, hx, rfl⟩)
  | callback ha hx hpolicy | endedCallback ha hx hpolicy =>
    obtain rfl := hstop ha hpolicy
    exact .inr (.inr ⟨_, ha, hx, rfl⟩)

theorem Inv.routed (h : s.Inv settings) : s.Routed settings where
  terminates a t hown hstep := h.rank_lt hown hstep
  goesOn hne := h.goesOn hne
  first := by
    rcases h.log_cases with hlog | ⟨c, x, -, -, hlog⟩ | ⟨x, -, -, hlog⟩
    all_goals rw [hlog]; rfl
  oneControl := by
    rcases h.log_cases with hlog | ⟨c, x, -, -, hlog⟩ | ⟨x, -, -, hlog⟩
    · rw [hlog]
      exact Nat.zero_le 1
    · rw [hlog]
      exact List.countP_le_length
    · rw [hlog, List.tail_cons]
      cases x with
      | handed e | queued e | dropped e => cases e <;> decide
      | stopCallback => decide
  oneCallback := by
    rcases h.log_cases with hlog | ⟨c, x, -, hx, hlog⟩ | ⟨x, -, hx, hlog⟩
    · rw [hlog]
      simp
    · rw [hlog]
      rcases hx.mem with rfl | rfl | rfl
      all_goals simp
    · rw [hlog]
      rcases hx.mem with rfl | rfl | rfl
      all_goals simp
  errorEvent hpolicy hevent := by
    rcases h.log_cases with hlog | ⟨c, x, ha, -, -⟩ | ⟨x, ha, -, -⟩
    · rw [hlog, hevent]
    · exact absurd hevent (ha.ne_event.1 hpolicy)
    · exact absurd hevent (ha.ne_event.1 hpolicy)
  stopEvent hpolicy hevent := by
    rcases h.log_cases with hlog | ⟨c, x, ha, -, -⟩ | ⟨x, ha, -, -⟩
    · rw [hlog, hevent]
    · exact absurd hevent (ha.ne_event.2 hpolicy)
    · exact absurd hevent (ha.ne_event.2 hpolicy)
  controlFailure hdeep := by
    have hstage := h.stage
    generalize hstack : s.stack = stack at hstage hdeep
    generalize s.log = log at hstage
    cases hstage with
    | control ha => simp only [FailureRouting.step, hstack, handleHandlerFailure_control ha]
    | handling | enqueuing | callback | ended | endedControl | endedCallback => simp at hdeep
  workerFree honWorker f hf e hpc := by
    have hstage := h.stage
    generalize s.stack = stack at hstage hf
    generalize s.log = log at hstage
    cases hstage with
    | enqueuing ha hover => cases honWorker.symm.trans hover.2.1
    | handling | callback =>
      rw [List.mem_singleton.mp hf] at hpc
      cases hpc
    | control =>
      rcases List.mem_cons.mp hf with rfl | hf
      · cases hpc
      · rw [List.mem_singleton.mp hf] at hpc
        cases hpc
    | ended | endedControl | endedCallback => cases hf

theorem Inv.stopEvent (h : s.Inv settings) : s.StopEventEmitted ∧ (s.StopEventFirst ∨ s.FallbackOvertaken settings) := by
  rcases h.log_cases with hlog | ⟨c, x, -, hx, hlog⟩ | ⟨x, -, hx, hlog⟩
  · have hnone : RoutingEntry.stopCallback ∉ s.log := by rw [hlog]; simp
    exact ⟨fun hmem => absurd hmem hnone, .inl fun hmem => absurd hmem hnone⟩
  · have hnone : RoutingEntry.stopCallback ∉ s.log := by
      rw [hlog]
      rcases hx.mem with rfl | rfl | rfl
      all_goals simp
    exact ⟨fun hmem => absurd hmem hnone, .inl fun hmem => absurd hmem hnone⟩
  · unfold StopEventEmitted StopEventFirst beforeCallback
    rw [hlog]
    rcases hx with rfl | ⟨rfl | rfl, hover⟩
    · exact ⟨fun _ => .inl (by simp), .inl fun _ => by simp⟩
    · exact ⟨fun _ => .inr (.inl (by simp)), .inr hover⟩
    · exact ⟨fun _ => .inr (.inr (by simp)), .inr hover⟩

/-- For every handler, settings, delivery path and behaviour of the other tasks: the routing of a failure ends and keeps its
promise, the stop event is emitted before the stop callback runs, and it is handed to the handler before, unless the dispatch is
an inline fallback during which the dispatcher was started or stopped. -/
theorem routed_of_reachable (h : (routingMachine settings).Reachable Machine.Any s) :
    s.Routed settings ∧ s.StopEventEmitted ∧ (s.StopEventFirst ∨ s.FallbackOvertaken settings) :=
  ⟨(inv_of_reachable h).routed, (inv_of_reachable h).stopEvent⟩

end FailureRouting

/-- `STOP_COMPONENT` in BACKGROUND mode, with room for one event. -/
def stopComponentSettings : RoutingSettings where
  handlerFailurePolicy := .stopComponent
  maxPendingEvents := 1
  maxPendingEvents_pos := Nat.one_pos
  stopPolicy := ⟨true, true⟩

/-- An inline fallback: an ordinary event, before the dispatcher has a worker. -/
def fallbackDispatch : FailureRouting where
  event := .other
  onWorker := false
  inlineContext := false
  stopping := false
  worker := false
  pending := 0
  droppable := false
  phaseChanged := false
  stack := [⟨.other, .handling⟩]
  log := [.handed .other]

theorem begins_fallbackDispatch : fallbackDispatch.Begins stopComponentSettings :=
  ⟨rfl, rfl, .inr (.inr (.inr ⟨rfl, rfl⟩)), nofun, rfl⟩

/-- The handler fails at every event, also at the stop event. -/
theorem routed_of_failingTwice : ∃ s : FailureRouting, s.log = [.handed .other, .handed .handlerFailurePolicyStop, .stopCallback] ∧
    (s.Routed stopComponentSettings ∧ s.StopEventEmitted ∧
      (s.StopEventFirst ∨ s.FallbackOvertaken stopComponentSettings)) := by
  have hrun : ∃ s : FailureRouting, (routingMachine stopComponentSettings).Reachable Machine.Any s ∧
      decide (s.log = [.handed .other, .handed .handlerFailurePolicyStop, .stopCallback]) :=
    Machine.Reachable.exists_of_exec begins_fallbackDispatch [.handlerFailed, .handlerFailed] _ (by decide)
  obtain ⟨s, hs, hp⟩ := hrun
  exact ⟨s, of_decide_eq_true hp, FailureRouting.routed_of_reachable hs⟩

/-- The dispatcher is started while the handler runs, and then the handler fails: the stop event is queued, and the stop
callback runs before the worker has handed it over. -/
theorem not_stopEventFirst_of_startedMeanwhile :
    ¬ ∀ s : FailureRouting, (routingMachine stopComponentSettings).Reachable Machine.Any s →
      s.Routed stopComponentSettings ∧ s.StopEventFirst := by
  have hrun : ∃ s : FailureRouting, (routingMachine stopComponentSettings).Reachable Machine.Any s ∧
      decide (s.log = [.handed .other, .queued .handlerFailurePolicyStop, .stopCallback]) :=
    Machine.Reachable.exists_of_exec begins_fallbackDispatch [.others false true false 0, .handlerFailed] _ (by decide)
  obtain ⟨s, hs, hp⟩ := hrun
  have hlog := of_decide_eq_true hp
  intro hall
  have hfirst := (hall s hs).2
  unfold FailureRouting.StopEventFirst FailureRouting.beforeCallback at hfirst
  rw [hlog] at hfirst
  exact absurd (hfirst (by decide)) (by decide)

end Aionetx
