import Aionetx.Dispatcher.Journal

/-!
# The completion barrier of `emit_and_wait`

A call that enters `_enqueue` waits for the `handled` future of its event, in a loop that outlives any number of
cancellations. The future is completed by the worker, by backpressure, by a purge, by `stop()` and by the `finally`
block of the worker; `Completion` says which of them it was.

* `step_completion` : what completes a future in one step;
* `Barriers` : a journal with the dispatches that have ended, the callers in their loop, and those that have ended;
* `Barriers.Sound` : the invariant, `Barriers.Exact` : what a caller may conclude from the way its call ended;
* `exact_of_run` : every run is exact.

The error of an abnormal end of the worker (`Completion.failed`) is its own `CancelledError` or a `BaseException` of
the handler that is no `Exception`, as long as failure routing raises nothing; neither is a `RuntimeError`.
-/

namespace Aionetx

universe u v

variable {κ : Type u} {ε : Type v}

/-! ## Completing futures -/

/-- The event inside `_emit_now` on the worker. -/
def Worker.current : Worker κ ε → Option (QueuedEvent κ ε)
  | .dispatching e => some e
  | _ => none

namespace DispatcherRuntime

variable [DecidableEq κ] {delivery : EventDeliverySettings} {r r' : DispatcherRuntime κ ε} {a : DispatcherAct κ ε}

/-- The dispatch on the worker that a step ends, and whether it completed. -/
def finishes (r : DispatcherRuntime κ ε) : DispatcherAct κ ε → Option (QueuedEvent κ ε × Bool)
  | .handlerReturned => r.worker.current.map fun e => (e, true)
  | .dispatchRaised => r.worker.current.map fun e => (e, false)
  | _ => none

theorem settle_completion (c : Completion) (d : Dispatcher κ ε) (e : QueuedEvent κ ε) (k : κ) :
    (d.settle c e).completion k = d.completion k ∨ (d.settle c e).completion k = c ∧ e.handled = some k := by
  unfold Dispatcher.settle
  cases he : e.handled with
  | none => exact .inl rfl
  | some k' =>
    by_cases hk : k = k'
    · subst hk
      by_cases hp : d.completion k = .pending <;> simp [hp]
    · left
      dsimp only
      split <;> simp [hk]

theorem foldl_settle_completion (c : Completion) (es : List (QueuedEvent κ ε)) (d : Dispatcher κ ε) (k : κ) :
    (es.foldl (Dispatcher.settle c) d).completion k = d.completion k ∨
      (es.foldl (Dispatcher.settle c) d).completion k = c ∧ ∃ e ∈ es, e.handled = some k := by
  induction es generalizing d with
  | nil => exact .inl rfl
  | cons e es ih =>
    rw [List.foldl_cons]
    rcases ih (d.settle c e) with h | ⟨h, x, hx, hk⟩
    · rw [h]
      rcases settle_completion c d e k with h | ⟨h, hk⟩
      · exact .inl h
      · exact .inr ⟨h, e, List.mem_cons_self, hk⟩
    · exact .inr ⟨h, x, List.mem_cons_of_mem _ hx, hk⟩

/-- Why the future of the call `k` has the value `c` after a step that changed it. -/
inductive Cause (out : List (QueuedEvent κ ε × Fate)) (done : Option (QueuedEvent κ ε × Bool)) (k : κ) :
    Completion → Prop
  | created : Cause out done k .pending
  | dropped {x : QueuedEvent κ ε × Fate} (hx : x ∈ out) (hf : x.2.handed = false) (hk : x.1.handled = some k) :
    Cause out done k .dropped
  | cleared {x : QueuedEvent κ ε × Fate} (hx : x ∈ out) (hf : x.2.handed = false) (hk : x.1.handled = some k) :
    Cause out done k .failed
  | finished {e : QueuedEvent κ ε} {b : Bool} (hd : done = some (e, b)) (hk : e.handled = some k) :
    Cause out done k (if b then .handled else .failed)

theorem cause_of_leaving {c : Completion} (l : List (QueuedEvent κ ε)) (d : Dispatcher κ ε)
    (done : Option (QueuedEvent κ ε × Bool)) (k : κ) {f : Fate} (hf : f.handed = false) (hc : c = .dropped ∨ c = .failed) :
    (l.foldl (Dispatcher.settle c) d).completion k = d.completion k ∨
      Cause (leaving f l) done k ((l.foldl (Dispatcher.settle c) d).completion k) := by
  rcases foldl_settle_completion c l d k with h | ⟨h, e, he, hk⟩
  · exact .inl h
  · have hx : (e, f) ∈ leaving f l := List.mem_map_of_mem he
    rw [h]
    rcases hc with rfl | rfl
    · exact .inr (.dropped hx hf hk)
    · exact .inr (.cleared hx hf hk)

theorem turn_completion (delivery : EventDeliverySettings) (k' : κ) (e : QueuedEvent κ ε) (d : Dispatcher κ ε) (k : κ)
    (done : Option (QueuedEvent κ ε × Bool)) :
    (d.enqueueTurn delivery k' e).completion k = d.completion k ∨
      Cause (d.enqueueFates delivery e) done k ((d.enqueueTurn delivery k' e).completion k) := by
  have hturn := d.turn delivery k' e
  generalize d.enqueueTurn delivery k' e = d', d.enqueueFates delivery e = out at hturn
  cases hturn with
  | stopPhase => exact cause_of_leaving [e] d.recordStopPhaseDrop done k (f := .stopPhase) rfl (.inl rfl)
  | accept | park => exact .inl rfl
  | evict _ _ oldest =>
    exact cause_of_leaving [oldest]
      { d with
        queue := d.queue.eraseP fun pending => pending.dropOnBackpressure
        droppedBackpressureOldestTotal := d.droppedBackpressureOldestTotal + 1 } done k (f := .evicted) rfl (.inl rfl)
  | reject =>
    exact cause_of_leaving [e] { d with droppedBackpressureNewestTotal := d.droppedBackpressureNewestTotal + 1 } done k
      (f := .rejected) rfl (.inl rfl)

theorem emit_completion (delivery : EventDeliverySettings) (r : DispatcherRuntime κ ε) (k' : κ) (ctx : EmitContext)
    (e : QueuedEvent κ ε) (k : κ) (done : Option (QueuedEvent κ ε × Bool)) :
    (r.emit delivery k' ctx e).completion k = r.completion k ∨
      Cause (r.emitFates delivery ctx e) done k ((r.emit delivery k' ctx e).completion k) := by
  have hroute : emitRoute delivery ctx { r.toDispatcher with emitCallsTotal := r.emitCallsTotal + 1 } =
      emitRoute delivery ctx r.toDispatcher := rfl
  unfold emit emitFates
  dsimp only
  rw [hroute]
  cases emitRoute delivery ctx r.toDispatcher with
  | inlineMode | inlineFallback | stopPhase => exact .inl rfl
  | enqueue =>
    exact turn_completion delivery k' e { r.toDispatcher with emitCallsTotal := r.emitCallsTotal + 1 } k done

theorem step_completion (h : r.step delivery a = some r') (k : κ) :
    r'.completion k = r.completion k ∨ Cause (r.fates delivery a) (r.finishes a) k (r'.completion k) := by
  cases a with
  | start =>
    cases h
    left
    unfold start
    split_ifs <;> rfl
  | stop k' ctx =>
    cases h
    simp only [stop, fates]
    cases r.hasBackgroundWorker with
    | false => exact .inl rfl
    | true =>
      simp only [Bool.not_true, Bool.false_eq_true, if_false, Bool.true_and]
      split
      · exact cause_of_leaving r.queue r.signalStop _ k (f := .stopPhase) rfl (.inl rfl)
      · split <;> exact .inl rfl
  | emit k' ctx e =>
    simp only [step] at h
    split at h
    · cases h
    · cases h; exact emit_completion ..
  | emitAndWait k' ctx e drop =>
    simp only [step] at h
    split at h
    · cases h
    · cases h
      rcases emit_completion delivery { r with completion := Function.update r.completion k' .pending } k' ctx
        { event := e, handled := some k', dropOnBackpressure := drop } k none with heq | hcause
      · by_cases hk : k = k'
        · subst hk
          right
          rw [heq]
          simp only [Function.update_self]
          exact .created
        · left
          rw [heq]
          simp [hk]
      · exact .inr hcause
  | enqueueTurn k' =>
    simp only [step] at h
    split at h
    · next k'' e hfind =>
      cases h
      simp only [fates, hfind]
      exact turn_completion delivery k'' e { r.toDispatcher with woken := r.woken.eraseP fun p => p.1 = k'' } k _
    · cases h
  | cancelProducer k' =>
    simp only [step] at h
    split at h
    · cases h; exact .inl rfl
    · cases h
  | dropQueuedEvents payload =>
    cases h
    simp only [fates, Dispatcher.dropQueuedEventsForResource]
    split
    · exact .inl rfl
    · exact cause_of_leaving _ r.toDispatcher _ k (f := .purged) rfl (.inl rfl)
  | workerTurn =>
    have hturn : r.workerTurn.completion = r.completion := by
      unfold workerTurn
      split
      · split <;> rfl
      · rfl
    simp only [step] at h
    split at h
    · cases h; exact .inl (congrFun hturn k)
    · cases h; exact .inl (congrFun hturn k)
    · cases h
  | handlerReturned =>
    simp only [step] at h
    split at h
    · next e hw =>
      cases h
      rcases settle_completion .handled r.toDispatcher e k with heq | ⟨heq, hk⟩
      · exact .inl heq
      · right
        show Cause _ _ k ((r.toDispatcher.settle .handled e).completion k)
        rw [heq]
        exact .finished (b := true) (by simp [finishes, hw, Worker.current]) hk
    · cases h
  | dispatchRaised =>
    simp only [step] at h
    split at h
    · next e hw =>
      cases h
      have hout := cause_of_leaving r.queue (r.toDispatcher.settle .failed e) (r.finishes .dispatchRaised) k
        (f := .cleared) rfl (.inr rfl)
      rcases hout with heq | hcause
      · rcases settle_completion .failed r.toDispatcher e k with hone | ⟨hone, hk⟩
        · exact .inl (heq.trans hone)
        · right
          show Cause _ _ k ((r.queue.foldl (Dispatcher.settle .failed) (r.toDispatcher.settle .failed e)).completion k)
          rw [heq, hone]
          exact .finished (b := false) (by simp [finishes, hw, Worker.current]) hk
      · exact .inr hcause
    · cases h
  | cancelWorker =>
    simp only [step] at h
    split at h
    · cases h; exact .inl rfl
    · next hw =>
      cases h
      simp only [fates, hw]
      exact cause_of_leaving r.queue r.toDispatcher _ k (f := .cleared) rfl (.inr rfl)
    · next hw =>
      cases h
      simp only [fates, hw]
      exact cause_of_leaving r.queue r.toDispatcher _ k (f := .cleared) rfl (.inr rfl)
    · cases h

def taken (log : List (QueuedEvent κ ε × Fate)) : List (QueuedEvent κ ε) :=
  (log.filter fun x => x.2 == .popped).map Prod.fst

omit [DecidableEq κ] in
theorem notifyNotEmpty_current (d : Dispatcher κ ε) : d.notifyNotEmpty.worker.current = d.worker.current := by
  simp only [Dispatcher.notifyNotEmpty]; cases d.worker <;> rfl

theorem enqueueTurn_current (delivery : EventDeliverySettings) (k : κ) (e : QueuedEvent κ ε) (d : Dispatcher κ ε) :
    (d.enqueueTurn delivery k e).worker.current = d.worker.current := by
  rcases (d.enqueueTurn_frame delivery k e).1 with h | h
  · rw [h]
  · rw [h, notifyNotEmpty_current]

theorem emit_current (delivery : EventDeliverySettings) (r : DispatcherRuntime κ ε) (k : κ) (ctx : EmitContext)
    (e : QueuedEvent κ ε) : (r.emit delivery k ctx e).worker.current = r.worker.current := by
  unfold emit
  dsimp only
  split
  · rfl
  · rfl
  · rfl
  · exact enqueueTurn_current ..

/-- The dispatch that a step ends is that of the worker's event, and a new one is that of an event it takes. -/
theorem step_current (h : r.step delivery a = some r') :
    (((r.finishes a).map Prod.fst).toList ++ r'.worker.current.toList).Sublist
      (r.worker.current.toList ++ taken (r.fates delivery a)) := by
  have hsame {x y : Option (QueuedEvent κ ε)} {l : List (QueuedEvent κ ε)} (hxy : x = y ∨ x = none) :
      x.toList.Sublist (y.toList ++ l) := by
    rcases hxy with rfl | rfl
    · exact List.sublist_append_left ..
    · exact List.nil_sublist _
  cases a with
  | start =>
    cases h
    refine hsame ?_
    unfold start
    split_ifs
    · exact .inl rfl
    · exact .inl rfl
    · exact .inr rfl
  | stop k ctx =>
    cases h
    refine hsame (.inl ?_)
    unfold stop
    split_ifs
    · rfl
    · exact notifyNotEmpty_current { r.toDispatcher with stopping := true }
    · exact notifyNotEmpty_current { r.toDispatcher with stopping := true }
    · exact notifyNotEmpty_current { r.toDispatcher with stopping := true }
  | emit k ctx e =>
    simp only [step] at h
    split at h
    · cases h
    · cases h; exact hsame (.inl (emit_current ..))
  | emitAndWait k ctx e drop =>
    simp only [step] at h
    split at h
    · cases h
    · cases h; exact hsame (.inl (emit_current ..))
  | enqueueTurn k =>
    simp only [step] at h
    split at h
    · cases h; exact hsame (.inl (enqueueTurn_current ..))
    · cases h
  | cancelProducer k =>
    simp only [step] at h
    split at h
    · cases h; exact hsame (.inl rfl)
    · cases h
  | dropQueuedEvents payload =>
    cases h
    refine hsame (.inl ?_)
    unfold Dispatcher.dropQueuedEventsForResource
    dsimp only
    split <;> rfl
  | workerTurn =>
    have hturn : r.workerTurn.worker.current.toList.Sublist (r.worker.current.toList ++ taken (r.fates delivery .workerTurn)) := by
      unfold workerTurn
      split
      · split
        · exact List.nil_sublist _
        · exact List.nil_sublist _
      · next e rest hq =>
        simp only [fates, hq, taken, leaving]
        exact List.sublist_append_right ..
    simp only [step] at h
    split at h
    · cases h; exact hturn
    · cases h; exact hturn
    · cases h
  | handlerReturned =>
    simp only [step] at h
    split at h
    · next e hw => cases h; simp [finishes, hw, Worker.current]
    · cases h
  | dispatchRaised =>
    simp only [step] at h
    split at h
    · next e hw =>
      cases h
      simp [finishes, hw, Worker.current, afterWorkerEnd, Dispatcher.failPending]
    · cases h
  | cancelWorker =>
    simp only [step] at h
    split at h
    · cases h; exact List.nil_sublist _
    · cases h; exact List.nil_sublist _
    · cases h; exact List.nil_sublist _
    · cases h

/-- Backpressure drops only events that may be dropped. -/
theorem turn_droppable (delivery : EventDeliverySettings) (k : κ) (e : QueuedEvent κ ε) (d : Dispatcher κ ε) :
    ∀ x ∈ d.enqueueFates delivery e, x.2 = .evicted ∨ x.2 = .rejected → x.1.dropOnBackpressure := by
  intro x hx hf
  have hturn := d.turn delivery k e
  generalize d.enqueueTurn delivery k e = d', d.enqueueFates delivery e = out at hturn hx
  cases hturn with
  | stopPhase => simp_all
  | accept | park => cases hx
  | evict _ _ oldest ho =>
    rw [List.mem_singleton.mp hx]
    simpa using List.find?_some ho
  | reject _ _ he =>
    rw [List.mem_singleton.mp hx]
    exact he

theorem step_droppable (delivery : EventDeliverySettings) (r : DispatcherRuntime κ ε) (a : DispatcherAct κ ε) :
    ∀ x ∈ r.fates delivery a, x.2 = .evicted ∨ x.2 = .rejected → x.1.dropOnBackpressure := by
  have hleave {f : Fate} {l : List (QueuedEvent κ ε)} (hf : f ≠ .evicted ∧ f ≠ .rejected) :
      ∀ x ∈ leaving f l, x.2 = .evicted ∨ x.2 = .rejected → x.1.dropOnBackpressure := by
    intro x hx hx2
    obtain ⟨e, _, rfl⟩ := List.mem_map.mp hx
    exact absurd hx2 (not_or.mpr hf)
  have hemit (k : κ) (ctx : EmitContext) (e : QueuedEvent κ ε) :
      ∀ x ∈ r.emitFates delivery ctx e, x.2 = .evicted ∨ x.2 = .rejected → x.1.dropOnBackpressure := by
    unfold emitFates
    split
    · exact hleave (f := .inline) (l := [e]) (by decide)
    · exact hleave (f := .inline) (l := [e]) (by decide)
    · exact hleave (f := .stopPhase) (l := [e]) (by decide)
    · exact turn_droppable delivery k e r.toDispatcher
  cases a with
  | start | handlerReturned => exact List.forall_mem_nil _
  | emit k ctx e => exact hemit k ctx _
  | emitAndWait k ctx e drop => exact hemit k ctx _
  | enqueueTurn k =>
    simp only [fates]
    split
    · exact turn_droppable delivery k _ r.toDispatcher
    · exact List.forall_mem_nil _
  | stop k ctx =>
    simp only [fates]
    split
    · exact hleave (by decide)
    · exact List.forall_mem_nil _
  | cancelWorker =>
    simp only [fates]
    split
    · exact hleave (by decide)
    · exact hleave (by decide)
    · exact List.forall_mem_nil _
  | cancelProducer k => exact hleave (by decide)
  | dropQueuedEvents payload => exact hleave (by decide)
  | workerTurn => exact hleave (by decide)
  | dispatchRaised => exact hleave (by decide)

end DispatcherRuntime

/-! ## The callers -/

inductive CallerEnd
  | returned
  | runtimeError
  | workerError
  | cancelledError
  deriving DecidableEq, Repr

/-- What `emit_and_wait` does after its loop, once the future is done. -/
def callerEnd (cancelled : Bool) : Completion → Option CallerEnd
  | .pending => none
  | .dropped => some .runtimeError
  | .failed => some .workerError
  | .handled => some (if cancelled then .cancelledError else .returned)

/-- A journal with the dispatches that have ended on the worker and whether they completed, the callers that await
their future with their `caller_cancelled`, and the calls that have ended after they had entered `_enqueue`, or were
refused because the dispatcher stops. -/
structure Barriers (ε : Type v) where
  journal : Journal ε := {}
  finished : List (QueuedEvent Nat (Call ε) × Bool) := []
  awaiting : List (Nat × Bool) := []
  ended : List (Nat × CallerEnd) := []

inductive BarrierAct (ε : Type v)
  | dispatcher (a : DispatcherAct Nat (Call ε))
  | cancelCaller (k : Nat)
  | resume (k : Nat)

namespace Barriers

/-- `_enqueue` has returned to the call `k`: its first turn of the loop. -/
def arrive (b : Barriers ε) (k : Nat) : Barriers ε :=
  match callerEnd false (b.journal.runtime.completion k) with
  | some o => { b with ended := b.ended ++ [(k, o)] }
  | none => { b with awaiting := b.awaiting ++ [(k, false)] }

/-- The call `k` has taken a turn of `_enqueue`: it has parked, or `_enqueue` returns. -/
def leaveTurn (b : Barriers ε) (k : Nat) : Barriers ε :=
  if b.journal.runtime.parked.any fun p => p.1 = k then b else b.arrive k

/-- What a step of the dispatcher does to the calls of `emit_and_wait` that it is about. -/
def callers (b : Barriers ε) (delivery : EventDeliverySettings) (r : DispatcherRuntime Nat (Call ε)) :
    DispatcherAct Nat (Call ε) → Barriers ε
  | .emitAndWait k ctx _ _ =>
    match emitRoute delivery ctx r.toDispatcher with
    | .inlineMode | .inlineFallback => b
    | .stopPhase => { b with ended := b.ended ++ [(k, .runtimeError)] }
    | .enqueue => b.leaveTurn k
  | .enqueueTurn k =>
    if (r.woken.find? fun p => p.1 = k).any fun p => p.2.handled == some k then b.leaveTurn k else b
  | .cancelProducer k =>
    if (r.parked.find? fun p => p.1 = k).any (fun p => p.2.handled == some k) ||
        (r.woken.find? fun p => p.1 = k).any fun p => p.2.handled == some k then
      { b with ended := b.ended ++ [(k, .cancelledError)] }
    else b
  | _ => b

def step (delivery : EventDeliverySettings) (b : Barriers ε) : BarrierAct ε → Option (Barriers ε)
  | .dispatcher a =>
    (b.journal.step delivery a).map fun j =>
      { b with journal := j, finished := b.finished ++ (b.journal.runtime.finishes a).toList }.callers delivery
        b.journal.runtime a
  | .cancelCaller k =>
    if b.awaiting.any fun p => p.1 = k then
      match callerEnd true (b.journal.runtime.completion k) with
      | some o =>
        some { b with awaiting := b.awaiting.filter (fun p => p.1 ≠ k), ended := b.ended ++ [(k, o)] }
      | none => some { b with awaiting := b.awaiting.map fun p => if p.1 = k then (k, true) else p }
    else none
  | .resume k =>
    match b.awaiting.find? fun p => p.1 = k with
    | some (_, cancelled) =>
      (callerEnd cancelled (b.journal.runtime.completion k)).map fun o =>
        { b with awaiting := b.awaiting.filter (fun p => p.1 ≠ k), ended := b.ended ++ [(k, o)] }
    | none => none

end Barriers

/-- The dispatcher before its first `start()`, without callers. -/
def barrierMachine (delivery : EventDeliverySettings) : Runs.Machine (Barriers ε) (BarrierAct ε) where
  init b := b = {}
  step := Barriers.step delivery

namespace Barriers

variable {delivery : EventDeliverySettings} {b b' : Barriers ε}

/-- The dispatch of the call's event has completed on the worker. -/
def Done (b : Barriers ε) (k : Nat) : Prop := ∃ x ∈ b.finished, x.2 = true ∧ x.1.handled = some k

/-- The call's event left the dispatcher and was not handed to the handler. -/
def Lost (b : Barriers ε) (k : Nat) : Prop := ∃ x ∈ b.journal.log, x.2.handed = false ∧ x.1.handled = some k

/-- The dispatcher is through with the call's event. -/
def Settled (b : Barriers ε) (k : Nat) : Prop := (∃ x ∈ b.finished, x.1.handled = some k) ∨ b.Lost k

/-- What the state of the call's future tells. -/
def Tells (b : Barriers ε) (k : Nat) : Completion → Prop
  | .pending => True
  | .handled => b.Done k
  | .dropped => b.Lost k
  | .failed => b.Settled k

def Ends (b : Barriers ε) (k : Nat) : CallerEnd → Prop
  | .returned => b.Done k
  | .runtimeError => b.Lost k
  | .workerError | .cancelledError => b.Settled k

/-- What a caller may conclude from the end of its call: after a normal return its event was handed to the handler
once, and this dispatch completed; after a `RuntimeError` it was never handed over; in any case it is neither queued
nor being handled. And backpressure has dropped no event that it must not drop. -/
structure Exact (b : Barriers ε) : Prop where
  returned : ∀ k, (k, .returned) ∈ b.ended →
    (handedOver b.journal.log).countP (fun e => e.handled == some k) = 1 ∧
      b.finished.countP (fun x => x.1.handled == some k && x.2) = 1
  runtimeError : ∀ k, (k, .runtimeError) ∈ b.ended → ∀ e ∈ handedOver b.journal.log, e.handled ≠ some k
  settled : ∀ k o, (k, o) ∈ b.ended →
    (∀ e ∈ b.journal.runtime.queue, e.handled ≠ some k) ∧
      ∀ e, b.journal.runtime.worker.current = some e → e.handled ≠ some k
  kept : ∀ x ∈ b.journal.log, x.1.dropOnBackpressure = false → x.2 ≠ .evicted ∧ x.2 ≠ .rejected

structure Sound (b : Barriers ε) : Prop where
  custody : b.journal.Custody
  own : ∀ e ∈ b.journal.runtime.held ++ b.journal.log.map Prod.fst, ∀ k, e.handled = some k → e.event.serial = k
  current : (b.finished.map Prod.fst ++ b.journal.runtime.worker.current.toList).Sublist
    (DispatcherRuntime.taken b.journal.log)
  tells : ∀ k, b.Tells k (b.journal.runtime.completion k)
  ends : ∀ x ∈ b.ended, b.Ends x.1 x.2
  droppable : ∀ x ∈ b.journal.log, x.2 = .evicted ∨ x.2 = .rejected → x.1.dropOnBackpressure

theorem Done.settled {k : Nat} (h : b.Done k) : b.Settled k := by
  obtain ⟨x, hx, _, hk⟩ := h
  exact .inl ⟨x, hx, hk⟩

/-- The log and the finished dispatches only grow. -/
structure Grows (b b' : Barriers ε) : Prop where
  log : b.journal.log ⊆ b'.journal.log
  finished : b.finished ⊆ b'.finished

theorem Grows.lost (h : b.Grows b') {k : Nat} : b.Lost k → b'.Lost k
  | ⟨x, hx, hk⟩ => ⟨x, h.log hx, hk⟩

theorem Grows.done (h : b.Grows b') {k : Nat} : b.Done k → b'.Done k
  | ⟨x, hx, hk⟩ => ⟨x, h.finished hx, hk⟩

theorem Grows.settled (h : b.Grows b') {k : Nat} : b.Settled k → b'.Settled k
  | .inl ⟨x, hx, hk⟩ => .inl ⟨x, h.finished hx, hk⟩
  | .inr hl => .inr (h.lost hl)

theorem Grows.tells (h : b.Grows b') {k : Nat} {c : Completion} (hs : b.Tells k c) : b'.Tells k c := by
  cases c with
  | pending => trivial
  | handled => exact h.done hs
  | dropped => exact h.lost hs
  | failed => exact h.settled hs

theorem Grows.ends (h : b.Grows b') {k : Nat} {o : CallerEnd} (he : b.Ends k o) : b'.Ends k o := by
  cases o with
  | returned => exact h.done he
  | runtimeError => exact h.lost he
  | workerError | cancelledError => exact h.settled he

/-- The way the loop of a call ends tells the same as its future. -/
theorem Tells.ends {k : Nat} {cancelled : Bool} {c : Completion} {o : CallerEnd} (hs : b.Tells k c)
    (ho : callerEnd cancelled c = some o) : b.Ends k o := by
  cases c with
  | pending => cases ho
  | dropped => cases ho; exact hs
  | failed => cases ho; exact hs
  | handled =>
    cases cancelled with
    | false => cases ho; exact hs
    | true => cases ho; exact Done.settled hs

theorem Ends.settled {k : Nat} {o : CallerEnd} (he : b.Ends k o) : b.Settled k := by
  cases o with
  | returned => exact Done.settled he
  | runtimeError => exact .inr he
  | workerError | cancelledError => exact he

/-- The event of the call `k` is known to the dispatcher once, in custody or in the log. -/
theorem Sound.once (h : b.Sound) (k : Nat) :
    (b.journal.runtime.held ++ b.journal.log.map Prod.fst).countP (fun e => e.handled == some k) ≤ 1 := by
  have hcount := List.nodup_iff_count_le_one.mp h.custody.nodup k
  rw [List.count, List.countP_map] at hcount
  refine (List.countP_mono_left fun e he hk => ?_).trans hcount
  simpa using h.own e he k (by simpa using hk)

theorem Sound.once_log (h : b.Sound) (k : Nat) :
    (b.journal.log.map Prod.fst).countP (fun e => e.handled == some k) ≤ 1 := by
  have := h.once k
  rw [List.countP_append] at this
  omega

theorem taken_sublist (log : List (QueuedEvent Nat (Call ε) × Fate)) :
    (DispatcherRuntime.taken log).Sublist (handedOver log) := by
  refine .map _ (List.monotone_filter_right _ fun x hx => ?_)
  have hf : x.2 = .popped := by simpa using hx
  rw [hf]
  rfl

theorem Sound.not_handedOver (h : b.Sound) {k : Nat} (hl : b.Lost k) :
    ∀ e ∈ handedOver b.journal.log, e.handled ≠ some k := by
  obtain ⟨x, hx, hf, hk⟩ := hl
  intro e he hek
  have hone := h.once_log k
  rw [List.countP_map, List.countP_eq_countP_filter_add _ _ fun x => x.2.handed] at hone
  have h1 : 0 < (b.journal.log.filter fun x => x.2.handed).countP ((fun e => e.handled == some k) ∘ Prod.fst) := by
    obtain ⟨y, hy, rfl⟩ := List.mem_map.mp he
    exact List.countP_pos_iff.mpr ⟨y, hy, by simpa using hek⟩
  have h2 : 0 < (b.journal.log.filter fun x => !x.2.handed).countP ((fun e => e.handled == some k) ∘ Prod.fst) :=
    List.countP_pos_iff.mpr ⟨x, List.mem_filter.mpr ⟨hx, by simp [hf]⟩, by simpa using hk⟩
  omega

theorem Sound.not_queued (h : b.Sound) {k : Nat} {e : QueuedEvent Nat (Call ε)} (he : e ∈ b.journal.log.map Prod.fst)
    (hk : e.handled = some k) : ∀ e ∈ b.journal.runtime.queue, e.handled ≠ some k := by
  intro x hx hxk
  have hone := h.once k
  rw [List.countP_append] at hone
  have h1 : 0 < b.journal.runtime.held.countP fun e => e.handled == some k :=
    List.countP_pos_iff.mpr ⟨x, List.mem_append_left _ hx, by simpa using hxk⟩
  have h2 : 0 < (b.journal.log.map Prod.fst).countP fun e => e.handled == some k :=
    List.countP_pos_iff.mpr ⟨e, he, by simpa using hk⟩
  omega

/-- What has finished was taken by the worker, once, and is not being handled. -/
theorem Sound.finished_once (h : b.Sound) (k : Nat) :
    (b.finished.countP fun x => x.1.handled == some k) +
      b.journal.runtime.worker.current.toList.countP (fun e => e.handled == some k) ≤ 1 := by
  have hsub := (h.current.trans (taken_sublist _)).trans (List.filter_sublist.map Prod.fst)
  have hone := (hsub.countP_le (p := fun e : QueuedEvent Nat (Call ε) => e.handled == some k)).trans (h.once_log k)
  rwa [List.countP_append, List.countP_map] at hone

theorem Sound.finished_mem (h : b.Sound) {x : QueuedEvent Nat (Call ε) × Bool} (hx : x ∈ b.finished) :
    x.1 ∈ handedOver b.journal.log :=
  ((h.current.trans (taken_sublist _)).subset (List.mem_append_left _ (List.mem_map_of_mem hx)))

theorem Sound.exact (h : b.Sound) : b.Exact where
  returned := by
    intro k hend
    obtain ⟨x, hx, hok, hk⟩ := h.ends _ hend
    have hfin := h.finished_once k
    constructor
    · have hle : (handedOver b.journal.log).countP (fun e => e.handled == some k) ≤ 1 :=
        (List.filter_sublist.map Prod.fst).countP_le.trans (h.once_log k)
      have hpos : 0 < (handedOver b.journal.log).countP fun e => e.handled == some k :=
        List.countP_pos_iff.mpr ⟨x.1, h.finished_mem hx, by simpa using hk⟩
      exact le_antisymm hle hpos
    · have hle : b.finished.countP (fun x => x.1.handled == some k && x.2) ≤
          b.finished.countP fun x => x.1.handled == some k :=
        List.countP_mono_left fun x _ hx => by simp_all
      have hpos : 0 < b.finished.countP fun x => x.1.handled == some k && x.2 :=
        List.countP_pos_iff.mpr ⟨x, hx, by simp [hk, hok]⟩
      omega
  runtimeError := fun k hend => h.not_handedOver (h.ends _ hend)
  settled := by
    intro k o hend
    rcases (h.ends _ hend).settled with ⟨x, hx, hk⟩ | hlost
    · constructor
      · obtain ⟨y, hy, hxy⟩ := List.mem_map.mp (h.finished_mem hx)
        exact h.not_queued (List.mem_map.mpr ⟨y, List.mem_of_mem_filter hy, hxy⟩) hk
      · intro e he hek
        have hfin := h.finished_once k
        have hpos : 0 < b.finished.countP fun x => x.1.handled == some k :=
          List.countP_pos_iff.mpr ⟨x, hx, by simpa using hk⟩
        have hcur : (some e).toList.countP (fun e => e.handled == some k) = 1 := by simp [hek]
        rw [he, hcur] at hfin
        omega
    · constructor
      · obtain ⟨x, hx, _, hk⟩ := hlost
        exact h.not_queued (List.mem_map_of_mem hx) hk
      · intro e he
        refine h.not_handedOver hlost e ((h.current.trans (taken_sublist _)).subset ?_)
        simp [he]
  kept := by
    intro x hx hd
    rw [← not_or]
    intro hf
    simp [h.droppable x hx hf] at hd

/-! ## One action -/

/-- The calls' bookkeeping touches the dispatcher, the log and the finished dispatches in no way. -/
theorem Sound.of_ended (h : b.Sound) (hj : b'.journal = b.journal) (hf : b'.finished = b.finished)
    (he : ∀ x ∈ b'.ended, x ∈ b.ended ∨ b.Ends x.1 x.2) : b'.Sound := by
  obtain ⟨j, fin, aw, en⟩ := b'
  dsimp only at hj hf he
  subst hj hf
  have hgrow : b.Grows ⟨b.journal, b.finished, aw, en⟩ := ⟨List.Subset.refl _, List.Subset.refl _⟩
  refine ⟨h.custody, h.own, h.current, fun k => hgrow.tells (h.tells k), fun x hx => ?_, h.droppable⟩
  rcases he x hx with hx | hx
  · exact hgrow.ends (h.ends x hx)
  · exact hgrow.ends hx

theorem Sound.end_call (h : b.Sound) {k : Nat} {o : CallerEnd} (ho : b.Ends k o) (aw : List (Nat × Bool)) :
    ({ b with awaiting := aw, ended := b.ended ++ [(k, o)] } : Barriers ε).Sound := by
  refine h.of_ended rfl rfl fun x hx => ?_
  rcases List.mem_append.mp hx with hx | hx
  · exact .inl hx
  · rw [List.mem_singleton.mp hx]
    exact .inr ho

theorem Sound.leaveTurn (h : b.Sound) (k : Nat) : (b.leaveTurn k).Sound := by
  unfold Barriers.leaveTurn arrive
  split
  · exact h
  split
  · next o ho => exact h.end_call ((h.tells k).ends ho) b.awaiting
  · exact h.of_ended rfl rfl fun x hx => .inl hx

theorem Sound.dispatcher (h : b.Sound) {a : DispatcherAct Nat (Call ε)} {j : Journal ε}
    (hs : b.journal.step delivery a = some j) :
    ({ b with journal := j, finished := b.finished ++ (b.journal.runtime.finishes a).toList } : Barriers ε).Sound := by
  have hcustody := h.custody.step hs
  obtain ⟨hn, r, hr, rfl⟩ := Journal.of_step hs
  have hgrow : b.Grows
      { b with
        journal :=
          { runtime := r
            calls := b.journal.calls + a.emitted.toList.length
            log := b.journal.log ++ b.journal.runtime.fates delivery a }
        finished := b.finished ++ (b.journal.runtime.finishes a).toList } :=
    ⟨List.subset_append_left .., List.subset_append_left ..⟩
  refine ⟨hcustody, ?_, ?_, fun k => ?_, fun x hx => hgrow.ends (h.ends x hx), ?_⟩
  · intro e he k hk
    have hstep := DispatcherRuntime.step_custody hr
    rw [List.map_append, ← List.append_assoc] at he
    have hmem : e ∈ a.emitted.toList ∨ e ∈ b.journal.runtime.held ++ b.journal.log.map Prod.fst := by
      have := hstep.mem_iff (a := e)
      simp only [List.mem_append] at this he ⊢
      tauto
    rcases hmem with hnew | hold
    · obtain ⟨hserial, hown⟩ := Journal.serial_of_numbered hn (Option.mem_toList.mp hnew)
      rw [hserial, hown k hk]
    · exact h.own e hold k hk
  · have hcur := DispatcherRuntime.step_current hr
    have htaken : DispatcherRuntime.taken (b.journal.log ++ b.journal.runtime.fates delivery a) =
        DispatcherRuntime.taken b.journal.log ++ DispatcherRuntime.taken (b.journal.runtime.fates delivery a) := by
      simp [DispatcherRuntime.taken]
    dsimp only
    rw [htaken, List.map_append, List.append_assoc]
    have hnext := hcur.append_left (b.finished.map Prod.fst)
    rw [← List.append_assoc _ _ (DispatcherRuntime.taken _), Option.toList_map] at hnext
    exact hnext.trans (h.current.append_right _)
  · rcases DispatcherRuntime.step_completion hr k with heq | hcause
    · dsimp only
      rw [heq]
      exact hgrow.tells (h.tells k)
    · dsimp only
      generalize r.completion k = c at hcause
      cases hcause with
      | created => trivial
      | dropped hx hf hk => exact ⟨_, List.mem_append_right _ hx, hf, hk⟩
      | cleared hx hf hk => exact .inr ⟨_, List.mem_append_right _ hx, hf, hk⟩
      | @finished e done hd hk =>
        have hmem : (e, done) ∈ b.finished ++ (b.journal.runtime.finishes a).toList :=
          List.mem_append_right _ (by simp [hd])
        cases done with
        | true => exact ⟨_, hmem, rfl, hk⟩
        | false => exact .inl ⟨_, hmem, hk⟩
  · intro x hx
    rcases List.mem_append.mp hx with hx | hx
    · exact h.droppable x hx
    · exact DispatcherRuntime.step_droppable delivery _ a x hx

theorem Sound.step (h : b.Sound) {a : BarrierAct ε} (hs : b.step delivery a = some b') : b'.Sound := by
  cases a with
  | dispatcher a =>
    obtain ⟨j, hj, rfl⟩ := Option.map_eq_some_iff.mp hs
    have hd := h.dispatcher hj
    obtain ⟨_, r, hr, rfl⟩ := Journal.of_step hj
    cases a with
    | emitAndWait k ctx e drop =>
      simp only [callers]
      split
      · exact hd
      · exact hd
      · next hroute =>
        have hmem : (({ event := e, handled := some k, dropOnBackpressure := drop }, .stopPhase) :
            QueuedEvent Nat (Call ε) × Fate) ∈ b.journal.runtime.fates delivery (.emitAndWait k ctx e drop) := by
          simp only [DispatcherRuntime.fates, DispatcherRuntime.emitFates, hroute]
          exact List.mem_singleton_self _
        exact hd.end_call (o := .runtimeError) ⟨_, List.mem_append_right _ hmem, rfl, rfl⟩ b.awaiting
      · exact hd.leaveTurn k
    | enqueueTurn k =>
      simp only [callers]
      split
      · exact hd.leaveTurn k
      · exact hd
    | cancelProducer k =>
      simp only [callers]
      split
      · next hany =>
        have hmem : ∃ x ∈ b.journal.runtime.fates delivery (.cancelProducer k), x.2.handed = false ∧
            x.1.handled = some k := by
          simp only [Bool.or_eq_true, Option.any_eq_true, beq_iff_eq] at hany
          simp only [DispatcherRuntime.fates, leaving, List.mem_map, List.mem_append, Option.mem_toList]
          rcases hany with ⟨p, hp, hk⟩ | ⟨p, hp, hk⟩
          · exact ⟨(p.2, .withdrawn), ⟨p.2, ⟨p, .inl hp, rfl⟩, rfl⟩, rfl, hk⟩
          · exact ⟨(p.2, .withdrawn), ⟨p.2, ⟨p, .inr hp, rfl⟩, rfl⟩, rfl, hk⟩
        obtain ⟨x, hx, hf, hk⟩ := hmem
        exact hd.end_call (o := .cancelledError) (.inr ⟨x, List.mem_append_right _ hx, hf, hk⟩) b.awaiting
      · exact hd
    | _ => exact hd
  | cancelCaller k =>
    simp only [Barriers.step] at hs
    split at hs
    · split at hs
      · next o ho => cases hs; exact h.end_call ((h.tells k).ends ho) _
      · cases hs; exact h.of_ended rfl rfl fun x hx => .inl hx
    · cases hs
  | resume k =>
    simp only [Barriers.step] at hs
    split at hs
    · next cancelled hfind =>
      obtain ⟨o, ho, rfl⟩ := Option.map_eq_some_iff.mp hs
      exact h.end_call ((h.tells k).ends ho) _
    · cases hs

/-- In every run, every end of a call of `emit_and_wait` tells the caller what it seems to tell. -/
theorem exact_of_run (h : (barrierMachine delivery).Reachable Runs.Machine.Any b) : b.Exact := by
  refine (h.invariant (I := Sound) ?_ fun _ _ _ hi _ hs => hi.step hs).exact
  rintro _ rfl
  exact ⟨.refl _, nofun, .refl _, fun _ => trivial, nofun, nofun⟩

end Barriers

/-! ## Runs -/

/-- Call 0 is with the worker, call 1 queued behind it and cancelled, and call 2 parked when `stop()` begins; the
worker handles 0 and 1 before it exits. -/
def threeBarriers : List (BarrierAct String) :=
  [.dispatcher .start, .dispatcher .workerTurn, .dispatcher (.emitAndWait 0 {} ⟨0, "first"⟩ false),
    .dispatcher .workerTurn, .dispatcher (.emitAndWait 1 {} ⟨1, "second"⟩ false),
    .dispatcher (.emitAndWait 2 {} ⟨2, "third"⟩ false), .cancelCaller 1, .cancelCaller 1, .dispatcher (.stop 3 {}),
    .dispatcher (.enqueueTurn 2), .dispatcher .handlerReturned, .dispatcher .workerTurn, .resume 0,
    .dispatcher .handlerReturned, .resume 1]

theorem exact_of_threeBarriers :
    ∃ b : Barriers String, b.ended = [(2, .runtimeError), (0, .returned), (1, .cancelledError)] ∧ b.Exact := by
  have hrun : ∃ b : Barriers String,
      (barrierMachine { maxPendingEvents := 1, maxPendingEvents_pos := Nat.one_pos }).Reachable Runs.Machine.Any b ∧
        decide (b.ended = [(2, .runtimeError), (0, .returned), (1, .cancelledError)]) :=
    Runs.Machine.Reachable.exists_of_exec rfl threeBarriers _ (by decide)
  obtain ⟨b, hr, hp⟩ := hrun
  exact ⟨b, of_decide_eq_true hp, Barriers.exact_of_run hr⟩

end Aionetx
