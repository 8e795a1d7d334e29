import Aionetx.Dispatcher.Runtime

/-!
# What becomes of an event

Every emitted event is in the custody of the dispatcher until it leaves it in one of eight ways, and each step says
which events leave it and how.

* `Fate` : handed over inline, taken by the worker, or lost in one of six ways;
* `Dispatcher.held` : the events in custody, queued or with a caller inside `_enqueue`;
* `DispatcherRuntime.fates` : the events that leave in one step, `step_custody` : nothing else does;
* `Journal` : a dispatcher with the log of the fates; every call of `emit` and `emit_and_wait` carries its number;
* `Journal.Custody` : each call made is in custody or in the log, exactly once.
-/

namespace Aionetx

universe u v

/-- How an event leaves the dispatcher. -/
inductive Fate
  /-- handed to the handler on the task of the emitter -/
  | inline
  /-- taken from the queue by the worker, and handed to the handler -/
  | popped
  /-- dropped from the queue by DROP_OLDEST -/
  | evicted
  /-- rejected by backpressure -/
  | rejected
  /-- dropped because the dispatcher stops -/
  | stopPhase
  /-- dropped from the queue because its resource closed -/
  | purged
  /-- cleared from the queue by the `finally` block of the worker -/
  | cleared
  /-- withdrawn: its parked caller was cancelled -/
  | withdrawn
  deriving DecidableEq, Repr

/-- The handler was called for the event. -/
def Fate.handed : Fate → Bool
  | .inline | .popped => true
  | _ => false

variable {κ : Type u} {ε : Type v}

namespace Dispatcher

/-- The events that the callers inside `_enqueue` bring. -/
def waiting (d : Dispatcher κ ε) : List (QueuedEvent κ ε) := (d.parked ++ d.woken).map Prod.snd

/-- The events in custody: the queue, and what the callers inside `_enqueue` bring. -/
def held (d : Dispatcher κ ε) : List (QueuedEvent κ ε) := d.queue ++ d.waiting

/-- Waking everybody moves nobody out of `_enqueue`. -/
theorem releaseProducers_callers (d : Dispatcher κ ε) :
    (d.releaseProducers.parked ++ d.releaseProducers.woken).Perm (d.parked ++ d.woken) := by
  show (d.woken ++ d.parked).Perm (d.parked ++ d.woken)
  exact List.perm_append_comm

theorem notifyNotFull_callers (d : Dispatcher κ ε) :
    (d.notifyNotFull.parked ++ d.notifyNotFull.woken).Perm (d.parked ++ d.woken) := by
  show (d.parked.tail ++ (d.woken ++ d.parked.take 1)).Perm (d.parked ++ d.woken)
  rw [← List.drop_one, ← List.append_assoc]
  refine List.perm_append_comm.trans ?_
  rw [← List.append_assoc, List.take_append_drop]

theorem releaseProducers_waiting (d : Dispatcher κ ε) : d.releaseProducers.waiting.Perm d.waiting :=
  d.releaseProducers_callers.map _

theorem signalStop_waiting (d : Dispatcher κ ε) : d.signalStop.waiting.Perm d.waiting :=
  releaseProducers_waiting ({ d with stopping := true } : Dispatcher κ ε).notifyNotEmpty

theorem notifyNotFull_waiting (d : Dispatcher κ ε) : d.notifyNotFull.waiting.Perm d.waiting :=
  d.notifyNotFull_callers.map _

def enqueueFates (delivery : EventDeliverySettings) (e : QueuedEvent κ ε) (d : Dispatcher κ ε) :
    List (QueuedEvent κ ε × Fate) :=
  if d.stopping then [(e, .stopPhase)]
  else if d.queue.length < delivery.maxPendingEvents then []
  else match delivery.backpressurePolicy with
    | .block => []
    | .dropOldest =>
      match d.queue.find? fun pending => pending.dropOnBackpressure with
      | some oldest => [(oldest, .evicted)]
      | none => if e.dropOnBackpressure then [(e, .rejected)] else []
    | .dropNewest => if e.dropOnBackpressure then [(e, .rejected)] else []

/-- What one turn of `_enqueue` can do, with what leaves the dispatcher. -/
inductive Turn (delivery : EventDeliverySettings) (k : κ) (e : QueuedEvent κ ε) (d : Dispatcher κ ε)
    [DecidableEq κ] : Dispatcher κ ε → List (QueuedEvent κ ε × Fate) → Prop
  | stopPhase (h : d.stopping) : Turn delivery k e d (d.recordStopPhaseDrop.dropQueuedEvent e) [(e, .stopPhase)]
  | accept (h : d.stopping = false) (hq : d.queue.length < delivery.maxPendingEvents) :
    Turn delivery k e d (d.accept e) []
  | evict (h : d.stopping = false) (hp : delivery.backpressurePolicy = .dropOldest) (oldest : QueuedEvent κ ε)
    (ho : d.queue.find? (fun pending => pending.dropOnBackpressure) = some oldest) :
    Turn delivery k e d (d.evictOldest oldest e) [(oldest, .evicted)]
  | reject (h : d.stopping = false) (hp : delivery.backpressurePolicy ≠ .block) (he : e.dropOnBackpressure) :
    Turn delivery k e d (d.rejectNewest e) [(e, .rejected)]
  | park (h : d.stopping = false) (hq : delivery.maxPendingEvents ≤ d.queue.length) : Turn delivery k e d (d.park k e) []

section Turns

variable [DecidableEq κ]

theorem turn (delivery : EventDeliverySettings) (k : κ) (e : QueuedEvent κ ε) (d : Dispatcher κ ε) :
    Turn delivery k e d (d.enqueueTurn delivery k e) (d.enqueueFates delivery e) := by
  unfold enqueueTurn enqueueFates
  by_cases hs : d.stopping
  · simp only [hs, if_true]
    exact .stopPhase hs
  have hs' : d.stopping = false := by simpa using hs
  simp only [hs, if_false, Bool.false_eq_true]
  by_cases hq : d.queue.length < delivery.maxPendingEvents
  · simp only [hq, if_true]
    exact .accept hs' hq
  have hq' : delivery.maxPendingEvents ≤ d.queue.length := by omega
  simp only [hq, if_false]
  cases hp : delivery.backpressurePolicy with
  | block => exact .park hs' hq'
  | dropOldest =>
    dsimp only
    cases ho : d.queue.find? fun pending => pending.dropOnBackpressure with
    | some oldest => exact .evict hs' hp oldest ho
    | none =>
      dsimp only
      split
      · next he => exact .reject hs' (by simp [hp]) he
      · exact .park hs' hq'
  | dropNewest =>
    dsimp only
    split
    · next he => exact .reject hs' (by simp [hp]) he
    · exact .park hs' hq'

omit [DecidableEq κ] in
theorem perm_cons_eraseP {α : Type*} {p : α → Bool} {l : List α} {a : α} (h : l.find? p = some a) :
    l.Perm (a :: l.eraseP p) := by
  induction l with
  | nil => cases h
  | cons b l ih =>
    by_cases hb : p b
    · rw [List.find?_cons_of_pos hb] at h
      cases h
      rw [List.eraseP_cons_of_pos hb]
    · rw [List.find?_cons_of_neg hb] at h
      rw [List.eraseP_cons_of_neg hb]
      exact ((ih h).cons b).trans (.swap ..)

omit [DecidableEq κ] in
theorem perm_toList_eraseP {α : Type*} (p : α → Bool) (l : List α) :
    l.Perm ((l.find? p).toList ++ l.eraseP p) := by
  cases h : l.find? p with
  | some a => exact perm_cons_eraseP h
  | none =>
    rw [List.eraseP_of_forall_not fun a ha => by simpa using List.find?_eq_none.mp h a ha]
    rfl

theorem enqueueTurn_held (delivery : EventDeliverySettings) (k : κ) (e : QueuedEvent κ ε) (d : Dispatcher κ ε) :
    (e :: d.held).Perm ((d.enqueueTurn delivery k e).held ++ (d.enqueueFates delivery e).map Prod.fst) := by
  have h := d.turn delivery k e
  generalize d.enqueueTurn delivery k e = d', d.enqueueFates delivery e = out at h
  classical
  rw [List.perm_iff_count]
  intro x
  cases h with
  | stopPhase | reject => simp [held, waiting, dropQueuedEvent, settle, recordStopPhaseDrop, rejectNewest, List.count_cons]; omega
  | accept | park => simp [held, waiting, Dispatcher.accept, Dispatcher.park, notifyNotEmpty, List.count_cons]; omega
  | evict _ _ oldest ho =>
    have hp := (perm_cons_eraseP ho).count_eq x
    simp [held, waiting, evictOldest, Dispatcher.accept, notifyNotEmpty, dropQueuedEvent, settle, List.count_cons] at hp ⊢
    omega

end Turns

end Dispatcher

/-- All these events leave in one way. -/
def leaving (f : Fate) (es : List (QueuedEvent κ ε)) : List (QueuedEvent κ ε × Fate) := es.map fun e => (e, f)

@[simp] theorem map_fst_leaving (f : Fate) (es : List (QueuedEvent κ ε)) : (leaving f es).map Prod.fst = es := by
  simp [leaving, Function.comp_def]

theorem countP_leaving (f g : Fate) (es : List (QueuedEvent κ ε)) :
    ((leaving f es).countP fun x => x.2 == g) = if f = g then es.length else 0 := by
  by_cases h : f = g <;> simp [leaving, List.countP_map, Function.comp_def, h]

def DispatcherAct.emitted : DispatcherAct κ ε → Option (QueuedEvent κ ε)
  | .emit _ _ e => some { event := e }
  | .emitAndWait k _ e drop => some { event := e, handled := some k, dropOnBackpressure := drop }
  | _ => none

namespace DispatcherRuntime

/-- The events that leave in a call of `emit` or `emit_and_wait`. -/
def emitFates (delivery : EventDeliverySettings) (r : DispatcherRuntime κ ε) (ctx : EmitContext)
    (e : QueuedEvent κ ε) : List (QueuedEvent κ ε × Fate) :=
  match emitRoute delivery ctx r.toDispatcher with
  | .inlineMode | .inlineFallback => [(e, .inline)]
  | .stopPhase => [(e, .stopPhase)]
  | .enqueue => r.enqueueFates delivery e

/-- The events that leave the dispatcher in one step. -/
def fates [DecidableEq κ] (delivery : EventDeliverySettings) (r : DispatcherRuntime κ ε) :
    DispatcherAct κ ε → List (QueuedEvent κ ε × Fate)
  | .start | .handlerReturned => []
  | .stop _ ctx =>
    if r.hasBackgroundWorker && (ctx.onWorker || ctx.bypass) then leaving .stopPhase r.queue else []
  | .emit _ ctx e => r.emitFates delivery ctx { event := e }
  | .emitAndWait k ctx e drop => r.emitFates delivery ctx { event := e, handled := some k, dropOnBackpressure := drop }
  | .enqueueTurn k =>
    match r.woken.find? (fun p => p.1 = k) with
    | some (_, e) => r.enqueueFates delivery e
    | none => []
  | .cancelProducer k =>
    leaving .withdrawn
      (((r.parked.find? fun p => p.1 = k).toList ++ (r.woken.find? fun p => p.1 = k).toList).map Prod.snd)
  | .dropQueuedEvents payload => leaving .purged (r.queue.filter fun e => payload e.event)
  | .workerTurn => leaving .popped (r.queue.take 1)
  | .dispatchRaised => leaving .cleared r.queue
  | .cancelWorker =>
    match r.worker with
    | .waiting | .ready => leaving .cleared r.queue
    | _ => []

variable [DecidableEq κ] {delivery : EventDeliverySettings} {r r' : DispatcherRuntime κ ε} {a : DispatcherAct κ ε}

theorem emit_held (delivery : EventDeliverySettings) (r : DispatcherRuntime κ ε) (k : κ) (ctx : EmitContext)
    (e : QueuedEvent κ ε) :
    (e :: r.held).Perm ((r.emit delivery k ctx e).held ++ (r.emitFates delivery ctx e).map Prod.fst) := by
  have hroute : emitRoute delivery ctx { r.toDispatcher with emitCallsTotal := r.emitCallsTotal + 1 } =
      emitRoute delivery ctx r.toDispatcher := rfl
  unfold emit emitFates
  dsimp only
  rw [hroute]
  cases emitRoute delivery ctx r.toDispatcher with
  | inlineMode | inlineFallback | stopPhase => exact (List.perm_append_singleton ..).symm
  | enqueue => exact Dispatcher.enqueueTurn_held delivery k e { r.toDispatcher with emitCallsTotal := r.emitCallsTotal + 1 }

/-- A purge moves the parked callers to the woken ones and drops the payload events. -/
theorem dropQueuedEvents_held (payload : ε → Bool) (d : Dispatcher κ ε) :
    d.held.Perm ((d.dropQueuedEventsForResource payload).held ++ d.queue.filter fun e => payload e.event) := by
  classical
  rw [List.perm_iff_count]
  intro x
  have hp := (List.filter_append_perm (fun e : QueuedEvent κ ε => payload e.event) d.queue).count_eq x
  unfold Dispatcher.dropQueuedEventsForResource
  dsimp only
  split
  · next he => 
    rw [List.isEmpty_iff] at he
    simp [he]
  · simp only [Dispatcher.held, Dispatcher.waiting, Dispatcher.releaseProducers, List.nil_append, List.map_append,
      List.count_append] at hp ⊢
    omega

omit [DecidableEq κ] in
/-- The queue is cleared, and nobody inside `_enqueue` is touched. -/
theorem clear_held {d d' : Dispatcher κ ε} (hq : d'.queue = []) (hp : d'.parked = d.parked) (hw : d'.woken = d.woken) :
    d.held.Perm (d'.held ++ d.queue) := by
  simp only [Dispatcher.held, Dispatcher.waiting, hq, hp, hw, List.nil_append]
  exact List.perm_append_comm

/-- A cancelled caller leaves `_enqueue` with its event. -/
theorem cancelProducer_held (k : κ) (d : Dispatcher κ ε) :
    d.held.Perm
      ({ d with parked := d.parked.eraseP (fun p => p.1 = k), woken := d.woken.eraseP fun p => p.1 = k }.held ++
        ((d.parked.find? fun p => p.1 = k).toList ++ (d.woken.find? fun p => p.1 = k).toList).map Prod.snd) := by
  classical
  rw [List.perm_iff_count]
  intro x
  have hp := ((Dispatcher.perm_toList_eraseP (fun p => p.1 = k) d.parked).map Prod.snd).count_eq x
  have hw := ((Dispatcher.perm_toList_eraseP (fun p => p.1 = k) d.woken).map Prod.snd).count_eq x
  simp only [Dispatcher.held, Dispatcher.waiting, List.map_append, List.count_append] at hp hw ⊢
  omega

/-- Each step: the event of a call joins those in custody, and only the fates leave. -/
theorem step_custody (h : r.step delivery a = some r') :
    (a.emitted.toList ++ r.held).Perm (r'.held ++ (r.fates delivery a).map Prod.fst) := by
  cases a with
  | start =>
    cases h
    simp only [start, fates, DispatcherAct.emitted]
    split_ifs <;> simp [Dispatcher.held, Dispatcher.waiting]
  | stop k ctx =>
    cases h
    have hsignal : r.held.Perm r.signalStop.held := r.signalStop_waiting.symm.append_left r.queue
    simp only [stop, fates, DispatcherAct.emitted]
    cases r.hasBackgroundWorker with
    | false => simp [Dispatcher.held, Dispatcher.waiting]
    | true =>
      simp only [Bool.not_true, Bool.false_eq_true, if_false, Bool.true_and]
      split
      · simp only [map_fst_leaving]
        exact hsignal.trans (clear_held rfl rfl rfl)
      · split <;> simpa using hsignal
  | emit k ctx e =>
    simp only [step] at h
    split at h
    · cases h
    · cases h; exact emit_held ..
  | emitAndWait k ctx e drop =>
    simp only [step] at h
    split at h
    · cases h
    · cases h; exact emit_held delivery { r with completion := Function.update r.completion k .pending } ..
  | enqueueTurn k =>
    simp only [step] at h
    split at h
    · next k' e hfind =>
      cases h
      have hk : k' = k := by simpa using List.find?_some hfind
      subst hk
      have hw : r.held.Perm (e :: { r.toDispatcher with woken := r.woken.eraseP fun p => p.1 = k' }.held) := by
        have hp := ((Dispatcher.perm_cons_eraseP hfind).map Prod.snd).append_left (r.queue ++ r.parked.map Prod.snd)
        refine .trans (.of_eq ?_) (hp.trans (.trans List.perm_middle (.of_eq ?_))) <;>
          simp [Dispatcher.held, Dispatcher.waiting]
      have hfates : r.fates delivery (.enqueueTurn k') = r.enqueueFates delivery e := by simp only [fates, hfind]
      rw [hfates]
      exact hw.trans (Dispatcher.enqueueTurn_held delivery k' e
        { r.toDispatcher with woken := r.woken.eraseP fun p => p.1 = k' })
    · cases h
  | cancelProducer k =>
    simp only [step] at h
    split at h
    · cases h
      simp only [fates, map_fst_leaving]
      exact cancelProducer_held k r.toDispatcher
    · cases h
  | dropQueuedEvents payload =>
    cases h
    simp only [fates, map_fst_leaving]
    exact dropQueuedEvents_held payload r.toDispatcher
  | workerTurn =>
    have hturn : r.held.Perm (r.workerTurn.held ++ (r.fates delivery .workerTurn).map Prod.fst) := by
      simp only [fates, map_fst_leaving, workerTurn]
      split
      · next hq => split <;> simp [hq, Dispatcher.held, Dispatcher.waiting, afterWorkerEnd]
      · next e rest hq =>
        have hw := Dispatcher.notifyNotFull_waiting { r.toDispatcher with queue := rest, worker := .dispatching e }
        have hcons : (r.queue ++ r.waiting).Perm ((rest ++ r.waiting) ++ r.queue.take 1) := by
          simpa [hq] using (List.perm_append_singleton e (rest ++ r.waiting)).symm
        exact hcons.trans ((hw.symm.append_left rest).append_right _)
    simp only [step] at h
    split at h
    · cases h; exact hturn
    · cases h; exact hturn
    · cases h
  | handlerReturned =>
    simp only [step] at h
    split at h
    · cases h
      simp [fates, DispatcherAct.emitted, Dispatcher.held, Dispatcher.waiting, Dispatcher.completeQueuedEvent,
        Dispatcher.settle]
    · cases h
  | dispatchRaised =>
    simp only [step] at h
    split at h
    · cases h
      simp only [fates, map_fst_leaving]
      exact clear_held rfl rfl rfl
    · cases h
  | cancelWorker =>
    simp only [step] at h
    split at h
    · next hw => cases h; simp [fates, hw, DispatcherAct.emitted, Dispatcher.held, Dispatcher.waiting, afterWorkerEnd]
    · next hw => cases h; simp only [fates, hw, map_fst_leaving]; exact clear_held rfl rfl rfl
    · next hw => cases h; simp only [fates, hw, map_fst_leaving]; exact clear_held rfl rfl rfl
    · cases h

end DispatcherRuntime

/-! ## The log of a run -/

/-- An event with the number of the call that emitted it. -/
structure Call (ε : Type v) where
  serial : Nat
  event : ε

/-- A dispatcher with the number of calls made so far and, oldest first, what became of their events. -/
structure Journal (ε : Type v) where
  runtime : DispatcherRuntime Nat (Call ε) := {}
  calls : Nat := 0
  log : List (QueuedEvent Nat (Call ε) × Fate) := []

/-- The events that were handed to the handler, in this order. -/
def handedOver (log : List (QueuedEvent Nat (Call ε) × Fate)) : List (QueuedEvent Nat (Call ε)) :=
  (log.filter fun x => x.2.handed).map Prod.fst

/-- The call is the `n`-th one; its number identifies its caller as well. -/
def DispatcherAct.numbered (n : Nat) : DispatcherAct Nat (Call ε) → Bool
  | .emit k _ e => k == n && e.serial == n
  | .emitAndWait k _ e _ => k == n && e.serial == n
  | _ => true

namespace Journal

def step (delivery : EventDeliverySettings) (j : Journal ε) (a : DispatcherAct Nat (Call ε)) : Option (Journal ε) :=
  if a.numbered j.calls then
    (j.runtime.step delivery a).map fun r =>
      { runtime := r
        calls := j.calls + a.emitted.toList.length
        log := j.log ++ j.runtime.fates delivery a }
  else none

/-- The number of events with a fate that meets `p`. -/
def count (j : Journal ε) (p : Fate → Bool) : Nat := j.log.countP fun x => p x.2

/-- Each call made is in custody or in the log, exactly once. -/
def Custody (j : Journal ε) : Prop :=
  ((j.runtime.held ++ j.log.map Prod.fst).map fun e => e.event.serial).Perm (List.range j.calls)

variable {delivery : EventDeliverySettings} {j j' : Journal ε} {a : DispatcherAct Nat (Call ε)}

theorem of_step (h : j.step delivery a = some j') : a.numbered j.calls ∧ ∃ r, j.runtime.step delivery a = some r ∧
    j' = { runtime := r, calls := j.calls + a.emitted.toList.length, log := j.log ++ j.runtime.fates delivery a } := by
  unfold step at h
  split at h
  · next hn =>
    obtain ⟨r, hr, rfl⟩ := Option.map_eq_some_iff.mp h
    exact ⟨hn, r, hr, rfl⟩
  · cases h

theorem serial_of_numbered {n : Nat} (hn : a.numbered n) {e : QueuedEvent Nat (Call ε)} (he : a.emitted = some e) :
    e.event.serial = n ∧ (∀ k, e.handled = some k → k = n) := by
  cases a with
  | emit k ctx c =>
    cases he
    simp only [DispatcherAct.numbered, Bool.and_eq_true, beq_iff_eq] at hn
    exact ⟨hn.2, fun k hk => by cases hk⟩
  | emitAndWait k ctx c drop =>
    cases he
    simp only [DispatcherAct.numbered, Bool.and_eq_true, beq_iff_eq] at hn
    exact ⟨hn.2, fun k' hk => by cases hk; exact hn.1⟩
  | _ => cases he

theorem range_calls (hn : a.numbered j.calls) : List.range (j.calls + a.emitted.toList.length) =
    List.range j.calls ++ a.emitted.toList.map fun e => e.event.serial := by
  cases he : a.emitted with
  | none => simp
  | some e => simp [List.range_succ, (serial_of_numbered hn he).1]

theorem Custody.step (hc : j.Custody) (h : j.step delivery a = some j') : j'.Custody := by
  obtain ⟨hn, r, hr, rfl⟩ := of_step h
  have hp := (DispatcherRuntime.step_custody hr).map fun e => e.event.serial
  unfold Custody at hc ⊢
  dsimp only
  rw [range_calls hn]
  rw [List.perm_iff_count] at hc hp ⊢
  intro x
  have h1 := hc x
  have h2 := hp x
  simp only [List.map_append, List.count_append] at h1 h2 ⊢
  omega

end Journal

/-- The dispatcher before its first `start()`, with an empty log. -/
def journalMachine (delivery : EventDeliverySettings) : Runs.Machine (Journal ε) (DispatcherAct Nat (Call ε)) where
  init j := j = {}
  step := Journal.step delivery

namespace Journal

variable {delivery : EventDeliverySettings} {j : Journal ε} {ok : Journal ε → DispatcherAct Nat (Call ε) → Prop}

/-- In every run each call made is in custody or in the log, exactly once. -/
theorem custody (h : (journalMachine delivery).Reachable ok j) : j.Custody := by
  refine h.invariant (I := Custody) ?_ fun _ _ _ hc _ hs => hc.step hs
  rintro _ rfl
  exact .refl _

/-- Events in custody or in the log are of calls already made. -/
theorem Custody.lt (hc : j.Custody) {x : QueuedEvent Nat (Call ε)}
    (hx : x ∈ j.runtime.held ++ j.log.map Prod.fst) : x.event.serial < j.calls :=
  List.mem_range.mp (hc.mem_iff.mp (List.mem_map_of_mem hx))

/-- No event leaves the dispatcher twice, or is still in custody once it has left. -/
theorem Custody.nodup (hc : j.Custody) :
    ((j.runtime.held ++ j.log.map Prod.fst).map fun e => e.event.serial).Nodup :=
  hc.nodup_iff.mpr List.nodup_range

end Journal

end Aionetx
