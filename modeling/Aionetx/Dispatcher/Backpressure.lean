import Aionetx.Runs.BoundedQueue
import Aionetx.Dispatcher.Journal

/-!
# The dispatcher's queue is a bounded queue

While the worker is alive and nothing is cancelled, the queue of the dispatcher is the reference queue with the same
capacity and overflow rule, whatever is emitted, taken and purged in whatever order.

* `Steady` : the worker is not stopped, raises nothing, and nobody is cancelled;
* `Dispatcher.enqueueTurn_of_room`, `Dispatcher.enqueueTurn_of_full` : one turn of `_enqueue`;
* `QueueRun` : a journal with the accepted events and the greatest length of the queue;
* `Represents` : the reference queue with the same contents and the same history; `backpressured_of_reachable`.
-/

namespace Aionetx

open Runs

universe u v

variable {κ : Type u} {ε : Type v}

/-- The worker stays alive and nothing is cancelled. -/
def Steady : DispatcherRuntime κ ε → DispatcherAct κ ε → Prop
  | _, .stop _ _ | _, .cancelProducer _ | _, .dispatchRaised | _, .cancelWorker => False
  | _, _ => True

/-- What a full queue does. -/
def EventBackpressurePolicy.overflow : EventBackpressurePolicy → Overflow
  | .block => .wait
  | .dropOldest => .dropOldest
  | .dropNewest => .dropNewest

namespace Dispatcher

/-- The event that a turn of `_enqueue` appends to the queue. -/
def enqueueAccepts (delivery : EventDeliverySettings) (e : QueuedEvent κ ε) (d : Dispatcher κ ε) :
    List (QueuedEvent κ ε) :=
  if d.stopping then []
  else if d.queue.length < delivery.maxPendingEvents then [e]
  else match delivery.backpressurePolicy, d.queue.find? fun pending => pending.dropOnBackpressure with
    | .dropOldest, some _ => [e]
    | _, _ => []

section
variable [DecidableEq κ] {delivery : EventDeliverySettings} {d : Dispatcher κ ε}

theorem enqueueTurn_of_room (hs : d.stopping = false) (hq : d.queue.length < delivery.maxPendingEvents) (k : κ)
    (e : QueuedEvent κ ε) : d.enqueueTurn delivery k e = d.accept e ∧ d.enqueueFates delivery e = [] ∧
      d.enqueueAccepts delivery e = [e] := by
  simp [enqueueTurn, enqueueFates, enqueueAccepts, hs, hq]

/-- The peak is brought up to date where an event replaces another. -/
theorem evictOldest_queuePeak (oldest e : QueuedEvent κ ε) (d : Dispatcher κ ε) :
    (d.evictOldest oldest e).queuePeak = max d.queuePeak (d.evictOldest oldest e).queue.length := by
  simp [evictOldest, accept, notifyNotEmpty, dropQueuedEvent, settle]

/-- What a turn does with an event for which there is no room: the oldest droppable one leaves, or the event itself is
rejected, or its caller waits. -/
inductive FullTurn (delivery : EventDeliverySettings) (k : κ) (e : QueuedEvent κ ε) (d : Dispatcher κ ε) :
    Dispatcher κ ε → List (QueuedEvent κ ε × Fate) → List (QueuedEvent κ ε) → Prop
  | evict (hp : delivery.backpressurePolicy = .dropOldest) {before after : List (QueuedEvent κ ε)}
    {oldest : QueuedEvent κ ε} (hq : d.queue = before ++ oldest :: after)
    (hbefore : ∀ x ∈ before, x.dropOnBackpressure = false) (ho : oldest.dropOnBackpressure = true)
    {d' : Dispatcher κ ε} (hd : d' = d.evictOldest oldest e) (hqueue : d'.queue = before ++ after ++ [e]) :
    FullTurn delivery k e d d' [(oldest, .evicted)] [e]
  | reject (he : e.dropOnBackpressure = true)
    (hp : delivery.backpressurePolicy = .dropNewest ∨
      delivery.backpressurePolicy = .dropOldest ∧ ∀ x ∈ d.queue, x.dropOnBackpressure = false) :
    FullTurn delivery k e d (d.rejectNewest e) [(e, .rejected)] []
  | wait (hp : delivery.backpressurePolicy = .block ∨ e.dropOnBackpressure = false ∧
      (delivery.backpressurePolicy = .dropNewest ∨
        delivery.backpressurePolicy = .dropOldest ∧ ∀ x ∈ d.queue, x.dropOnBackpressure = false)) :
    FullTurn delivery k e d (d.park k e) [] []

theorem enqueueTurn_of_full (hs : d.stopping = false) (hq : delivery.maxPendingEvents ≤ d.queue.length) (k : κ)
    (e : QueuedEvent κ ε) :
    FullTurn delivery k e d (d.enqueueTurn delivery k e) (d.enqueueFates delivery e) (d.enqueueAccepts delivery e) := by
  have hq' : ¬d.queue.length < delivery.maxPendingEvents := by omega
  simp only [enqueueTurn, enqueueFates, enqueueAccepts, hs, hq', Bool.false_eq_true, if_false]
  rcases hp : delivery.backpressurePolicy with _ | _ | _
  · exact .wait (.inl hp)
  · rcases ho : d.queue.find? fun pending => pending.dropOnBackpressure with _ | oldest <;> simp only [ho]
    · have hall : ∀ x ∈ d.queue, x.dropOnBackpressure = false := fun x hx => by
        simpa using List.find?_eq_none.1 ho x hx
      by_cases he : e.dropOnBackpressure = true
      · rw [if_pos he, if_pos he]
        exact .reject he (.inr ⟨hp, hall⟩)
      · rw [if_neg he, if_neg he]
        exact .wait (.inr ⟨by simpa using he, .inr ⟨hp, hall⟩⟩)
    · obtain ⟨hd, before, after, hqueue, hbefore⟩ := List.find?_eq_some_iff_append.1 ho
      have hbefore : ∀ x ∈ before, x.dropOnBackpressure = false := fun x hx => by simpa using hbefore x hx
      refine .evict hp hqueue hbefore hd rfl ?_
      have herase : d.queue.eraseP (fun pending => pending.dropOnBackpressure) = before ++ after := by
        rw [hqueue, List.eraseP_append_right _ fun x hx => by simp [hbefore x hx], List.eraseP_cons_of_pos hd]
      exact congrArg (· ++ [e]) herase
  · simp only
    by_cases he : e.dropOnBackpressure = true
    · rw [if_pos he, if_pos he]
      exact .reject he (.inl hp)
    · rw [if_neg he, if_neg he]
      exact .wait (.inr ⟨by simpa using he, .inl hp⟩)

end

end Dispatcher

namespace DispatcherRuntime

/-- The events that a step appends to the queue. -/
def accepts [DecidableEq κ] (delivery : EventDeliverySettings) (r : DispatcherRuntime κ ε) :
    DispatcherAct κ ε → List (QueuedEvent κ ε)
  | .emit _ ctx e => if emitRoute delivery ctx r.toDispatcher = .enqueue then r.enqueueAccepts delivery { event := e } else []
  | .emitAndWait k ctx e drop =>
    if emitRoute delivery ctx r.toDispatcher = .enqueue then
      r.enqueueAccepts delivery { event := e, handled := some k, dropOnBackpressure := drop }
    else []
  | .enqueueTurn k =>
    match r.woken.find? (fun p => p.1 = k) with
    | some (_, e) => r.enqueueAccepts delivery e
    | none => []
  | _ => []

end DispatcherRuntime

/-! ## Runs with their history -/

/-- A journal with the events that were appended to the queue, oldest first, and the greatest length of the queue. -/
structure QueueRun (ε : Type v) extends Journal ε where
  accepted : List (QueuedEvent Nat (Call ε)) := []
  longest : Nat := 0

def QueueRun.step (delivery : EventDeliverySettings) (s : QueueRun ε) (a : DispatcherAct Nat (Call ε)) :
    Option (QueueRun ε) :=
  (s.toJournal.step delivery a).map fun j =>
    { toJournal := j
      accepted := s.accepted ++ s.runtime.accepts delivery a
      longest := max s.longest j.runtime.queue.length }

/-- The dispatcher before its first `start()`, with an empty history. -/
def queueMachine (delivery : EventDeliverySettings) : Machine (QueueRun ε) (DispatcherAct Nat (Call ε)) where
  init s := s = {}
  step := QueueRun.step delivery

/-- The events that left in one way, in their order. -/
def leavers (f : Fate) (log : List (QueuedEvent Nat (Call ε) × Fate)) : List (QueuedEvent Nat (Call ε)) :=
  (log.filter fun x => x.2 = f).map Prod.fst

@[simp] theorem leavers_append (f : Fate) (log log' : List (QueuedEvent Nat (Call ε) × Fate)) :
    leavers f (log ++ log') = leavers f log ++ leavers f log' := by
  simp [leavers]

@[simp] theorem leavers_nil (f : Fate) : leavers f ([] : List (QueuedEvent Nat (Call ε) × Fate)) = [] := rfl

theorem leavers_leaving (f g : Fate) (es : List (QueuedEvent Nat (Call ε))) :
    leavers f (leaving g es) = if g = f then es else [] := by
  by_cases h : g = f <;> simp [leavers, leaving, List.filter_map, Function.comp_def, h]

@[simp] theorem leavers_singleton (f g : Fate) (e : QueuedEvent Nat (Call ε)) :
    leavers f [(e, g)] = if g = f then [e] else [] := leavers_leaving f g [e]

/-- The reference queue with the contents of the dispatcher's queue and the history of the run. -/
structure Represents (d : Dispatcher Nat (Call ε)) (accepted : List (QueuedEvent Nat (Call ε)))
    (log : List (QueuedEvent Nat (Call ε) × Fate)) (longest : Nat) (q : BoundedQueue (QueuedEvent Nat (Call ε))) : Prop where
  pending : q.pending = d.queue
  acceptance : q.accepted = accepted
  delivered : q.delivered = leavers .popped log
  evicted : q.evicted = leavers .evicted log
  purged : q.purged = leavers .purged log
  rejected : q.rejected = leavers .rejected log
  peak : q.peak = d.queuePeak
  greatest : q.peak = longest
  within : d.queue.length ≤ longest
  running : d.stopping = false

namespace Represents

variable {delivery : EventDeliverySettings} {d d' : Dispatcher Nat (Call ε)} {accepted : List (QueuedEvent Nat (Call ε))}
  {log : List (QueuedEvent Nat (Call ε) × Fate)} {longest : Nat} {q : BoundedQueue (QueuedEvent Nat (Call ε))}

/-- The queue is left alone, and what leaves the dispatcher was never in it. -/
theorem frame (h : Represents d accepted log longest q) (hq : d'.queue = d.queue) (hp : d'.queuePeak = d.queuePeak)
    (hs : d'.stopping = false) {out : List (QueuedEvent Nat (Call ε) × Fate)} (hout : ∀ x ∈ out, x.2 = .inline) :
    Represents d' (accepted ++ []) (log ++ out) (max longest d'.queue.length) q := by
  have hleavers : ∀ f, f ≠ .inline → leavers f (log ++ out) = leavers f log := by
    intro f hf
    rw [leavers_append, List.append_right_eq_self]
    refine List.map_eq_nil_iff.2 (List.filter_eq_nil_iff.2 fun x hx => ?_)
    simpa [hout x hx] using hf.symm
  have hmax : max longest d'.queue.length = longest := by
    rw [hq]
    exact max_eq_left h.within
  rw [List.append_nil, hmax]
  exact ⟨h.pending.trans hq.symm, h.acceptance, h.delivered.trans (hleavers _ (by decide)).symm,
    h.evicted.trans (hleavers _ (by decide)).symm, h.purged.trans (hleavers _ (by decide)).symm,
    h.rejected.trans (hleavers _ (by decide)).symm, h.peak.trans hp.symm, h.greatest, hq ▸ h.within, hs⟩

theorem turn (h : Represents d accepted log longest q) (delivery : EventDeliverySettings) (k : Nat)
    (e : QueuedEvent Nat (Call ε)) :
    ∃ q', BoundedQueue.Offer delivery.maxPendingEvents delivery.backpressurePolicy.overflow
        (fun x => x.dropOnBackpressure) e q q' ∧
      Represents (d.enqueueTurn delivery k e) (accepted ++ d.enqueueAccepts delivery e)
        (log ++ d.enqueueFates delivery e) (max longest (d.enqueueTurn delivery k e).queue.length) q' := by
  have hs := (d.enqueueTurn_frame delivery k e).2.trans h.running
  by_cases hq : d.queue.length < delivery.maxPendingEvents
  · obtain ⟨hturn, hfates, haccepts⟩ := Dispatcher.enqueueTurn_of_room h.running hq k e
    refine ⟨q.accept e, .room (h.pending ▸ hq), ?_⟩
    rw [hturn] at hs ⊢
    rw [hfates, haccepts, List.append_nil]
    refine ⟨congrArg (· ++ [e]) h.pending, congrArg (· ++ [e]) h.acceptance, h.delivered, h.evicted, h.purged, h.rejected,
      ?_, ?_, le_max_right .., hs⟩
    · simp [BoundedQueue.accept, Dispatcher.accept, Dispatcher.notifyNotEmpty, h.peak, h.pending]
    · simp [BoundedQueue.accept, Dispatcher.accept, Dispatcher.notifyNotEmpty, h.greatest, h.pending]
  · have hq : delivery.maxPendingEvents ≤ d.queue.length := Nat.le_of_not_lt hq
    have hfull : delivery.maxPendingEvents ≤ q.pending.length := h.pending ▸ hq
    have hturn := Dispatcher.enqueueTurn_of_full h.running hq k e
    have hpolicy : delivery.backpressurePolicy = .dropNewest ∨ delivery.backpressurePolicy = .dropOldest ∧
        (∀ x ∈ d.queue, x.dropOnBackpressure = false) →
        delivery.backpressurePolicy.overflow = .dropNewest ∨ delivery.backpressurePolicy.overflow = .dropOldest ∧
          ∀ x ∈ q.pending, x.dropOnBackpressure = false := by
      rintro (hp | ⟨hp, hall⟩)
      · exact .inl (by rw [hp]; rfl)
      · exact .inr ⟨by rw [hp]; rfl, h.pending ▸ hall⟩
    generalize d.enqueueTurn delivery k e = d', d.enqueueFates delivery e = out, d.enqueueAccepts delivery e = acc
      at hs hturn
    cases hturn with
    | @evict hp before after oldest hqueue hbefore ho _ hd hqueue' =>
      refine ⟨_, .evict hfull (by rw [hp]; rfl) (h.pending.trans hqueue) hbefore ho, ?_⟩
      refine ⟨hqueue'.symm, congrArg (· ++ [e]) h.acceptance, ?_, ?_, ?_, ?_, ?_, ?_, le_max_right .., hs⟩
      · simp [BoundedQueue.accept, h.delivered]
      · simp [BoundedQueue.accept, h.evicted]
      · simp [BoundedQueue.accept, h.purged]
      · simp [BoundedQueue.accept, h.rejected]
      · rw [hd, Dispatcher.evictOldest_queuePeak, ← hd, hqueue', ← h.peak, List.length_append]
        rfl
      · change max q.peak _ = _
        rw [hqueue', h.greatest]
        simp [Nat.add_assoc]
    | reject he hp =>
      refine ⟨_, .reject hfull he (hpolicy hp), h.pending, (List.append_nil accepted).symm ▸ h.acceptance, ?_, ?_, ?_, ?_,
        h.peak, ?_, ?_, hs⟩
      · simp [h.delivered]
      · simp [h.evicted]
      · simp [h.purged]
      · simp [h.rejected]
      · exact h.greatest.trans (max_eq_left h.within).symm
      · exact le_max_right ..
    | wait hp =>
      refine ⟨q, .wait hfull (hp.imp ?_ fun hp => ⟨hp.1, hpolicy hp.2⟩), h.frame ?_ ?_ hs ?_⟩
      · intro hp
        rw [hp]
        rfl
      · rfl
      · rfl
      · intro x hx
        cases hx

theorem purge (h : Represents d accepted log longest q) (delivery : EventDeliverySettings) (payload : Call ε → Bool) :
    ∃ q', BoundedQueue.Step delivery.maxPendingEvents delivery.backpressurePolicy.overflow
        (fun x => x.dropOnBackpressure) q q' ∧
      Represents (d.dropQueuedEventsForResource payload) (accepted ++ [])
        (log ++ leaving .purged (d.queue.filter fun e => payload e.event))
        (max longest (d.dropQueuedEventsForResource payload).queue.length) q' := by
  refine ⟨_, .purge fun e => payload e.event, ?_⟩
  have hqueue : (d.dropQueuedEventsForResource payload).queue = d.queue.filter fun e => !payload e.event := by
    unfold Dispatcher.dropQueuedEventsForResource
    dsimp only
    split_ifs with hnone
    · refine (List.filter_eq_self.2 fun e he => ?_).symm
      simpa using List.filter_eq_nil_iff.1 (List.isEmpty_iff.1 hnone) e he
    · rfl
  have hpeak : (d.dropQueuedEventsForResource payload).queuePeak = d.queuePeak := by
    unfold Dispatcher.dropQueuedEventsForResource
    dsimp only
    split_ifs <;> rfl
  have hlen : (d.dropQueuedEventsForResource payload).queue.length ≤ longest := by
    rw [hqueue]
    exact Nat.le_trans List.filter_sublist.length_le h.within
  refine ⟨?_, ?_, ?_, ?_, ?_, ?_, h.peak.trans hpeak.symm, h.greatest.trans (max_eq_left hlen).symm, le_max_right ..,
    (d.dropQueuedEvents_worker payload).2.2.trans h.running⟩
  · rw [hqueue, ← h.pending]
  · rw [List.append_nil]
    exact h.acceptance
  · simp [leavers_leaving, h.delivered]
  · simp [leavers_leaving, h.evicted]
  · simp [leavers_leaving, h.purged, h.pending]
  · simp [leavers_leaving, h.rejected]

theorem take (h : Represents d accepted log longest q) (delivery : EventDeliverySettings) {e : QueuedEvent Nat (Call ε)}
    {rest : List (QueuedEvent Nat (Call ε))} (hq : d.queue = e :: rest) (d' : Dispatcher Nat (Call ε))
    (hq' : d'.queue = rest) (hp : d'.queuePeak = d.queuePeak) (hs : d'.stopping = false) :
    ∃ q', BoundedQueue.Step delivery.maxPendingEvents delivery.backpressurePolicy.overflow
        (fun x => x.dropOnBackpressure) q q' ∧
      Represents d' (accepted ++ []) (log ++ leaving .popped [e]) (max longest d'.queue.length) q' := by
  refine ⟨_, .take (h.pending.trans hq), ?_⟩
  have hlen : d'.queue.length ≤ longest := by
    have := h.within
    rw [hq, List.length_cons] at this
    rw [hq']
    exact Nat.le_of_succ_le this
  refine ⟨hq'.symm, ?_, ?_, ?_, ?_, ?_, h.peak.trans hp.symm, h.greatest.trans (max_eq_left hlen).symm, le_max_right .., hs⟩
  · rw [List.append_nil]
    exact h.acceptance
  · simp [leavers_leaving, h.delivered]
  · simp [leavers_leaving, h.evicted]
  · simp [leavers_leaving, h.purged]
  · simp [leavers_leaving, h.rejected]

theorem emit {r : DispatcherRuntime Nat (Call ε)} (h : Represents r.toDispatcher accepted log longest q)
    (delivery : EventDeliverySettings) (k : Nat) (ctx : EmitContext) (e : QueuedEvent Nat (Call ε)) :
    ∃ q', (q' = q ∨ BoundedQueue.Step delivery.maxPendingEvents delivery.backpressurePolicy.overflow
        (fun x => x.dropOnBackpressure) q q') ∧
      Represents (r.emit delivery k ctx e).toDispatcher
        (accepted ++ if emitRoute delivery ctx r.toDispatcher = .enqueue then r.enqueueAccepts delivery e else [])
        (log ++ r.emitFates delivery ctx e) (max longest (r.emit delivery k ctx e).queue.length) q' := by
  have hroute : emitRoute delivery ctx { r.toDispatcher with emitCallsTotal := r.emitCallsTotal + 1 } =
      emitRoute delivery ctx r.toDispatcher := rfl
  unfold DispatcherRuntime.emit DispatcherRuntime.emitFates
  dsimp only
  rw [hroute]
  rcases hr : emitRoute delivery ctx r.toDispatcher with _ | _ | _ | _
  · refine ⟨q, .inl rfl, h.frame ?_ ?_ ?_ ?_⟩
    · rfl
    · rfl
    · exact h.running
    · simp
  · refine ⟨q, .inl rfl, h.frame ?_ ?_ ?_ ?_⟩
    · rfl
    · rfl
    · exact h.running
    · simp
  · exfalso
    unfold emitRoute at hr
    rw [h.running] at hr
    split_ifs at hr with _ _ hfalse
    exact hfalse
  · have hcalled : Represents { r.toDispatcher with emitCallsTotal := r.emitCallsTotal + 1 } accepted log longest q :=
      ⟨h.pending, h.acceptance, h.delivered, h.evicted, h.purged, h.rejected, h.peak, h.greatest, h.within, h.running⟩
    obtain ⟨q', hoffer, hq'⟩ := hcalled.turn delivery k e
    exact ⟨q', .inr (.offer e hoffer), hq'⟩

/-- Every step of the dispatcher is a step of the reference queue, or none. -/
theorem step {s s' : QueueRun ε} {a : DispatcherAct Nat (Call ε)}
    (h : Represents s.runtime.toDispatcher s.accepted s.log s.longest q) (hok : Steady s.runtime a)
    (hstep : s.step delivery a = some s') :
    ∃ q', (q' = q ∨ BoundedQueue.Step delivery.maxPendingEvents delivery.backpressurePolicy.overflow
        (fun x => x.dropOnBackpressure) q q') ∧
      Represents s'.runtime.toDispatcher s'.accepted s'.log s'.longest q' := by
  obtain ⟨j, hj, rfl⟩ := Option.map_eq_some_iff.1 hstep
  obtain ⟨-, r, hr, rfl⟩ := Journal.of_step hj
  dsimp only
  cases a with
  | stop | cancelProducer | dispatchRaised | cancelWorker => exact hok.elim
  | start =>
    cases hr
    refine ⟨q, .inl rfl, h.frame ?_ ?_ ?_ (by simp [DispatcherRuntime.fates])⟩
    all_goals
      unfold DispatcherRuntime.start
      split_ifs <;> first | rfl | exact h.running
  | emit k ctx e =>
    simp only [DispatcherRuntime.step] at hr
    split_ifs at hr
    cases hr
    exact h.emit delivery k ctx _
  | emitAndWait k ctx e drop =>
    simp only [DispatcherRuntime.step] at hr
    split_ifs at hr
    cases hr
    exact Represents.emit (r := { s.runtime with completion := Function.update s.runtime.completion k .pending })
      ⟨h.pending, h.acceptance, h.delivered, h.evicted, h.purged, h.rejected, h.peak, h.greatest, h.within, h.running⟩
      delivery k ctx _
  | enqueueTurn k =>
    simp only [DispatcherRuntime.step] at hr
    split at hr
    · next k' e hfind =>
      cases hr
      have hwoken : Represents
          { s.runtime.toDispatcher with woken := s.runtime.woken.eraseP fun p => p.1 = k' } s.accepted s.log s.longest q :=
        ⟨h.pending, h.acceptance, h.delivered, h.evicted, h.purged, h.rejected, h.peak, h.greatest, h.within, h.running⟩
      obtain ⟨q', hoffer, hq'⟩ := hwoken.turn delivery k' e
      refine ⟨q', .inr (.offer e hoffer), ?_⟩
      simp only [DispatcherRuntime.accepts, DispatcherRuntime.fates, hfind]
      exact hq'
    · cases hr
  | dropQueuedEvents payload =>
    cases hr
    obtain ⟨q', hpurge, hq'⟩ := h.purge delivery payload
    exact ⟨q', .inr hpurge, hq'⟩
  | workerTurn =>
    have hturn : ∃ q', (q' = q ∨ BoundedQueue.Step delivery.maxPendingEvents delivery.backpressurePolicy.overflow
          (fun x => x.dropOnBackpressure) q q') ∧
        Represents s.runtime.workerTurn.toDispatcher (s.accepted ++ []) (s.log ++ leaving .popped (s.runtime.queue.take 1))
          (max s.longest s.runtime.workerTurn.queue.length) q' := by
      unfold DispatcherRuntime.workerTurn
      rcases hq : s.runtime.queue with _ | ⟨e, rest⟩
      · rw [if_neg (by simp [h.running])]
        refine ⟨q, .inl rfl, h.frame ?_ ?_ ?_ ?_⟩
        · exact hq.symm
        · rfl
        · exact h.running
        · simp [leaving]
      · obtain ⟨q', htake, hq'⟩ := h.take delivery hq
          { { s.runtime.toDispatcher with queue := rest, worker := .dispatching e }.notifyNotFull with
            handlerDispatchAttemptsTotal := s.runtime.handlerDispatchAttemptsTotal + 1 } rfl rfl h.running
        refine ⟨q', .inr htake, ?_⟩
        exact hq'
    simp only [DispatcherRuntime.step] at hr
    split at hr
    · cases hr; exact hturn
    · cases hr; exact hturn
    · cases hr
  | handlerReturned =>
    simp only [DispatcherRuntime.step] at hr
    split at hr
    · next e _ =>
      cases hr
      refine ⟨q, .inl rfl, Represents.frame h ?_ ?_ ?_ ?_⟩
      · rfl
      · rfl
      · exact h.running
      · exact List.forall_mem_nil _
    · cases hr

end Represents

/-! ## Who waits -/

/-- Whoever waits inside `_enqueue` brings an event that the policy does not drop. -/
def Dispatcher.WaitsIn (delivery : EventDeliverySettings) (d : Dispatcher κ ε) : Prop :=
  ∀ e ∈ d.waiting, delivery.backpressurePolicy = .block ∨ e.dropOnBackpressure = false

namespace Dispatcher.WaitsIn

variable [DecidableEq κ] {delivery : EventDeliverySettings} {d d' : Dispatcher κ ε} {r r' : DispatcherRuntime κ ε}

omit [DecidableEq κ] in
theorem of_subset (h : d.WaitsIn delivery) (hsub : d'.waiting ⊆ d.waiting) : d'.WaitsIn delivery :=
  fun e he => h e (hsub he)

theorem enqueueTurn (h : d.WaitsIn delivery) (k : κ) (e : QueuedEvent κ ε) : (d.enqueueTurn delivery k e).WaitsIn delivery := by
  have hpark (he : delivery.backpressurePolicy = .block ∨ e.dropOnBackpressure = false) : (d.park k e).WaitsIn delivery := by
    intro x hx
    have hx : x ∈ ((d.parked ++ [(k, e)]) ++ d.woken).map Prod.snd := hx
    have hwait : x = e ∨ x ∈ d.waiting := by
      simp only [waiting, List.map_append, List.mem_append, List.map_cons, List.map_nil, List.mem_singleton] at hx ⊢
      tauto
    rcases hwait with rfl | hwait
    · exact he
    · exact h x hwait
  unfold Dispatcher.enqueueTurn
  split
  · exact h
  split
  · exact h
  split
  · next hp => exact hpark (.inl hp)
  · split
    · exact h
    · split
      · exact h
      · next he => exact hpark (.inr (by simpa using he))
  · split
    · exact h
    · next he => exact hpark (.inr (by simpa using he))

theorem emit (h : r.toDispatcher.WaitsIn delivery) (k : κ) (ctx : EmitContext) (e : QueuedEvent κ ε) :
    (r.emit delivery k ctx e).toDispatcher.WaitsIn delivery := by
  have hcalled : { r.toDispatcher with emitCallsTotal := r.emitCallsTotal + 1 }.WaitsIn delivery := h
  unfold DispatcherRuntime.emit
  dsimp only
  split
  · exact h
  · exact h
  · exact h
  · exact hcalled.enqueueTurn k e

/-- Every step keeps it: nobody else begins to wait. -/
theorem step (h : r.toDispatcher.WaitsIn delivery) {a : DispatcherAct κ ε} (hr : r.step delivery a = some r') :
    r'.toDispatcher.WaitsIn delivery := by
  cases a with
  | start =>
    cases hr
    unfold DispatcherRuntime.start
    split_ifs
    · exact h
    · exact h
    · exact h
  | stop k ctx =>
    cases hr
    have hsignal : r.signalStop.WaitsIn delivery := h.of_subset r.signalStop_waiting.subset
    unfold DispatcherRuntime.stop
    split_ifs
    · exact h
    · exact hsignal
    · exact hsignal
    · exact hsignal
  | emit k ctx e =>
    simp only [DispatcherRuntime.step] at hr
    split_ifs at hr
    cases hr
    exact h.emit k ctx _
  | emitAndWait k ctx e drop =>
    simp only [DispatcherRuntime.step] at hr
    split_ifs at hr
    cases hr
    exact emit (r := { r with completion := Function.update r.completion k .pending }) h k ctx _
  | enqueueTurn k =>
    simp only [DispatcherRuntime.step] at hr
    split at hr
    · next k' e _ =>
      cases hr
      refine enqueueTurn (d := { r.toDispatcher with woken := r.woken.eraseP fun p => p.1 = k' }) (h.of_subset ?_) k' e
      exact List.map_subset _ (List.append_subset.mpr
        ⟨List.subset_append_left .., fun p hp => List.mem_append_right _ (List.mem_of_mem_eraseP hp)⟩)
    · cases hr
  | cancelProducer k =>
    simp only [DispatcherRuntime.step] at hr
    split_ifs at hr
    cases hr
    refine h.of_subset (List.map_subset _ (List.append_subset.mpr ⟨fun p hp => ?_, fun p hp => ?_⟩))
    · exact List.mem_append_left _ (List.mem_of_mem_eraseP hp)
    · exact List.mem_append_right _ (List.mem_of_mem_eraseP hp)
  | dropQueuedEvents payload =>
    cases hr
    show (r.toDispatcher.dropQueuedEventsForResource payload).WaitsIn delivery
    unfold Dispatcher.dropQueuedEventsForResource
    dsimp only
    split
    · exact h
    · exact h.of_subset (Dispatcher.releaseProducers_waiting r.toDispatcher).subset
  | workerTurn =>
    have hturn : r.workerTurn.toDispatcher.WaitsIn delivery := by
      unfold DispatcherRuntime.workerTurn
      split
      · split
        · exact h
        · exact h
      · next e rest _ =>
        exact h.of_subset (Dispatcher.notifyNotFull_waiting
          { r.toDispatcher with queue := rest, worker := .dispatching e }).subset
    simp only [DispatcherRuntime.step] at hr
    split at hr
    · cases hr; exact hturn
    · cases hr; exact hturn
    · cases hr
  | handlerReturned =>
    simp only [DispatcherRuntime.step] at hr
    split at hr
    · cases hr; exact h
    · cases hr
  | dispatchRaised =>
    simp only [DispatcherRuntime.step] at hr
    split at hr
    · cases hr; exact h
    · cases hr
  | cancelWorker =>
    simp only [DispatcherRuntime.step] at hr
    split at hr
    · cases hr; exact h
    · cases hr; exact h
    · cases hr; exact h
    · cases hr

end Dispatcher.WaitsIn

/-- How an event can leave while the worker is alive and nothing is cancelled. -/
def Fate.steady : Fate → Bool
  | .inline | .popped | .evicted | .rejected | .purged => true
  | _ => false

/-- Nothing leaves in another way. -/
theorem DispatcherRuntime.fates_steady (delivery : EventDeliverySettings) (r : DispatcherRuntime Nat (Call ε))
    {a : DispatcherAct Nat (Call ε)} (hok : Steady r a) (hs : r.stopping = false) : ∀ x ∈ r.fates delivery a, x.2.steady := by
  have hleave {f : Fate} (hf : f.steady) (l : List (QueuedEvent Nat (Call ε))) : ∀ x ∈ leaving f l, x.2.steady := by
    intro x hx
    obtain ⟨e, -, rfl⟩ := List.mem_map.1 hx
    exact hf
  have hturn (e : QueuedEvent Nat (Call ε)) : ∀ x ∈ r.enqueueFates delivery e, x.2.steady := by
    have h := r.toDispatcher.turn delivery 0 e
    generalize r.enqueueTurn delivery 0 e = d', r.enqueueFates delivery e = out at h
    cases h with
    | stopPhase h => simp [hs] at h
    | accept | park => exact List.forall_mem_nil _
    | evict _ _ oldest _ => exact hleave rfl [oldest]
    | reject => exact hleave rfl [e]
  have hemit (ctx : EmitContext) (e : QueuedEvent Nat (Call ε)) : ∀ x ∈ r.emitFates delivery ctx e, x.2.steady := by
    unfold DispatcherRuntime.emitFates
    split
    · exact hleave rfl [e]
    · exact hleave rfl [e]
    · next hroute =>
      unfold emitRoute at hroute
      rw [hs] at hroute
      split_ifs at hroute with _ _ hfalse
      exact hfalse.elim
    · exact hturn e
  cases a with
  | stop | cancelProducer | dispatchRaised | cancelWorker => exact hok.elim
  | start | handlerReturned => exact List.forall_mem_nil _
  | emit k ctx e => exact hemit ctx _
  | emitAndWait k ctx e drop => exact hemit ctx _
  | enqueueTurn k =>
    simp only [DispatcherRuntime.fates]
    split
    · exact hturn _
    · exact List.forall_mem_nil _
  | dropQueuedEvents payload => exact hleave rfl _
  | workerTurn => exact hleave rfl _

/-- The queue of a run under backpressure: it is the reference queue, within its bound, every event is accounted for, and those
that backpressure removes or rejects are droppable ones. -/
structure QueueRun.Backpressured (delivery : EventDeliverySettings) (s : QueueRun ε) : Prop where
  refines : ∃ q, BoundedQueue.Reached delivery.maxPendingEvents delivery.backpressurePolicy.overflow
      (fun x => x.dropOnBackpressure) q ∧ Represents s.runtime.toDispatcher s.accepted s.log s.longest q
  bounded : s.runtime.queue.length ≤ delivery.maxPendingEvents
  peak : s.runtime.queuePeak = s.longest
  /-- what the worker takes, and what is still queued, is in the order of acceptance -/
  ordered : (leavers .popped s.log ++ s.runtime.queue).Sublist s.accepted
  once : ((leavers .popped s.log ++ s.runtime.queue).map fun e => e.event.serial).Nodup
  /-- the event of every call made is in the queue, with a caller that waits inside `_enqueue`, or in the log, once -/
  kept : s.toJournal.Custody
  /-- only these wait -/
  waiting : ∀ e ∈ s.runtime.waiting, delivery.backpressurePolicy = .block ∨ e.dropOnBackpressure = false
  accounted : s.accepted.Perm
    (leavers .popped s.log ++ s.runtime.queue ++ (leavers .evicted s.log ++ leavers .purged s.log))
  steady : ∀ x ∈ s.log, x.2.steady
  guarded : ∀ x ∈ s.log, x.2 = .evicted ∨ x.2 = .rejected → x.1.dropOnBackpressure
  block : delivery.backpressurePolicy = .block → ∀ x ∈ s.log, x.2 ≠ .evicted ∧ x.2 ≠ .rejected
  newest : delivery.backpressurePolicy = .dropNewest → ∀ x ∈ s.log, x.2 ≠ .evicted

namespace QueueRun

variable {delivery : EventDeliverySettings} {s : QueueRun ε}

/-- The run is a run of the reference queue, the worker is not stopped, and nothing leaves in another way. -/
theorem represents_of_reachable (h : (queueMachine delivery).Reachable (fun s a => Steady s.runtime a) s) :
    (∃ q, BoundedQueue.Reached delivery.maxPendingEvents delivery.backpressurePolicy.overflow
      (fun x => x.dropOnBackpressure) q ∧ Represents s.runtime.toDispatcher s.accepted s.log s.longest q) ∧
    ∀ x ∈ s.log, x.2.steady := by
  refine h.invariant (I := fun s => (∃ q, BoundedQueue.Reached delivery.maxPendingEvents
      delivery.backpressurePolicy.overflow (fun x => x.dropOnBackpressure) q ∧
      Represents s.runtime.toDispatcher s.accepted s.log s.longest q) ∧ ∀ x ∈ s.log, x.2.steady) ?_ ?_
  · rintro _ rfl
    exact ⟨⟨{}, .refl, ⟨rfl, rfl, rfl, rfl, rfl, rfl, rfl, rfl, Nat.le_refl _, rfl⟩⟩, List.forall_mem_nil _⟩
  · rintro s a t ⟨⟨q, hreached, hq⟩, hlog⟩ hok hstep
    obtain ⟨q', hq', hrep⟩ := hq.step hok hstep
    refine ⟨⟨q', ?_, hrep⟩, ?_⟩
    · rcases hq' with rfl | hq'
      · exact hreached
      · exact hreached.tail hq'
    · obtain ⟨j, hj, rfl⟩ := Option.map_eq_some_iff.1 hstep
      obtain ⟨-, r, -, rfl⟩ := Journal.of_step hj
      intro x hx
      rcases List.mem_append.1 hx with hx | hx
      · exact hlog x hx
      · exact s.runtime.fates_steady delivery hok hq.running x hx

theorem journal_of_reachable (h : (queueMachine delivery).Reachable (fun s a => Steady s.runtime a) s) :
    (journalMachine delivery).Reachable Machine.Any s.toJournal := by
  refine h.project (fun s => s.toJournal) ?_ ?_
  · rintro _ rfl
    exact .init rfl
  · intro s a t _ hstep ih
    obtain ⟨j, hj, rfl⟩ := Option.map_eq_some_iff.1 hstep
    exact ih.step trivial hj

/-- Whoever waits under a policy that drops brings a protected event. -/
theorem waiting_of_reachable (h : (queueMachine delivery).Reachable (fun s a => Steady s.runtime a) s) :
    ∀ e ∈ s.runtime.waiting, delivery.backpressurePolicy = .block ∨ e.dropOnBackpressure = false := by
  refine h.invariant (I := fun s => s.runtime.toDispatcher.WaitsIn delivery) ?_ ?_
  · rintro _ rfl
    exact List.forall_mem_nil _
  · intro s a t hs _ hstep
    obtain ⟨j, hj, rfl⟩ := Option.map_eq_some_iff.1 hstep
    obtain ⟨-, r, hr, rfl⟩ := Journal.of_step hj
    exact hs.step hr

/-- What the worker has taken or not yet taken was emitted once. -/
theorem nodup_survivors (hc : s.toJournal.Custody) :
    ((leavers .popped s.log ++ s.runtime.queue).map fun e => e.event.serial).Nodup := by
  have hqueue : s.runtime.queue.Sublist s.runtime.held := List.sublist_append_left ..
  have hpopped : (leavers .popped s.log).Sublist (s.log.map Prod.fst) := List.filter_sublist.map _
  exact ((List.perm_append_comm.map _).nodup_iff).1 (hc.nodup.sublist ((hqueue.append hpopped).map _))

theorem mem_leavers {f : Fate} {log : List (QueuedEvent Nat (Call ε) × Fate)} {x : QueuedEvent Nat (Call ε) × Fate}
    (hx : x ∈ log) (hf : x.2 = f) : x.1 ∈ leavers f log :=
  List.mem_map_of_mem (List.mem_filter.2 ⟨hx, by simpa using hf⟩)

/-- For every capacity and policy, in every run of emissions, worker turns and purges, the dispatcher's queue is the
reference queue: it stays within its bound, its peak is the greatest length it has had, the worker takes the survivors in
the order of acceptance, each once, no event is lost on the way into the queue, and backpressure costs only droppable events,
and none under BLOCK. -/
theorem backpressured_of_reachable (h : (queueMachine delivery).Reachable (fun s a => Steady s.runtime a) s) :
    s.Backpressured delivery := by
  obtain ⟨⟨q, hreached, hq⟩, hsteady⟩ := represents_of_reachable h
  have hfaithful := BoundedQueue.faithful_of_reached hreached
  have hcustody := Journal.custody (journal_of_reachable h)
  refine ⟨⟨q, hreached, hq⟩, hq.pending ▸ hfaithful.bounded, hq.peak.symm.trans hq.greatest, ?_,
    nodup_survivors hcustody, hcustody, waiting_of_reachable h, ?_, hsteady, ?_, ?_, ?_⟩
  · have hordered := hfaithful.ordered
    rwa [hq.delivered, hq.pending, hq.acceptance] at hordered
  · have haccounted := hfaithful.accounted
    rwa [hq.acceptance, hq.delivered, hq.pending, hq.evicted, hq.purged] at haccounted
  · intro x hx hf
    refine hfaithful.guarded x.1 (List.mem_append.2 (hf.imp (fun hf => ?_) fun hf => ?_))
    · rw [hq.evicted]
      exact mem_leavers hx hf
    · rw [hq.rejected]
      exact mem_leavers hx hf
  · intro hp x hx
    obtain ⟨hevicted, hrejected⟩ := hfaithful.waits (by rw [hp]; rfl)
    rw [hq.evicted] at hevicted
    rw [hq.rejected] at hrejected
    refine ⟨fun hf => ?_, fun hf => ?_⟩
    · exact List.not_mem_nil (hevicted ▸ mem_leavers hx hf)
    · exact List.not_mem_nil (hrejected ▸ mem_leavers hx hf)
  · intro hp x hx hf
    have hevicted := hfaithful.newest (by rw [hp]; rfl)
    rw [hq.evicted] at hevicted
    exact List.not_mem_nil (hevicted ▸ mem_leavers hx hf)

end QueueRun

instance (r : DispatcherRuntime κ ε) : (a : DispatcherAct κ ε) → Decidable (Steady r a)
  | .stop _ _ | .cancelProducer _ | .dispatchRaised | .cancelWorker => isFalse id
  | .start | .emit _ _ _ | .emitAndWait _ _ _ _ | .enqueueTurn _ | .dropQueuedEvents _ | .workerTurn | .handlerReturned =>
    isTrue trivial

def twoDropOldest : EventDeliverySettings :=
  { backpressurePolicy := .dropOldest, maxPendingEvents := 2, maxPendingEvents_pos := Nat.two_pos }

def protectedFront : List (DispatcherAct Nat (Call String)) :=
  [.start, .workerTurn, .emit 0 {} ⟨0, "handled"⟩, .workerTurn, .emitAndWait 1 {} ⟨1, "barrier"⟩ false,
    .emit 2 {} ⟨2, "evicted"⟩, .emit 3 {} ⟨3, "kept"⟩, .emitAndWait 4 {} ⟨4, "protected"⟩ false, .handlerReturned,
    .workerTurn, .emit 5 {} ⟨5, "rejected"⟩]

theorem backpressured_of_protectedFront :
    ∃ s : QueueRun String, (leavers .evicted s.log).map (fun e => e.event.serial) = [2, 3] ∧
      s.Backpressured twoDropOldest := by
  have hrun : ∃ s : QueueRun String, (queueMachine twoDropOldest).Reachable (fun s a => Steady s.runtime a) s ∧
      decide ((leavers .evicted s.log).map (fun e => e.event.serial) = [2, 3]) :=
    Machine.Reachable.exists_of_execOk rfl protectedFront _ (by decide)
  obtain ⟨s, hs, hp⟩ := hrun
  exact ⟨s, of_decide_eq_true hp, QueueRun.backpressured_of_reachable hs⟩

end Aionetx
