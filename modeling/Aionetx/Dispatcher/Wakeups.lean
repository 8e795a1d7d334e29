import Aionetx.Dispatcher.Backpressure

/-!
# No lost wake-up

While the worker is alive and nobody is cancelled, a worker that waits un-notified has nothing to take. A producer may
wait un-notified beside it, but then a full queue of producers has been notified and is about to append.

* `NoLostWakeUp` : a waiting worker has an empty queue and no parked producer;
* `NotifiedInstead` : or as many producers as the queue has slots are notified, and any of them wakes the worker;
* `Dispatcher.Credit` : the invariant, `DispatcherRuntime.nodup_of_reachable` : a caller is inside `_enqueue` once;
* `DispatcherRuntime.notifiedInstead_of_reachable` : so it holds in every steady run.
-/

namespace Aionetx

open Runs

universe u v

variable {κ : Type u} {ε : Type v}

/-- The worker is not parked un-notified while the queue holds an event or a producer is parked un-notified. -/
def DispatcherRuntime.NoLostWakeUp (r : DispatcherRuntime κ ε) : Prop :=
  r.worker = .waiting → r.queue = [] ∧ r.parked = []

/-- The worker is not parked un-notified while the queue holds an event. While a producer is parked beside it, at least as
many producers as the queue has slots are notified and have not resumed, and the turn of any of them appends its own event
and notifies the worker. -/
def DispatcherRuntime.NotifiedInstead [DecidableEq κ] (delivery : EventDeliverySettings) (r : DispatcherRuntime κ ε) :
    Prop :=
  r.worker = .waiting → r.queue = [] ∧
    (r.parked ≠ [] → delivery.maxPendingEvents ≤ r.woken.length) ∧
    ∀ p ∈ r.woken, ∃ r', r.step delivery (.enqueueTurn p.1) = some r' ∧ r'.worker = .ready ∧ r'.queue = [p.2]

/-- A waiting worker has an empty queue, and a parked producer has a full queue before it, together with the producers that
are notified and have not resumed. -/
structure Dispatcher.Credit (capacity : Nat) (d : Dispatcher κ ε) : Prop where
  running : d.stopping = false
  idle : d.worker = .waiting → d.queue = []
  owed : d.parked = [] ∨ capacity ≤ d.queue.length + d.woken.length

namespace Dispatcher.Credit

variable {delivery : EventDeliverySettings} {d : Dispatcher κ ε}

theorem notifyNotEmpty_worker (d : Dispatcher κ ε) : d.notifyNotEmpty.worker ≠ .waiting := by
  unfold Dispatcher.notifyNotEmpty
  cases hw : d.worker <;> simp

variable [DecidableEq κ]

theorem turn (hs : d.stopping = false) (hidle : d.worker = .waiting → d.queue = [])
    (howed : d.parked = [] ∨ delivery.maxPendingEvents ≤ d.queue.length + d.woken.length + 1) (k : κ)
    (e : QueuedEvent κ ε) : (d.enqueueTurn delivery k e).Credit delivery.maxPendingEvents := by
  by_cases hq : d.queue.length < delivery.maxPendingEvents
  · rw [(Dispatcher.enqueueTurn_of_room hs hq k e).1]
    refine ⟨hs, fun hw => absurd hw (notifyNotEmpty_worker _), howed.imp_right fun h => ?_⟩
    change _ ≤ (d.queue ++ [e]).length + d.woken.length
    rw [List.length_append, List.length_singleton]
    omega
  · have hq : delivery.maxPendingEvents ≤ d.queue.length := Nat.le_of_not_lt hq
    have hturn := Dispatcher.enqueueTurn_of_full hs hq k e
    generalize d.enqueueTurn delivery k e = d', d.enqueueFates delivery e = out, d.enqueueAccepts delivery e = acc at hturn
    cases hturn with
    | @evict _ before after oldest hpending _ _ _ hd hqueue =>
      have hlen : d'.queue.length = d.queue.length := by
        rw [hqueue, hpending]
        simp
      refine ⟨?_, fun hw => ?_, .inr ?_⟩
      · rw [hd]
        exact hs
      · rw [hd] at hw
        exact absurd hw (notifyNotEmpty_worker _)
      · omega
    | reject => exact ⟨hs, hidle, .inr (Nat.le_trans hq (Nat.le_add_right ..))⟩
    | wait => exact ⟨hs, hidle, .inr (Nat.le_trans hq (Nat.le_add_right ..))⟩

theorem emit {r : DispatcherRuntime κ ε} (h : r.toDispatcher.Credit delivery.maxPendingEvents) (k : κ) (ctx : EmitContext)
    (e : QueuedEvent κ ε) : (r.emit delivery k ctx e).toDispatcher.Credit delivery.maxPendingEvents := by
  unfold DispatcherRuntime.emit
  dsimp only
  split
  · exact ⟨h.running, h.idle, h.owed⟩
  · exact ⟨h.running, h.idle, h.owed⟩
  · exact ⟨h.running, h.idle, h.owed⟩
  · refine turn ?_ ?_ ?_ k e
    · exact h.running
    · exact h.idle
    · exact h.owed.imp_right Nat.le_succ_of_le

omit [DecidableEq κ] in
/-- Taking an event wakes the producer that has waited longest. -/
theorem take (h : d.Credit delivery.maxPendingEvents) {e : QueuedEvent κ ε} {rest : List (QueuedEvent κ ε)}
    (hq : d.queue = e :: rest) (d' : Dispatcher κ ε) (hs : d'.stopping = false) (hw : d'.worker ≠ .waiting)
    (hq' : d'.queue = rest) (hparked : d'.parked = d.parked.tail) (hwoken : d'.woken = d.woken ++ d.parked.take 1) :
    d'.Credit delivery.maxPendingEvents := by
  refine ⟨hs, fun hwait => absurd hwait hw, ?_⟩
  rw [hq', hparked, hwoken]
  rcases hp : d.parked with _ | ⟨p, rest'⟩
  · exact .inl rfl
  · right
    have howed := h.owed.resolve_left (by simp [hp])
    rw [hq] at howed
    simp only [List.length_cons, List.length_append, List.take_succ_cons, List.take_zero, List.length_nil] at howed ⊢
    omega

/-- A purge that drops an event wakes every producer. -/
theorem purge (h : d.Credit delivery.maxPendingEvents) (payload : ε → Bool) :
    (d.dropQueuedEventsForResource payload).Credit delivery.maxPendingEvents := by
  unfold Dispatcher.dropQueuedEventsForResource
  dsimp only
  split
  · exact h
  · refine ⟨h.running, fun hw => ?_, .inl rfl⟩
    change d.queue.filter _ = []
    rw [h.idle hw]
    rfl

theorem step {r r' : DispatcherRuntime κ ε} {a : DispatcherAct κ ε} (h : r.toDispatcher.Credit delivery.maxPendingEvents)
    (hok : Steady r a) (hstep : r.step delivery a = some r') :
    r'.toDispatcher.Credit delivery.maxPendingEvents := by
  cases a with
  | stop | cancelProducer | dispatchRaised | cancelWorker => exact hok.elim
  | start =>
    cases hstep
    unfold DispatcherRuntime.start
    split_ifs
    · exact h
    · exact h
    · exact ⟨rfl, fun hw => (by cases hw), h.owed⟩
  | emit k ctx e =>
    simp only [DispatcherRuntime.step] at hstep
    split_ifs at hstep
    cases hstep
    exact h.emit k ctx _
  | emitAndWait k ctx e drop =>
    simp only [DispatcherRuntime.step] at hstep
    split_ifs at hstep
    cases hstep
    refine Credit.emit ?_ k ctx _
    exact ⟨h.running, h.idle, h.owed⟩
  | enqueueTurn k =>
    simp only [DispatcherRuntime.step] at hstep
    split at hstep
    · next k' e hfind =>
      cases hstep
      have hk : k' = k := by simpa using List.find?_some hfind
      subst hk
      have hlen := (Dispatcher.perm_cons_eraseP hfind).length_eq
      rw [List.length_cons] at hlen
      refine turn ?_ ?_ ?_ k' e
      · exact h.running
      · exact h.idle
      · exact h.owed.imp_right fun howed => by rwa [hlen] at howed
    · cases hstep
  | dropQueuedEvents payload =>
    cases hstep
    exact h.purge payload
  | workerTurn =>
    have hturn : r.workerTurn.toDispatcher.Credit delivery.maxPendingEvents := by
      unfold DispatcherRuntime.workerTurn
      split
      · next hq =>
        rw [if_neg (by simp [h.running])]
        exact ⟨h.running, fun _ => hq, h.owed⟩
      · next e rest hq => exact h.take hq _ h.running (by simp [Dispatcher.notifyNotFull]) rfl rfl rfl
    simp only [DispatcherRuntime.step] at hstep
    split at hstep
    · cases hstep
      exact hturn
    · cases hstep
      exact hturn
    · cases hstep
  | handlerReturned =>
    simp only [DispatcherRuntime.step] at hstep
    split at hstep
    · cases hstep
      exact ⟨h.running, fun hw => (by cases hw), h.owed⟩
    · cases hstep

end Dispatcher.Credit

/-! ## The callers inside `_enqueue` -/

/-- Who is inside `_enqueue`. -/
def Dispatcher.callers (d : Dispatcher κ ε) : List κ := (d.parked ++ d.woken).map Prod.fst

namespace Dispatcher

theorem callers_dropQueuedEvents (payload : ε → Bool) (d : Dispatcher κ ε) [DecidableEq κ] :
    (d.dropQueuedEventsForResource payload).callers.Perm d.callers := by
  unfold dropQueuedEventsForResource
  dsimp only
  split
  · exact .refl _
  · exact (releaseProducers_callers _).map _

/-- The caller of a turn of `_enqueue` is inside again, or has left. -/
theorem callers_enqueueTurn [DecidableEq κ] (delivery : EventDeliverySettings) (k : κ) (e : QueuedEvent κ ε) (d : Dispatcher κ ε) :
    (d.enqueueTurn delivery k e).callers = d.callers ∨ (d.enqueueTurn delivery k e).callers.Perm (k :: d.callers) := by
  rcases d.enqueueTurn_spec delivery k e with ⟨-, h⟩ | ⟨-, h | ⟨oldest, h⟩ | h | h⟩ <;> rw [h]
  · exact .inl rfl
  · exact .inl rfl
  · exact .inl rfl
  · exact .inl rfl
  · refine .inr ?_
    simp only [callers, park, List.append_assoc, List.singleton_append]
    exact List.perm_middle.map Prod.fst

theorem nodup_enqueueTurn [DecidableEq κ] {d : Dispatcher κ ε} (h : d.callers.Nodup) {k : κ} (hk : k ∉ d.callers)
    (delivery : EventDeliverySettings) (e : QueuedEvent κ ε) : (d.enqueueTurn delivery k e).callers.Nodup := by
  rcases callers_enqueueTurn delivery k e d with hsame | hperm
  · rwa [hsame]
  · exact hperm.nodup_iff.mpr (List.nodup_cons.mpr ⟨hk, h⟩)

end Dispatcher

namespace DispatcherRuntime

section Callers

variable [DecidableEq κ] {delivery : EventDeliverySettings} {r r' : DispatcherRuntime κ ε}

theorem not_mem_callers_of_busy {k : κ} (h : r.busy k = false) : k ∉ r.callers := by
  intro hk
  obtain ⟨p, hp, rfl⟩ := List.mem_map.mp hk
  have hany : ((r.parked ++ r.woken).any fun q => q.1 = p.1) = true := List.any_eq_true.mpr ⟨p, hp, decide_eq_true rfl⟩
  rw [busy, hany] at h
  cases h

theorem nodup_emit (h : r.callers.Nodup) {k : κ} (hk : k ∉ r.callers) (ctx : EmitContext) (e : QueuedEvent κ ε) :
    (r.emit delivery k ctx e).callers.Nodup := by
  unfold DispatcherRuntime.emit
  dsimp only
  split
  · exact h
  · exact h
  · exact h
  · exact Dispatcher.nodup_enqueueTurn (d := { r.toDispatcher with emitCallsTotal := r.emitCallsTotal + 1 }) h hk delivery e

/-- No caller is inside `_enqueue` twice: it comes in when it is outside, and each turn takes it out first. -/
theorem nodup_step {a : DispatcherAct κ ε} (h : r.callers.Nodup) (hstep : r.step delivery a = some r') : r'.callers.Nodup := by
  cases a with
  | start =>
    cases hstep
    unfold DispatcherRuntime.start
    split_ifs <;> exact h
  | stop k ctx =>
    cases hstep
    have hsignal : r.signalStop.callers.Nodup :=
      ((Dispatcher.releaseProducers_callers ({ r.toDispatcher with stopping := true } : Dispatcher κ ε).notifyNotEmpty).map
        Prod.fst).nodup_iff.mpr h
    unfold DispatcherRuntime.stop
    split_ifs
    · exact h
    all_goals exact hsignal
  | emit k ctx e =>
    simp only [DispatcherRuntime.step] at hstep
    split at hstep
    · cases hstep
    · next hbusy =>
      cases hstep
      exact nodup_emit h (not_mem_callers_of_busy (Bool.of_not_eq_true hbusy)) ctx _
  | emitAndWait k ctx e drop =>
    simp only [DispatcherRuntime.step] at hstep
    split at hstep
    · cases hstep
    · next hbusy =>
      cases hstep
      exact nodup_emit (r := { r with completion := Function.update r.completion k .pending }) h
        (not_mem_callers_of_busy (Bool.of_not_eq_true hbusy)) ctx _
  | enqueueTurn k =>
    simp only [DispatcherRuntime.step] at hstep
    split at hstep
    · next k' e hfind =>
      cases hstep
      have hk : k' = k := by simpa using List.find?_some hfind
      subst hk
      have hperm : r.callers.Perm (k' :: { r.toDispatcher with woken := r.woken.eraseP fun p => p.1 = k' }.callers) :=
        (((Dispatcher.perm_cons_eraseP hfind).append_left r.parked).trans List.perm_middle).map Prod.fst
      obtain ⟨hk, hrest⟩ := List.nodup_cons.mp (hperm.nodup_iff.mp h)
      exact Dispatcher.nodup_enqueueTurn hrest hk delivery e
    · cases hstep
  | cancelProducer k =>
    simp only [DispatcherRuntime.step] at hstep
    split at hstep
    · cases hstep
      exact h.sublist ((List.eraseP_sublist.append List.eraseP_sublist).map _)
    · cases hstep
  | dropQueuedEvents payload =>
    cases hstep
    exact (Dispatcher.callers_dropQueuedEvents payload r.toDispatcher).nodup_iff.mpr h
  | workerTurn =>
    have hturn : r.workerTurn.callers.Nodup := by
      unfold DispatcherRuntime.workerTurn
      split
      · split <;> exact h
      · exact ((Dispatcher.notifyNotFull_callers _).map Prod.fst).nodup_iff.mpr h
    simp only [DispatcherRuntime.step] at hstep
    split at hstep <;> cases hstep <;> exact hturn
  | handlerReturned | dispatchRaised | cancelWorker =>
    simp only [DispatcherRuntime.step] at hstep
    split at hstep <;> cases hstep <;> exact h

/-- In every run: a caller is inside `_enqueue` once. -/
theorem nodup_of_reachable {ok : DispatcherRuntime κ ε → DispatcherAct κ ε → Prop}
    (h : (dispatcherMachine delivery).Reachable ok r) : r.callers.Nodup := by
  refine h.invariant (I := fun r => r.callers.Nodup) ?_ fun _ _ _ hi _ hstep => nodup_step hi hstep
  rintro _ rfl
  exact List.nodup_nil

theorem find?_woken (h : r.callers.Nodup) {p : κ × QueuedEvent κ ε} (hp : p ∈ r.woken) :
    r.woken.find? (fun q => q.1 = p.1) = some p := by
  obtain ⟨q, hq⟩ := Option.isSome_iff_exists.mp
    (List.find?_isSome.mpr ⟨p, hp, decide_eq_true rfl⟩ : (r.woken.find? fun q => q.1 = p.1).isSome)
  have hkey : q.1 = p.1 := of_decide_eq_true (List.find?_some hq :)
  have hwoken : (r.woken.map Prod.fst).Nodup := h.sublist ((List.sublist_append_right ..).map _)
  rw [hq, List.inj_on_of_nodup_map hwoken (List.mem_of_find?_eq_some hq) hp hkey]

end Callers

variable [DecidableEq κ] {delivery : EventDeliverySettings} {r : DispatcherRuntime κ ε}

theorem credit_of_reachable (h : (dispatcherMachine delivery).Reachable Steady r) :
    r.toDispatcher.Credit delivery.maxPendingEvents := by
  refine h.invariant (I := fun r => r.toDispatcher.Credit delivery.maxPendingEvents) ?_ ?_
  · rintro _ rfl
    exact ⟨rfl, fun _ => rfl, .inl rfl⟩
  · intro r a t hi hok hstep
    exact hi.step hok hstep

/-- For every capacity, policy and number of producers, in every run without stops and cancellations a waiting worker has
an empty queue, and the producers that have been notified outnumber the slots before one is left parked. -/
theorem notifiedInstead_of_reachable (h : (dispatcherMachine delivery).Reachable Steady r) : r.NotifiedInstead delivery := by
  intro hw
  have hcredit := credit_of_reachable h
  have hq := hcredit.idle hw
  refine ⟨hq, fun hp => ?_, fun p hp => ?_⟩
  · have howed := hcredit.owed.resolve_left hp
    rwa [hq, List.length_nil, Nat.zero_add] at howed
  · have hfind := find?_woken (nodup_of_reachable h) hp
    refine ⟨_, by simp only [step, hfind]; rfl, ?_⟩
    have hroom : r.queue.length < delivery.maxPendingEvents := by
      rw [hq]
      exact delivery.maxPendingEvents_pos
    rw [(Dispatcher.enqueueTurn_of_room
      (d := { r.toDispatcher with woken := r.woken.eraseP fun q => q.1 = p.1 }) hcredit.running hroom p.1 p.2).1]
    constructor
    · simp [Dispatcher.accept, Dispatcher.notifyNotEmpty, hw]
    · simp [Dispatcher.accept, Dispatcher.notifyNotEmpty, hq]

end DispatcherRuntime

def slotForOne : EventDeliverySettings := { maxPendingEvents := 1, maxPendingEvents_pos := Nat.one_pos }

/-- Two producers park behind a full queue. The handler returns at once, and the worker waits again before the producer that
it has notified resumes. -/
def secondStaysParked : List (DispatcherAct Nat String) :=
  [.start, .workerTurn, .emit 0 {} "first", .emit 1 {} "second", .emit 2 {} "third", .workerTurn, .handlerReturned,
    .workerTurn]

def DispatcherRuntime.waitsBesideParked (r : DispatcherRuntime κ ε) : Bool :=
  match r.worker with
  | .waiting => !r.parked.isEmpty
  | _ => false

theorem secondStaysParked_run : ∃ r : DispatcherRuntime Nat String, (dispatcherMachine slotForOne).Reachable Steady r ∧
    r.waitsBesideParked :=
  Machine.Reachable.exists_of_execOk rfl secondStaysParked _ (by decide)

theorem notifiedInstead_of_secondStaysParked :
    ∃ r : DispatcherRuntime Nat String, r.waitsBesideParked ∧ r.NotifiedInstead slotForOne := by
  obtain ⟨r, hr, hp⟩ := secondStaysParked_run
  exact ⟨r, hp, DispatcherRuntime.notifiedInstead_of_reachable hr⟩

/-- The producer that was not notified is parked beside the waiting worker. -/
theorem not_noLostWakeUp_of_secondStaysParked :
    ¬ ∀ r : DispatcherRuntime Nat String, (dispatcherMachine slotForOne).Reachable Steady r → r.NoLostWakeUp := by
  intro hall
  obtain ⟨r, hr, hp⟩ := secondStaysParked_run
  have hlost := hall r hr
  unfold DispatcherRuntime.waitsBesideParked at hp
  split at hp
  · next hw => simp [(hlost hw).2] at hp
  · cases hp

end Aionetx
