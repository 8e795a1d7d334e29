import Aionetx.Dispatcher.Runtime

/-!
# Callers left behind by the worker

Every caller of `emit` and `emit_and_wait` that is still waiting when the worker has ended, or when `stop()` has
returned, must have been told. The `finally` block of `_run` fails the queued events, and `stop()` wakes the parked
producers; after an abnormal end nobody does the latter.

* `NoStranded` : nobody is parked un-notified, and no queued event is left with a pending future and no worker;
* `CleanEnd` : an error ends the worker only while no caller is parked, and none is about to append without a worker;
* `Sound` : the invariant of the runs that meet `CleanEnd`;
* `noStranded_of_cleanEnd` : those runs strand nobody.
-/

namespace Aionetx

universe u v

variable {κ : Type u} {ε : Type v} [DecidableEq κ]

/-- Once the worker has ended or `stop()` has returned, nobody is parked un-notified, and without a worker no queued
event has a pending future. -/
def DispatcherRuntime.NoStranded (r : DispatcherRuntime κ ε) : Prop :=
  r.worker.ended ∨ r.stopReturned →
    r.parked = [] ∧ (r.worker.ended → ∀ e ∈ r.queue, ∀ k, e.handled = some k → r.completion k ≠ .pending)

/-- An error or a cancellation ends the worker only while no producer is parked, only while no notified producer would
still append, and only once the worker has run. -/
def CleanEnd (r : DispatcherRuntime κ ε) : DispatcherAct κ ε → Prop
  | .dispatchRaised => r.parked = [] ∧ (r.stopping ∨ r.woken = [])
  | .cancelWorker => r.parked = [] ∧ (r.stopping ∨ r.woken = []) ∧ r.worker.unstarted = false
  | _ => True

/-- The invariant: a dispatcher without a worker holds no event and no parked caller, and a notified caller it still
has will find `_stopping` set. -/
structure Dispatcher.Sound (d : Dispatcher κ ε) : Prop where
  ended : d.worker.ended → d.parked = [] ∧ d.queue = []
  woken : d.worker.ended → d.woken ≠ [] → d.stopping
  stopping : d.stopping → d.parked = []

namespace Dispatcher.Sound

variable {d : Dispatcher κ ε}

/-- A turn of `_enqueue` keeps the invariant if a worker runs or the dispatcher is stopping. -/
theorem enqueueTurn (h : d.Sound) (hw : d.worker.ended → d.stopping) (delivery : EventDeliverySettings) (k : κ)
    (e : QueuedEvent κ ε) : (d.enqueueTurn delivery k e).Sound := by
  rcases d.enqueueTurn_spec delivery k e with ⟨hs, heq⟩ | ⟨hs, heq⟩
  · rw [heq]
    exact ⟨h.ended, fun _ _ => hs, h.stopping⟩
  · have hr : d.worker.ended = false := by simpa using mt hw hs
    rcases heq with heq | ⟨oldest, heq⟩ | heq | heq <;> rw [heq]
    · exact ⟨by simp [accept, hr], by simp [accept, hr], h.stopping⟩
    · exact ⟨by simp [evictOldest, accept, dropQueuedEvent, settle, hr],
        by simp [evictOldest, accept, dropQueuedEvent, settle, hr], h.stopping⟩
    · exact ⟨h.ended, h.woken, h.stopping⟩
    · exact ⟨by simp [park, hr], by simp [park, hr], fun hst => absurd hst hs⟩

omit [DecidableEq κ] in
theorem exit (h : d.Sound) (hq : d.queue = []) (hs : d.stopping) : { d with worker := .missing : Dispatcher κ ε }.Sound :=
  ⟨fun _ => ⟨h.stopping hs, hq⟩, fun _ _ => hs, h.stopping⟩

/-- An abnormal end of the worker, with nobody left who could append afterwards. -/
theorem failPending (hp : d.parked = []) (hw : d.stopping ∨ d.woken = []) : d.failPending.Sound :=
  ⟨fun _ => ⟨hp, rfl⟩, fun _ h => hw.resolve_right h, fun _ => hp⟩

/-- A purge frees space and wakes the parked callers; there is nothing to purge without a worker. -/
theorem dropQueuedEvents (h : d.Sound) (payload : ε → Bool) : (d.dropQueuedEventsForResource payload).Sound := by
  unfold dropQueuedEventsForResource
  by_cases hd : (d.queue.filter fun e => payload e.event).isEmpty
  · simpa [hd] using h
  · have hr : d.worker.ended = false := by
      by_contra hc
      have := (h.ended (by simpa using hc)).2
      simp [this] at hd
    simp only [hd, if_false, Bool.false_eq_true]
    exact ⟨by simp [releaseProducers, hr], by simp [releaseProducers, hr], fun _ => rfl⟩

end Dispatcher.Sound

/-- The invariant of a dispatcher with its `stop()` calls: it is `Sound`, its worker was never cancelled before its
first step, a `stop()` call that awaits the worker has a worker to await, and one that has returned leaves `_stopping`
set until the next worker is created. -/
structure DispatcherRuntime.Inv (r : DispatcherRuntime κ ε) : Prop where
  sound : r.toDispatcher.Sound
  missing : r.worker.ended → r.worker = .missing
  stoppers : r.stoppers ≠ [] → r.stopping ∧ r.worker.ended = false
  returned : r.stopReturned → r.stopping

namespace DispatcherRuntime.Inv

variable {r : DispatcherRuntime κ ε}

omit [DecidableEq κ] in
/-- What the property asks for follows from the invariant. -/
theorem noStranded (h : r.Inv) : r.NoStranded := by
  rintro (he | hr)
  · obtain ⟨hp, hq⟩ := h.sound.ended he
    exact ⟨hp, fun _ e hmem => by simp [hq] at hmem⟩
  · refine ⟨h.sound.stopping (h.returned hr), fun he e hmem => ?_⟩
    simp [(h.sound.ended he).2] at hmem

omit [DecidableEq κ] in
/-- The worker ends: the `stop()` calls that awaited it return. -/
theorem afterWorkerEnd (h : r.Inv) {d : Dispatcher κ ε} (hd : d.Sound) (hw : d.worker = .missing)
    (hs : d.stopping = r.stopping) : (r.afterWorkerEnd d).Inv := by
  refine ⟨hd, fun _ => hw, fun hne => absurd rfl hne, fun hr => ?_⟩
  rw [DispatcherRuntime.afterWorkerEnd, hs]
  simp only [DispatcherRuntime.afterWorkerEnd, Bool.or_eq_true, Bool.not_eq_true', List.isEmpty_eq_false_iff] at hr
  rcases hr with hr | hr
  · exact h.returned hr
  · exact (h.stoppers hr).1

omit [DecidableEq κ] in
/-- A change of the queueing state that keeps the worker alive and `_stopping` as it is. -/
theorem of_dispatcher (h : r.Inv) {d : Dispatcher κ ε} (hd : d.Sound) (hw : d.worker.ended = r.worker.ended)
    (hm : r.worker = .missing → d.worker = .missing) (hs : d.stopping = r.stopping) :
    ({ r with toDispatcher := d } : DispatcherRuntime κ ε).Inv :=
  ⟨hd, fun he => hm (h.missing (hw ▸ he)), fun hne => by simpa [hs, hw] using h.stoppers hne,
    fun hr => by simpa [hs] using h.returned hr⟩

/-! ## One action -/

omit [DecidableEq κ] in
theorem start (h : r.Inv) (delivery : EventDeliverySettings) : (r.start delivery).Inv := by
  unfold DispatcherRuntime.start
  split
  · exact h
  split
  · exact h
  · next hb =>
    have hw : r.worker = .missing := by simpa using hb
    obtain ⟨hp, hq⟩ := h.sound.ended (by simp [hw, Worker.ended])
    refine ⟨⟨fun he => ?_, fun he => ?_, fun hs => ?_⟩, fun he => ?_, fun hne => ?_, fun hr => ?_⟩
    · cases he
    · cases he
    · cases hs
    · cases he
    · have := (h.stoppers hne).2
      simp [hw, Worker.ended] at this
    · cases hr

omit [DecidableEq κ] in
theorem running (h : r.Inv) (hw : r.worker ≠ .missing) : r.worker.ended = false := by
  simpa using mt h.missing hw

theorem stop (h : r.Inv) (k : κ) (ctx : StopContext) : (r.stop k ctx).Inv := by
  by_cases hw : r.worker = .missing
  · have hend := h.sound.ended (by simp [hw, Worker.ended])
    simp only [DispatcherRuntime.stop, (Dispatcher.hasBackgroundWorker_eq_false _).2 hw, Bool.not_false, if_true]
    exact ⟨⟨fun _ => hend, fun _ _ => rfl, fun _ => hend.1⟩, h.missing, fun hne => ⟨rfl, (h.stoppers hne).2⟩,
      fun _ => rfl⟩
  · have hr := h.running hw
    have hb : r.hasBackgroundWorker = true := 
      Bool.eq_true_of_not_eq_false (mt (Dispatcher.hasBackgroundWorker_eq_false _).1 hw)
    have hs : r.signalStop.Sound := ⟨by simp [hr], fun _ _ => rfl, fun _ => rfl⟩
    have hd : r.signalStop.dropPending.Sound := ⟨by simp [Dispatcher.dropPending, hr], fun _ _ => rfl, fun _ => rfl⟩
    simp only [DispatcherRuntime.stop, hb, Bool.not_true, Bool.false_eq_true, if_false]
    split
    · exact ⟨hd, by simp [Dispatcher.dropPending, hr], fun _ => ⟨rfl, by simp [Dispatcher.dropPending, hr]⟩,
        fun _ => rfl⟩
    · rw [if_neg (by simp [hr])]
      exact ⟨hs, by simp [hr], fun _ => ⟨rfl, by simp [hr]⟩, fun _ => rfl⟩

theorem emit (h : r.Inv) (delivery : EventDeliverySettings) (k : κ) (ctx : EmitContext) (e : QueuedEvent κ ε) :
    (r.emit delivery k ctx e).Inv := by
  have hd : ({ r.toDispatcher with emitCallsTotal := r.emitCallsTotal + 1 } : Dispatcher κ ε).Sound :=
    ⟨h.sound.ended, h.sound.woken, h.sound.stopping⟩
  unfold DispatcherRuntime.emit
  dsimp only
  split
  · exact h.of_dispatcher ⟨hd.ended, hd.woken, hd.stopping⟩ rfl id rfl
  · exact h.of_dispatcher ⟨hd.ended, hd.woken, hd.stopping⟩ rfl id rfl
  · exact h.of_dispatcher ⟨hd.ended, hd.woken, hd.stopping⟩ rfl id rfl
  · next hroute =>
    have hr : r.worker.ended = false := h.running (emitRoute_enqueue hroute).1
    exact h.of_dispatcher (hd.enqueueTurn (by simp [hr]) ..) (by simp) (fun hw => Dispatcher.enqueueTurn_missing _ _ _ hw)
      (Dispatcher.enqueueTurn_frame ..).2

theorem enqueueTurn (h : r.Inv) {p : κ × QueuedEvent κ ε} (hp : p ∈ r.woken) (rest : List (κ × QueuedEvent κ ε))
    (delivery : EventDeliverySettings) (hrest : rest ≠ [] → r.woken ≠ []) :
    ({ r with toDispatcher := { r.toDispatcher with woken := rest }.enqueueTurn delivery p.1 p.2 } :
      DispatcherRuntime κ ε).Inv := by
  have hne : r.woken ≠ [] := List.ne_nil_of_mem hp
  have hd : ({ r.toDispatcher with woken := rest } : Dispatcher κ ε).Sound :=
    ⟨h.sound.ended, fun he hw => h.sound.woken he (hrest hw), h.sound.stopping⟩
  exact h.of_dispatcher (hd.enqueueTurn (fun he => h.sound.woken he hne) ..) (by simp)
    (fun hw => Dispatcher.enqueueTurn_missing _ _ _ hw) (Dispatcher.enqueueTurn_frame ..).2

omit [DecidableEq κ] in
theorem workerTurn (h : r.Inv) (hr : r.worker.ended = false) : r.workerTurn.Inv := by
  unfold DispatcherRuntime.workerTurn
  split
  · next hq =>
    split
    · next hs => exact h.afterWorkerEnd (h.sound.exit hq hs) rfl rfl
    · next hs =>
      exact h.of_dispatcher (d := { r.toDispatcher with worker := .waiting })
        ⟨nofun, nofun, h.sound.stopping⟩ (by rw [hr]; rfl)
        (fun hw => by simp [hw, Worker.ended] at hr) rfl
  · next e rest hq =>
    refine ⟨⟨nofun, nofun, fun hs => ?_⟩, nofun,
      fun hne => ⟨(h.stoppers hne).1, rfl⟩, h.returned⟩
    simp [Dispatcher.notifyNotFull, h.sound.stopping hs]

/-- Every action that meets `CleanEnd` keeps the invariant. -/
theorem step {delivery : EventDeliverySettings} {r' : DispatcherRuntime κ ε} {a : DispatcherAct κ ε} (h : r.Inv)
    (hok : CleanEnd r a) (hstep : r.step delivery a = some r') : r'.Inv := by
  cases a with
  | start => cases hstep; exact h.start delivery
  | stop k ctx => cases hstep; exact h.stop k ctx
  | emit k ctx e =>
    simp only [DispatcherRuntime.step] at hstep
    split at hstep
    · cases hstep
    · cases hstep; exact h.emit ..
  | emitAndWait k ctx e drop =>
    simp only [DispatcherRuntime.step] at hstep
    split at hstep
    · cases hstep
    · cases hstep
      refine Inv.emit ?_ ..
      exact ⟨⟨h.sound.ended, h.sound.woken, h.sound.stopping⟩, h.missing, h.stoppers, h.returned⟩
  | enqueueTurn k =>
    simp only [DispatcherRuntime.step] at hstep
    split at hstep
    · next k' e hfind =>
      cases hstep
      refine h.enqueueTurn (p := (k', e)) (List.mem_of_find?_eq_some hfind) _ delivery fun hne hw => hne ?_
      simp [hw]
    · cases hstep
  | cancelProducer k =>
    simp only [DispatcherRuntime.step] at hstep
    split at hstep
    · cases hstep
      exact h.of_dispatcher
        (d := { r.toDispatcher with
          parked := r.parked.eraseP fun p => p.1 = k, woken := r.woken.eraseP fun p => p.1 = k })
        ⟨fun he => ⟨by simp [(h.sound.ended he).1], (h.sound.ended he).2⟩,
          fun he hne => h.sound.woken he fun hw => hne (by simp [hw]), fun hs => by simp [h.sound.stopping hs]⟩
        rfl id rfl
    · cases hstep
  | dropQueuedEvents payload =>
    cases hstep
    exact h.of_dispatcher (h.sound.dropQueuedEvents payload) (Dispatcher.dropQueuedEvents_worker ..).1
      (Dispatcher.dropQueuedEvents_worker ..).2.1 (Dispatcher.dropQueuedEvents_worker ..).2.2
  | workerTurn =>
    simp only [DispatcherRuntime.step] at hstep
    split at hstep
    · next hw => cases hstep; exact h.workerTurn (by rw [hw]; rfl)
    · next hw => cases hstep; exact h.workerTurn (by rw [hw]; rfl)
    · cases hstep
  | handlerReturned =>
    simp only [DispatcherRuntime.step] at hstep
    split at hstep
    · next e hw =>
      cases hstep
      exact h.of_dispatcher (d := { r.toDispatcher.completeQueuedEvent e with worker := .ready })
        ⟨nofun, nofun, h.sound.stopping⟩ (by rw [hw]; rfl)
        (fun hm => by simp [hw] at hm) rfl
    · cases hstep
  | dispatchRaised =>
    simp only [DispatcherRuntime.step] at hstep
    split at hstep
    · cases hstep
      exact h.afterWorkerEnd (Dispatcher.Sound.failPending hok.1 hok.2) rfl rfl
    · cases hstep
  | cancelWorker =>
    simp only [DispatcherRuntime.step] at hstep
    split at hstep
    · next hw => simp [CleanEnd, hw, Worker.unstarted] at hok
    · cases hstep; exact h.afterWorkerEnd (Dispatcher.Sound.failPending hok.1 hok.2.1) rfl rfl
    · cases hstep; exact h.afterWorkerEnd (Dispatcher.Sound.failPending hok.1 hok.2.1) rfl rfl
    · cases hstep

end DispatcherRuntime.Inv

/-- In every run whose worker ends cleanly nobody is stranded, in any state reached. -/
theorem noStranded_of_cleanEnd {delivery : EventDeliverySettings} {r : DispatcherRuntime κ ε}
    (h : (dispatcherMachine delivery).Reachable CleanEnd r) : r.NoStranded := by
  refine (h.invariant (I := DispatcherRuntime.Inv) ?_ fun _ _ _ hi hok hs => hi.step hok hs).noStranded
  rintro _ rfl
  exact ⟨⟨fun _ => ⟨rfl, rfl⟩, fun _ h => absurd rfl h, nofun⟩, fun _ => rfl, fun h => absurd rfl h,
    nofun⟩

/-! ## Runs -/

instance (r : DispatcherRuntime κ ε) (a : DispatcherAct κ ε) : Decidable (CleanEnd r a) := by
  cases a <;> unfold CleanEnd <;> infer_instance

/-- A queue of one event, under BLOCK. -/
def oneSlot : EventDeliverySettings := { maxPendingEvents := 1, maxPendingEvents_pos := Nat.one_pos }

/-- Caller 2 waits for an event queued behind a handler call, caller 3 is parked on the full queue, and `stop()`
arrives before the handler returns. -/
def stopBehindHandler : List (DispatcherAct Nat String) :=
  [.start, .workerTurn, .emit 1 {} "first", .workerTurn, .emitAndWait 2 {} "second" false,
    .emitAndWait 3 {} "third" false, .stop 4 {}, .enqueueTurn 3, .handlerReturned, .workerTurn, .handlerReturned,
    .workerTurn]

theorem noStranded_of_stopBehindHandler :
    ∃ r : DispatcherRuntime Nat String, (r.stopReturned ∧ r.completion 2 = .handled ∧ r.completion 3 = .dropped) ∧
      r.NoStranded := by
  have hrun : ∃ r : DispatcherRuntime Nat String, (dispatcherMachine oneSlot).Reachable CleanEnd r ∧
      decide (r.stopReturned ∧ r.completion 2 = .handled ∧ r.completion 3 = .dropped) :=
    Runs.Machine.Reachable.exists_of_execOk rfl stopBehindHandler _ (by decide)
  obtain ⟨r, hr, hp⟩ := hrun
  exact ⟨r, by simpa using hp, noStranded_of_cleanEnd hr⟩

/-- Caller 3 is parked on the full queue when an error ends the worker inside the handler of the first event. -/
def errorBehindParked : List (DispatcherAct Nat String) :=
  [.start, .workerTurn, .emit 1 {} "first", .workerTurn, .emit 2 {} "second", .emitAndWait 3 {} "third" false,
    .dispatchRaised]

/-- Nobody notifies caller 3, and a later `stop()` finds no worker and returns at once. -/
theorem stranded_of_dispatchRaised :
    ¬ ∀ r : DispatcherRuntime Nat String, (dispatcherMachine oneSlot).Reachable Runs.Machine.Any r → r.NoStranded := by
  intro hall
  have hrun : ∃ r : DispatcherRuntime Nat String, (dispatcherMachine oneSlot).Reachable Runs.Machine.Any r ∧
      decide (r.stopReturned ∧ r.parked ≠ []) :=
    Runs.Machine.Reachable.exists_of_exec rfl (errorBehindParked ++ [.stop 4 {}]) _ (by decide)
  obtain ⟨r, hr, hp⟩ := hrun
  have hp := of_decide_eq_true hp
  exact hp.2 (hall r hr (.inr hp.1)).1

end Aionetx
