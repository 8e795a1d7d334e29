import Aionetx.Dispatcher.Journal

/-!
# The counters of `runtime_stats`

`emit_calls_total` counts the calls, the three drop counters count fates; what is left is delivered or queued.

* `Dispatcher.Counts` : what the counters say about one step, `step_counts` : they say it of every step;
* `Journal.Counted` : what they say about a run;
* `Journal.Conserved` : while no call is inside `_enqueue`, every call is delivered, queued or in one drop counter;
* `conserved_iff` : in any run this is so exactly if the `finally` block of the worker never cleared an event;
* `conserved_of_nothingCleared` : the runs in which the worker ends abnormally only with an empty queue.
-/

namespace Aionetx

universe u v

variable {κ : Type u} {ε : Type v}

/-- Between `d` and `d'` the counters grow by `n` calls and by the fates `out`. -/
structure Dispatcher.Counts (d d' : Dispatcher κ ε) (n : Nat) (out : List (QueuedEvent κ ε × Fate)) : Prop where
  calls : d'.emitCallsTotal = d.emitCallsTotal + n
  oldest : d'.droppedBackpressureOldestTotal =
    d.droppedBackpressureOldestTotal + out.countP fun x => x.2 == .evicted
  newest : d'.droppedBackpressureNewestTotal =
    d.droppedBackpressureNewestTotal + out.countP fun x => x.2 == .rejected
  stopPhase : d'.droppedStopPhaseTotal =
    d.droppedStopPhaseTotal + out.countP fun x => x.2 == .stopPhase || x.2 == .purged

/-- The fates that no drop counter counts. -/
def Fate.uncounted : Fate → Bool
  | .inline | .popped | .cleared | .withdrawn => true
  | _ => false

namespace Dispatcher.Counts

variable {d d' d'' : Dispatcher κ ε}

theorem refl (d : Dispatcher κ ε) : d.Counts d 0 [] := ⟨rfl, rfl, rfl, rfl⟩

/-- A step that touches no counter, and lets go only of events that no drop counter counts. -/
theorem of_eq (h0 : d'.emitCallsTotal = d.emitCallsTotal)
    (h1 : d'.droppedBackpressureOldestTotal = d.droppedBackpressureOldestTotal)
    (h2 : d'.droppedBackpressureNewestTotal = d.droppedBackpressureNewestTotal)
    (h3 : d'.droppedStopPhaseTotal = d.droppedStopPhaseTotal) {f : Fate} (hf : f.uncounted)
    (es : List (QueuedEvent κ ε)) : d.Counts d' 0 (leaving f es) := by
  refine ⟨h0, ?_, ?_, ?_⟩ <;> cases f <;> simp_all [leaving, Fate.uncounted, List.countP_map, Function.comp_def]

/-- `n` events leave by the stop phase or a purge, and `_dropped_stop_phase_total` grows by `n`. -/
theorem of_stopPhase (h0 : d'.emitCallsTotal = d.emitCallsTotal)
    (h1 : d'.droppedBackpressureOldestTotal = d.droppedBackpressureOldestTotal)
    (h2 : d'.droppedBackpressureNewestTotal = d.droppedBackpressureNewestTotal) {l : List (QueuedEvent κ ε)}
    (h3 : d'.droppedStopPhaseTotal = d.droppedStopPhaseTotal + l.length) {f : Fate}
    (hf : f = .stopPhase ∨ f = .purged) : d.Counts d' 0 (leaving f l) := by
  refine ⟨h0, ?_, ?_, ?_⟩ <;> rcases hf with rfl | rfl <;>
    simp_all [leaving, List.countP_map, Function.comp_def]

theorem turn [DecidableEq κ] (delivery : EventDeliverySettings) (k : κ) (e : QueuedEvent κ ε) (d : Dispatcher κ ε) :
    d.Counts (d.enqueueTurn delivery k e) 0 (d.enqueueFates delivery e) := by
  have h := d.turn delivery k e
  generalize d.enqueueTurn delivery k e = d', d.enqueueFates delivery e = out at h
  cases h <;> constructor <;> rfl

end Dispatcher.Counts

namespace DispatcherRuntime

variable [DecidableEq κ] {delivery : EventDeliverySettings} {r r' : DispatcherRuntime κ ε} {a : DispatcherAct κ ε}

theorem emit_counts (delivery : EventDeliverySettings) (r : DispatcherRuntime κ ε) (k : κ) (ctx : EmitContext)
    (e : QueuedEvent κ ε) :
    r.Counts (r.emit delivery k ctx e).toDispatcher 1 (r.emitFates delivery ctx e) := by
  have hroute : emitRoute delivery ctx { r.toDispatcher with emitCallsTotal := r.emitCallsTotal + 1 } =
      emitRoute delivery ctx r.toDispatcher := rfl
  unfold emit emitFates
  dsimp only
  rw [hroute]
  cases emitRoute delivery ctx r.toDispatcher with
  | inlineMode | inlineFallback | stopPhase => exact ⟨rfl, rfl, rfl, rfl⟩
  | enqueue =>
    have h := Dispatcher.Counts.turn delivery k e { r.toDispatcher with emitCallsTotal := r.emitCallsTotal + 1 }
    exact ⟨h.calls, h.oldest, h.newest, h.stopPhase⟩

theorem step_counts (h : r.step delivery a = some r') :
    r.Counts r'.toDispatcher a.emitted.toList.length (r.fates delivery a) := by
  cases a with
  | start =>
    cases h
    simp only [start]
    split_ifs <;> exact ⟨rfl, rfl, rfl, rfl⟩
  | stop k ctx =>
    cases h
    simp only [stop, fates]
    cases r.hasBackgroundWorker with
    | false => exact ⟨rfl, rfl, rfl, rfl⟩
    | true =>
      simp only [Bool.not_true, Bool.false_eq_true, if_false, Bool.true_and]
      split
      · refine .of_stopPhase ?_ ?_ ?_ ?_ (.inl rfl) <;> rfl
      · split <;> exact ⟨rfl, rfl, rfl, rfl⟩
  | emit k ctx e =>
    simp only [step] at h
    split at h
    · cases h
    · cases h; exact emit_counts ..
  | emitAndWait k ctx e drop =>
    simp only [step] at h
    split at h
    · cases h
    · cases h
      have hc := emit_counts delivery { r with completion := Function.update r.completion k .pending } k ctx
        { event := e, handled := some k, dropOnBackpressure := drop }
      exact ⟨hc.calls, hc.oldest, hc.newest, hc.stopPhase⟩
  | enqueueTurn k =>
    simp only [step] at h
    split at h
    · next k' e hfind =>
      cases h
      simp only [fates, hfind]
      have hc := Dispatcher.Counts.turn delivery k' e { r.toDispatcher with woken := r.woken.eraseP fun p => p.1 = k' }
      exact ⟨hc.calls, hc.oldest, hc.newest, hc.stopPhase⟩
    · cases h
  | cancelProducer k =>
    simp only [step] at h
    split at h
    · cases h; refine .of_eq ?_ ?_ ?_ ?_ ?_ _ <;> rfl
    · cases h
  | dropQueuedEvents payload =>
    cases h
    simp only [fates, Dispatcher.dropQueuedEventsForResource]
    split
    · next he =>
      rw [List.isEmpty_iff] at he
      rw [he]
      exact .refl _
    · refine .of_stopPhase ?_ ?_ ?_ ?_ (.inr rfl) <;> rfl
  | workerTurn =>
    have hturn : r.Counts r.workerTurn.toDispatcher 0 (leaving .popped (r.queue.take 1)) := by
      unfold workerTurn
      split
      · split
        · refine .of_eq ?_ ?_ ?_ ?_ ?_ _ <;> rfl
        · refine .of_eq ?_ ?_ ?_ ?_ ?_ _ <;> rfl
      · refine .of_eq ?_ ?_ ?_ ?_ ?_ _ <;> rfl
    simp only [step] at h
    split at h
    · cases h; exact hturn
    · cases h; exact hturn
    · cases h
  | handlerReturned =>
    simp only [step] at h
    split at h
    · cases h; exact ⟨rfl, rfl, rfl, rfl⟩
    · cases h
  | dispatchRaised =>
    simp only [step] at h
    split at h
    · cases h; refine .of_eq ?_ ?_ ?_ ?_ ?_ _ <;> rfl
    · cases h
  | cancelWorker =>
    simp only [step] at h
    split at h
    · next hw => cases h; simp only [fates, hw]; exact ⟨rfl, rfl, rfl, rfl⟩
    · next hw => cases h; simp only [fates, hw]; refine .of_eq ?_ ?_ ?_ ?_ ?_ _ <;> rfl
    · next hw => cases h; simp only [fates, hw]; refine .of_eq ?_ ?_ ?_ ?_ ?_ _ <;> rfl
    · cases h

end DispatcherRuntime

namespace Journal

variable {delivery : EventDeliverySettings} {j j' : Journal ε} {a : DispatcherAct Nat (Call ε)}
  {ok : Journal ε → DispatcherAct Nat (Call ε) → Prop}

/-- The counters of a run: since `{}`, which counts nothing, they grew by the calls and by the log. -/
def Counted (j : Journal ε) : Prop :=
  Dispatcher.Counts {} j.runtime.toDispatcher j.calls j.log

theorem counted (h : (journalMachine delivery).Reachable ok j) : j.Counted := by
  refine h.invariant (I := Counted) ?_ fun s a t hc _ hs => ?_
  · rintro _ rfl
    exact ⟨rfl, rfl, rfl, rfl⟩
  · obtain ⟨_, r, hr, rfl⟩ := of_step hs
    have hstep := DispatcherRuntime.step_counts hr
    constructor
    · rw [hstep.calls, hc.calls, Nat.add_assoc]
    · rw [hstep.oldest, hc.oldest, List.countP_append, Nat.add_assoc]
    · rw [hstep.newest, hc.newest, List.countP_append, Nat.add_assoc]
    · rw [hstep.stopPhase, hc.stopPhase, List.countP_append, Nat.add_assoc]

theorem length_log (l : List (QueuedEvent Nat (Call ε) × Fate)) :
    l.length = (l.countP fun x => x.2 == .inline) + (l.countP fun x => x.2 == .popped) +
      (l.countP fun x => x.2 == .evicted) + (l.countP fun x => x.2 == .rejected) +
      (l.countP fun x => x.2 == .stopPhase || x.2 == .purged) + (l.countP fun x => x.2 == .cleared) +
      l.countP fun x => x.2 == .withdrawn := by
  induction l with
  | nil => rfl
  | cons x l ih =>
    obtain ⟨e, f⟩ := x
    cases f <;> simp [ih] <;> omega

/-- No call is inside `_enqueue`, and no caller was cancelled there. -/
def Quiet (j : Journal ε) : Prop :=
  j.runtime.parked = [] ∧ j.runtime.woken = [] ∧ (j.count fun f => f == .withdrawn) = 0

/-- `emit_calls_total` is the sum of the events delivered inline, those the worker took, those in the queue, and the
three drop counters. -/
def Balanced (j : Journal ε) : Prop :=
  j.runtime.emitCallsTotal = (j.count fun f => f == .inline) + (j.count fun f => f == .popped) + j.runtime.queue.length +
    j.runtime.droppedBackpressureOldestTotal + j.runtime.droppedBackpressureNewestTotal + j.runtime.droppedStopPhaseTotal

/-- Whenever no call is inside `_enqueue` the counters balance. -/
def Conserved (j : Journal ε) : Prop := j.Quiet → j.Balanced

/-- In any run, while no call is inside `_enqueue`, the counters miss exactly the events that the `finally` block of
the worker has cleared. -/
theorem conserved_iff (h : (journalMachine delivery).Reachable ok j) (hq : j.Quiet) :
    j.Balanced ↔ (j.count fun f => f == .cleared) = 0 := by
  obtain ⟨hpark, hwoken, hwithdrawn⟩ := hq
  have hc := counted h
  have hlen := (custody h).length_eq
  have hlog := length_log j.log
  have h0 := hc.calls
  have h1 := hc.oldest
  have h2 := hc.newest
  have h3 := hc.stopPhase
  simp only [Dispatcher.held, Dispatcher.waiting, hpark, hwoken, List.append_nil, List.map_nil, List.length_map,
    List.length_append, List.length_range] at hlen
  unfold count at hwithdrawn
  unfold Balanced count
  dsimp only at h0 h1 h2 h3 hwithdrawn ⊢
  omega

/-- An abnormal end of a worker that has run finds the queue empty. -/
def NothingCleared (j : Journal ε) : DispatcherAct Nat (Call ε) → Prop
  | .dispatchRaised => j.runtime.queue.isEmpty
  | .cancelWorker => j.runtime.worker.unstarted || j.runtime.queue.isEmpty
  | _ => True

theorem NothingCleared.fates (hok : j.NothingCleared a) (delivery : EventDeliverySettings) :
    ((j.runtime.fates delivery a).countP fun x => x.2 == .cleared) = 0 := by
  have hturn : ∀ (e : QueuedEvent Nat (Call ε)) (d : Dispatcher Nat (Call ε)),
      ((d.enqueueFates delivery e).countP fun x => x.2 == .cleared) = 0 := by
    intro e d
    have h := d.turn delivery 0 e
    generalize d.enqueueTurn delivery 0 e = d', d.enqueueFates delivery e = out at h
    cases h <;> rfl
  have hemit : ∀ (ctx : EmitContext) (e : QueuedEvent Nat (Call ε)),
      ((j.runtime.emitFates delivery ctx e).countP fun x => x.2 == .cleared) = 0 := by
    intro ctx e
    unfold DispatcherRuntime.emitFates
    split
    · rfl
    · rfl
    · rfl
    · exact hturn ..
  cases a with
  | emit | emitAndWait => exact hemit ..
  | enqueueTurn k =>
    simp only [DispatcherRuntime.fates]
    split
    · exact hturn ..
    · rfl
  | start | handlerReturned => rfl
  | dispatchRaised =>
    have hq : j.runtime.queue = [] := by simpa [NothingCleared] using hok
    simp [DispatcherRuntime.fates, countP_leaving, hq]
  | cancelWorker =>
    simp only [NothingCleared, Bool.or_eq_true, List.isEmpty_iff] at hok
    simp only [DispatcherRuntime.fates]
    split
    · next hw => simp_all [Worker.unstarted, countP_leaving]
    · next hw => simp_all [Worker.unstarted, countP_leaving]
    · rfl
  | stop => simp only [DispatcherRuntime.fates]; split <;> simp [countP_leaving]
  | _ => simp [DispatcherRuntime.fates, countP_leaving]

/-- In every run whose worker ends abnormally only with an empty queue the counters balance, in any state reached in
which no call is inside `_enqueue`. -/
theorem conserved_of_nothingCleared (h : (journalMachine delivery).Reachable NothingCleared j) : j.Conserved := by
  intro hq
  refine (conserved_iff h hq).mpr ?_
  refine h.invariant (I := fun j => (j.count fun f => f == .cleared) = 0) ?_ fun s a t hi hok hs => ?_
  · rintro _ rfl
    rfl
  · obtain ⟨_, r, _, rfl⟩ := of_step hs
    have hf := hok.fates delivery
    simp only [count, List.countP_append] at hi hf ⊢
    omega

/-! ## Runs -/

instance (j : Journal ε) (a : DispatcherAct Nat (Call ε)) : Decidable (j.NothingCleared a) := by
  cases a <;> unfold NothingCleared <;> infer_instance

instance (j : Journal ε) : Decidable j.Quiet := by
  unfold Quiet; infer_instance

end Journal

/-- A queue of two events, under DROP_OLDEST. -/
def twoSlots : EventDeliverySettings :=
  { backpressurePolicy := .dropOldest, maxPendingEvents := 2, maxPendingEvents_pos := Nat.two_pos }

/-- One event is delivered inline, one is handled, one is evicted, one is purged, and one is dropped by the stop. -/
def everyCounter : List (DispatcherAct Nat (Call String)) :=
  [.emit 0 {} ⟨0, "inline"⟩, .start, .workerTurn, .emit 1 {} ⟨1, "handled"⟩, .workerTurn, .emit 2 {} ⟨2, "evicted"⟩,
    .emit 3 {} ⟨3, "purged"⟩, .emitAndWait 4 {} ⟨4, "kept"⟩ true, .dropQueuedEvents fun c => c.event = "purged",
    .handlerReturned, .workerTurn, .stop 5 {}, .emit 5 {} ⟨5, "late"⟩, .handlerReturned, .workerTurn]

theorem conserved_of_everyCounter :
    ∃ j : Journal String, (j.Quiet ∧ j.runtime.emitCallsTotal = 6 ∧ j.runtime.droppedStopPhaseTotal = 2) ∧
      j.Conserved := by
  have hrun : ∃ j : Journal String, (journalMachine twoSlots).Reachable Journal.NothingCleared j ∧
      decide (j.Quiet ∧ j.runtime.emitCallsTotal = 6 ∧ j.runtime.droppedStopPhaseTotal = 2) :=
    Runs.Machine.Reachable.exists_of_execOk rfl everyCounter _ (by decide)
  obtain ⟨j, hr, hp⟩ := hrun
  exact ⟨j, of_decide_eq_true hp, Journal.conserved_of_nothingCleared hr⟩

/-- An error ends the worker inside the handler of the first event while the second one is queued. -/
def errorBeforeQueued : List (DispatcherAct Nat (Call String)) :=
  [.start, .workerTurn, .emit 0 {} ⟨0, "first"⟩, .workerTurn, .emit 1 {} ⟨1, "second"⟩, .dispatchRaised]

/-- The second event is in no counter: it was cleared, and nothing counts that. -/
theorem not_conserved_of_errorBeforeQueued :
    ¬ ∀ j : Journal String, (journalMachine twoSlots).Reachable Runs.Machine.Any j → j.Conserved := by
  intro hall
  have hrun : ∃ j : Journal String, (journalMachine twoSlots).Reachable Runs.Machine.Any j ∧
      decide (j.Quiet ∧ (j.count fun f => f == .cleared) = 1) :=
    Runs.Machine.Reachable.exists_of_exec rfl errorBeforeQueued _ (by decide)
  obtain ⟨j, hr, hp⟩ := hrun
  obtain ⟨hq, hc⟩ := of_decide_eq_true hp
  have := (Journal.conserved_iff hr hq).mp (hall j hr hq)
  omega

end Aionetx
