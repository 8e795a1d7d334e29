import Aionetx.Dispatcher.Journal

/-!
# Starting the dispatcher again

`start()` looks only at whether a worker exists. While one does that was told to stop, because `stop()` ran on the
worker itself or still awaits it, `start()` returns without effect, and the dispatcher stops all the same.

* `Windows` : a journal with the calls made between a return of `start()` and the next call of `stop()`;
* `Windows.Restarted` : in such a window the dispatcher accepts events and has a worker, and no event of a window is
  lost but by backpressure or by the cancellation of its own caller;
* `Windows.Clean` : `start()` does not find a worker that was told to stop or has died, the worker ends only by
  `stop()`, and neither `stop()` nor a purge finds an event that it would discard;
* `restarted_of_clean` : the runs that meet it.
-/

namespace Aionetx

universe u v

variable {ε : Type v}

/-- A journal with the calls of each window: `opened` is set when `start()` returns and cleared when `stop()` is
called. -/
structure Windows (ε : Type v) where
  journal : Journal ε := {}
  opened : Bool := false
  window : List Nat := []

/-- The fates of an event that is delivered, or that only backpressure or its own caller takes back. -/
def Fate.expected : Fate → Bool
  | .inline | .popped | .evicted | .rejected | .withdrawn => true
  | .stopPhase | .purged | .cleared => false

namespace Windows

/-- Whether a window is open after an action. -/
def opens (opened : Bool) : DispatcherAct Nat (Call ε) → Bool
  | .start => true
  | .stop .. => false
  | _ => opened

def step (delivery : EventDeliverySettings) (w : Windows ε) (a : DispatcherAct Nat (Call ε)) : Option (Windows ε) :=
  (w.journal.step delivery a).map fun j =>
    { journal := j
      opened := opens w.opened a
      window := if w.opened then w.window ++ a.emitted.toList.map (fun e => e.event.serial) else w.window }

/-- After `start()` has returned, and until `stop()` is called, the dispatcher accepts events and has a worker; the
events emitted in the meantime are delivered, or dropped by backpressure, or taken back with their caller. -/
structure Restarted (w : Windows ε) : Prop where
  running : w.opened → w.journal.runtime.stopping = false ∧ w.journal.runtime.worker.ended = false
  kept : ∀ x ∈ w.journal.log, x.1.event.serial ∈ w.window → x.2.expected

/-- `start()` finds no worker, or one that runs and was not told to stop; an error or a cancellation does not end the
worker before `stop()` nor over queued events; `stop()` finds no caller inside `_enqueue`, and on the worker or under
the bypass an empty queue; a purge finds nothing to drop. -/
def Clean (w : Windows ε) : DispatcherAct Nat (Call ε) → Prop
  | .start => w.journal.runtime.hasBackgroundWorker = false ∨
      w.journal.runtime.stopping = false ∧ w.journal.runtime.worker.ended = false
  | .stop _ ctx => w.journal.runtime.parked = [] ∧ w.journal.runtime.woken = [] ∧
      (ctx.onWorker || ctx.bypass → w.journal.runtime.queue = [])
  | .dropQueuedEvents payload => w.journal.runtime.queue.filter (fun e => payload e.event) = []
  | .dispatchRaised | .cancelWorker => w.journal.runtime.stopping ∧ w.journal.runtime.queue = []
  | _ => True

end Windows

/-- The dispatcher before its first `start()`, no window open. -/
def windowMachine (delivery : EventDeliverySettings) : Runs.Machine (Windows ε) (DispatcherAct Nat (Call ε)) where
  init w := w = {}
  step := Windows.step delivery

namespace DispatcherRuntime

variable {κ : Type u} [DecidableEq κ] {delivery : EventDeliverySettings} {r r' : DispatcherRuntime κ ε}
  {a : DispatcherAct κ ε}

/-- The actions that neither start nor stop the dispatcher nor end its worker. -/
def Calm : DispatcherAct κ ε → Bool
  | .start | .stop .. | .workerTurn | .dispatchRaised | .cancelWorker => false
  | _ => true

theorem emit_frame (delivery : EventDeliverySettings) (r : DispatcherRuntime κ ε) (k : κ) (ctx : EmitContext)
    (e : QueuedEvent κ ε) : (r.emit delivery k ctx e).stopping = r.stopping ∧
      (r.emit delivery k ctx e).worker.ended = r.worker.ended := by
  unfold emit
  dsimp only
  split
  · exact ⟨rfl, rfl⟩
  · exact ⟨rfl, rfl⟩
  · exact ⟨rfl, rfl⟩
  · exact ⟨(Dispatcher.enqueueTurn_frame ..).2, Dispatcher.enqueueTurn_ended ..⟩

theorem step_calm (ha : Calm a) (h : r.step delivery a = some r') :
    r'.stopping = r.stopping ∧ r'.worker.ended = r.worker.ended := by
  cases a with
  | start | stop | workerTurn | dispatchRaised | cancelWorker => cases ha
  | emit k ctx e =>
    simp only [step] at h
    split at h
    · cases h
    · cases h; exact emit_frame ..
  | emitAndWait k ctx e drop =>
    simp only [step] at h
    split at h
    · cases h
    · cases h; exact emit_frame ..
  | enqueueTurn k =>
    simp only [step] at h
    split at h
    · cases h; exact ⟨(Dispatcher.enqueueTurn_frame ..).2, Dispatcher.enqueueTurn_ended ..⟩
    · cases h
  | cancelProducer k =>
    simp only [step] at h
    split at h
    · cases h; exact ⟨rfl, rfl⟩
    · cases h
  | dropQueuedEvents payload =>
    cases h
    exact ⟨(Dispatcher.dropQueuedEvents_worker ..).2.2, (Dispatcher.dropQueuedEvents_worker ..).1⟩
  | handlerReturned =>
    simp only [step] at h
    split at h
    · next e hw => cases h; exact ⟨rfl, by rw [hw]; rfl⟩
    · cases h

theorem turn_expected (delivery : EventDeliverySettings) (k : κ) (e : QueuedEvent κ ε) {d : Dispatcher κ ε}
    (hs : d.stopping = false) : ∀ x ∈ d.enqueueFates delivery e, x.2.expected := by
  have hturn := d.turn delivery k e
  generalize d.enqueueTurn delivery k e = d', d.enqueueFates delivery e = out at hturn
  intro x hx
  cases hturn with
  | stopPhase h => simp [hs] at h
  | accept | park => cases hx
  | evict | reject =>
    rw [List.mem_singleton.mp hx]
    rfl

/-- A call on a dispatcher that does not stop loses its event in no unexpected way. -/
theorem emit_expected (delivery : EventDeliverySettings) (k : κ) (ctx : EmitContext) (e : QueuedEvent κ ε)
    (hs : r.stopping = false) : ∀ x ∈ r.emitFates delivery ctx e, x.2.expected := by
  unfold emitFates
  split
  · exact fun x hx => by rw [List.mem_singleton.mp hx]; rfl
  · exact fun x hx => by rw [List.mem_singleton.mp hx]; rfl
  · next hroute => simp [emitRoute, hs] at hroute; grind
  · exact turn_expected delivery k e hs

/-- A call on a dispatcher that stops loses its event, or runs the handler, at once. -/
theorem emit_stopping (delivery : EventDeliverySettings) (k : κ) (ctx : EmitContext) (e : QueuedEvent κ ε)
    (hs : r.stopping) : (∀ x ∈ r.emitFates delivery ctx e, x.1 = e) ∧ (r.emit delivery k ctx e).waiting = r.waiting := by
  have hroute : emitRoute delivery ctx { r.toDispatcher with emitCallsTotal := r.emitCallsTotal + 1 } =
      emitRoute delivery ctx r.toDispatcher := rfl
  unfold emit emitFates
  dsimp only
  rw [hroute]
  cases hcase : emitRoute delivery ctx r.toDispatcher with
  | inlineMode | inlineFallback | stopPhase => exact ⟨fun x hx => by rw [List.mem_singleton.mp hx], rfl⟩
  | enqueue => simp [(emitRoute_enqueue hcase).2] at hs

theorem stop_waiting (k : κ) (ctx : StopContext) : (r.stop k ctx).waiting ⊆ r.waiting := by
  unfold stop
  split_ifs
  · exact List.Subset.refl _
  · exact r.signalStop_waiting.subset
  · exact r.signalStop_waiting.subset
  · exact r.signalStop_waiting.subset

omit [DecidableEq κ] in
/-- While the dispatcher does not stop, a turn of the worker does not end it; nobody new enters `_enqueue`. -/
theorem workerTurn_frame (r : DispatcherRuntime κ ε) :
    (r.stopping = false → r.workerTurn.worker.ended = false) ∧ r.workerTurn.stopping = r.stopping ∧
      r.workerTurn.waiting ⊆ r.waiting := by
  unfold workerTurn
  split
  · split
    · next hs => exact ⟨fun h => by simp [h] at hs, rfl, List.Subset.refl _⟩
    · exact ⟨fun _ => rfl, rfl, List.Subset.refl _⟩
  · next e rest _ =>
    exact ⟨fun _ => rfl, rfl,
      (Dispatcher.notifyNotFull_waiting { r.toDispatcher with queue := rest, worker := .dispatching e }).subset⟩

end DispatcherRuntime

namespace Windows

variable {delivery : EventDeliverySettings} {w w' : Windows ε} {a : DispatcherAct Nat (Call ε)}

/-- The invariant: besides the property, nobody is inside `_enqueue` once `stop()` has begun. -/
structure Inv (w : Windows ε) : Prop extends Restarted w where
  custody : w.journal.Custody
  quiet : w.journal.runtime.stopping → w.journal.runtime.waiting = []
  known : ∀ n ∈ w.window, n < w.journal.calls

/-- What has to be checked of a step: the dispatcher runs while the window is open, nobody is inside `_enqueue` once it
stops, and no event of a window leaves unexpectedly. -/
theorem Inv.of_step (h : w.Inv) (hs : w.step delivery a = some w')
    (hrun : w'.opened → w'.journal.runtime.stopping = false ∧ w'.journal.runtime.worker.ended = false)
    (hquiet : w'.journal.runtime.stopping → w'.journal.runtime.waiting = [])
    (hnew : ∀ x ∈ w.journal.runtime.fates delivery a, x.1.event.serial ∈ w'.window → x.2.expected) : w'.Inv := by
  obtain ⟨j, hj, rfl⟩ := Option.map_eq_some_iff.mp hs
  have hcustody := h.custody.step hj
  obtain ⟨hn, r, hr, rfl⟩ := Journal.of_step hj
  have hserial : ∀ e ∈ a.emitted.toList, e.event.serial = w.journal.calls := fun e he =>
    (Journal.serial_of_numbered hn (Option.mem_toList.mp he)).1
  have hfresh : ∀ n, n ∈ (if w.opened then w.window ++ a.emitted.toList.map (fun e => e.event.serial) else w.window) →
      n ∈ w.window ∨ n = w.journal.calls ∧ a.emitted.toList.length = 1 := by
    intro n hmem
    split at hmem
    · rcases List.mem_append.mp hmem with hmem | hmem
      · exact .inl hmem
      · obtain ⟨e, he, rfl⟩ := List.mem_map.mp hmem
        refine .inr ⟨hserial e he, ?_⟩
        cases hem : a.emitted with
        | none => simp [hem] at he
        | some => rfl
    · exact .inl hmem
  refine { running := hrun, kept := fun x hx hin => ?_, custody := hcustody, quiet := hquiet, known := fun n hmem => ?_ }
  · rcases List.mem_append.mp hx with hx | hx
    · rcases hfresh _ hin with hin | ⟨heq, _⟩
      · exact h.kept x hx hin
      · have := h.custody.lt (List.mem_append_right _ (List.mem_map_of_mem hx))
        omega
    · exact hnew x hx hin
  · rcases hfresh n hmem with hmem | ⟨rfl, hone⟩
    · have := h.known n hmem
      dsimp only
      omega
    · dsimp only
      omega

/-- A calm action that the dispatcher takes while it stops leaves nobody new inside `_enqueue`. -/
theorem Inv.of_calm (h : w.Inv) (ha : DispatcherRuntime.Calm a) (hs : w.step delivery a = some w')
    (hquiet : w.journal.runtime.stopping → w'.journal.runtime.waiting ⊆ w.journal.runtime.waiting)
    (hnew : ∀ x ∈ w.journal.runtime.fates delivery a, x.1.event.serial ∈ w'.window → x.2.expected) : w'.Inv := by
  have hs' := hs
  obtain ⟨j, hj, rfl⟩ := Option.map_eq_some_iff.mp hs'
  obtain ⟨_, r, hr, rfl⟩ := Journal.of_step hj
  obtain ⟨hst, hen⟩ := DispatcherRuntime.step_calm ha hr
  have hopen : opens w.opened a = w.opened := by cases a <;> first | rfl | cases ha
  refine h.of_step hs (fun ho => ?_) (fun hstop => ?_) hnew
  · dsimp only at ho ⊢
    rw [hst, hen]
    exact h.running (hopen ▸ ho)
  · have hold : w.journal.runtime.stopping := hst ▸ hstop
    exact List.subset_nil.mp (h.quiet hold ▸ hquiet hold)

theorem Inv.of_emit (h : w.Inv) (ha : DispatcherRuntime.Calm a) (hs : w.step delivery a = some w') {k : Nat}
    {ctx : EmitContext} {e : QueuedEvent Nat (Call ε)} (he : e.event.serial = w.journal.calls)
    (hf : w.journal.runtime.fates delivery a = w.journal.runtime.emitFates delivery ctx e)
    (hw : w.journal.runtime.stopping → w'.journal.runtime.waiting = (w.journal.runtime.emit delivery k ctx e).waiting) :
    w'.Inv := by
  refine h.of_calm ha hs (fun hst => ?_) fun x hx hin => ?_
  · rw [hw hst, (DispatcherRuntime.emit_stopping delivery k ctx e hst).2]
    exact List.Subset.refl _
  · rw [hf] at hx
    obtain ⟨j, hj, rfl⟩ := Option.map_eq_some_iff.mp hs
    cases hst : w.journal.runtime.stopping with
    | false => exact DispatcherRuntime.emit_expected delivery k ctx e hst x hx
    | true =>
      -- the window is closed, so the call is in none
      exfalso
      rw [(DispatcherRuntime.emit_stopping delivery k ctx e hst).1 x hx, he] at hin
      have hclosed : ¬ w.opened := fun ho => by simp [(h.running ho).1] at hst
      have := h.known _ (by simpa [hclosed] using hin)
      omega

/-- Every action that meets `Clean` keeps the invariant. -/
theorem Inv.step (h : w.Inv) (hb : delivery.dispatchMode = .background) (hok : w.Clean a)
    (hs : w.step delivery a = some w') : w'.Inv := by
  have hs' := hs
  obtain ⟨j, hj, rfl⟩ := Option.map_eq_some_iff.mp hs'
  obtain ⟨hn, r, hr, rfl⟩ := Journal.of_step hj
  cases a with
  | start =>
    cases hr
    have hrun : (w.journal.runtime.start delivery).stopping = false ∧
        (w.journal.runtime.start delivery).worker.ended = false := by
      unfold DispatcherRuntime.start
      rw [if_neg (by simp [hb])]
      split
      · next hw => exact hok.resolve_left (by simp [hw])
      · exact ⟨rfl, rfl⟩
    exact h.of_step hs (fun _ => hrun) (fun hst => absurd hst (by simp [hrun.1]))
      fun _ hx => absurd hx List.not_mem_nil
  | stop k ctx =>
    cases hr
    obtain ⟨hpark, hwoken, hqueue⟩ := hok
    refine h.of_step hs (fun ho => Bool.noConfusion ho) (fun _ => ?_) fun x hx _ => ?_
    · have hnone : w.journal.runtime.waiting = [] := by simp [Dispatcher.waiting, hpark, hwoken]
      exact List.subset_nil.mp (hnone ▸ DispatcherRuntime.stop_waiting k ctx)
    · simp only [DispatcherRuntime.fates] at hx
      split at hx
      · next hcond =>
        rw [hqueue (Bool.and_eq_true_iff.mp hcond).2] at hx
        cases hx
      · cases hx
  | emit k ctx c =>
    simp only [DispatcherRuntime.step] at hr
    split at hr
    · cases hr
    · cases hr
      exact h.of_emit rfl hs (k := k) (Journal.serial_of_numbered hn rfl).1 rfl fun _ => rfl
  | emitAndWait k ctx c drop =>
    simp only [DispatcherRuntime.step] at hr
    split at hr
    · cases hr
    · cases hr
      refine h.of_emit rfl hs (k := k) (Journal.serial_of_numbered hn rfl).1 rfl fun hst => ?_
      have hold := (DispatcherRuntime.emit_stopping delivery k ctx
        { event := c, handled := some k, dropOnBackpressure := drop } hst).2
      have hreset := (DispatcherRuntime.emit_stopping
        (r := { w.journal.runtime with completion := Function.update w.journal.runtime.completion k .pending }) delivery k ctx
        { event := c, handled := some k, dropOnBackpressure := drop } hst).2
      exact hreset.trans hold.symm
  | enqueueTurn k =>
    simp only [DispatcherRuntime.step] at hr
    split at hr
    · next k' e hfind =>
      cases hr
      have hst : w.journal.runtime.stopping = false := by
        by_contra hc
        have hq := h.quiet (by simpa using hc)
        simp only [Dispatcher.waiting, List.map_eq_nil_iff, List.append_eq_nil_iff] at hq
        simp [hq.2] at hfind
      refine h.of_calm rfl hs (fun hc => by simp [hst] at hc) fun x hx _ => ?_
      simp only [DispatcherRuntime.fates, hfind] at hx
      exact DispatcherRuntime.turn_expected delivery k e hst x hx
    · cases hr
  | cancelProducer k =>
    simp only [DispatcherRuntime.step] at hr
    split at hr
    · cases hr
      refine h.of_calm rfl hs (fun _ => ((List.eraseP_sublist.append List.eraseP_sublist).map _).subset) fun x hx _ => ?_
      obtain ⟨e, _, rfl⟩ := List.mem_map.mp hx
      rfl
    · cases hr
  | dropQueuedEvents payload =>
    cases hr
    have hq : w.journal.runtime.queue.filter (fun e => payload e.event) = [] := hok
    refine h.of_calm rfl hs (fun _ => ?_) fun x hx _ => ?_
    · unfold Dispatcher.dropQueuedEventsForResource
      simp only [hq, List.isEmpty_nil, if_true]
      exact List.Subset.refl _
    · simp only [DispatcherRuntime.fates, hq] at hx
      cases hx
  | workerTurn =>
    obtain ⟨hend, hst, hwait⟩ := w.journal.runtime.workerTurn_frame
    have hturn : r = w.journal.runtime.workerTurn := by
      simp only [DispatcherRuntime.step] at hr
      split at hr
      · cases hr; rfl
      · cases hr; rfl
      · cases hr
    subst hturn
    refine h.of_step hs (fun ho => ?_) (fun hstop => ?_) fun x hx _ => ?_
    · have hrun := (h.running ho).1
      exact ⟨hst.trans hrun, hend hrun⟩
    · exact List.subset_nil.mp (h.quiet (hst ▸ hstop) ▸ hwait)
    · obtain ⟨e, _, rfl⟩ := List.mem_map.mp hx
      rfl
  | handlerReturned =>
    simp only [DispatcherRuntime.step] at hr
    split at hr
    · cases hr
      exact h.of_calm rfl hs (fun _ => List.Subset.refl _) fun _ hx => absurd hx List.not_mem_nil
    · cases hr
  | dispatchRaised =>
    simp only [DispatcherRuntime.step] at hr
    split at hr
    · cases hr
      refine h.of_step hs (fun ho => ?_) h.quiet fun x hx _ => ?_
      · have := (h.running ho).1
        simp [hok.1] at this
      · simp only [DispatcherRuntime.fates, hok.2] at hx
        cases hx
    · cases hr
  | cancelWorker =>
    have hopen : ¬ w.opened := fun ho => by
      have := (h.running ho).1
      simp [hok.1] at this
    have hnone : w.journal.runtime.fates delivery .cancelWorker = [] := by
      simp only [DispatcherRuntime.fates, hok.2]
      split <;> rfl
    have hwait : r.waiting = w.journal.runtime.waiting ∧ r.stopping = w.journal.runtime.stopping := by
      simp only [DispatcherRuntime.step] at hr
      split at hr
      · cases hr; exact ⟨rfl, rfl⟩
      · cases hr; exact ⟨rfl, rfl⟩
      · cases hr; exact ⟨rfl, rfl⟩
      · cases hr
    refine h.of_step hs (fun ho => absurd ho hopen) (fun hst => ?_) fun x hx _ => ?_
    · exact hwait.1.trans (h.quiet (hwait.2 ▸ hst))
    · rw [hnone] at hx
      cases hx

/-- In BACKGROUND mode, in every run whose steps all meet `Clean`, every window that `start()` opens is as it should be,
in every state reached. -/
theorem restarted_of_clean (hb : delivery.dispatchMode = .background)
    (h : (windowMachine delivery).Reachable Clean w) : w.Restarted := by
  refine (h.invariant (I := Inv) ?_ fun _ _ _ hi hok hs => hi.step hb hok hs).toRestarted
  rintro _ rfl
  exact { running := nofun, kept := nofun, custody := .refl _, quiet := fun _ => rfl, known := nofun }

end Windows

/-! ## Runs -/

instance (w : Windows ε) : (a : DispatcherAct Nat (Call ε)) → Decidable (w.Clean a)
  | .start => inferInstanceAs (Decidable (_ ∨ _))
  | .stop .. => inferInstanceAs (Decidable (_ ∧ _))
  | .dropQueuedEvents _ => inferInstanceAs (Decidable (_ = []))
  | .dispatchRaised | .cancelWorker => inferInstanceAs (Decidable (_ ∧ _))
  | .emit .. | .emitAndWait .. | .enqueueTurn _ | .cancelProducer _ | .workerTurn | .handlerReturned =>
    inferInstanceAs (Decidable True)

def startStopStart : List (DispatcherAct Nat (Call String)) :=
  [.start, .workerTurn, .emit 0 {} ⟨0, "first"⟩, .workerTurn, .stop 1 {}, .handlerReturned, .workerTurn, .start,
    .workerTurn, .emit 1 {} ⟨1, "second"⟩, .workerTurn]

theorem restarted_of_startStopStart :
    ∃ w : Windows String, (w.opened ∧ w.window = [0, 1] ∧ (handedOver w.journal.log).length = 2) ∧ w.Restarted := by
  have hrun : ∃ w : Windows String, (windowMachine {}).Reachable Windows.Clean w ∧
      decide (w.opened ∧ w.window = [0, 1] ∧ (handedOver w.journal.log).length = 2) :=
    Runs.Machine.Reachable.exists_of_execOk rfl startStopStart _ (by decide)
  obtain ⟨w, hr, hp⟩ := hrun
  exact ⟨w, of_decide_eq_true hp, Windows.restarted_of_clean rfl hr⟩

/-- The handler of the first event stops the dispatcher and starts it again, on the worker; then an event comes. -/
def startBehindStop : List (DispatcherAct Nat (Call String)) :=
  [.start, .workerTurn, .emit 0 {} ⟨0, "first"⟩, .workerTurn, .stop 1 { onWorker := true }, .start,
    .emit 1 {} ⟨1, "second"⟩]

/-- The second event is dropped, in a dispatcher that goes on stopping. -/
theorem not_restarted_of_startBehindStop :
    ¬ ∀ w : Windows String, (windowMachine {}).Reachable Runs.Machine.Any w → w.Restarted := by
  intro hall
  have hrun : ∃ w : Windows String, (windowMachine {}).Reachable Runs.Machine.Any w ∧
      decide (w.opened ∧ w.journal.runtime.stopping ∧ w.journal.log.length = 2) :=
    Runs.Machine.Reachable.exists_of_exec rfl startBehindStop _ (by decide)
  obtain ⟨w, hr, hp⟩ := hrun
  obtain ⟨hopen, hstop, _⟩ := of_decide_eq_true hp
  simp [((hall w hr).running hopen).1] at hstop

end Aionetx
