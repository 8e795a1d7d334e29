import Aionetx.Dispatcher.Journal

/-!
# The order in which events reach the handler

`_enqueue` gives a free slot to whoever takes the next turn: a caller that has just called `emit`, or one that parked
long ago and was notified. The caller that comes too late parks again, behind those that parked after it.

* `Before` : two events of one resource come in the order of their calls;
* `Journal.InOrder` : the handler got the events of each resource in the order of the calls;
* `Journal.Unovertaken` : no event goes ahead of one of its resource that was called earlier and still waits;
* `InLine` : the invariant of the runs that meet it, `inOrder_of_unovertaken`.
-/

namespace Aionetx

universe u v w

variable {ε : Type v} {ρ : Type w}

/-- If both events are of one resource, `x` was emitted by the earlier call. -/
def Before (resource : ε → ρ) (x y : QueuedEvent Nat (Call ε)) : Prop :=
  resource x.event.event = resource y.event.event → x.event.serial < y.event.serial

/-- The events of each resource reached the handler in the order in which their calls were made. -/
def Journal.InOrder (resource : ε → ρ) (j : Journal ε) : Prop := (handedOver j.log).Pairwise (Before resource)

/-- A call whose event is handed over inline, or finds room in the queue, leaves no event of its resource behind. -/
def Journal.UnovertakenCall (resource : ε → ρ) (delivery : EventDeliverySettings) (j : Journal ε) (ctx : EmitContext)
    (c : Call ε) : Prop :=
  (emitRoute delivery ctx j.runtime.toDispatcher = .inlineMode ∨
      emitRoute delivery ctx j.runtime.toDispatcher = .inlineFallback →
    ∀ x ∈ j.runtime.held, resource c.event ≠ resource x.event.event) ∧
  (emitRoute delivery ctx j.runtime.toDispatcher = .enqueue → j.runtime.queue.length < delivery.maxPendingEvents →
    ∀ x ∈ j.runtime.waiting, resource c.event ≠ resource x.event.event)

/-- A notified caller that finds room in the queue leaves no earlier event of its resource behind. -/
def Journal.UnovertakenTurn (resource : ε → ρ) (delivery : EventDeliverySettings) (j : Journal ε) (k : Nat) : Prop :=
  ∀ p ∈ j.runtime.woken.find? (fun p => p.1 = k),
    j.runtime.stopping = false → j.runtime.queue.length < delivery.maxPendingEvents →
      ∀ x ∈ j.runtime.waiting, resource p.2.event.event = resource x.event.event → p.2.event.serial ≤ x.event.serial

/-- No event goes ahead of one of its resource that was called earlier and still waits. -/
def Journal.Unovertaken (resource : ε → ρ) (delivery : EventDeliverySettings) (j : Journal ε) :
    DispatcherAct Nat (Call ε) → Prop
  | .emit _ ctx c | .emitAndWait _ ctx c _ => j.UnovertakenCall resource delivery ctx c
  | .enqueueTurn k => j.UnovertakenTurn resource delivery k
  | _ => True

/-- The invariant: what was handed over, followed by the queue, is in order, and nothing of it is ahead of an event
that still waits. -/
structure InLine (resource : ε → ρ) (out : List (QueuedEvent Nat (Call ε))) (d : Dispatcher Nat (Call ε)) : Prop where
  sorted : (out ++ d.queue).Pairwise (Before resource)
  ahead : ∀ x ∈ out ++ d.queue, ∀ y ∈ d.waiting, Before resource x y

namespace InLine

variable {resource : ε → ρ} {out out' : List (QueuedEvent Nat (Call ε))} {d d' : Dispatcher Nat (Call ε)}
  {e : QueuedEvent Nat (Call ε)} {delivery : EventDeliverySettings}

theorem of_sublist (h : InLine resource out d) (hl : (out' ++ d'.queue).Sublist (out ++ d.queue))
    (hw : d'.waiting ⊆ d.waiting) : InLine resource out' d' :=
  ⟨h.sorted.sublist hl, fun x hx y hy => h.ahead x (hl.subset hx) y (hw hy)⟩

/-- An event may join the end if nothing there is behind it and nothing that waits is before it. -/
theorem join (h : InLine resource out d) (hl : out' ++ d'.queue = out ++ d.queue ++ [e]) (hw : d'.waiting ⊆ d.waiting)
    (he : ∀ x ∈ out ++ d.queue, Before resource x e) (hn : ∀ y ∈ d'.waiting, Before resource e y) :
    InLine resource out' d' := by
  refine ⟨?_, fun x hx y hy => ?_⟩
  · rw [hl, List.pairwise_append]
    refine ⟨h.sorted, List.pairwise_singleton .., fun x hx y hy => ?_⟩
    rw [List.mem_singleton.mp hy]
    exact he x hx
  · rw [hl] at hx
    rcases List.mem_append.mp hx with hx | hx
    · exact h.ahead x hx y (hw hy)
    · rw [List.mem_singleton.mp hx]
      exact hn y hy

theorem wait (h : InLine resource out d) (hl : out' ++ d'.queue = out ++ d.queue) (hw : d'.waiting ⊆ e :: d.waiting)
    (he : ∀ x ∈ out ++ d.queue, Before resource x e) : InLine resource out' d' := by
  refine ⟨hl ▸ h.sorted, fun x hx y hy => ?_⟩
  rw [hl] at hx
  rcases List.mem_cons.mp (hw hy) with rfl | hy
  · exact he x hx
  · exact h.ahead x hx y hy

theorem turn {log : List (QueuedEvent Nat (Call ε) × Fate)} (h : InLine resource (handedOver log) d)
    (hb : delivery.backpressurePolicy = .block) (k : Nat) (he : ∀ x ∈ handedOver log ++ d.queue, Before resource x e)
    (hn : d.stopping = false → d.queue.length < delivery.maxPendingEvents → ∀ y ∈ d.waiting, Before resource e y) :
    InLine resource (handedOver (log ++ d.enqueueFates delivery e)) (d.enqueueTurn delivery k e) := by
  have hturn := d.turn delivery k e
  generalize d.enqueueTurn delivery k e = d', d.enqueueFates delivery e = out at hturn
  cases hturn with
  | stopPhase =>
    refine h.of_sublist ?_ (List.Subset.refl _)
    simp [handedOver, Fate.handed, Dispatcher.recordStopPhaseDrop, Dispatcher.dropQueuedEvent, Dispatcher.settle]
  | accept hs hq =>
    refine h.join (e := e) ?_ (List.Subset.refl _) he (hn hs hq)
    simp [handedOver, Dispatcher.accept, Dispatcher.notifyNotEmpty]
  | evict _ hp => simp [hb] at hp
  | reject _ hp => exact absurd hb hp
  | park =>
    refine h.wait (e := e) (by simp [Dispatcher.park]) ?_ he
    intro x hx
    simp only [Dispatcher.waiting, Dispatcher.park, List.map_append, List.mem_append, List.map_cons, List.map_nil,
      List.mem_cons] at hx ⊢
    tauto

end InLine

namespace Journal

variable {resource : ε → ρ} {delivery : EventDeliverySettings} {j j' : Journal ε} {a : DispatcherAct Nat (Call ε)}

/-- The event of a call that has just been made is after everything its journal knows. -/
theorem Custody.before_fresh (hc : j.Custody) {e : QueuedEvent Nat (Call ε)} (he : e.event.serial = j.calls) :
    ∀ x ∈ handedOver j.log ++ j.runtime.queue, Before resource x e := by
  intro x hx _
  rw [he]
  refine hc.lt ?_
  rcases List.mem_append.mp hx with hx | hx
  · obtain ⟨y, hy, rfl⟩ := List.mem_map.mp hx
    exact List.mem_append_right _ (List.mem_map_of_mem (List.mem_of_mem_filter hy))
  · exact List.mem_append_left _ (List.mem_append_left _ hx)

end Journal

theorem leaving_handed {f : Fate} (hf : f.handed = false) (es : List (QueuedEvent Nat (Call ε))) :
    ∀ x ∈ leaving f es, x.2.handed = false := by
  intro x hx
  obtain ⟨e, _, rfl⟩ := List.mem_map.mp hx
  exact hf

namespace InLine

variable {resource : ε → ρ} {delivery : EventDeliverySettings} {j j' : Journal ε} {a : DispatcherAct Nat (Call ε)}

theorem emit (hi : InLine resource (handedOver j.log) j.runtime.toDispatcher) (hc : j.Custody)
    (hb : delivery.backpressurePolicy = .block) (k : Nat) (ctx : EmitContext) {e : QueuedEvent Nat (Call ε)}
    (he : e.event.serial = j.calls) (hok : j.UnovertakenCall resource delivery ctx e.event) :
    InLine resource (handedOver (j.log ++ j.runtime.emitFates delivery ctx e))
      (j.runtime.emit delivery k ctx e).toDispatcher := by
  have hroute : emitRoute delivery ctx { j.runtime.toDispatcher with emitCallsTotal := j.runtime.emitCallsTotal + 1 } =
      emitRoute delivery ctx j.runtime.toDispatcher := rfl
  have hinline (hr : ∀ x ∈ j.runtime.held, resource e.event.event ≠ resource x.event.event) :
      InLine resource (handedOver (j.log ++ [(e, .inline)])) j.runtime.toDispatcher := by
    have hout : handedOver (j.log ++ [(e, .inline)]) = handedOver j.log ++ [e] := by simp [handedOver, Fate.handed]
    have hlast : ∀ x ∈ j.runtime.held, Before resource e x := fun x hx hsame => absurd hsame (hr x hx)
    rw [hout]
    refine ⟨?_, fun x hx y hy => ?_⟩
    · have hp := List.pairwise_append.mp hi.sorted
      rw [List.append_assoc, List.pairwise_append]
      refine ⟨hp.1, List.pairwise_cons.mpr ⟨fun y hy => ?_, hp.2.1⟩, fun x hx y hy => ?_⟩
      · exact hlast y (List.mem_append_left _ hy)
      · rcases List.mem_cons.mp hy with rfl | hy
        · exact hc.before_fresh he x (List.mem_append_left _ hx)
        · exact hp.2.2 x hx y hy
    · rw [List.append_assoc, List.singleton_append, List.perm_middle.mem_iff] at hx
      rcases List.mem_cons.mp hx with rfl | hx
      · exact hlast y (List.mem_append_right _ hy)
      · exact hi.ahead x hx y hy
  unfold DispatcherRuntime.emit DispatcherRuntime.emitFates
  dsimp only
  rw [hroute]
  cases hcase : emitRoute delivery ctx j.runtime.toDispatcher with
  | inlineMode =>
    have hin := hinline (hok.1 (.inl hcase))
    exact ⟨hin.sorted, hin.ahead⟩
  | inlineFallback =>
    have hin := hinline (hok.1 (.inr hcase))
    exact ⟨hin.sorted, hin.ahead⟩
  | stopPhase =>
    exact hi.of_sublist (by simp [handedOver, Fate.handed, Dispatcher.recordStopPhaseDrop]) (List.Subset.refl _)
  | enqueue =>
    have hi' : InLine resource (handedOver j.log)
        { j.runtime.toDispatcher with emitCallsTotal := j.runtime.emitCallsTotal + 1 } := ⟨hi.sorted, hi.ahead⟩
    exact hi'.turn hb k (hc.before_fresh he) fun _ hq y hy hr => absurd hr (hok.2 hcase hq y hy)

/-- A step that hands over nothing new and only lets events leave. -/
theorem leave {out : List (QueuedEvent Nat (Call ε) × Fate)} {d : Dispatcher Nat (Call ε)}
    (hi : InLine resource (handedOver j.log) j.runtime.toDispatcher) (ho : ∀ x ∈ out, x.2.handed = false)
    (hq : d.queue.Sublist j.runtime.queue) (hw : d.waiting ⊆ j.runtime.waiting) :
    InLine resource (handedOver (j.log ++ out)) d := by
  have hout : handedOver (j.log ++ out) = handedOver j.log := by
    have hnil : out.filter (fun x => x.2.handed) = [] := List.filter_eq_nil_iff.mpr fun x hx => by simp [ho x hx]
    simp [handedOver, hnil]
  rw [hout]
  exact hi.of_sublist (hq.append_left _) hw

theorem enqueueTurn (hi : InLine resource (handedOver j.log) j.runtime.toDispatcher) (hc : j.Custody)
    (hb : delivery.backpressurePolicy = .block) {k : Nat} {e : QueuedEvent Nat (Call ε)}
    (hfind : j.runtime.woken.find? (fun p => p.1 = k) = some (k, e))
    (hok : j.UnovertakenTurn resource delivery k) :
    InLine resource (handedOver (j.log ++ j.runtime.enqueueFates delivery e))
      ({ j.runtime.toDispatcher with woken := j.runtime.woken.eraseP fun p => p.1 = k }.enqueueTurn delivery k e) := by
  have hmem : e ∈ j.runtime.waiting :=
    List.mem_map_of_mem (f := Prod.snd) (List.mem_append_right _ (List.mem_of_find?_eq_some hfind))
  have hwait : j.runtime.waiting.Perm
      (e :: { j.runtime.toDispatcher with woken := j.runtime.woken.eraseP fun p => p.1 = k }.waiting) := by
    refine .trans (.map _ (.append_left _ (Dispatcher.perm_cons_eraseP hfind))) ?_
    simp only [List.map_append, List.map_cons, Dispatcher.waiting]
    exact List.perm_middle
  have hnodup : (j.runtime.waiting.map fun e => e.event.serial).Nodup :=
    hc.nodup.sublist (.map _ ((List.sublist_append_right ..).trans (List.sublist_append_left ..)))
  have hne : ∀ y ∈ { j.runtime.toDispatcher with woken := j.runtime.woken.eraseP fun p => p.1 = k }.waiting,
      e.event.serial ≠ y.event.serial := by
    intro y hy hsame
    have hcons := List.nodup_cons.mp ((hwait.map _).nodup_iff.mp hnodup)
    exact hcons.1 (hsame ▸ List.mem_map_of_mem hy)
  have hi' : InLine resource (handedOver j.log)
      { j.runtime.toDispatcher with woken := j.runtime.woken.eraseP fun p => p.1 = k } :=
    hi.of_sublist (.refl _) fun y hy => hwait.mem_iff.mpr (List.mem_cons_of_mem _ hy)
  refine hi'.turn hb k (fun x hx => hi.ahead x hx e hmem) fun hs hq y hy hsame => ?_
  exact lt_of_le_of_ne (hok _ hfind hs hq y (hwait.mem_iff.mpr (List.mem_cons_of_mem _ hy)) hsame) (hne y hy)

/-- Every action that meets `Unovertaken` keeps the invariant. -/
theorem step (hi : InLine resource (handedOver j.log) j.runtime.toDispatcher) (hc : j.Custody)
    (hb : delivery.backpressurePolicy = .block) (hok : j.Unovertaken resource delivery a)
    (h : j.step delivery a = some j') : InLine resource (handedOver j'.log) j'.runtime.toDispatcher := by
  obtain ⟨hn, r, hr, rfl⟩ := Journal.of_step h
  dsimp only
  cases a with
  | start =>
    cases hr
    unfold DispatcherRuntime.start
    split_ifs <;> exact hi.leave (List.forall_mem_nil _) (.refl _) (List.Subset.refl _)
  | stop k ctx =>
    have hsignal : j.runtime.signalStop.waiting ⊆ j.runtime.waiting := j.runtime.signalStop_waiting.subset
    cases hr
    unfold DispatcherRuntime.stop DispatcherRuntime.fates
    cases j.runtime.hasBackgroundWorker with
    | false => exact hi.leave (List.forall_mem_nil _) (.refl _) (List.Subset.refl _)
    | true =>
      simp only [Bool.not_true, Bool.false_eq_true, if_false, Bool.true_and]
      split
      · exact hi.leave (leaving_handed rfl _) (List.nil_sublist _) hsignal
      · split <;> exact hi.leave (List.forall_mem_nil _) (.refl _) hsignal
  | emit k ctx c =>
    simp only [DispatcherRuntime.step] at hr
    split at hr
    · cases hr
    · cases hr
      exact hi.emit hc hb k ctx (Journal.serial_of_numbered hn rfl).1 hok
  | emitAndWait k ctx c drop =>
    simp only [DispatcherRuntime.step] at hr
    split at hr
    · cases hr
    · cases hr
      have hi' : InLine resource (handedOver j.log)
          { j.runtime.toDispatcher with completion := Function.update j.runtime.completion k .pending } :=
        ⟨hi.sorted, hi.ahead⟩
      exact emit (j := { j with runtime := { j.runtime with completion := Function.update j.runtime.completion k .pending } })
        hi' hc hb k ctx (Journal.serial_of_numbered hn rfl).1 hok
  | enqueueTurn k =>
    simp only [DispatcherRuntime.step] at hr
    split at hr
    · next k' e hfind =>
      cases hr
      have hk : k' = k := by simpa using List.find?_some hfind
      subst hk
      simp only [DispatcherRuntime.fates, hfind]
      exact hi.enqueueTurn hc hb hfind hok
    · cases hr
  | cancelProducer k =>
    simp only [DispatcherRuntime.step] at hr
    split at hr
    · cases hr
      refine hi.leave (leaving_handed rfl _) (.refl _) ?_
      exact ((List.eraseP_sublist.append List.eraseP_sublist).map _).subset
    · cases hr
  | dropQueuedEvents payload =>
    cases hr
    refine hi.leave (leaving_handed rfl _) ?_ ?_ <;> unfold Dispatcher.dropQueuedEventsForResource <;> dsimp only <;> split
    · exact .refl _
    · exact List.filter_sublist
    · exact List.Subset.refl _
    · exact (Dispatcher.releaseProducers_waiting _).subset
  | workerTurn =>
    have hturn : InLine resource (handedOver (j.log ++ leaving .popped (j.runtime.queue.take 1)))
        j.runtime.workerTurn.toDispatcher := by
      unfold DispatcherRuntime.workerTurn
      split
      · next hq =>
        have hnone : leaving .popped (j.runtime.queue.take 1) = [] := by rw [hq]; rfl
        rw [hnone]
        split
        · exact hi.leave (List.forall_mem_nil _) (.refl _) (List.Subset.refl _)
        · exact hi.leave (List.forall_mem_nil _) (.refl _) (List.Subset.refl _)
      · next e rest hq =>
        have hlog : handedOver (j.log ++ leaving .popped (j.runtime.queue.take 1)) = handedOver j.log ++ [e] := by
          simp [handedOver, hq, leaving, Fate.handed]
        rw [hlog]
        refine hi.of_sublist (by simp [hq, Dispatcher.notifyNotFull]) ?_
        exact (Dispatcher.notifyNotFull_waiting
          { j.runtime.toDispatcher with queue := rest, worker := .dispatching e }).subset
    simp only [DispatcherRuntime.step] at hr
    split at hr
    · cases hr; exact hturn
    · cases hr; exact hturn
    · cases hr
  | handlerReturned =>
    simp only [DispatcherRuntime.step] at hr
    split at hr
    · cases hr
      exact hi.leave (List.forall_mem_nil _) (.refl _) (List.Subset.refl _)
    · cases hr
  | dispatchRaised =>
    simp only [DispatcherRuntime.step] at hr
    split at hr
    · cases hr
      exact hi.leave (leaving_handed rfl _) (List.nil_sublist _) (List.Subset.refl _)
    · cases hr
  | cancelWorker =>
    simp only [DispatcherRuntime.step] at hr
    split at hr
    · next hw =>
      cases hr
      simp only [DispatcherRuntime.fates, hw]
      exact hi.leave (List.forall_mem_nil _) (.refl _) (List.Subset.refl _)
    · next hw =>
      cases hr
      simp only [DispatcherRuntime.fates, hw]
      exact hi.leave (leaving_handed rfl _) (List.nil_sublist _) (List.Subset.refl _)
    · next hw =>
      cases hr
      simp only [DispatcherRuntime.fates, hw]
      exact hi.leave (leaving_handed rfl _) (List.nil_sublist _) (List.Subset.refl _)
    · cases hr

end InLine

/-- In every run under BLOCK in which no event goes ahead of an earlier one of its resource that still waits, the
handler has got the events of each resource in the order of their calls, in every state reached. -/
theorem Journal.inOrder_of_unovertaken {resource : ε → ρ} {delivery : EventDeliverySettings} {j : Journal ε}
    (hb : delivery.backpressurePolicy = .block)
    (h : (journalMachine delivery).Reachable (Journal.Unovertaken resource delivery) j) : j.InOrder resource := by
  have hi : InLine resource (handedOver j.log) j.runtime.toDispatcher := by
    refine h.invariant_of (I := fun j => InLine resource (handedOver j.log) j.runtime.toDispatcher) (J := Journal.Custody)
      (fun h => Journal.custody h) ?_ fun s a t hc hi hok hs => hi.step hc hb hok hs
    rintro _ rfl
    exact ⟨List.Pairwise.nil, nofun⟩
  exact (List.pairwise_append.mp hi.sorted).1

/-! ## Runs -/

/-- Neither a `stop()` nor a cancellation. -/
def Plain : DispatcherAct Nat (Call ε) → Bool
  | .stop .. | .cancelProducer _ | .cancelWorker => false
  | _ => true

instance [DecidableEq ρ] (resource : ε → ρ) (delivery : EventDeliverySettings) (j : Journal ε) (ctx : EmitContext)
    (c : Call ε) : Decidable (j.UnovertakenCall resource delivery ctx c) := by
  unfold Journal.UnovertakenCall; infer_instance

instance [DecidableEq ρ] (resource : ε → ρ) (delivery : EventDeliverySettings) (j : Journal ε) (k : Nat) :
    Decidable (j.UnovertakenTurn resource delivery k) := by
  unfold Journal.UnovertakenTurn; infer_instance

instance [DecidableEq ρ] (resource : ε → ρ) (delivery : EventDeliverySettings) (j : Journal ε) :
    (a : DispatcherAct Nat (Call ε)) → Decidable (j.Unovertaken resource delivery a)
  | .emit _ ctx c | .emitAndWait _ ctx c _ => inferInstanceAs (Decidable (j.UnovertakenCall resource delivery ctx c))
  | .enqueueTurn k => inferInstanceAs (Decidable (j.UnovertakenTurn resource delivery k))
  | .start | .stop .. | .cancelProducer _ | .dropQueuedEvents _ | .workerTurn | .handlerReturned | .dispatchRaised
  | .cancelWorker => inferInstanceAs (Decidable True)

instance [DecidableEq ρ] (resource : ε → ρ) (j : Journal ε) : Decidable (j.InOrder resource) := by
  unfold Journal.InOrder Before; infer_instance

/-- A queue of one event, under BLOCK. -/
def singleSlot : EventDeliverySettings := { maxPendingEvents := 1, maxPendingEvents_pos := Nat.one_pos }

/-- Call 0 is with the worker, call 1 queued, and call 2 parked; the worker takes 1 and notifies 2. -/
def notified : List (DispatcherAct Nat (Call String)) :=
  [.start, .workerTurn, .emit 0 {} ⟨0, "client"⟩, .workerTurn, .emit 1 {} ⟨1, "client"⟩, .emit 2 {} ⟨2, "client"⟩,
    .handlerReturned, .workerTurn]

theorem inOrder_of_notified :
    ∃ j : Journal String, (handedOver j.log).map (fun e => e.event.serial) = [0, 1, 2] ∧ j.InOrder id := by
  have hrun : ∃ j : Journal String, (journalMachine singleSlot).Reachable (Journal.Unovertaken id singleSlot) j ∧
      decide ((handedOver j.log).map (fun e => e.event.serial) = [0, 1, 2]) :=
    Runs.Machine.Reachable.exists_of_execOk rfl
      (notified ++ [.enqueueTurn 2, .handlerReturned, .workerTurn]) _ (by decide)
  obtain ⟨j, hr, hp⟩ := hrun
  exact ⟨j, of_decide_eq_true hp, Journal.inOrder_of_unovertaken rfl hr⟩

/-- Call 3 takes the slot before call 2 resumes, and call 2 parks again. -/
theorem not_inOrder_of_overtaken :
    ¬ ∀ j : Journal String, (journalMachine singleSlot).Reachable (fun _ a => Plain a) j → j.InOrder id := by
  intro hall
  have hrun : ∃ j : Journal String, (journalMachine singleSlot).Reachable (fun _ a => Plain a) j ∧
      decide ¬ j.InOrder id :=
    Runs.Machine.Reachable.exists_of_execOk rfl
      (notified ++ [.emit 3 {} ⟨3, "client"⟩, .enqueueTurn 2, .handlerReturned, .workerTurn, .enqueueTurn 2,
        .handlerReturned, .workerTurn]) _ (by decide)
  obtain ⟨j, hr, hp⟩ := hrun
  exact of_decide_eq_true hp (hall j hr)

end Aionetx
