import Aionetx.Connection.Invariant

/-!
# The order of the events of one connection
-/

namespace Aionetx

namespace World

variable {s : Settings} {w w' : World} {c d : ConnId}

/-! ## The actions of the connection -/

def Ordered (s : Settings) (c : ConnId) (w : World) : Prop :=
  (w.view c).Inv s.delivery.dispatchMode (s.Own c) c w.nextToken (w.Peers s c)

/-- The handler calls of a connection run where its tasks say so. -/
theorem Sequential.mem_view (h : w.Sequential) {k : HandlerCall} (hk : k ∈ (w.view c).active) :
    k ∈ w.active ∧ (k.task = .start c ∧ (w.conns c).start = .delivering ∧ k.event = .opened c ∨
      (k.task = .read c ∧ ∃ e, (w.conns c).read = .delivering e ∧ k.event = e.event c) ∨
      (k.task = .publication c ∧ ∃ p, (w.conns c).publication = some p ∧ p.pc = .delivering ∧ k.event.isClosed) ∨
      (k.task = .worker ∧ (w.view c).worker = some k.event)) := by
  obtain ⟨hk, hc⟩ := List.mem_filter.mp hk
  have hc : k.event.conn? = some c := by simpa using hc
  obtain ⟨e, hr, he⟩ := h.runs k hk
  have he : k.event = e := he.resolve_right fun hctl => by simp [hctl, Event.conn?] at hc
  refine ⟨hk, ?_⟩
  rcases ht : k.task with _ | d | d | d | n <;> rw [ht] at hr
  · exact .inr (.inr (.inr ⟨rfl, by simp only [Runs] at hr; simp [view, hr, ← he, hc]⟩))
  · obtain ⟨hs, rfl⟩ := hr
    obtain rfl : d = c := by simpa [he, Event.conn?] using hc
    exact .inl ⟨rfl, hs, he⟩
  · obtain ⟨e', hs, rfl⟩ := hr
    obtain rfl : d = c := by simpa [he] using hc
    exact .inr (.inl ⟨rfl, e', hs, he⟩)
  · obtain ⟨p, hp, hpc, rfl⟩ := hr
    obtain rfl : d = c := by simpa [he, Event.conn?] using hc
    exact .inr (.inr (.inl ⟨rfl, p, hp, hpc, by simp [he, Event.isClosed]⟩))
  · simp only [Runs] at hr
    simp [he, hr, Event.conn?] at hc

/-- A connection none of whose tasks is inside a handler has no active handler call, if the worker is idle. -/
theorem Sequential.view_active_nil (h : w.Sequential) (hs : (w.conns c).start ≠ .delivering)
    (hr : ∀ e, (w.conns c).read ≠ .delivering e) (hp : ∀ p, (w.conns c).publication = some p → p.pc ≠ .delivering)
    (hw : (w.view c).worker = none) : (w.view c).active = [] := by
  refine List.eq_nil_iff_forall_not_mem.mpr fun k hk => ?_
  obtain ⟨_, ⟨_, h₁, _⟩ | ⟨_, e, h₁, _⟩ | ⟨_, p, h₁, h₂, _⟩ | ⟨_, h₁⟩⟩ := h.mem_view hk
  · exact hs h₁
  · exact hr e h₁
  · exact hp p h₁ h₂
  · simp [hw] at h₁

theorem Ordered.setConn {conn : Conn}
    (h : ({ w.view c with conn } : View).Inv s.delivery.dispatchMode (s.Own c) c w.nextToken (w.Peers s c)) :
    (w.setConn c conn).Ordered s c := by
  unfold Ordered
  rw [view_setConn]
  exact h

/-- Later handler calls do not matter to the invariant. -/
theorem Follows.inv (hf : w.Follows w') {m : EventDispatchMode} {own : Prop} {v : View}
    (h : v.Inv m own c w.nextToken (w.Peers s c)) : v.Inv m own c w'.nextToken (w'.Peers s c) :=
  h.mono hf.nextToken fun _ => hf.peers

theorem Ordered.close (h : w.Ordered s c) {ctx : CloseContext} (ht : ∀ k ∈ ctx.tokens, k < w.nextToken)
    (hr : ctx.task = .read c → (w.conns c).read ≠ .created ∧ (w.conns c).read ≠ .reading) :
    (w.close s ctx c).1.Ordered s c := by
  rcases close_spec (s := s) (w := w) (c := c) ctx with he | ⟨he, hp⟩
  · rw [he]; exact h
  · rw [he]; exact .setConn (View.Inv.requestClose h hp ht hr)

theorem Ordered.startClose (h : w.Ordered s c) (hs : (w.conns c).start ≠ .awaitingHandled) :
    (w.startClose s c).Ordered s c :=
  Ordered.close (.setConn (View.Inv.setStart h hs (by simp) (by simp [StartPc.opened]) (by simp [StartPc.early]))) (by simp) nofun

theorem Ordered.startCall (h : w.Ordered s c) (hd : w.Started) (hs : (w.conns c).start = .idle) :
    (w.startCall c).Ordered s c := by
  unfold World.startCall
  dsimp only
  split
  · next hst => exact .setConn (View.Inv.connect h hs hst (hd.missing (by simp [hs])))
  · exact .setConn (View.Inv.setStart h (by simp [hs]) (by simp) (by simp [StartPc.opened]) (by simp [StartPc.early]))

theorem Ordered.startOpen (h : w.Ordered s c) (hq : w.Sequential) (hd : w.Started)
    (hs : (w.conns c).start = .notifyingReady) : (w.startOpen s c).Ordered s c := by
  unfold World.startOpen
  dsimp only
  split
  · exact .setConn (View.Inv.setStart h (by simp [hs]) (by simp) (by simp [StartPc.opened]) (by simp [StartPc.early]))
  · next hst =>
    have hst : (w.conns c).state = .connected := by simpa using hst
    split
    · next hm =>
      have hc := View.Inv.notClosed h (by simp [hst])
      have ha : (w.view c).active = [] := hq.view_active_nil (by simp [hs])
        (by simp [hd.missing (c := c) (by simp [hs])]) (by have := hc.2.2.1; simp_all) (View.Inv.inline h hm).2.1
      unfold Ordered
      have hne : (Event.opened c).isClosed = false := rfl
      rw [view_beginCall _ rfl, view_setConn, hne, Bool.or_false]
      exact ((follows_setConn _).beginCall _ _).inv ((View.Inv.deliverOpened h hs hst hm ha _).chunks _ _)
    · next hm => exact .setConn (View.Inv.startEnqueueing h hs hst hm)

theorem Ordered.startEnqueueTurn (h : w.Ordered s c) (hd : w.Started) (hs : (w.conns c).start = .enqueueing) :
    ((w.append (.opened c)).setConn c { w.conns c with start := .awaitingHandled }).Ordered s c := by
  unfold Ordered
  rw [view_setConn, view_append rfl]
  refine View.Inv.startEnqueue h hs (hd.missing (by simp [hs])) fun e he => ?_
  simpa using (List.mem_filter.mp he).2

theorem Ordered.resolveWaiter (h : w.Ordered s c) (captured : Option Nat) : (w.resolveWaiter c captured).Ordered s c :=
  Ordered.setConn (View.Inv.resolveWaiter h captured)

theorem Ordered.startPublish (h : w.Ordered s c) (hq : w.Sequential) (hd : w.Started) {opened : Bool}
    (hs : (w.conns c).start = .publishing opened) : (w.startPublish c opened).Ordered s c := by
  have hne : (w.conns c).start ≠ .awaitingHandled := by simp [hs]
  have hread : (w.conns c).read = .missing := hd.missing (by simp [hs])
  have hop : opened → (w.view c).opened := by
    rintro rfl
    exact View.Inv.opened h (.inl (by simp [hs, StartPc.opened]))
  unfold World.startPublish
  dsimp only
  split_ifs with hdef hpub
  · exact .setConn (View.Inv.setStart h hne (by simp) (by cases opened <;> simp_all [StartPc.opened])
      (by simp [StartPc.early]))
  · refine Ordered.resolveWaiter (.setConn ?_) _
    exact (View.Inv.takeDeferred h).setStart hne (by simp) (by cases opened <;> simp_all [StartPc.opened])
      (by simp [StartPc.early])
  · have hpub : (w.conns c).published = false := by simpa using hpub
    have hj := (View.Inv.takeDeferred h).setStart (p := .joining opened (w.conns c).waiter) hne (by simp)
      (by cases opened <;> simp_all [StartPc.opened]) (by simp [StartPc.early])
    refine .setConn ?_
    unfold Conn.finalizeClose
    split
    · exact hj
    · next hn =>
      have hn : (w.conns c).publication = none := by simpa [hpub] using hn
      have hqueue : (w.view c).queue = [] :=
        View.Inv.queue_nil h (fun e => view_queue_conn) hne hpub fun e he => by
          have := View.Inv.payload h e (.inl he)
          simp_all
      have hactive : (w.view c).active = [] :=
        hq.view_active_nil (by simp [hs]) (by simp [hread]) (by simp [hn])
          (View.Inv.worker_none h (fun e => view_worker_conn) hne hpub hread)
      exact hj.publish rfl hpub rfl (by simp [hqueue]) (fun _ => ⟨hqueue, hactive⟩) (by simp [hread])

theorem Ordered.startSettle (h : w.Ordered s c) {opened : Bool} {result : PublishResult}
    (hs : (w.conns c).start = .settled opened result) : (w.startSettle s c opened result).Ordered s c := by
  have hne : (w.conns c).start ≠ .awaitingHandled := by simp [hs]
  unfold World.startSettle
  dsimp only
  split
  · exact .setConn (View.Inv.setStart h hne (by simp) (by simp [StartPc.opened]) (by simp [StartPc.early]))
  · split
    · next hst =>
      exact .setConn (View.Inv.createRead h (View.Inv.opened h (.inl (by simp [hs, StartPc.opened]))) hne hst)
    · exact .setConn (View.Inv.setStart h hne (by simp) (by simp [StartPc.opened]) (by simp [StartPc.early]))
  · exact h.startClose hne

/-! ## The read loop -/

theorem requestClose_setRead (conn : Conn) (ctx : CloseContext) (read : ReadPc) :
    { conn.requestClose ctx with read } = ({ conn with read } : Conn).requestClose ctx := by
  unfold Conn.requestClose
  split <;> rfl

theorem Ordered.readFinally (h : w.Ordered s c) (hr : (w.conns c).read ≠ .missing) :
    (w.readFinally s c).Ordered s c := by
  rw [readFinally_eq]
  split
  · exact .setConn (View.Inv.setRead h (by simp) hr (by simp [ReadPc.live]) (by simp))
  · next hst =>
    rw [requestClose_setRead]
    refine .setConn ?_
    refine View.Inv.requestClose (v := { w.view c with conn := { w.conns c with read := .closing } }) ?_ ?_ (by simp) (by simp)
    · exact View.Inv.setRead h (by simp) hr (by simp [ReadPc.live]) (by simp)
    · exact fun hcl => absurd (.inr hcl) hst

theorem Ordered.readLoop (h : w.Ordered s c) (hr : (w.conns c).read.live) : (w.readLoop s c).Ordered s c := by
  have hne : (w.conns c).read ≠ .missing := by rintro hc; simp [hc, ReadPc.live] at hr
  unfold World.readLoop
  dsimp only
  split
  · next hst => exact .setConn (View.Inv.setRead h (by simp) hne (fun _ => ⟨hr, by simp [hst], by simp [hst]⟩) (by simp))
  · exact h.readFinally hne

theorem Ordered.readEmit (h : w.Ordered s c) (hr : (w.conns c).read.live)
    (hi : s.delivery.dispatchMode = .inline →
      (w.view c).active = [] ∧ (w.conns c).publication = none ∧ (w.view c).closedStarted = false) (e : ReadEvent) :
    (w.readEmit s c e).Ordered s c := by
  unfold World.readEmit
  split
  · next hm =>
    obtain ⟨ha, hp, hc⟩ := hi hm
    unfold Ordered
    have hne : (e.event c).isClosed = false := by cases e <;> rfl
    rw [view_beginCall _ (e.event_conn? c), view_setConn, hne, Bool.or_false]
    exact ((follows_setConn _).beginCall _ _).inv ((View.Inv.readDelivering h hm hr ha hp hc e _).chunks _ _)
  · next hm => exact .setConn (View.Inv.readEnqueueing h hm hr e)

/-- In INLINE mode nobody else is inside a handler of a connection that reads and is not closed. -/
theorem Ordered.reading (h : w.Ordered s c) (hq : w.Sequential) (hd : w.Started) (hm : s.delivery.dispatchMode = .inline)
    (hr : (w.conns c).read = .created ∨ (w.conns c).read = .reading) (hst : (w.conns c).state ≠ .closed) :
    (w.view c).active = [] ∧ (w.conns c).publication = none ∧ (w.view c).closedStarted = false := by
  obtain ⟨_, _, hp, _, hc⟩ := View.Inv.notClosed h hst
  have hdone := hd c (by rcases hr with hr | hr <;> simp [hr])
  refine ⟨hq.view_active_nil (by simp [hdone]) ?_ ?_ (View.Inv.inline h hm).2.1, hp, hc⟩
  · rcases hr with hr | hr <;> simp [hr]
  · rintro p hp'
    rw [view_conn] at hp
    simp [hp] at hp'

theorem Ordered.receive (h : w.Ordered s c) (data : Bytes) : (w.receive c data).Ordered s c := by
  unfold Ordered
  rw [view_receive]
  exact View.Inv.chunks h _ _

/-! ## The close task -/

theorem view_dropped_conns : (w.dropQueuedEventsForResource s d).conns = w.conns := rfl

theorem Ordered.dropQueuedEvents (h : w.Ordered s c) : (w.dropQueuedEventsForResource s c).Ordered s c := by
  unfold Ordered
  rw [view_dropQueuedEvents rfl]
  exact View.Inv.dropQueuedEvents h

theorem opening_of_early {pc : StartPc} (h : pc.opening = false) : pc.early = false := by
  cases pc with
  | publishing opened => cases opened <;> simp_all [StartPc.opening, StartPc.early]
  | _ => simp_all [StartPc.opening, StartPc.early]

/-- With an error event queued, the close task comes from no handler and nothing is deferred. -/
theorem Ordered.not_deferred (h : w.Ordered s c) (hd : w.Started) {t : CloseTask}
    (ht : (w.conns c).closeTask = some t) {e : Event} (he : e ∈ (w.view c).queue) (hie : e.isError) :
    (w.conns c).opening = false ∧ t.callerUsesInlineDelivery = false ∧
      w.inheritsHandlerOriginContext s t.tokens c = false ∧
      (w.hasActiveHandlerContext s c && wouldDeliverInline s t.callerUsesInlineDelivery) = false ∧
      (w.conns c).deferred = false := by
  obtain ⟨h₁, _, _, h₄, _⟩ := View.Inv.errors h e he hie
  obtain ⟨hinl, htok⟩ := (h₄ t ht).1
  have hdone := hd c (View.Inv.payload h e (.inl he) (.inr hie))
  have hm : s.delivery.dispatchMode ≠ .inline := by
    intro hm
    simp [(View.Inv.inline h hm).1] at he
  refine ⟨by simp [Conn.opening, hdone, StartPc.opening], hinl, inheritsHandlerOriginContext_eq_false.mpr htok, ?_, h₁⟩
  simp [wouldDeliverInline, hinl, hm]

theorem Ordered.deferOrPublish (h : w.Ordered s c) (hd : w.Started) {t : CloseTask}
    (ht : (w.conns c).closeTask = some t)
    (hr : s.Own c → s.delivery.dispatchMode = .inline → (w.conns c).read ≠ .created ∧ (w.conns c).read ≠ .reading) :
    (w.deferOrPublish s c t).Ordered s c := by
  have hdrop := View.Inv.dropQueuedEvents h
  unfold World.deferOrPublish
  dsimp only
  split
  · next hdef =>
    have hq : ∀ e ∈ (w.view c).queue.filter (fun e => !e.isBytes), e.isBytes = false ∧ e.isError = false := by
      intro e he
      refine ⟨by simpa using (List.mem_filter.mp he).2, ?_⟩
      by_contra hie
      obtain ⟨h₁, h₂, h₃, h₄, h₅⟩ := h.not_deferred hd ht (List.mem_of_mem_filter he) (by simpa using hie)
      rw [h₁, h₄, h₃, h₅, h₂] at hdef
      simp at hdef
    generalize hpe : (!(w.conns c).opening && (t.callerUsesInlineDelivery || w.inheritsHandlerOriginContext s t.tokens c ||
      w.hasActiveHandlerContext s c && wouldDeliverInline s t.callerUsesInlineDelivery)) = publish
    have hp : publish = true → (w.conns c).start.early = false := fun hb =>
      opening_of_early (by rw [hb, Bool.and_eq_true] at hpe; simpa [Conn.opening] using hpe.1)
    have hdefer := hdrop.deferCloseEvent hq hr hp
    split
    · have hfin := hdefer.finishClose rfl fun e he hie => by simp [(hq e he).2] at hie
      unfold Ordered World.finishClose
      rw [view_calls, view_setConn, view_dropQueuedEvents rfl, view_setConn, view_dropped_conns, setConn_self]
      exact hfin
    · have hpc := hdefer.setClosePc (t := t) ht rfl
        (p := .awaitingWaiter (((w.conns c).deferCloseEvent publish).waiter.getD 0))
        fun e he hie => by simp [(hq e he).2] at hie
      unfold Ordered
      rw [view_dropQueuedEvents rfl, view_setConn]
      exact hpc
  · next hdef =>
    simp only [Bool.not_eq_true, Bool.or_eq_false_iff] at hdef
    obtain ⟨⟨⟨⟨hopen, hinl⟩, hinh⟩, hact⟩, hflag⟩ := hdef
    split
    · next hpub =>
      have hst : (w.conns c).state = .closed := by
        by_contra hst
        have hn : (w.conns c).published = false := (View.Inv.notClosed h hst).2.1
        simp [hn] at hpub
      have hfin := hdrop.finishClose hst fun e he hie => hpub
      unfold Ordered World.finishClose
      rw [view_calls, view_setConn, view_dropQueuedEvents rfl]
      exact hfin
    · next hpub =>
      have hpub : (w.conns c).published = false := by simpa using hpub
      refine .setConn ?_
      rw [view_dropQueuedEvents rfl]
      unfold Conn.finalizeClose
      split
      · next hsome =>
        have hst : (w.conns c).state = .closed := by
          by_contra hst
          have hn : (w.conns c).publication = none := (View.Inv.notClosed h hst).2.2.1
          simp [hn, hpub] at hsome
        exact hdrop.setClosePc ht hst fun _ _ _ => rfl
      · next hnone =>
        have hnone : (w.conns c).publication = none := by simpa [hpub] using hnone
        have hearly := opening_of_early hopen
        have hne : (w.conns c).start ≠ .awaitingHandled := by rintro hs; simp [hs, StartPc.early] at hearly
        have hpublish := hdrop.publish (p := ⟨(w.conns c).previousState.getD .closing, t.callerUsesInlineDelivery, .created⟩)
          rfl hpub hearly ?_ ?_ hr
        · exact hpublish.setClosePc ht rfl fun _ _ _ => rfl
        · intro e he
          have hmem := List.mem_of_mem_filter he
          have hb : e.isBytes = false := by simpa using (List.mem_filter.mp he).2
          have hcl := View.Inv.closedQueued h e hmem
          have hop := (View.Inv.notAwaiting h hne).1
          have hc := view_queue_conn hmem
          cases e <;> simp_all [Event.isBytes, Event.isError, Event.isClosed, Event.conn?]
        · rintro (hm | hi)
          · refine ⟨by simp [(View.Inv.inline h hm).1], ?_⟩
            exact view_active_nil (by simpa [wouldDeliverInline, hm] using hact)
          · simp [hinl] at hi

/-- Where nothing can be read in INLINE mode the close task has cancelled the read task, or a handler runs there. -/
theorem Ordered.not_reading (h : w.Ordered s c) (ho : s.Own c) {t : CloseTask} (ht : (w.conns c).closeTask = some t)
    (hpc : t.pc = .created → t.needsTeardown → ¬ t.detachedRead ∨ t.caller = .read c)
    (hm : s.delivery.dispatchMode = .inline) : (w.conns c).read ≠ .created ∧ (w.conns c).read ≠ .reading := by
  by_contra hr
  have hr : (w.conns c).read = .created ∨ (w.conns c).read = .reading := by
    by_contra hc
    exact hr ⟨fun h => hc (.inl h), fun h => hc (.inr h)⟩
  obtain ⟨hst, hcl⟩ := View.Inv.inlineRead h ho hm hr
  by_cases hclosing : (w.conns c).state = .closing
  · obtain ⟨h₁, h₂, h₃, h₄⟩ := hcl hclosing t ht
    rcases hpc h₁ h₂ with hp | hp
    · exact hp h₃
    · exact h₄ hp
  · have hnone : (w.conns c).closeTask = none := View.Inv.running h hclosing hst
    simp [hnone] at ht

theorem Ordered.runClose (h : w.Ordered s c) (hq : w.Sequential) (hd : w.Started) {t : CloseTask}
    (ht : (w.conns c).closeTask = some t) : (w.runClose s c t).Ordered s c := by
  unfold World.runClose
  dsimp only
  split
  · have hw : ∃ w₁, (if w.hasActiveHandlerContext s c then w.dropQueuedEventsForResource s c else w) = w₁ ∧
        w₁.Ordered s c ∧ w₁.conns = w.conns := by
      split
      · exact ⟨_, rfl, h.dropQueuedEvents, rfl⟩
      · exact ⟨_, rfl, h, rfl⟩
    obtain ⟨w₁, he, h₁, hconns⟩ := hw
    have ht₁ : (w₁.view c).conn.closeTask = some t := by rw [view_conn, hconns, ht]
    rw [he]
    split
    · refine .setConn ?_
      exact (View.Inv.cancelRead h₁).setTeardown ht₁ (p := .awaitingRead) rfl fun _ _ => ReadPc.cancel_ne _
    · next hn =>
      refine .setConn (View.Inv.setTeardown h₁ ht₁ (p := .writerShutdown) rfl fun ho hm => ?_)
      rw [view_conn, hconns]
      -- a read task that reads has no active handler, so it is not preserved
      by_contra hr
      have hr : (w.conns c).read = .created ∨ (w.conns c).read = .reading := by
        by_contra hc
        exact hr ⟨fun h => hc (.inl h), fun h => hc (.inr h)⟩
      have ha : w.hasActiveHandlerContext s c = false :=
        hasActiveHandlerContext_of_own ho (h.reading hq hd hm hr (View.Inv.inlineRead h ho hm hr).1).1
      have := h.not_reading ho ht (fun _ _ => by simp_all [or_iff_not_imp_left]) hm
      rcases hr with hr | hr
      · exact this.1 hr
      · exact this.2 hr
  · next hn => exact h.deferOrPublish hd ht fun ho => h.not_reading ho ht fun _ hc => absurd hc hn

/-! ## The close event -/

theorem Ordered.publisherRun (h : w.Ordered s c) (hp : (w.conns c).publisher = .waiting)
    (ha : w.hasActiveHandlerContext s c = false) : (w.publisherRun c).Ordered s c := by
  have hne : (w.conns c).publisher ≠ .missing := by simp [hp]
  have hst : (w.conns c).state = .closed := by
    by_contra hst
    exact hne (View.Inv.notClosed h hst).2.2.2.1
  have hearly : (w.conns c).start.early = false := by
    by_contra hc
    exact hne (View.Inv.early h (by simpa using hc)).2.2.1
  have hstart : (w.conns c).start ≠ .awaitingHandled := by rintro hs; simp [hs, StartPc.early] at hearly
  unfold World.publisherRun
  dsimp only
  split_ifs with hdef hpub
  · exact .setConn (View.Inv.setPublisher h hne _)
  · refine Ordered.resolveWaiter (.setConn ?_) _
    exact (View.Inv.takeDeferred h).setPublisher hne _
  · have hpub : (w.conns c).published = false := by simpa using hpub
    have hj := (View.Inv.takeDeferred h).setPublisher hne (.joining (w.conns c).waiter)
    refine .setConn ?_
    unfold Conn.finalizeClose
    split
    · exact hj
    · have hqueue : (w.view c).queue = [] :=
        View.Inv.queue_nil h (fun e => view_queue_conn) hstart hpub fun e he => by
          refine ⟨View.Inv.noBytes h hst e he, ?_⟩
          by_contra hie
          exact hne (View.Inv.errors h e he (by simpa using hie)).2.1
      refine hj.publish rfl hpub hearly (by simp [hqueue]) (fun _ => ⟨hqueue, view_active_nil ha⟩) fun ho hm => ?_
      have hread := mt (View.Inv.inlineRead h ho hm) (by simp [hst])
      simpa using hread

theorem Ordered.publicationInline (h : w.Ordered s c) (hq : w.Sequential) {p : Publication}
    (hp : (w.conns c).publication = some p) (hpc : p.pc = .created) (hi : wouldDeliverInline s p.inline) :
    ((w.setConn c { w.conns c with publication := some { p with pc := .delivering } }).beginCall (.publication c)
      (.closed c p.previousState)).Ordered s c := by
  have hidle : w.Idle (.publication c) := hq.idle (by simp [Runs, hp, hpc])
  unfold Ordered
  rw [view_beginCall _ rfl, view_setConn, Event.isClosed, Bool.or_true]
  refine ((follows_setConn _).beginCall _ _).inv
    ((View.Inv.deliverClosed h hp (by simpa [wouldDeliverInline] using hi) (fun k hk => ?_) rfl rfl).chunks _ _)
  exact hidle k (List.mem_of_mem_filter hk)

theorem Ordered.publicationEnqueueTurn (h : w.Ordered s c) {p : Publication} (hp : (w.conns c).publication = some p)
    (hm : s.delivery.dispatchMode = .background) :
    ((w.append (.closed c p.previousState)).setConn c ((w.conns c).finishPublication true)).Ordered s c := by
  unfold Ordered
  rw [view_setConn, view_append rfl]
  exact View.Inv.enqueueClosed h hp hm rfl

/-! ## The worker and the end of handler calls -/

theorem Ordered.take (h : w.Ordered s c) (hq : w.Sequential) (hm : s.delivery.dispatchMode = .background)
    (hw : w.worker = none) {e : Event} {rest : List Event} (hqueue : w.queue = e :: rest) :
    (w.take e rest).Ordered s c := by
  have hf : w.Follows { w with worker := some e, queue := rest } := .of_eq rfl rfl
  unfold Ordered
  by_cases he : e.conn? = some c
  · rw [view_take he]
    have hv : (w.view c).queue = e :: rest.filter fun e => e.conn? = some c := by simp [view, hqueue, he]
    have hcl := View.Inv.closedQueued h
    have hpub := View.Inv.publication h
    have hact : (w.view c).active = [] := by
      refine hq.view_active_nil (View.Inv.background h hm).1 (View.Inv.background h hm).2 (fun p hp hpc => ?_)
        (by simp [view, hw])
      have := ((hpub p hp).2.2.1 ((hpub p hp).2.2.2.1 hpc)).1
      simp [this] at hv
    exact (hf.beginCall _ _).inv ((View.Inv.take h hm hact hv _).chunks _ _)
  · rw [view_take_of_ne hw hqueue he]
    exact (hf.beginCall _ _).inv h

theorem Ordered.endCall (h : w.Ordered s c) (hq : w.Sequential) (hd : w.Started) {k : HandlerCall}
    (hk : k ∈ w.active) : (w.endCall k).Ordered s c := by
  refine (Follows.endCall k).inv ?_
  by_cases hc : k.event.conn? = some c
  · rw [view_endCall]
    refine View.Inv.endCall h fun hor => ?_
    have hearly : (w.conns c).start.early := by
      rcases hor with hs | hw
      · rw [view_conn] at hs; rw [hs]; rfl
      · by_contra hne
        have := View.Inv.notAwaiting h (by rintro hs; rw [view_conn] at hs; simp [hs, StartPc.early] at hne)
        exact this.2 hw
    have hread : (w.conns c).read = .missing := hd.missing (by rintro hs; simp [hs, StartPc.early] at hearly)
    obtain ⟨_, ⟨_, _, he⟩ | ⟨_, e, hr, _⟩ | ⟨_, p, hp, _⟩ | ⟨_, hw⟩⟩ :=
      hq.mem_view (List.mem_filter.mpr ⟨hk, by simpa using hc⟩)
    · exact he
    · simp [hread] at hr
    · have hnone : (w.conns c).publication = none := (View.Inv.early h hearly).1
      simp [hnone] at hp
    · rcases hor with hs | hw'
      · cases hm : s.delivery.dispatchMode with
        | inline =>
          have hnone : (w.view c).worker = none := (View.Inv.inline h hm).2.1
          simp [hnone] at hw
        | background => exact absurd hs (View.Inv.background h hm).1
      · simpa [hw'] using hw.symm
  · rw [view_endCall_of_ne hc]
    exact h

theorem Ordered.setConn_of_ne (h : w.Ordered s c) (hne : c ≠ d) (conn : Conn) : (w.setConn d conn).Ordered s c := by
  unfold Ordered
  rw [view_setConn_of_ne hne]
  exact h

theorem Ordered.workerDone (h : w.Ordered s c) (hs : (w.conns c).start = .awaitingHandled → w.worker ≠ some (.opened c)) :
    ({ w with worker := none } : World).Ordered s c := by
  refine View.Inv.workerDone h fun ha hw => hs ha ?_
  exact (Option.filter_eq_some_iff.mp hw).1

theorem Ordered.resume (h : w.Ordered s c) (hq : w.Sequential) (hd : w.Started) {k : HandlerCall} (hk : k ∈ w.active)
    {raised : Bool} (hraised : ∀ d, k.task = .read d → raised → s.delivery.dispatchMode = .inline ∧ k.event ≠ .control) :
    ((w.endCall k).resume s k.task raised).Ordered s c := by
  have h₁ := h.endCall hq hd hk
  have hq₁ := hq.endCall k
  obtain ⟨e, hr, hev⟩ := hq.runs k hk
  rcases ht : k.task with _ | d | d | d | n
  · have hidle : (w.endCall k).Idle .worker := ht ▸ hq.idle_endCall hk (by rw [ht]; rfl)
    simp only [World.resume]
    split
    · next d hw =>
      split
      · next hs =>
        rcases eq_or_ne c d with rfl | hne
        · refine .setConn (View.Inv.handled h₁ ?_ hs (by simp [view, hw, Event.conn?]))
          have hread : ((w.endCall k).conns c).read = .missing := Started.missing (w := w.endCall k) hd (by simp [hs])
          refine List.eq_nil_iff_forall_not_mem.mpr fun k' hk' => ?_
          obtain ⟨hmem, ⟨_, hs', _⟩ | ⟨_, e', hr', _⟩ | ⟨_, p, hp, _⟩ | ⟨hw', _⟩⟩ := hq₁.mem_view hk'
          · simp [hs] at hs'
          · simp [hread] at hr'
          · have hnone : ((w.endCall k).conns c).publication = none :=
              (View.Inv.early h₁ (by rw [view_conn, hs]; rfl)).1
            simp [hnone] at hp
          · exact hidle k' hmem hw'
        · refine Ordered.setConn_of_ne (h₁.workerDone fun _ hw' => ?_) hne _
          rw [hw] at hw'
          simp at hw'
          exact hne hw'.symm
      · next hs =>
        refine h₁.workerDone fun hs' hw' => ?_
        rw [hw] at hw'
        simp at hw'
        subst hw'
        exact hs hs'
    · next hw => exact h₁.workerDone fun _ hw' => hw c hw'
  · rw [ht] at hr
    rcases eq_or_ne c d with rfl | hne
    · have hs : ((w.endCall k).conns c).start = .delivering := hr.1
      have hidle : (w.endCall k).Idle (.start c) := ht ▸ hq.idle_endCall hk (by rw [ht]; rfl)
      have hread : ((w.endCall k).conns c).read = .missing := Started.missing (w := w.endCall k) hd (by simp [hs])
      refine .setConn (View.Inv.delivered h₁ ?_ hs _)
      refine List.eq_nil_iff_forall_not_mem.mpr fun k' hk' => ?_
      obtain ⟨hmem, ⟨hs', _⟩ | ⟨_, e', hr', _⟩ | ⟨_, p, hp, _⟩ | ⟨_, hw⟩⟩ := hq₁.mem_view hk'
      · exact hidle k' hmem hs'
      · simp [hread] at hr'
      · have hnone : ((w.endCall k).conns c).publication = none := (View.Inv.early h₁ (by rw [view_conn, hs]; rfl)).1
        simp [hnone] at hp
      · cases hm : s.delivery.dispatchMode with
        | inline =>
          have hnone : ((w.endCall k).view c).worker = none := (View.Inv.inline h₁ hm).2.1
          simp [hnone] at hw
        | background => exact absurd hs (View.Inv.background h₁ hm).1
    · exact h₁.setConn_of_ne hne _
  · rw [ht] at hr
    obtain ⟨e', hread, rfl⟩ := hr
    have hread : ((w.endCall k).conns d).read = .delivering e' := hread
    rcases eq_or_ne c d with rfl | hne
    · simp only [World.resume, hread]
      have hlive : ((w.endCall k).conns c).read.live := by rw [hread]; rfl
      have hmissing : ((w.endCall k).conns c).read ≠ .missing := by rw [hread]; simp
      split
      · next hr =>
        obtain ⟨hm, hctl⟩ := hraised c ht hr
        have hk' : k ∈ (w.view c).active :=
          List.mem_filter.mpr ⟨hk, by simp [hev.resolve_right hctl]⟩
        split
        · next data =>
          refine h₁.readEmit hlive (fun _ => ⟨?_, ?_, ?_⟩) _
          · rw [view_endCall]
            have hlen := View.Inv.single h
            obtain ⟨k₁, hk₁⟩ := List.length_eq_one_iff.mp (Nat.le_antisymm hlen (List.length_pos_of_mem hk'))
            rw [hk₁, List.mem_singleton] at hk'
            simp [hk₁, hk']
          · by_contra hp
            obtain ⟨p, hp⟩ := Option.ne_none_iff_exists'.mp hp
            have := ((View.Inv.publication h p hp).2.2.1 (.inl hm)).2 k hk'
            simp [ht] at this
          · by_contra hcl
            rw [view_endCall] at hcl
            have := (View.Inv.afterClosed h (by simpa using hcl)).2 k hk'
            simp [hev.resolve_right hctl, ReadEvent.event, Event.isClosed] at this
        · exact h₁.readFinally hmissing
      · unfold afterReadEmit
        split
        · exact h₁.readLoop hlive
        · exact h₁.readFinally hmissing
    · have hf := follows_resume (s := s) (w := w.endCall k) (.read d) raised
      unfold Ordered
      rw [view_resume_read_of_ne hne]
      exact hf.inv h₁
  · rw [ht] at hr
    obtain ⟨p, hp, hpc, _⟩ := hr
    rcases eq_or_ne c d with rfl | hne
    · have hpub := View.Inv.publication h₁ p hp
      refine .setConn (View.Inv.finishPublication h₁ hp _ fun _ e he => ?_)
      simp [(hpub.2.2.1 (hpub.2.2.2.1 hpc)).1] at he
    · exact h₁.setConn_of_ne hne _
  · exact h₁

theorem Ordered.handlerDone (h : w.Ordered s c) (hq : w.Sequential) (hd : w.Started) {k : HandlerCall}
    (hk : k ∈ w.active) {outcome : HandlerOutcome} (hs : w.handlerDone s k outcome = some w') : w'.Ordered s c := by
  unfold World.handlerDone at hs
  dsimp only at hs
  split at hs
  · cases hs; exact h.resume hq hd hk (by simp)
  · split at hs
    · next ht => cases hs; exact h.resume hq hd hk (by simp [ht])
    · next ht => cases hs; exact h.resume hq hd hk (by simp [ht])
    · cases hs
  · split at hs
    · cases hs; exact h.resume hq hd hk (by simp)
    · cases hs; exact h.resume hq hd hk (by simp)
    · split at hs
      · cases hs; exact h.resume hq hd hk (by simp)
      · cases hs
        unfold Ordered
        rw [view_beginCall_of_ne _ (by simp [Event.conn?])]
        exact Follows.inv (.beginCall (.of_eq rfl rfl) _ _) (h.endCall hq hd hk)
    · cases hs

/-! ## The queued events of the read loop -/

/-- The read loop of the connection delivers nothing behind its close. When its `_enqueue` gets a slot the connection is
not closed, and behind an error event no handler is about to defer the close event; in INLINE mode the connection is not
closed when a read ends. -/
def NoStale (s : Settings) (c : ConnId) (w : World) : WorldAct → Prop
  | .readEnqueueTurn d => d = c → (w.conns c).state ≠ .closed ∧
      ((w.conns c).read = .enqueueing .error → (w.conns c).state = .closing →
        (w.conns c).closeTask.all fun t =>
          !t.callerUsesInlineDelivery && !w.inheritsHandlerOriginContext s t.tokens c)
  | .readReturned d _ | .readRaised d =>
    d = c → s.delivery.dispatchMode = .inline → (w.conns c).state ≠ .closed
  | _ => True

theorem Ordered.readError (h : w.Ordered s c) (hd : w.Started) (hm : s.delivery.dispatchMode = .background)
    (hr : (w.conns c).read ≠ .missing) (hst : (w.conns c).state ≠ .closed)
    (hplain : (w.conns c).state = .closing → ∀ t, (w.conns c).closeTask = some t → t.Plain (w.Peers s c)) :
    ((w.append (.error c)).readFinally s c).Ordered s c := by
  have hstart := hd c hr
  have hconns : (w.readFinally s c).conns c = if (w.conns c).state = .closing then { w.conns c with read := .done }
      else { (w.conns c).requestClose { task := .read c } with read := .closing } := by
    simp [readFinally_eq, hst]
  have hact : (w.readFinally s c).Peers s c = w.Peers s c := by rw [readFinally_eq]; rfl
  have happend : (w.append (.error c)).readFinally s c = (w.readFinally s c).append (.error c) := by
    rw [readFinally_eq, readFinally_eq]; rfl
  rw [happend]
  unfold Ordered
  rw [view_append rfl]
  refine View.Inv.readAppend (h.readFinally hr) hm ?_ ?_ ?_ .error fun _ => ?_ <;> rw [view_conn, hconns]
  · split
    · next hc => simp [hc]
    · simp [Conn.requestClose, hst]
      split <;> simp_all
  · split <;> simp
  · split <;> simp [hstart]
  · rw [hact]
    split
    · next hc =>
      obtain ⟨t, ht⟩ := Option.ne_none_iff_exists'.mp (View.Inv.closing h hc)
      exact ⟨t, ht, hplain hc t ht⟩
    · next hc =>
      have hnone : (w.conns c).closeTask = none := View.Inv.running h hc hst
      simp [Conn.requestClose, hnone, CloseTask.Plain, CloseContext.usesInlineDelivery]

theorem Ordered.readBytes (h : w.Ordered s c) (hd : w.Started) (hm : s.delivery.dispatchMode = .background)
    {data : Bytes} (hr : (w.conns c).read = .enqueueing (.bytes data)) (hst : (w.conns c).state ≠ .closed) :
    ((w.append (.bytes c data)).readLoop s c).Ordered s c := by
  refine Ordered.readLoop ?_ (by rw [append_conns, hr]; rfl)
  unfold Ordered
  rw [view_append rfl]
  exact View.Inv.readAppend h hm hst (by simp [hr]) (hd c (by simp [hr])) (.bytes data) nofun

theorem Ordered.readEnqueueTurn (h : w.Ordered s c) (hd : w.Started) {e : ReadEvent}
    (hr : (w.conns c).read = .enqueueing e) (hok : NoStale s c w (.readEnqueueTurn c)) :
    ((w.append (e.event c)).afterReadEmit s c e).Ordered s c := by
  obtain ⟨hst, hplain⟩ := hok rfl
  have hm : s.delivery.dispatchMode = .background := by
    cases hm : s.delivery.dispatchMode with
    | inline => exact absurd hr ((View.Inv.inline h hm).2.2.2.2.2 e)
    | background => rfl
  cases e with
  | bytes data => exact h.readBytes hd hm hr hst
  | error =>
    refine h.readError hd hm (by simp [hr]) hst fun hc t ht => ?_
    have hp := hplain hr hc
    simp only [ht, Option.all_some, Bool.and_eq_true, Bool.not_eq_true'] at hp
    exact ⟨hp.1, inheritsHandlerOriginContext_eq_false.mp hp.2⟩

/-! ## The steps of a run -/

theorem Ordered.calls (h : w.Ordered s c) (calls : List CloseCall) : ({ w with calls := calls } : World).Ordered s c := h

theorem Ordered.userClose (h : w.Ordered s c) {ctx : CloseContext} (hc : w.validContext ctx)
    (hr : ctx.task = .read c → (w.conns c).read ≠ .created ∧ (w.conns c).read ≠ .reading) :
    (w.userClose s ctx c).Ordered s c := by
  obtain ⟨calls, he⟩ := userClose_frame (s := s) (w := w) (c := c) ctx
  rw [he]
  exact (h.close (validContext_tokens hc) hr).calls calls

/-- User code that runs on the read task runs in a handler there. -/
theorem Sequential.not_reading_of_context (hq : w.Sequential) {ctx : CloseContext} (hc : w.validContext ctx)
    (ht : ctx.task = .read c) : (w.conns c).read ≠ .created ∧ (w.conns c).read ≠ .reading := by
  have hc := ((Bool.and_eq_true _ _).mp hc).2
  split at hc
  · obtain ⟨k, hk, hp⟩ := List.any_eq_true.mp hc
    simp only [Bool.and_eq_true, decide_eq_true_eq] at hp
    obtain ⟨e, hrun, _⟩ := hq.runs k hk
    rw [hp.1.2, ht] at hrun
    obtain ⟨e', hread, _⟩ := hrun
    simp [hread]
  · simp [ht] at hc

theorem Ordered.setClosePc (h : w.Ordered s c) {t : CloseTask} (ht : (w.conns c).closeTask = some t) {pc : ClosePc}
    (hpc : pc.teardown) (hn : t.pc ≠ .created) :
    (w.setConn c { w.conns c with closeTask := some { t with pc } }).Ordered s c :=
  .setConn (View.Inv.setTeardown h ht hpc fun ho hm => h.not_reading ho ht (fun hc => absurd hc hn) hm)

theorem Ordered.closeFinished (h : w.Ordered s c) {t : CloseTask} (ht : (w.conns c).closeTask = some t)
    (hpc : t.pc = .finishing) : (w.finishClose c).Ordered s c := by
  have hst : (w.conns c).state = .closed := by
    by_contra hst
    have := View.Inv.teardown h hst t ht
    simp [hpc, ClosePc.teardown] at this
  refine (Ordered.setConn (View.Inv.finishClose h hst fun e he hie => ?_)).calls _
  exact ((View.Inv.errors h e he hie).2.2.2.1 t ht).2.2 hpc

/-- Every action that meets `NoStale` keeps the invariant. -/
theorem Ordered.step (h : w.Ordered s c) (hq : w.Sequential) (hd : w.Started) {a : WorldAct}
    (hok : NoStale s c w a) (hs : Step s w a w') : w'.Ordered s c := by
  by_cases hother : ∃ d, a.conn? = some d ∧ c ≠ d
  · obtain ⟨d, ha, hne⟩ := hother
    have hf := follows_of_step hs
    refine hf.inv ?_
    rcases purged_of_ne ha hne hs with he | ⟨_, he⟩ <;> rw [he]
    · exact h
    · exact View.Inv.dropQueuedEvents h
  have hown : ∀ d, a.conn? = some d → c = d := fun d ha => by_contra fun hne => hother ⟨d, ha, hne⟩
  cases hs
  case start hs => obtain rfl := hown _ rfl; exact h.startCall hd hs
  case readyReturned hs => obtain rfl := hown _ rfl; exact h.startOpen hq hd hs
  case readyRaised hs => obtain rfl := hown _ rfl; exact h.startClose (by simp [hs])
  case startEnqueueTurn hs => obtain rfl := hown _ rfl; exact h.startEnqueueTurn hd hs
  case startCancelled hs =>
    obtain rfl := hown _ rfl
    exact .setConn (View.Inv.setStart h (by simp [hs]) (by simp) (by simp [StartPc.opened]) fun _ => by
      rw [view_conn, hs]; rfl)
  case startHandled cancelled hs =>
    obtain rfl := hown _ rfl
    exact .setConn (View.Inv.setStart h (by simp [hs]) (by simp)
      (fun _ => View.Inv.opened h (.inl (by rw [view_conn, hs]; rfl))) fun _ => by rw [view_conn, hs]; rfl)
  case startPublish hs => obtain rfl := hown _ rfl; exact h.startPublish hq hd hs
  case startPublished opened waiter published hs =>
    obtain rfl := hown _ rfl
    refine Ordered.resolveWaiter (.setConn (View.Inv.setStart h (by simp [hs]) (by simp) (fun hop => ?_)
      (by simp [StartPc.early]))) _
    exact View.Inv.opened h (.inl (by rw [view_conn, hs]; cases opened <;> simp_all [StartPc.opened]))
  case startSettled hs => obtain rfl := hown _ rfl; exact h.startSettle hs
  case readRun hr => obtain rfl := hown _ rfl; exact h.readLoop (by rw [hr]; rfl)
  case readReturned data hr _ =>
    obtain rfl := hown _ rfl
    refine (h.receive data).readEmit ?_ (fun hm => ?_) _
    · exact congrArg ReadPc.live hr
    · rw [view_receive]; exact h.reading hq hd hm (.inr hr) (hok rfl hm)
  case readEof hr => obtain rfl := hown _ rfl; exact h.readFinally (by simp [hr])
  case readRaised hr =>
    obtain rfl := hown _ rfl
    exact h.readEmit (by rw [hr]; rfl) (fun hm => h.reading hq hd hm (.inr hr) (hok rfl hm)) _
  case readEnqueueTurn hr => obtain rfl := hown _ rfl; exact h.readEnqueueTurn hd hr hok
  case close hc => obtain rfl := hown _ rfl; exact h.userClose hc fun ht => hq.not_reading_of_context hc ht
  case closeResumed => exact h.calls _
  case closeRun ht _ => obtain rfl := hown _ rfl; exact h.runClose hq hd ht
  case closeReadDone ht hpc _ => obtain rfl := hown _ rfl; exact h.setClosePc ht rfl (by simp [hpc])
  case closeWriterDone ht hpc => obtain rfl := hown _ rfl; exact h.setClosePc ht rfl (by simp [hpc])
  case closeCallbackReturned ht hpc =>
    obtain rfl := hown _ rfl
    exact h.deferOrPublish hd ht fun ho hm => h.not_reading ho ht (by simp [hpc]) hm
  case closeFinished ht hpc => obtain rfl := hown _ rfl; exact h.closeFinished ht hpc
  case publicationInline hp hpc hi => obtain rfl := hown _ rfl; exact h.publicationInline hq hp hpc hi
  case publicationBackground hp _ hi =>
    obtain rfl := hown _ rfl
    refine .setConn (View.Inv.publicationEnqueueing h hp ?_)
    cases hm : s.delivery.dispatchMode with
    | inline => simp [wouldDeliverInline, hm] at hi
    | background => rfl
  case publicationEnqueueTurn p hp hpc =>
    obtain rfl := hown _ rfl
    exact h.publicationEnqueueTurn hp ((View.Inv.publication h p hp).2.2.2.2 hpc)
  case publisherRun hp ha => obtain rfl := hown _ rfl; exact h.publisherRun hp ha
  case publisherPublished hp =>
    obtain rfl := hown _ rfl
    exact Ordered.resolveWaiter (.setConn (View.Inv.setPublisher h (by simp [hp]) _)) _
  case workerTake hm hw hqueue => exact h.take hq hm hw hqueue
  case emitInline =>
    unfold Ordered
    rw [view_beginCall_of_ne _ (by simp [Event.conn?])]
    exact Follows.inv (.beginCall (.of_eq rfl rfl) _ _) h
  case emitBackground =>
    unfold Ordered
    rw [view_append_of_ne (by simp [Event.conn?])]
    exact h
  case handlerDone hk hf => exact h.handlerDone hq hd hk hf

/-- No payload handler of the connection runs before its opened handler has finished or once its closed handler has
started, and its handlers do not overlap on different tasks. -/
def InGrammar (c : ConnId) (w : World) : Prop :=
  (∀ k ∈ w.active, k.event.conn? = some c → k.event.isBytes → w.openedFinished c ∧ w.closedStarted c = false) ∧
    ∀ k ∈ w.active, ∀ k' ∈ w.active, k.event.conn? = some c → k'.event.conn? = some c → k.task = k'.task

theorem Ordered.init : ({} : World).Ordered s c := by
  constructor <;> simp [view, openedFinished, closedStarted, StartPc.opened, StartPc.early, ReadPc.live]

theorem ordered_of_reachable (h : (world s).Reachable (NoStale s c) w) : w.Ordered s c :=
  h.invariant_of (J := fun w => w.Sequential ∧ w.Started) (fun h => sequential_of_reachable h)
    (by rintro _ rfl; exact .init) fun _ _ _ hj hi hok hs => hi.step hj.1 hj.2 hok (.of_step hs)

theorem Ordered.inGrammar (h : w.Ordered s c) (hq : w.Sequential) : w.InGrammar c := by
  have hview : ∀ k ∈ w.active, k.event.conn? = some c → k ∈ (w.view c).active := fun k hk hc =>
    List.mem_filter.mpr ⟨hk, by simpa using hc⟩
  constructor
  · intro k hk hc hb
    have hread : (w.conns c).read ≠ .missing := by
      obtain ⟨_, ⟨_, _, he⟩ | ⟨_, e, hr, _⟩ | ⟨_, p, _, _, he⟩ | ⟨_, hw⟩⟩ := hq.mem_view (hview k hk hc)
      · simp [he, Event.isBytes] at hb
      · simp [hr]
      · have := (Event.kind_of_isBytes hb).2
        simp [he] at this
      · exact View.Inv.payload h k.event (.inr hw) (.inl hb)
    refine ⟨View.Inv.opened h (.inr hread), ?_⟩
    by_contra hcl
    have hcl : (w.view c).closedStarted := by simpa [view] using hcl
    have := (View.Inv.afterClosed h hcl).2 k (hview k hk hc)
    rw [(Event.kind_of_isBytes hb).2] at this
    cases this
  · intro k hk k' hk' hc hc'
    have hmem := hview k hk hc
    have hmem' := hview k' hk' hc'
    obtain ⟨k₁, h₁⟩ := List.length_eq_one_iff.mp
      (Nat.le_antisymm (View.Inv.single h) (List.length_pos_of_mem hmem))
    rw [h₁, List.mem_singleton] at hmem hmem'
    rw [hmem, hmem']

/-- In every run in which the read loop delivers nothing stale, the events of the connection keep their order. -/
theorem inGrammar_of_noStale (h : (world s).Reachable (NoStale s c) w) : w.InGrammar c :=
  (ordered_of_reachable h).inGrammar (sequential_of_reachable h).1

/-- In INLINE mode the read loop of a connection with an id of its own delivers nothing stale. -/
theorem Ordered.noStale (h : w.Ordered s c) (ho : s.Own c) (hm : s.delivery.dispatchMode = .inline) {a : WorldAct}
    (hs : Step s w a w') : NoStale s c w a := by
  cases hs
  case readReturned hr _ => rintro rfl _; exact (View.Inv.inlineRead h ho hm (.inr hr)).1
  case readRaised hr => rintro rfl _; exact (View.Inv.inlineRead h ho hm (.inr hr)).1
  case readEnqueueTurn hr => rintro rfl; exact absurd hr ((View.Inv.inline h hm).2.2.2.2.2 _)
  all_goals trivial

/-- So there every run keeps the order. -/
theorem inGrammar_of_inline (ho : s.Own c) (hm : s.delivery.dispatchMode = .inline)
    (h : (world s).Reachable Runs.Machine.Any w) : w.InGrammar c := by
  have hord : w.Ordered s c :=
    h.invariant_of (J := fun w => w.Sequential ∧ w.Started) (fun h => sequential_of_reachable h)
      (by rintro _ rfl; exact .init) fun _ _ _ hj hi _ hs =>
        hi.step hj.1 hj.2 (hi.noStale ho hm (.of_step hs)) (.of_step hs)
  exact hord.inGrammar (sequential_of_reachable h).1

/-! ## Runs -/

instance (a : WorldAct) : Decidable (NoStale s c w a) := by
  unfold NoStale
  cases a <;> infer_instance

instance : Decidable (w.InGrammar c) := by
  unfold InGrammar
  infer_instance

end World

/-- Connections with ids of their own, in BACKGROUND mode, on a queue of one event. -/
def oneSlotQueue : Settings := { delivery := { maxPendingEvents := 1, maxPendingEvents_pos := Nat.one_pos }, resourceId := id }

/-- The connections of one client, which all have its id. -/
def sharedId : Settings := { oneSlotQueue with resourceId := fun _ => 0 }

/-- Connection 0 is opened and reads: its handler for the first chunk runs. -/
def firstChunkHandled : List WorldAct :=
  [.start 0, .readyReturned 0, .startEnqueueTurn 0, .workerTake, .handlerDone 0 .returned, .startHandled 0 false,
    .startPublish 0, .startSettled 0, .readRun 0, .readReturned 0 [1], .readEnqueueTurn 0, .workerTake]

/-- The queue is full, and the second chunk waits. -/
def secondChunkParked : List WorldAct := firstChunkHandled ++ [.emitOther 0, .readReturned 0 [2]]

/-- The first chunk's handler closes the connection, and the second chunk gets its slot behind the close. -/
def appendBehindClose : List WorldAct :=
  [.close 0 { task := .worker, tokens := [1], direct := true }, .closeRun 0, .closeWriterDone 0,
    .closeCallbackReturned 0, .closeResumed 0, .handlerDone 1 .returned, .workerTake, .readEnqueueTurn 0,
    .publisherRun 0, .publicationRun 0, .handlerDone 2 .returned, .workerTake]

/-- Connection 0 is closed once its first chunk is handled, and connection 1 is opened while the closed handler runs. -/
def reconnected : List WorldAct := firstChunkHandled ++
  [.handlerDone 1 .returned, .close 0 { task := .user 0 }, .closeRun 0, .closeReadDone 0, .closeWriterDone 0,
    .closeCallbackReturned 0, .publicationRun 0, .publicationEnqueueTurn 0, .closeFinished 0, .closeResumed 0,
    .workerTake, .start 1, .readyReturned 1, .startEnqueueTurn 1, .handlerDone 2 .returned, .workerTake,
    .handlerDone 3 .returned, .startHandled 1 false, .startPublish 1, .startSettled 1, .readRun 1,
    .readReturned 1 [2], .readEnqueueTurn 1, .workerTake]

/-- A reconnected client: the second connection's first chunk is handled, and its events kept their order. -/
theorem inGrammar_of_reconnected :
    ∃ w : World, ((w.conns 0).published ∧ ∃ k ∈ w.active, k.event = .bytes 1 [2]) ∧ w.InGrammar 1 := by
  have hrun : ∃ w : World, (world sharedId).Reachable (World.NoStale sharedId 1) w ∧
      decide ((w.conns 0).published ∧ ∃ k ∈ w.active, k.event = .bytes 1 [2]) :=
    Runs.Machine.Reachable.exists_of_execOk rfl reconnected _ (by decide +kernel)
  obtain ⟨w, hw, hp⟩ := hrun
  exact ⟨w, by simpa using hp, World.inGrammar_of_noStale hw⟩

/-- The second chunk's handler runs on the worker while the closed handler runs on the publication task. -/
theorem not_inGrammar_of_appendBehindClose :
    ¬ ∀ w : World, (world oneSlotQueue).Reachable Runs.Machine.Any w → w.InGrammar 0 := by
  intro hall
  have hrun : ∃ w : World, (world oneSlotQueue).Reachable Runs.Machine.Any w ∧ decide (¬ w.InGrammar 0) :=
    Runs.Machine.Reachable.exists_of_exec rfl (secondChunkParked ++ appendBehindClose) _ (by decide)
  obtain ⟨w, hw, hp⟩ := hrun
  exact of_decide_eq_true hp (hall w hw)

end Aionetx
