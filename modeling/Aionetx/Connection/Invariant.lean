import Aionetx.Connection.View

/-!
# The order of the events of one connection
-/

namespace Aionetx

namespace StartPc

def opened : StartPc → Bool
  | .handled | .publishing true | .joining true _ | .joined true _ _ | .settled true _ => true
  | _ => false

/-- The opened event is on its way, and a deferred close event has not been published behind it. -/
def early : StartPc → Bool
  | .enqueueing | .awaitingHandled | .handled | .delivering | .publishing false => true
  | _ => false

@[simp, grind =] theorem opened_publicationDone (pc : StartPc) (published : Bool) :
    (pc.publicationDone published).opened = pc.opened := by
  cases pc with
  | joining opened _ => cases opened <;> rfl
  | _ => rfl

@[simp, grind =] theorem early_publicationDone (pc : StartPc) (published : Bool) :
    (pc.publicationDone published).early = pc.early := by
  cases pc <;> rfl

theorem publicationDone_eq_iff {pc pc' : StartPc} (h : ∀ opened waiter published, pc' ≠ .joined opened waiter published)
    (h' : ∀ opened waiter, pc' ≠ .joining opened waiter) (published : Bool) :
    pc.publicationDone published = pc' ↔ pc = pc' := by
  cases pc with
  | joining _ _ => exact ⟨fun he => absurd he.symm (h _ _ _), fun he => absurd he.symm (h' _ _)⟩
  | _ => rfl

end StartPc

namespace ClosePc

/-- The close task has not reached the close event. -/
def teardown : ClosePc → Bool
  | .created | .awaitingRead | .writerShutdown | .inCallback => true
  | _ => false

end ClosePc

def ReadPc.live : ReadPc → Bool
  | .created | .reading | .enqueueing _ | .delivering _ => true
  | _ => false

/-- The close task came from no handler, and none of the active handlers with the connection's id called for it. -/
def CloseTask.Plain (peers : Token → Prop) (t : CloseTask) : Prop :=
  t.callerUsesInlineDelivery = false ∧ ∀ token ∈ t.tokens, ¬ peers token

attribute [grind =] StartPc.opened StartPc.early ClosePc.teardown ReadPc.live CloseTask.Plain Event.isBytes Event.isError
  Event.isClosed Event.conn?

@[grind →] theorem Event.kind_of_isError {e : Event} (h : e.isError) : e.isBytes = false ∧ e.isClosed = false := by
  cases e <;> simp_all [Event.isError, Event.isBytes, Event.isClosed]

@[grind →] theorem Event.kind_of_isClosed {e : Event} (h : e.isClosed) : e.isBytes = false ∧ e.isError = false := by
  cases e <;> simp_all [Event.isError, Event.isBytes, Event.isClosed]

@[grind →] theorem Event.kind_of_isBytes {e : Event} (h : e.isBytes) : e.isError = false ∧ e.isClosed = false := by
  cases e <;> simp_all [Event.isError, Event.isBytes, Event.isClosed]

/-- The invariant of one connection: `own` says that it has its id to itself, `n` bounds the handler-origin tokens, and
`peers` are those of the active handlers with its id. -/
structure View.Inv (m : EventDispatchMode) (own : Prop) (c : ConnId) (n : Nat) (peers : Token → Prop) (v : View) :
    Prop where
  opened : v.conn.start.opened ∨ v.conn.read ≠ .missing → v.opened
  dispatched : v.active = [] → v.conn.start = .delivering ∨ v.worker = some (.opened c) → v.opened
  awaiting : v.conn.start = .awaitingHandled →
    v.queue = [.opened c] ∧ v.worker ≠ some (.opened c) ∨ v.queue = [] ∧ v.worker = some (.opened c)
  notAwaiting : v.conn.start ≠ .awaitingHandled → .opened c ∉ v.queue ∧ v.worker ≠ some (.opened c)
  payload : ∀ e, e ∈ v.queue ∨ v.worker = some e → e.isBytes ∨ e.isError → v.conn.read ≠ .missing
  notClosed : v.conn.state ≠ .closed →
    v.conn.deferred = false ∧ v.conn.published = false ∧ v.conn.publication = none ∧ v.conn.publisher = .missing ∧
      v.closedStarted = false
  teardown : v.conn.state ≠ .closed → ∀ t, v.conn.closeTask = some t → t.pc.teardown
  closing : v.conn.state = .closing → v.conn.closeTask ≠ none
  running : v.conn.state ≠ .closing → v.conn.state ≠ .closed → v.conn.closeTask = none
  early : v.conn.start.early →
    v.conn.publication = none ∧ v.conn.published = false ∧ v.conn.publisher = .missing ∧ v.closedStarted = false
  inline : m = .inline → v.queue = [] ∧ v.worker = none ∧ v.conn.start ≠ .enqueueing ∧
    v.conn.start ≠ .awaitingHandled ∧ v.conn.start ≠ .handled ∧ ∀ e, v.conn.read ≠ .enqueueing e
  background : m = .background → v.conn.start ≠ .delivering ∧ ∀ e, v.conn.read ≠ .delivering e
  inlineRead : own → m = .inline → v.conn.read = .created ∨ v.conn.read = .reading → v.conn.state ≠ .closed ∧
    (v.conn.state = .closing → ∀ t, v.conn.closeTask = some t →
      t.pc = .created ∧ t.needsTeardown ∧ t.detachedRead ∧ t.caller ≠ .read c)
  readTask : v.conn.read.live → v.conn.state ≠ .closing → v.conn.state ≠ .closed → v.conn.readTask
  noBytes : v.conn.state = .closed → ∀ e ∈ v.queue, e.isBytes = false
  errors : ∀ e ∈ v.queue, e.isError →
    v.conn.deferred = false ∧ v.conn.publisher = .missing ∧ (∀ p, v.conn.publication = some p → p.inline = false) ∧
      (∀ t, v.conn.closeTask = some t → t.Plain peers ∧ (∀ i, t.pc ≠ .awaitingWaiter i) ∧
        (t.pc = .finishing → v.conn.published)) ∧
      (v.conn.closeTask = none → v.conn.published)
  publication : ∀ p, v.conn.publication = some p → v.conn.published = false ∧ (∀ e ∈ v.queue, e.isError) ∧
    (m = .inline ∨ p.inline → v.queue = [] ∧ ∀ h ∈ v.active, h.task = .publication c) ∧
    (p.pc = .delivering → m = .inline ∨ p.inline) ∧ (p.pc = .enqueueing → m = .background)
  closedQueued : ∀ e ∈ v.queue, e.isClosed →
    v.conn.published ∧ ∃ errs, v.queue = errs ++ [e] ∧ ∀ e ∈ errs, e.isError
  closedDispatched : ∀ e, v.worker = some e → e.isClosed → v.conn.published
  afterClosed : v.closedStarted → (∀ e ∈ v.queue, e.isClosed) ∧ ∀ h ∈ v.active, h.event.isClosed
  single : v.active.length ≤ 1
  tokens : ∀ t, v.conn.closeTask = some t → ∀ k ∈ t.tokens, k < n

namespace View.Inv

variable {m : EventDispatchMode} {own : Prop} {c : ConnId} {n : Nat} {peers : Token → Prop} {v : View}

theorem mono (h : v.Inv m own c n peers) {n' : Nat} {peers' : Token → Prop} (hn : n ≤ n')
    (hp : ∀ token, peers' token → peers token ∨ n ≤ token) : v.Inv m own c n' peers' :=
  { h with
    errors := fun e hmem hie => by
      obtain ⟨h₁, h₂, h₃, h₄, h₅⟩ := h.errors e hmem hie
      refine ⟨h₁, h₂, h₃, fun t ht => ?_, h₅⟩
      obtain ⟨⟨hinl, htok⟩, hrest⟩ := h₄ t ht
      refine ⟨⟨hinl, fun token hmem hc => ?_⟩, hrest⟩
      rcases hp token hc with hc | hc
      · exact htok token hmem hc
      · exact absurd (h.tokens t ht token hmem) (Nat.not_lt.mpr hc)
    tokens := fun t ht k hk => Nat.lt_of_lt_of_le (h.tokens t ht k hk) hn }

theorem chunks (h : v.Inv m own c n peers) (received delivered : List Bytes) :
    ({ v with received, delivered } : View).Inv m own c n peers := { h with }

/-- Nothing is queued between the opened event and the close event of a connection that has no payload or error queued. -/
theorem queue_nil (h : v.Inv m own c n peers) (hq : ∀ e ∈ v.queue, e.conn? = some c) (hs : v.conn.start ≠ .awaitingHandled)
    (hp : v.conn.published = false) (hb : ∀ e ∈ v.queue, e.isBytes = false ∧ e.isError = false) : v.queue = [] := by
  refine List.eq_nil_iff_forall_not_mem.mpr fun e hmem => ?_
  have := h.closedQueued e hmem
  have := h.notAwaiting hs
  have := hq e hmem
  have := hb e hmem
  cases e <;> simp_all [Event.isBytes, Event.isError, Event.isClosed, Event.conn?]

theorem worker_none (h : v.Inv m own c n peers) (hw : ∀ e, v.worker = some e → e.conn? = some c)
    (hs : v.conn.start ≠ .awaitingHandled) (hp : v.conn.published = false) (hr : v.conn.read = .missing) :
    v.worker = none := by
  refine Option.eq_none_iff_forall_ne_some.mpr fun e he => ?_
  have := h.closedDispatched e he
  have := h.notAwaiting hs
  have := h.payload e (.inr he)
  have := hw e he
  cases e <;> simp_all [Event.isBytes, Event.isError, Event.isClosed, Event.conn?]

/-! ## `start()` -/

/-- `start()` goes on, away from the delivery of the opened event. -/
theorem setStart (h : v.Inv m own c n peers) {p : StartPc} (hs : v.conn.start ≠ .awaitingHandled)
    (hpc : p ≠ .awaitingHandled ∧ p ≠ .delivering ∧ p ≠ .enqueueing ∧ p ≠ .handled)
    (hop : p.opened → v.opened) (hea : p.early → v.conn.start.early) :
    ({ v with conn := { v.conn with start := p } } : View).Inv m own c n peers :=
  { h with
    opened := by have := h.opened; grind
    dispatched := by have := h.dispatched; grind
    awaiting := fun he => absurd he hpc.1
    notAwaiting := fun _ => h.notAwaiting hs
    early := fun he => h.early (hea he)
    inline := by have := h.inline; grind
    background := by have := h.background; grind }

theorem connect (h : v.Inv m own c n peers) (hs : v.conn.start = .idle) (hst : v.conn.state = .created)
    (hr : v.conn.read = .missing) :
    ({ v with conn := { v.conn with state := .connected, start := .notifyingReady } } : View).Inv m own c n peers :=
  { h.setStart (p := .notifyingReady) (by simp [hs]) (by simp) (by simp [StartPc.opened]) (by simp [StartPc.early]) with
    notClosed := fun _ => h.notClosed (by simp [hst])
    teardown := fun _ => h.teardown (by simp [hst])
    closing := nofun
    running := fun _ _ => h.running (by simp [hst]) (by simp [hst])
    inlineRead := by simp [hr]
    readTask := by simp [hr, ReadPc.live]
    noBytes := nofun }

theorem startEnqueueing (h : v.Inv m own c n peers) (hs : v.conn.start = .notifyingReady) (hst : v.conn.state = .connected)
    (hm : m = .background) : ({ v with conn := { v.conn with start := .enqueueing } } : View).Inv m own c n peers :=
  { h with
    opened := by have := h.opened; grind
    dispatched := by have := h.dispatched; grind
    awaiting := nofun
    notAwaiting := fun _ => h.notAwaiting (by simp [hs])
    early := fun _ => by
      obtain ⟨_, h₁, h₂, h₃, h₄⟩ := h.notClosed (by simp [hst])
      exact ⟨h₂, h₁, h₃, h₄⟩
    inline := fun hi => by simp [hm] at hi
    background := fun _ => ⟨nofun, (h.background hm).2⟩ }

/-- The opened event is delivered on the task that called `start()`. -/
theorem deliverOpened (h : v.Inv m own c n peers) (hs : v.conn.start = .notifyingReady) (hst : v.conn.state = .connected)
    (hm : m = .inline) (ha : v.active = []) (k : HandlerCall) :
    ({ v with conn := { v.conn with start := .delivering }, active := v.active ++ [k] } : View).Inv m own c n peers := by
  have hc := h.notClosed (by simp [hst])
  have hi := h.inline hm
  exact
  { h with
    opened := by have := h.opened; grind
    dispatched := by simp
    awaiting := nofun
    notAwaiting := fun _ => h.notAwaiting (by simp [hs])
    early := fun _ => ⟨hc.2.2.1, hc.2.1, hc.2.2.2.1, hc.2.2.2.2⟩
    inline := fun _ => ⟨hi.1, hi.2.1, nofun, nofun, nofun, hi.2.2.2.2.2⟩
    background := fun hb => by simp [hm] at hb
    errors := by simp [hi.1]
    publication := by simp [hc.2.2.1]
    afterClosed := by simp [hc.2.2.2.2]
    single := by simp [ha] }

theorem startEnqueue (h : v.Inv m own c n peers) (hs : v.conn.start = .enqueueing) (hr : v.conn.read = .missing)
    (hq : ∀ e ∈ v.queue, e.conn? = some c) :
    ({ v with conn := { v.conn with start := .awaitingHandled }, queue := v.queue ++ [.opened c] } : View).Inv m own c n peers := by
  have he := h.early (by rw [hs]; rfl)
  have hempty : v.queue = [] := h.queue_nil hq (by simp [hs]) he.2.1 fun e hmem => by
    have := h.payload e (.inl hmem)
    simp_all
  exact
  { h with
    opened := by have := h.opened; grind
    dispatched := by have := h.dispatched; grind
    awaiting := fun _ => .inl ⟨by simp [hempty], (h.notAwaiting (by simp [hs])).2⟩
    notAwaiting := fun hn => absurd rfl hn
    payload := by have := h.payload; grind
    early := fun _ => he
    inline := fun hm => absurd hs (h.inline hm).2.2.1
    background := fun hm => ⟨nofun, (h.background hm).2⟩
    noBytes := by have := h.noBytes; grind
    errors := by have := h.errors; grind
    publication := by simp [he.1]
    closedQueued := by have := h.closedQueued; grind
    afterClosed := by simp [he.2.2.2] }

/-! ## `close()` -/

/-- `close()` of a connection whose close event is not published creates a close task. -/
theorem requestClose (h : v.Inv m own c n peers) {ctx : CloseContext} (hp : v.conn.state = .closed → v.conn.published = false)
    (ht : ∀ k ∈ ctx.tokens, k < n)
    (hr : ctx.task = .read c → v.conn.read ≠ .created ∧ v.conn.read ≠ .reading) :
    ({ v with conn := v.conn.requestClose ctx } : View).Inv m own c n peers := by
  by_cases hc : v.conn.closeTask.isSome
  · simpa [Conn.requestClose, hc] using h
  have hnone : v.conn.closeTask = none := by simpa using hc
  have hpub : v.conn.published = false := by
    by_cases hst : v.conn.state = .closed
    · exact hp hst
    · exact (h.notClosed hst).2.1
  have hne : v.conn.state ≠ .closing := fun hst => h.closing hst hnone
  simp only [Conn.requestClose, hc, if_false, Bool.false_eq_true]
  exact
  { h with
    notClosed := by have := h.notClosed; grind
    teardown := by grind
    closing := nofun
    running := by grind
    inlineRead := by have := h.inlineRead; have := h.readTask; grind
    readTask := by have := h.readTask; grind
    noBytes := by have := h.noBytes; grind
    errors := by have := h.errors; grind
    tokens := by grind }

theorem finishClose (h : v.Inv m own c n peers) (hst : v.conn.state = .closed)
    (he : ∀ e ∈ v.queue, e.isError → v.conn.published) :
    ({ v with conn := { v.conn with closeTask := none } } : View).Inv m own c n peers :=
  { h with
    teardown := nofun
    closing := fun hc => by simp [hst] at hc
    running := fun _ hc => absurd hst hc
    inlineRead := fun ho hm hr => ⟨(h.inlineRead ho hm hr).1, nofun⟩
    errors := fun e hmem hie => by
      obtain ⟨h₁, h₂, h₃, _⟩ := h.errors e hmem hie
      exact ⟨h₁, h₂, h₃, nofun, fun _ => he e hmem hie⟩
    tokens := nofun }

/-- The close task goes on before the close event. -/
theorem setTeardown (h : v.Inv m own c n peers) {t : CloseTask} (ht : v.conn.closeTask = some t) {p : ClosePc}
    (hpc : p.teardown) (hr : own → m = .inline → v.conn.read ≠ .created ∧ v.conn.read ≠ .reading) :
    ({ v with conn := { v.conn with closeTask := some { t with pc := p } } } : View).Inv m own c n peers :=
  { h with
    teardown := fun _ t' ht' => by cases ht'; exact hpc
    closing := nofun
    running := fun h₁ h₂ => by simp [h.running h₁ h₂] at ht
    inlineRead := fun ho hm hc => by have := hr ho hm; simp [this.1, this.2] at hc
    errors := by have := h.errors; grind
    tokens := fun t' ht' => by cases ht'; exact h.tokens t ht }

theorem setClosePc (h : v.Inv m own c n peers) {t : CloseTask} (ht : v.conn.closeTask = some t) (hst : v.conn.state = .closed)
    {p : ClosePc} (he : ∀ e ∈ v.queue, e.isError → p = .awaitingPublication) :
    ({ v with conn := { v.conn with closeTask := some { t with pc := p } } } : View).Inv m own c n peers :=
  { h with
    teardown := fun hc => absurd hst hc
    closing := nofun
    running := fun _ hc => absurd hst hc
    inlineRead := fun ho hm hr => absurd hst (h.inlineRead ho hm hr).1
    errors := by have := h.errors; grind
    tokens := fun t' ht' => by cases ht'; exact h.tokens t ht }

theorem wakeCloseTask (h : v.Inv m own c n peers) {f : ClosePc → ClosePc} (hf : ∀ pc, pc.teardown → f pc = pc)
    (he : ∀ e ∈ v.queue, e.isError → ∀ t, v.conn.closeTask = some t →
      (∀ i, f t.pc ≠ .awaitingWaiter i) ∧ (f t.pc = .finishing → v.conn.published)) :
    ({ v with conn := { v.conn with closeTask := v.conn.closeTask.map fun t => { t with pc := f t.pc } } } :
      View).Inv m own c n peers := by
  rcases ht : v.conn.closeTask with _ | t
  · exact { h with
      teardown := nofun
      closing := fun hc => absurd ht (h.closing hc)
      running := fun _ _ => rfl
      inlineRead := fun ho hm hr => ⟨(h.inlineRead ho hm hr).1, fun _ => nofun⟩
      errors := fun e hmem hie => by have := h.errors e hmem hie; simp_all
      tokens := nofun }
  · exact { h with
      teardown := fun hc t' ht' => by
        cases ht'
        have hpc := h.teardown hc t ht
        exact (congrArg ClosePc.teardown (hf _ hpc)).trans hpc
      closing := nofun
      running := fun h₁ h₂ => by simp [h.running h₁ h₂] at ht
      inlineRead := fun ho hm hr => by
        obtain ⟨h₁, h₂⟩ := h.inlineRead ho hm hr
        refine ⟨h₁, fun hc t' ht' => ?_⟩
        cases ht'
        have := h₂ hc t ht
        exact ⟨(hf _ (by rw [this.1]; rfl)).trans this.1, this.2⟩
      errors := fun e hmem hie => by
        obtain ⟨h₁, h₂, h₃, h₄, _⟩ := h.errors e hmem hie
        refine ⟨h₁, h₂, h₃, fun t' ht' => ?_, nofun⟩
        cases ht'
        exact ⟨(h₄ t ht).1, he e hmem hie t ht⟩
      tokens := fun t' ht' => by cases ht'; exact h.tokens t ht }

theorem resolveWaiter (h : v.Inv m own c n peers) (captured : Option Nat) :
    ({ v with conn := v.conn.resolveWaiter captured } : View).Inv m own c n peers := by
  unfold Conn.resolveWaiter
  split
  · next waiter =>
    split
    · refine View.Inv.wakeCloseTask (v := { v with conn := { v.conn with waiter := none } }) (f := ClosePc.waiterDone waiter)
        { h with } ?_ ?_
      · intro pc hpc; cases pc <;> first | rfl | cases hpc
      · intro e hmem hie t ht
        obtain ⟨_, h₂, h₃⟩ := (h.errors e hmem hie).2.2.2.1 t ht
        have : t.pc.waiterDone waiter = t.pc := by
          cases hpc : t.pc <;> first | rfl | exact absurd hpc (h₂ _)
        rw [this]
        exact ⟨h₂, h₃⟩
    · exact h
  · exact h

theorem dropQueuedEvents (h : v.Inv m own c n peers) :
    ({ v with queue := v.queue.filter fun e => !e.isBytes } : View).Inv m own c n peers :=
  { h with
    awaiting := by have := h.awaiting; grind
    notAwaiting := by have := h.notAwaiting; grind
    payload := by have := h.payload; grind
    inline := by have := h.inline; grind
    noBytes := by grind
    errors := by have := h.errors; grind
    publication := by have := h.publication; grind
    closedQueued := fun e hmem hc => by
      obtain ⟨hp, errs, hq, he⟩ := h.closedQueued e (List.mem_of_mem_filter hmem) hc
      have hne : ∀ e' ∈ v.queue, e'.isBytes = false := by
        rw [hq]; intro e' he'; have := he e'; grind
      refine ⟨hp, errs, ?_, he⟩
      rw [List.filter_eq_self.mpr (by simpa using hne), hq]
    afterClosed := by have := h.afterClosed; grind }

theorem deferCloseEvent (h : v.Inv m own c n peers) {publish : Bool} (hq : ∀ e ∈ v.queue, e.isBytes = false ∧ e.isError = false)
    (hr : own → m = .inline → v.conn.read ≠ .created ∧ v.conn.read ≠ .reading) (hp : publish → v.conn.start.early = false) :
    ({ v with conn := v.conn.deferCloseEvent publish } : View).Inv m own c n peers :=
  { h with
    notClosed := fun hc => absurd rfl hc
    teardown := fun hc => absurd rfl hc
    closing := nofun
    running := fun _ hc => absurd rfl hc
    early := by have := h.early; grind [Conn.deferCloseEvent]
    inlineRead := by grind [Conn.deferCloseEvent]
    readTask := fun _ _ hc => absurd rfl hc
    noBytes := fun _ e he => (hq e he).1
    errors := fun e he hie => by simp [(hq e he).2] at hie }

theorem publish (h : v.Inv m own c n peers) {p : Publication} (hpc : p.pc = .created) (hp : v.conn.published = false)
    (he : v.conn.start.early = false)
    (hq : ∀ e ∈ v.queue, e.isError) (hi : m = .inline ∨ p.inline → v.queue = [] ∧ v.active = [])
    (hr : own → m = .inline → v.conn.read ≠ .created ∧ v.conn.read ≠ .reading) :
    ({ v with conn := { v.conn with state := .closed, publication := some p } } : View).Inv m own c n peers :=
  { h with
    notClosed := fun hc => absurd rfl hc
    teardown := fun hc => absurd rfl hc
    closing := nofun
    running := fun _ hc => absurd rfl hc
    early := by grind
    inlineRead := by grind
    readTask := fun _ _ hc => absurd rfl hc
    noBytes := by grind
    errors := by have := h.errors; grind
    publication := by grind }

theorem takeDeferred (h : v.Inv m own c n peers) : ({ v with conn := { v.conn with deferred := false } } : View).Inv m own c n peers :=
  { h with
    notClosed := by have := h.notClosed; grind
    errors := by have := h.errors; grind }

theorem setPublisher (h : v.Inv m own c n peers) (hp : v.conn.publisher ≠ .missing) (publisher : Publisher) :
    ({ v with conn := { v.conn with publisher } } : View).Inv m own c n peers :=
  { h with
    notClosed := by have := h.notClosed; grind
    early := by have := h.early; grind
    errors := by have := h.errors; grind }

theorem finishPublication (h : v.Inv m own c n peers) {p : Publication} (hp : v.conn.publication = some p) (ok : Bool)
    (he : ok = false → ∀ e ∈ v.queue, e.isError = false) :
    ({ v with conn := v.conn.finishPublication ok } : View).Inv m own c n peers := by
  have hst : v.conn.state = .closed := by
    by_contra hst
    simp [(h.notClosed hst).2.2.1] at hp
  have hearly : v.conn.start.early = false := by
    by_contra hc
    simp [(h.early (by simpa using hc)).1] at hp
  have hpc : ∀ pc ∈ [StartPc.delivering, .awaitingHandled, .enqueueing, .handled],
      v.conn.start.publicationDone ok = pc ↔ v.conn.start = pc := by
    intro pc hpc
    exact StartPc.publicationDone_eq_iff (by rintro _ _ _ rfl; simp at hpc) (by rintro _ _ rfl; simp at hpc) ok
  simp only [List.mem_cons, List.not_mem_nil, or_false, forall_eq_or_imp, forall_eq] at hpc
  have hrest : ({ v with conn := { v.conn with
      published := v.conn.published || ok
      previousState := if ok then none else v.conn.previousState
      publication := none
      start := v.conn.start.publicationDone ok
      publisher := v.conn.publisher.publicationDone } } : View).Inv m own c n peers :=
    { h with
      opened := by have := h.opened; grind
      dispatched := by have := h.dispatched; grind
      awaiting := by have := h.awaiting; grind
      notAwaiting := by have := h.notAwaiting; grind
      notClosed := fun hc => absurd hst hc
      teardown := fun hc => absurd hst hc
      running := fun _ hc => absurd hst hc
      early := by grind
      inline := by have := h.inline; grind
      background := by have := h.background; grind
      errors := by have := h.errors; grind [Publisher.publicationDone]
      publication := nofun
      closedQueued := by have := h.closedQueued; grind
      closedDispatched := by have := h.closedDispatched; grind }
  refine hrest.wakeCloseTask (f := ClosePc.publicationDone) ?_ ?_
  · intro pc hpc; cases pc <;> first | rfl | cases hpc
  · intro e hmem hie t ht
    obtain ⟨_, h₂, h₃⟩ := (h.errors e hmem hie).2.2.2.1 t ht
    have hok : ok = true := by
      by_contra hok
      simp [he (by simpa using hok) e hmem] at hie
    refine ⟨fun i => ?_, fun _ => by simp [hok]⟩
    cases hpc : t.pc <;> simp [ClosePc.publicationDone]
    exact absurd hpc (h₂ _)

/-! ## The close event -/

theorem deliverClosed (h : v.Inv m own c n peers) {p : Publication} (hp : v.conn.publication = some p) (hi : m = .inline ∨ p.inline)
    (ha : ∀ k ∈ v.active, k.task ≠ .publication c) {k : HandlerCall} (hk : k.task = .publication c)
    (hke : k.event.isClosed) :
    ({ v with
        conn := { v.conn with publication := some { p with pc := .delivering } }
        active := v.active ++ [k]
        closedStarted := true } : View).Inv m own c n peers := by
  have hst : v.conn.state = .closed := by
    by_contra hst
    simp [(h.notClosed hst).2.2.1] at hp
  obtain ⟨hpub, hq, hinl, _⟩ := h.publication p hp
  obtain ⟨hq, hact⟩ := hinl hi
  have hempty : v.active = [] := List.eq_nil_iff_forall_not_mem.mpr fun k' hk' => ha k' hk' (hact k' hk')
  exact
  { h with
    dispatched := by simp
    notClosed := fun hc => absurd hst hc
    early := fun hc => by simp [(h.early hc).1] at hp
    errors := by simp [hq]
    publication := by grind
    afterClosed := by simp [hq, hempty, hke]
    single := by simp [hempty] }

theorem publicationEnqueueing (h : v.Inv m own c n peers) {p : Publication} (hp : v.conn.publication = some p)
    (hm : m = .background) :
    ({ v with conn := { v.conn with publication := some { p with pc := .enqueueing } } } : View).Inv m own c n peers :=
  { h with
    notClosed := by have := h.notClosed; grind
    early := by have := h.early; grind
    errors := by have := h.errors; grind
    publication := by have := h.publication p hp; grind }

/-- The close event is queued, and its publication ends. -/
theorem enqueueClosed (h : v.Inv m own c n peers) {p : Publication} (hp : v.conn.publication = some p)
    (hm : m = .background) {e : Event} (he : e.isClosed) :
    ({ v with conn := v.conn.finishPublication true, queue := v.queue ++ [e] } : View).Inv m own c n peers := by
  have hf := h.finishPublication hp true (by simp)
  have hst : v.conn.state = .closed := by
    by_contra hst
    simp [(h.notClosed hst).2.2.1] at hp
  have hq := (h.publication p hp).2.1
  have hne : v.conn.start ≠ .awaitingHandled := fun hs => by simp [(h.early (by rw [hs]; rfl)).1] at hp
  have hne' : (v.conn.start.publicationDone true) ≠ .awaitingHandled := by
    rwa [Ne, StartPc.publicationDone_eq_iff (by simp) (by simp)]
  exact
  { hf with
    awaiting := fun hs => absurd hs hne'
    notAwaiting := by have := h.notAwaiting hne; grind
    payload := by have := hf.payload; grind
    inline := by simp [hm]
    noBytes := by have := hf.noBytes; grind
    errors := by have := hf.errors; grind
    publication := nofun
    closedQueued := fun e' hmem hc => by
      refine ⟨by simp [Conn.finishPublication], v.queue, ?_, hq⟩
      rcases List.mem_append.mp hmem with hmem | hmem
      · have := hq e' hmem; grind
      · simp_all
    afterClosed := by have := hf.afterClosed; grind }

/-! ## The worker and the end of handler calls -/

theorem take (h : v.Inv m own c n peers) (hm : m = .background) (ha : v.active = []) {e : Event} {rest : List Event}
    (hq : v.queue = e :: rest) (token : Token) :
    ({ v with
        active := v.active ++ [⟨token, .worker, e⟩]
        queue := rest
        worker := some e
        closedStarted := v.closedStarted || e.isClosed } : View).Inv m own c n peers := by
  have hmem : e ∈ v.queue := by simp [hq]
  have hclosed : e.isClosed → rest = [] := by
    intro hc
    obtain ⟨_, errs, herrs, herr⟩ := h.closedQueued e hmem hc
    rw [hq] at herrs
    rcases errs with _ | ⟨e', errs⟩
    · simpa using herrs
    · have := herr e (by simp_all)
      grind
  exact
  { h with
    dispatched := by simp
    awaiting := by have := h.awaiting; grind
    notAwaiting := by have := h.notAwaiting; grind
    payload := by have := h.payload; grind
    notClosed := by have := h.notClosed; have := h.closedQueued e hmem; grind
    early := by have := h.early; have := h.closedQueued e hmem; grind
    inline := by simp [hm]
    noBytes := by have := h.noBytes; grind
    errors := by have := h.errors; grind
    publication := by have := h.publication; grind
    closedQueued := fun e' hmem' hc => by
      obtain ⟨hp, errs, herrs, herr⟩ := h.closedQueued e' (by rw [hq]; exact List.mem_cons_of_mem _ hmem') hc
      rw [hq] at herrs
      rcases errs with _ | ⟨e₁, errs⟩
      · simp_all
      · exact ⟨hp, errs, by simp_all, fun e he => herr e (List.mem_cons_of_mem _ he)⟩
    closedDispatched := by have := h.closedQueued; grind
    afterClosed := by have := h.afterClosed; grind
    single := by simp [ha] }

theorem endCall (h : v.Inv m own c n peers) {k : HandlerCall}
    (hr : v.conn.start = .delivering ∨ v.worker = some (.opened c) → k.event = .opened c) :
    ({ v with
        active := v.active.filter (· ≠ k)
        opened := v.opened || k.event = .opened c } : View).Inv m own c n peers :=
  { h with
    opened := by have := h.opened; grind
    dispatched := by grind
    errors := by have := h.errors; grind
    publication := by have := h.publication; grind
    afterClosed := by have := h.afterClosed; grind
    single := Nat.le_trans (List.length_filter_le ..) h.single }

/-- The worker is done with an event that `start()` does not wait for. -/
theorem workerDone (h : v.Inv m own c n peers) (hs : v.conn.start = .awaitingHandled → v.worker ≠ some (.opened c)) :
    ({ v with worker := none } : View).Inv m own c n peers :=
  { h with
    dispatched := by have := h.dispatched; grind
    awaiting := by have := h.awaiting; grind
    notAwaiting := by have := h.notAwaiting; grind
    payload := by have := h.payload; grind
    inline := by have := h.inline; grind
    closedDispatched := nofun }

/-- The worker is done with the opened event: its `handled` future is completed. -/
theorem handled (h : v.Inv m own c n peers) (ha : v.active = []) (hs : v.conn.start = .awaitingHandled)
    (hw : v.worker = some (.opened c)) :
    ({ v with conn := { v.conn with start := .handled }, worker := none } : View).Inv m own c n peers :=
  { h with
    opened := fun _ => h.dispatched ha (.inr hw)
    dispatched := nofun
    awaiting := nofun
    notAwaiting := by have := h.awaiting hs; grind
    payload := by have := h.payload; grind
    early := fun _ => h.early (by rw [hs]; rfl)
    inline := fun hm => absurd hs (h.inline hm).2.2.2.1
    background := fun hm => ⟨nofun, (h.background hm).2⟩
    closedDispatched := nofun }

/-- `start()` goes on after the delivery of the opened event on its own task. -/
theorem delivered (h : v.Inv m own c n peers) (ha : v.active = []) (hs : v.conn.start = .delivering) (opened : Bool) :
    ({ v with conn := { v.conn with start := .publishing opened } } : View).Inv m own c n peers :=
  h.setStart (by simp [hs]) (by simp) (fun _ => h.dispatched ha (.inl hs)) (fun _ => by rw [hs]; rfl)

/-! ## The read loop -/

theorem createRead (h : v.Inv m own c n peers) (ho : v.opened) (hs : v.conn.start ≠ .awaitingHandled)
    (hst : v.conn.state = .connected) :
    ({ v with conn := { v.conn with start := .done, read := .created, readTask := true } } : View).Inv m own c n peers :=
  { h.setStart (p := .done) hs (by simp) nofun nofun with
    opened := fun _ => ho
    payload := by grind
    inline := by have := h.inline; grind
    background := by have := h.background; grind
    inlineRead := by simp [hst]
    readTask := by simp }

theorem setRead (h : v.Inv m own c n peers) {r : ReadPc} (hne : r ≠ .missing) (hold : v.conn.read ≠ .missing)
    (hlive : r.live → v.conn.read.live ∧ v.conn.state ≠ .closing ∧ v.conn.state ≠ .closed)
    (hpc : ∀ e, r ≠ .enqueueing e ∧ r ≠ .delivering e) :
    ({ v with conn := { v.conn with read := r } } : View).Inv m own c n peers :=
  { h with
    opened := fun _ => h.opened (.inr hold)
    payload := by grind
    inline := by have := h.inline; grind
    background := by have := h.background; grind
    inlineRead := by grind
    readTask := by have := h.readTask; grind }

theorem cancelRead (h : v.Inv m own c n peers) : ({ v with conn := { v.conn with read := v.conn.read.cancel } } : View).Inv m own c n peers := by
  rcases hr : v.conn.read with _ | _ | _ | e | e | _ | _
  case missing =>
    have hv : ({ v with conn := { v.conn with read := ReadPc.missing.cancel } } : View) = v := by
      rw [ReadPc.cancel, ← hr]
    rw [hv]
    exact h
  case delivering =>
    have hv : ({ v with conn := { v.conn with read := (ReadPc.delivering e).cancel } } : View) = v := by
      rw [ReadPc.cancel, ← hr]
    rw [hv]
    exact h
  all_goals exact h.setRead (r := .done) (by simp) (by simp [hr]) (by simp [ReadPc.live]) (by simp)

theorem readEnqueueing (h : v.Inv m own c n peers) (hm : m = .background) (hr : v.conn.read.live) (e : ReadEvent) :
    ({ v with conn := { v.conn with read := .enqueueing e } } : View).Inv m own c n peers :=
  { h with
    opened := fun _ => h.opened (.inr (by rintro hc; simp [hc, ReadPc.live] at hr))
    payload := by grind
    inline := by simp [hm]
    background := fun _ => ⟨(h.background hm).1, nofun⟩
    inlineRead := by simp [hm]
    readTask := fun _ => h.readTask hr }

theorem readDelivering (h : v.Inv m own c n peers) (hm : m = .inline) (hr : v.conn.read.live) (ha : v.active = [])
    (hp : v.conn.publication = none) (hc : v.closedStarted = false) (e : ReadEvent)
    (k : HandlerCall) :
    ({ v with conn := { v.conn with read := .delivering e }, active := v.active ++ [k] } : View).Inv m own c n peers :=
  { h with
    opened := fun _ => h.opened (.inr (by rintro hc; simp [hc, ReadPc.live] at hr))
    dispatched := by simp
    payload := by grind
    inline := by have := h.inline; grind
    background := by simp [hm]
    inlineRead := by grind
    readTask := fun _ => h.readTask hr
    errors := by simp [(h.inline hm).1]
    publication := by simp [hp]
    afterClosed := by simp [hc]
    single := by simp [ha] }

theorem readAppend (h : v.Inv m own c n peers) (hm : m = .background) (hst : v.conn.state ≠ .closed)
    (hr : v.conn.read ≠ .missing) (hs : v.conn.start = .done) (e : ReadEvent)
    (herr : e = .error → ∃ t, v.conn.closeTask = some t ∧ t.Plain peers) :
    ({ v with queue := v.queue ++ [e.event c] } : View).Inv m own c n peers := by
  obtain ⟨hd, hpub, hp, hpr, hc⟩ := h.notClosed hst
  have hopened : e.event c ≠ .opened c ∧ (e.event c).isClosed = false := by cases e <;> simp [ReadEvent.event, Event.isClosed]
  exact
  { h with
    awaiting := by simp [hs]
    notAwaiting := by have := h.notAwaiting; grind
    payload := by grind
    inline := by simp [hm]
    noBytes := fun hcl => absurd hcl hst
    errors := fun e' hmem hie => by
      rcases List.mem_append.mp hmem with hmem | hmem
      · exact h.errors e' hmem hie
      · rw [List.mem_singleton] at hmem
        subst hmem
        obtain ⟨t, ht, hplain⟩ := herr (by cases e <;> simp_all [ReadEvent.event, Event.isError])
        refine ⟨hd, hpr, by simp [hp], fun t' ht' => ?_, fun hn => by simp [ht] at hn⟩
        obtain rfl : t = t' := by simpa [ht] using ht'
        have := h.teardown hst t ht
        exact ⟨hplain, by grind, by grind⟩
    publication := by simp [hp]
    closedQueued := by have := h.closedQueued; grind
    afterClosed := by simp [hc] }

end View.Inv

end Aionetx
