import Aionetx.Connection.Grammar

/-!
# The chunks of one connection

* `View.Stream` : the chunks read are those delivered, then those queued, then the one in the read loop's hand;
* `World.Lossless` : nobody but the read loop closes the connection, and no purge finds a chunk of it;
* `Streaming.step` : the actions that meet `Lossless` keep the invariant;
* `received_of_lossless` : in those runs nothing is lost.
-/

namespace Aionetx

/-- The chunk that the read loop has read and not queued. -/
def ReadPc.inHand : ReadPc → List Bytes
  | .enqueueing (.bytes data) => [data]
  | _ => []

/-- The invariant of a connection that only its own read loop closes. -/
structure View.Stream (c : ConnId) (v : View) : Prop where
  live : v.conn.read.live → v.conn.state = .connected
  running : v.conn.closeTask ≠ none → v.conn.state = .closing ∨ v.conn.state = .closed
  shut : v.conn.deferred ∨ v.conn.publication ≠ none ∨ v.closedStarted ∨ (∃ e ∈ v.queue, e.isClosed) →
    v.conn.state = .closed
  purged : v.conn.state = .closed → ∀ e ∈ v.queue, e.isBytes = false
  accounted : v.delivered ++ v.queue.filterMap (Event.payload? c) ++ v.conn.read.inHand = v.received

namespace View.Stream

variable {c : ConnId} {v : View}

/-- A read loop that goes on reading has no close task. -/
theorem live_false (h : v.Stream c) (ht : v.conn.closeTask ≠ none) : v.conn.read.live = false := by
  by_contra hr
  rcases h.running ht with hst | hst <;> simp [h.live (by simpa using hr)] at hst

/-- The connection changes, but for the chunk in its hand. -/
theorem setConn (h : v.Stream c) {conn : Conn} (hlive : conn.read.live → conn.state = .connected)
    (hrun : conn.closeTask ≠ none → conn.state = .closing ∨ conn.state = .closed)
    (hin : conn.read.inHand = v.conn.read.inHand)
    (hshut : v.conn.state = .closed ∨ conn.deferred ∨ conn.publication ≠ none → conn.state = .closed)
    (hpurged : conn.state = .closed → v.conn.state = .closed ∨ ∀ e ∈ v.queue, e.isBytes = false) :
    ({ v with conn } : View).Stream c where
  live := hlive
  running := hrun
  shut := by have := h.shut; grind
  purged := by have := h.purged; grind
  accounted := by rw [← h.accounted, hin]

theorem setStart (h : v.Stream c) (start : StartPc) : ({ v with conn := { v.conn with start } } : View).Stream c :=
  { h with }

theorem createRead (h : v.Stream c) (hst : v.conn.state = .connected) (hr : v.conn.read = .missing) :
    ({ v with conn := { v.conn with start := .done, read := .created, readTask := true } } : View).Stream c :=
  { h with
    live := fun _ => hst
    accounted := by simp [← h.accounted, hr, ReadPc.inHand] }

theorem setRead (h : v.Stream c) {r : ReadPc} (hlive : r.live → v.conn.state = .connected)
    (hin : r.inHand = v.conn.read.inHand) : ({ v with conn := { v.conn with read := r } } : View).Stream c :=
  { h with
    live := hlive
    accounted := by rw [← h.accounted, hin] }

/-- `close()`, once the read task does not go on reading. -/
theorem requestClose (h : v.Stream c) (hr : v.conn.read.live = false) (ctx : CloseContext) :
    ({ v with conn := v.conn.requestClose ctx } : View).Stream c := by
  have hshut := h.shut
  have hrun := h.running
  refine h.setConn (by simp [hr]) ?_ (by simp) ?_ ?_ <;> unfold Conn.requestClose <;> grind

theorem setCloseTask (h : v.Stream c) (ht : v.conn.closeTask ≠ none) (closeTask : Option CloseTask) :
    ({ v with conn := { v.conn with closeTask } } : View).Stream c :=
  { h with running := fun _ => h.running ht }

theorem wakeCloseTask (h : v.Stream c) (f : CloseTask → CloseTask) :
    ({ v with conn := { v.conn with closeTask := v.conn.closeTask.map f } } : View).Stream c :=
  { h with running := fun ht => h.running (by simpa using ht) }

theorem resolveWaiter (h : v.Stream c) (captured : Option Nat) :
    ({ v with conn := v.conn.resolveWaiter captured } : View).Stream c := by
  unfold Conn.resolveWaiter
  split
  · split
    · exact { h.wakeCloseTask _ with }
    · exact h
  · exact h

theorem setPublisher (h : v.Stream c) (publisher : Publisher) :
    ({ v with conn := { v.conn with publisher } } : View).Stream c :=
  { h with }

theorem setPublication (h : v.Stream c) (hp : v.conn.publication ≠ none) (publication : Option Publication) :
    ({ v with conn := { v.conn with publication } } : View).Stream c :=
  { h with shut := fun _ => h.shut (.inr (.inl hp)) }

theorem finishPublication (h : v.Stream c) (ok : Bool) :
    ({ v with conn := v.conn.finishPublication ok } : View).Stream c :=
  { h.wakeCloseTask _ with
    shut := by have := h.shut; simp only [Conn.finishPublication]; grind }

/-- The state turns to closed, with no payload queued. -/
theorem shutDown (h : v.Stream c) (hr : v.conn.read.live = false) (hq : ∀ e ∈ v.queue, e.isBytes = false) {conn : Conn}
    (hread : conn.read = v.conn.read) (hst : conn.state = .closed) : ({ v with conn } : View).Stream c :=
  h.setConn (by simp [hread, hr]) (fun _ => .inr hst) (by rw [hread]) (fun _ => hst) fun _ => .inr hq

/-- An event that carries no chunk is queued. -/
theorem append (h : v.Stream c) {e : Event} (hb : e.isBytes = false) (hc : e.isClosed → v.conn.state = .closed) :
    ({ v with queue := v.queue ++ [e] } : View).Stream c where
  live := h.live
  running := h.running
  shut := by have := h.shut; grind
  purged := by have := h.purged; grind
  accounted := by
    have hp : e.payload? c = none := by cases e <;> simp_all [Event.payload?, Event.isBytes]
    simp [← h.accounted, hp]

theorem readAppend (h : v.Stream c) {e : ReadEvent} (hr : v.conn.read = .enqueueing e) :
    ({ v with conn := { v.conn with read := .delivering e }, queue := v.queue ++ [e.event c] } : View).Stream c where
  live := fun _ => h.live (by rw [hr]; rfl)
  running := h.running
  shut := by
    have := h.shut
    have hc : (e.event c).isClosed = false := by cases e <;> rfl
    grind
  purged := fun hst => by
    have hst' := h.live (by rw [hr]; rfl)
    exact absurd (hst'.symm.trans hst) (by simp)
  accounted := by
    rw [← h.accounted, hr]
    cases e <;> simp [ReadEvent.event, Event.payload?, ReadPc.inHand]

/-- `reader.read` returns a chunk, which goes to the queue. -/
theorem receive (h : v.Stream c) (hr : v.conn.read = .reading) (data : Bytes) :
    ({ v with
        conn := { v.conn with read := .enqueueing (.bytes data) }
        received := v.received ++ [data] } : View).Stream c where
  live := fun _ => h.live (by rw [hr]; rfl)
  running := h.running
  shut := h.shut
  purged := h.purged
  accounted := by simp [← h.accounted, hr, ReadPc.inHand]

/-- The worker takes the next event of the connection. -/
theorem take (h : v.Stream c) {e : Event} {rest : List Event} (hq : v.queue = e :: rest) (active : List HandlerCall)
    (worker : Option Event) :
    ({ v with
        active, worker
        queue := rest
        closedStarted := v.closedStarted || e.isClosed
        delivered := v.delivered ++ (e.payload? c).toList } : View).Stream c where
  live := h.live
  running := h.running
  shut := by have := h.shut; grind
  purged := by have := h.purged; grind
  accounted := by
    rw [← h.accounted, hq, List.filterMap_cons]
    cases e.payload? c <;> simp

/-- Once the closed handler has started, every chunk read has been delivered. -/
theorem received_eq (h : v.Stream c) (hc : v.closedStarted) : v.received = v.delivered := by
  have hst := h.shut (.inr (.inr (.inl hc)))
  have hq : v.queue.filterMap (Event.payload? c) = [] := by
    refine List.filterMap_eq_nil_iff.mpr fun e he => ?_
    have := h.purged hst e he
    cases e <;> simp_all [Event.payload?, Event.isBytes]
  have hr : v.conn.read.inHand = [] := by
    cases hread : v.conn.read with
    | enqueueing e => have := h.live (by rw [hread]; rfl); simp [hst] at this
    | _ => rfl
  simp [← h.accounted, hq, hr]

end View.Stream

namespace World

variable {s : Settings} {w w' : World} {c d : ConnId}

def Streaming (c : ConnId) (w : World) : Prop := (w.view c).Stream c

theorem Streaming.setConn {conn : Conn} (h : ({ w.view c with conn } : View).Stream c) : (w.setConn c conn).Streaming c := by
  unfold Streaming
  rw [view_setConn]
  exact h

/-! ## `start()` -/

theorem Streaming.close (h : w.Streaming c) (hr : (w.conns c).read.live = false) (ctx : CloseContext) :
    (w.close s ctx c).1.Streaming c := by
  rcases close_spec (s := s) (w := w) (c := c) ctx with he | ⟨he, _⟩
  · rw [he]; exact h
  · rw [he]; exact .setConn (View.Stream.requestClose h hr ctx)

theorem Streaming.startClose (h : w.Streaming c) (hr : (w.conns c).read = .missing) : (w.startClose s c).Streaming c :=
  Streaming.close (.setConn (View.Stream.setStart h _)) (by simp [hr, ReadPc.live]) _

theorem Streaming.startCall (h : w.Streaming c) (hr : (w.conns c).read = .missing) : (w.startCall c).Streaming c := by
  unfold World.startCall
  dsimp only
  split
  · next hst =>
    have hshut := View.Stream.shut h
    have hrun := View.Stream.running h
    exact .setConn (View.Stream.setConn h (by simp [hr, ReadPc.live]) (by simp_all) rfl (by simp_all) (by simp))
  · exact .setConn (View.Stream.setStart h _)

theorem Streaming.startOpen (h : w.Streaming c) (hm : s.delivery.dispatchMode = .background) :
    (w.startOpen s c).Streaming c := by
  simp only [World.startOpen, hm]
  split <;> exact .setConn (View.Stream.setStart h _)

theorem Streaming.resolveWaiter (h : w.Streaming c) (captured : Option Nat) : (w.resolveWaiter c captured).Streaming c :=
  Streaming.setConn (View.Stream.resolveWaiter h captured)

/-- The deferred close event is taken up: the connection is closed already. -/
theorem Streaming.takeDeferred (h : w.Streaming c) (hdef : (w.conns c).deferred) {conn : Conn}
    (hread : conn.read = (w.conns c).read) (hst : conn.state = .closed) : (w.setConn c conn).Streaming c := by
  have hcl := View.Stream.shut h (.inl hdef)
  refine .setConn (View.Stream.shutDown h ?_ (View.Stream.purged h hcl) hread hst)
  by_contra hl
  have hst' := View.Stream.live h (by simpa using hl)
  simp [show (w.conns c).state = .connected from hst'] at hcl

theorem finalizeClose_state {conn : Conn} {inline : Bool}
    (h : conn.published ∨ conn.publication.isSome → conn.state = .closed) : (conn.finalizeClose inline).state = .closed := by
  unfold Conn.finalizeClose
  split
  · next hp => exact h (by simpa using hp)
  · rfl

theorem Streaming.startPublish (h : w.Streaming c) (opened : Bool) : (w.startPublish c opened).Streaming c := by
  unfold World.startPublish
  dsimp only
  split_ifs with hdef hpub
  · exact .setConn (View.Stream.setStart h _)
  · have hdef : (w.conns c).deferred := by simpa using hdef
    refine Streaming.resolveWaiter (h.takeDeferred hdef ?_ ?_) _
    · rfl
    · exact View.Stream.shut h (.inl hdef)
  · have hdef : (w.conns c).deferred := by simpa using hdef
    refine h.takeDeferred hdef ?_ ?_
    · exact Conn.finalizeClose_read _ _
    · exact finalizeClose_state fun _ => View.Stream.shut h (.inl hdef)

theorem Streaming.startSettle (h : w.Streaming c) (hr : (w.conns c).read = .missing) (opened : Bool)
    (result : PublishResult) : (w.startSettle s c opened result).Streaming c := by
  unfold World.startSettle
  dsimp only
  split
  · exact .setConn (View.Stream.setStart h _)
  · split
    · next hst => exact .setConn (View.Stream.createRead h hst hr)
    · exact .setConn (View.Stream.setStart h _)
  · exact h.startClose hr

/-! ## The read loop -/

theorem Streaming.readFinally (h : w.Streaming c) (hr : (w.conns c).read.inHand = []) : (w.readFinally s c).Streaming c := by
  rw [readFinally_eq]
  split
  · exact .setConn (View.Stream.setRead h (by simp [ReadPc.live]) hr.symm)
  · rw [requestClose_setRead]
    exact .setConn (View.Stream.requestClose (v := { w.view c with conn := { w.conns c with read := .closing } })
      (View.Stream.setRead h (by simp [ReadPc.live]) hr.symm) rfl _)

theorem Streaming.readLoop (h : w.Streaming c) (hr : (w.conns c).read.inHand = []) : (w.readLoop s c).Streaming c := by
  unfold World.readLoop
  dsimp only
  split
  · next hst => exact .setConn (View.Stream.setRead h (fun _ => hst) hr.symm)
  · exact h.readFinally hr

theorem Streaming.afterReadEmit (h : w.Streaming c) (hr : (w.conns c).read.inHand = []) (e : ReadEvent) :
    (w.afterReadEmit s c e).Streaming c := by
  cases e with
  | bytes => exact h.readLoop hr
  | error => exact h.readFinally hr

/-- What the read loop does after an event does not depend on where it stood. -/
theorem afterReadEmit_setRead (read : ReadPc) (e : ReadEvent) :
    (w.setConn c { w.conns c with read }).afterReadEmit s c e = w.afterReadEmit s c e := by
  have hf : (w.setConn c { w.conns c with read }).readFinally s c = w.readFinally s c := by
    rw [readFinally_eq, readFinally_eq, setConn_setConn, setConn_self, ← requestClose_setRead]
  cases e with
  | bytes =>
    simp only [World.afterReadEmit, World.readLoop]
    rw [setConn_setConn, setConn_self, hf]
  | error => exact hf

theorem Streaming.readEnqueueTurn (h : w.Streaming c) {e : ReadEvent} (hr : (w.conns c).read = .enqueueing e) :
    ((w.append (e.event c)).afterReadEmit s c e).Streaming c := by
  rw [← afterReadEmit_setRead (.delivering e)]
  refine Streaming.afterReadEmit ?_ (by simp [ReadPc.inHand]) e
  unfold Streaming
  rw [view_setConn, view_append (e.event_conn? c)]
  exact View.Stream.readAppend h hr

theorem Streaming.readReturned (h : w.Streaming c) (hm : s.delivery.dispatchMode = .background)
    (hr : (w.conns c).read = .reading) (data : Bytes) : ((w.receive c data).readEmit s c (.bytes data)).Streaming c := by
  simp only [readEmit, hm]
  unfold Streaming
  rw [view_setConn, view_receive]
  exact View.Stream.receive h hr data

theorem Streaming.readRaised (h : w.Streaming c) (hm : s.delivery.dispatchMode = .background)
    (hr : (w.conns c).read.live) (hin : (w.conns c).read.inHand = []) : (w.readEmit s c .error).Streaming c := by
  simp only [readEmit, hm]
  exact .setConn (View.Stream.setRead h (fun _ => View.Stream.live h hr) hin.symm)

/-! ## The close task and the close event -/

theorem Streaming.setCloseTask (h : w.Streaming c) (ht : (w.conns c).closeTask ≠ none) (closeTask : Option CloseTask) :
    (w.setConn c { w.conns c with closeTask }).Streaming c :=
  .setConn (View.Stream.setCloseTask h ht closeTask)

theorem Streaming.finishClose (h : w.Streaming c) (ht : (w.conns c).closeTask ≠ none) : (w.finishClose c).Streaming c :=
  h.setCloseTask ht none

theorem Streaming.dropQueuedEvents (h : w.Streaming c) (hq : ∀ e ∈ (w.view c).queue, e.isBytes = false) :
    (w.dropQueuedEventsForResource s c).Streaming c := by
  unfold Streaming
  rw [view_dropQueuedEvents_eq fun _ => hq]
  exact h

theorem Streaming.deferOrPublish (h : w.Streaming c) {t : CloseTask} (ht : (w.conns c).closeTask = some t)
    (hq : ∀ e ∈ (w.view c).queue, e.isBytes = false) : (w.deferOrPublish s c t).Streaming c := by
  have hr : (w.conns c).read.live = false := View.Stream.live_false h (by simp [ht])
  have hsome : (w.conns c).closeTask ≠ none := by simp [ht]
  have hd : ∀ {conn : Conn}, conn.read = (w.conns c).read → conn.state = .closed →
      ((w.setConn c conn).dropQueuedEventsForResource s c).Streaming c := fun hread hst =>
    Streaming.dropQueuedEvents (.setConn (View.Stream.shutDown h hr hq hread hst)) (by rwa [view_setConn])
  unfold World.deferOrPublish
  dsimp only
  split_ifs
  · refine Streaming.finishClose (hd ?_ ?_) ?_
    · rfl
    · rfl
    · rw [view_dropped_conns, setConn_self]
      exact hsome
  · refine hd ?_ ?_ <;> rfl
  · exact (h.dropQueuedEvents hq).finishClose hsome
  · next hpub =>
    refine .setConn ?_
    rw [view_dropQueuedEvents_eq fun _ => hq]
    refine View.Stream.shutDown h hr hq (Conn.finalizeClose_read _ _) (finalizeClose_state fun hp => ?_)
    exact View.Stream.shut h (.inr (.inl (Option.isSome_iff_ne_none.mp (hp.resolve_left hpub))))

theorem Streaming.runClose (h : w.Streaming c) {t : CloseTask} (ht : (w.conns c).closeTask = some t)
    (hk : Spares s c w (.closeRun c)) : (w.runClose s c t).Streaming c := by
  have hr : (w.conns c).read.live = false := View.Stream.live_false h (by simp [ht])
  have hsome : (w.conns c).closeTask ≠ none := by simp [ht]
  have hq : w.purges s (.closeRun c) → ∀ e ∈ (w.view c).queue, e.isBytes = false := fun hp => hk hp c rfl rfl
  unfold World.runClose
  dsimp only
  split
  · have hw : ∃ w₁, (if w.hasActiveHandlerContext s c then w.dropQueuedEventsForResource s c else w) = w₁ ∧
        w₁.Streaming c ∧ w₁.conns = w.conns := by
      split
      · next ha => exact ⟨_, rfl, h.dropQueuedEvents (hq (by simp [purges, ha])), rfl⟩
      · exact ⟨_, rfl, h, rfl⟩
    obtain ⟨w₁, he, h₁, hconns⟩ := hw
    rw [he]
    split
    · have hcancel : (w.conns c).read.cancel.inHand = (w.conns c).read.inHand ∧ (w.conns c).read.cancel.live = false := by
        cases hread : (w.conns c).read <;> simp_all [ReadPc.cancel, ReadPc.inHand, ReadPc.live]
      refine .setConn ?_
      rw [hconns]
      have h₂ := View.Stream.setRead (r := (w.conns c).read.cancel) h₁ (by simp [hcancel.2])
        (by rw [view_conn, hconns, hcancel.1])
      rw [view_conn, hconns] at h₂
      exact View.Stream.setCloseTask h₂ hsome _
    · exact h₁.setCloseTask (by rwa [hconns]) _
  · next hn => exact h.deferOrPublish ht (hq (by simp [purges, ht, hn]))

theorem Streaming.publisherRun (h : w.Streaming c) : (w.publisherRun c).Streaming c := by
  unfold World.publisherRun
  dsimp only
  split_ifs with hdef hpub
  · exact .setConn (View.Stream.setPublisher h _)
  · have hdef : (w.conns c).deferred := by simpa using hdef
    refine Streaming.resolveWaiter (h.takeDeferred hdef ?_ ?_) _
    · rfl
    · exact View.Stream.shut h (.inl hdef)
  · have hdef : (w.conns c).deferred := by simpa using hdef
    refine h.takeDeferred hdef ?_ ?_
    · exact Conn.finalizeClose_read _ _
    · exact finalizeClose_state fun _ => View.Stream.shut h (.inl hdef)

theorem Streaming.publicationInline (h : w.Streaming c) {p : Publication} (hp : (w.conns c).publication = some p) :
    ((w.setConn c { w.conns c with publication := some { p with pc := .delivering } }).beginCall (.publication c)
      (.closed c p.previousState)).Streaming c := by
  have hst := View.Stream.shut h (.inr (.inl (by simp [hp])))
  unfold Streaming
  rw [view_beginCall _ rfl, view_setConn]
  exact { h with
    shut := fun _ => hst
    accounted := by simpa [Event.payload?] using View.Stream.accounted h }

theorem Streaming.publicationEnqueueTurn (h : w.Streaming c) {p : Publication} (hp : (w.conns c).publication = some p) :
    ((w.append (.closed c p.previousState)).setConn c ((w.conns c).finishPublication true)).Streaming c := by
  have hst := View.Stream.shut h (.inr (.inl (by simp [hp])))
  unfold Streaming
  rw [view_setConn, view_append rfl]
  exact (View.Stream.append h (e := .closed c p.previousState) rfl fun _ => hst).finishPublication true

/-! ## The worker and the end of handler calls -/

theorem Streaming.take (h : w.Streaming c) (hw : w.worker = none) {e : Event} {rest : List Event}
    (hqueue : w.queue = e :: rest) : (w.take e rest).Streaming c := by
  unfold Streaming
  by_cases he : e.conn? = some c
  · rw [view_take he]
    exact View.Stream.take h (by simp [view, hqueue, he]) _ _
  · rw [view_take_of_ne hw hqueue he]
    exact h

theorem Streaming.endCall (h : w.Streaming c) (k : HandlerCall) : (w.endCall k).Streaming c := by
  unfold Streaming
  by_cases hc : k.event.conn? = some c
  · rw [view_endCall]
    exact { h with }
  · rw [view_endCall_of_ne hc]
    exact h

theorem Streaming.setConn_of_ne (h : w.Streaming c) (hne : c ≠ d) (conn : Conn) : (w.setConn d conn).Streaming c := by
  unfold Streaming
  rw [view_setConn_of_ne hne]
  exact h

theorem Streaming.workerDone (h : w.Streaming c) : ({ w with worker := none } : World).Streaming c :=
  { h with }

theorem Streaming.resume (h : w.Streaming c) (hm : s.delivery.dispatchMode = .background) (t : TaskId) (raised : Bool) :
    (w.resume s t raised).Streaming c := by
  rcases t with _ | d | d | d | n
  · simp only [World.resume]
    split
    · next d _ =>
      split
      · rcases eq_or_ne c d with rfl | hne
        · exact .setConn { View.Stream.setStart h .handled with }
        · exact Streaming.setConn_of_ne h.workerDone hne _
      · exact h.workerDone
    · exact h.workerDone
  · rcases eq_or_ne c d with rfl | hne
    · exact .setConn (View.Stream.setStart h _)
    · exact h.setConn_of_ne hne _
  · rcases eq_or_ne c d with rfl | hne
    · simp only [World.resume]
      split
      · next e hread =>
        have hin : (w.conns c).read.inHand = [] := by rw [hread]; rfl
        split
        · split
          · exact h.readRaised hm (by rw [hread]; rfl) hin
          · exact h.readFinally hin
        · exact h.afterReadEmit hin e
      · exact h
    · unfold Streaming
      rw [view_resume_read_of_ne hne]
      exact h
  · rcases eq_or_ne c d with rfl | hne
    · exact .setConn (View.Stream.finishPublication h _)
    · exact h.setConn_of_ne hne _
  · exact h

theorem Streaming.handlerDone (h : w.Streaming c) (hm : s.delivery.dispatchMode = .background) {k : HandlerCall}
    {outcome : HandlerOutcome} (hs : w.handlerDone s k outcome = some w') : w'.Streaming c := by
  have hr : ∀ t raised, ((w.endCall k).resume s t raised).Streaming c := (h.endCall k).resume hm
  unfold World.handlerDone at hs
  dsimp only at hs
  split at hs
  · cases hs; exact hr _ _
  · split at hs
    · cases hs; exact hr _ _
    · cases hs; exact hr _ _
    · cases hs
  · split at hs
    · cases hs; exact hr _ _
    · cases hs; exact hr _ _
    · split at hs
      · cases hs; exact hr _ _
      · cases hs
        unfold Streaming
        rw [view_beginCall_of_ne _ (by simp [Event.conn?])]
        exact h.endCall k
    · cases hs

/-! ## The steps of a run -/

/-- Nobody but the connection itself closes it. -/
def Undisturbed (c : ConnId) (_ : World) (a : WorldAct) : Prop := ∀ p ∈ a.close?, p.1 ≠ c

/-- Moreover a close task that drops the queued payload events of its id finds no chunk of the connection. -/
def Lossless (s : Settings) (c : ConnId) (w : World) (a : WorldAct) : Prop := Undisturbed c w a ∧ Spares s c w a

/-- Every action that meets `Lossless` keeps the invariant. -/
theorem Streaming.step (h : w.Streaming c) (hm : s.delivery.dispatchMode = .background) (hd : w.Started) {a : WorldAct}
    (hok : Lossless s c w a) (hs : Step s w a w') : w'.Streaming c := by
  by_cases hother : ∃ d, a.conn? = some d ∧ c ≠ d
  · obtain ⟨d, ha, hne⟩ := hother
    unfold Streaming
    rw [view_of_ne hok.2 ha hne hs]
    exact h
  have hown : ∀ d, a.conn? = some d → c = d := fun d ha => by_contra fun hne => hother ⟨d, ha, hne⟩
  cases hs
  case start hs => obtain rfl := hown _ rfl; exact h.startCall (hd.missing (by simp [hs]))
  case readyReturned => obtain rfl := hown _ rfl; exact h.startOpen hm
  case readyRaised hs => obtain rfl := hown _ rfl; exact h.startClose (hd.missing (by simp [hs]))
  case startEnqueueTurn =>
    obtain rfl := hown _ rfl
    unfold Streaming
    rw [view_setConn, view_append rfl]
    exact (View.Stream.append h (e := .opened c) rfl nofun).setStart _
  case startCancelled => obtain rfl := hown _ rfl; exact .setConn (View.Stream.setStart h _)
  case startHandled => obtain rfl := hown _ rfl; exact .setConn (View.Stream.setStart h _)
  case startPublish => obtain rfl := hown _ rfl; exact h.startPublish _
  case startPublished =>
    obtain rfl := hown _ rfl
    exact Streaming.resolveWaiter (.setConn (View.Stream.setStart h _)) _
  case startSettled hs => obtain rfl := hown _ rfl; exact h.startSettle (hd.missing (by simp [hs])) _ _
  case readRun hr => obtain rfl := hown _ rfl; exact h.readLoop (by rw [hr]; rfl)
  case readReturned hr _ => obtain rfl := hown _ rfl; exact h.readReturned hm hr _
  case readEof hr => obtain rfl := hown _ rfl; exact h.readFinally (by rw [hr]; rfl)
  case readRaised hr => obtain rfl := hown _ rfl; exact h.readRaised hm (by rw [hr]; rfl) (by rw [hr]; rfl)
  case readEnqueueTurn hr => obtain rfl := hown _ rfl; exact h.readEnqueueTurn hr
  case close => obtain rfl := hown _ rfl; exact absurd rfl (hok.1 _ rfl)
  case closeResumed => exact h
  case closeRun ht _ => obtain rfl := hown _ rfl; exact h.runClose ht hok.2
  case closeReadDone ht _ _ => obtain rfl := hown _ rfl; exact h.setCloseTask (by simp [ht]) _
  case closeWriterDone ht _ => obtain rfl := hown _ rfl; exact h.setCloseTask (by simp [ht]) _
  case closeCallbackReturned ht _ => obtain rfl := hown _ rfl; exact h.deferOrPublish ht (hok.2 rfl c rfl rfl)
  case closeFinished ht _ => obtain rfl := hown _ rfl; exact h.finishClose (by simp [ht])
  case publicationInline hp _ _ => obtain rfl := hown _ rfl; exact h.publicationInline hp
  case publicationBackground hp _ _ =>
    obtain rfl := hown _ rfl
    exact .setConn (View.Stream.setPublication h (by simp [hp]) _)
  case publicationEnqueueTurn hp _ => obtain rfl := hown _ rfl; exact h.publicationEnqueueTurn hp
  case publisherRun => obtain rfl := hown _ rfl; exact h.publisherRun
  case publisherPublished => obtain rfl := hown _ rfl; exact Streaming.resolveWaiter (.setConn (View.Stream.setPublisher h _)) _
  case workerTake _ hw hqueue => exact h.take hw hqueue
  case emitInline hinl => simp [hm] at hinl
  case emitBackground =>
    unfold Streaming
    rw [view_append_of_ne (by simp [Event.conn?])]
    exact h
  case handlerDone hf => exact h.handlerDone hm hf

theorem Streaming.init : ({} : World).Streaming c := by
  constructor <;> simp [view, closedStarted, received, delivered, ReadPc.live, ReadPc.inHand]

/-- The handler has received, in order, the first chunks that `reader.read` returned, and all of them once the closed
handler of the connection starts. -/
def StreamIntact (c : ConnId) (w : World) : Prop :=
  w.delivered c <+: w.received c ∧ (w.closedStarted c → w.delivered c = w.received c)

/-- In every run that meets `Lossless` no chunk is lost. -/
theorem streamIntact_of_lossless (hm : s.delivery.dispatchMode = .background)
    (h : (world s).Reachable (Lossless s c) w) : w.StreamIntact c := by
  have hi : w.Streaming c := h.invariant_of (J := fun w => w.Sequential ∧ w.Started) (fun h => sequential_of_reachable h)
    (by rintro _ rfl; exact .init) fun _ _ _ hj hi hok hs => hi.step hm hj.2 hok (.of_step hs)
  have hacc := View.Stream.accounted hi
  rw [List.append_assoc] at hacc
  exact ⟨⟨_, hacc⟩, fun hc => (View.Stream.received_eq hi hc).symm⟩

/-! ## Runs -/

instance (a : WorldAct) : Decidable (Undisturbed c w a) := by
  unfold Undisturbed
  infer_instance

instance (a : WorldAct) : Decidable (Spares s c w a) := by
  unfold Spares
  infer_instance

instance (a : WorldAct) : Decidable (Lossless s c w a) := by
  unfold Lossless
  infer_instance

/-- The action is the failure of a handler, a callback or a read, or the cancellation of a task. -/
def fails : WorldAct → Bool
  | .handlerDone _ outcome => outcome ≠ .returned
  | .startHandled _ cancelled => cancelled
  | .startCancelled _ | .readyRaised _ | .readRaised _ => true
  | _ => false

/-- Besides, nothing fails. -/
def Orderly (c : ConnId) (w : World) (a : WorldAct) : Prop := Undisturbed c w a ∧ fails a = false

instance (a : WorldAct) : Decidable (Orderly c w a) := by
  unfold Orderly
  infer_instance

instance : Decidable (w.StreamIntact c) := by
  unfold StreamIntact
  infer_instance

end World

/-- The end of the stream comes while the first chunk's handler runs, and the close task publishes the close event. -/
def endOfStream : List WorldAct :=
  [.readEof 0, .closeRun 0, .closeWriterDone 0, .closeCallbackReturned 0, .publicationRun 0, .publicationEnqueueTurn 0,
    .handlerDone 1 .returned, .workerTake]

theorem streamIntact_of_endOfStream :
    ∃ w : World, (w.closedStarted 0 ∧ w.received 0 = [[1]]) ∧ w.StreamIntact 0 := by
  have hrun : ∃ w : World, (world oneSlotQueue).Reachable (World.Lossless oneSlotQueue 0) w ∧
      decide (w.closedStarted 0 ∧ w.received 0 = [[1]]) :=
    Runs.Machine.Reachable.exists_of_execOk rfl (firstChunkHandled ++ endOfStream) _ (by decide)
  obtain ⟨w, hw, hp⟩ := hrun
  exact ⟨w, of_decide_eq_true hp, World.streamIntact_of_lossless rfl hw⟩

/-- The second chunk is queued behind the first chunk's handler when the stream ends: the close task drops it. -/
theorem not_streamIntact_of_endOfStream :
    ¬ ∀ w : World, (world oneSlotQueue).Reachable (World.Orderly 0) w → w.StreamIntact 0 := by
  intro hall
  have hrun : ∃ w : World, (world oneSlotQueue).Reachable (World.Orderly 0) w ∧ decide (¬ w.StreamIntact 0) :=
    Runs.Machine.Reachable.exists_of_execOk rfl
      (firstChunkHandled ++ [.readReturned 0 [2], .readEnqueueTurn 0] ++ endOfStream) _ (by decide)
  obtain ⟨w, hw, hp⟩ := hrun
  exact of_decide_eq_true hp (hall w hw)

end Aionetx
