import Aionetx.Connection.Tasks

/-!
# What one connection sees

* `View`, `World.view` : a connection with the handler calls, the queued events and the history of its own events;
* `view_setConn`, `view_beginCall`, `view_append`, ... : how the stretches of code change a view;
* `Purged`, `purged_of_ne` : an action of one connection changes the view of another one by a purge at most, and only
  where they have the same id;
* `Follows` : the handler calls of a later world are those of an earlier one, or have later tokens.
-/

namespace Aionetx

/-- A connection, the handler calls and the queued events of its own, the event of its own that the worker dispatches,
whether its opened handler has finished and its closed handler has started, and its chunks, read and delivered. -/
structure View where
  conn : Conn
  active : List HandlerCall
  queue : List Event
  worker : Option Event
  opened : Bool
  closedStarted : Bool
  received : List Bytes
  delivered : List Bytes

def Event.isClosed : Event → Bool
  | .closed _ _ => true
  | _ => false

def Event.payload? (c : ConnId) : Event → Option Bytes
  | .bytes d data => if d = c then some data else none
  | _ => none

theorem Event.payload?_of_ne {e : Event} {c : ConnId} (h : e.conn? ≠ some c) : e.payload? c = none := by
  cases e <;> simp_all [payload?, conn?]

namespace World

def openedFinished (c : ConnId) (w : World) : Bool :=
  w.log.any fun
    | .finished h => h.event = .opened c
    | _ => false

def closedStarted (c : ConnId) (w : World) : Bool :=
  w.log.any fun
    | .started h => h.event.isClosed && h.event.conn? = some c
    | _ => false

/-- The chunks that the read loop of a connection has read. -/
def received (c : ConnId) (w : World) : List Bytes :=
  w.log.filterMap fun
    | .received d data => if d = c then some data else none
    | _ => none

/-- The chunks for which a payload handler of a connection has started. -/
def delivered (c : ConnId) (w : World) : List Bytes :=
  w.log.filterMap fun
    | .started h => h.event.payload? c
    | _ => none

def view (c : ConnId) (w : World) : View where
  conn := w.conns c
  active := w.active.filter fun h => h.event.conn? = some c
  queue := w.queue.filter fun e => e.conn? = some c
  worker := w.worker.filter fun e => e.conn? = some c
  opened := w.openedFinished c
  closedStarted := w.closedStarted c
  received := w.received c
  delivered := w.delivered c

variable {s : Settings} {w w' : World} {c d : ConnId}

/-! ## The stretches of code, seen by their connection -/

@[simp] theorem view_conn : (w.view c).conn = w.conns c := rfl

@[simp] theorem view_setConn (conn : Conn) : (w.setConn c conn).view c = { w.view c with conn } := by
  simp [view, openedFinished, closedStarted, received, delivered]

theorem view_setConn_of_ne (h : c ≠ d) (conn : Conn) : (w.setConn d conn).view c = w.view c := by
  simp [view, openedFinished, closedStarted, received, delivered, setConn_of_ne h]

theorem view_beginCall {e : Event} (t : TaskId) (h : e.conn? = some c) :
    (w.beginCall t e).view c =
      { w.view c with
        active := (w.view c).active ++ [⟨w.nextToken, t, e⟩]
        closedStarted := (w.view c).closedStarted || e.isClosed
        delivered := (w.view c).delivered ++ (e.payload? c).toList } := by
  simp [view, beginCall, openedFinished, closedStarted, received, delivered, h, List.filterMap_cons]
  cases e.payload? c <;> rfl

theorem view_beginCall_of_ne {e : Event} (t : TaskId) (h : e.conn? ≠ some c) : (w.beginCall t e).view c = w.view c := by
  simp [view, beginCall, openedFinished, closedStarted, received, delivered, h, Event.payload?_of_ne h]

theorem view_endCall (k : HandlerCall) :
    (w.endCall k).view c =
      { w.view c with
        active := (w.view c).active.filter (· ≠ k)
        opened := (w.view c).opened || k.event = .opened c } := by
  simp [view, endCall, openedFinished, closedStarted, received, delivered, List.filter_filter, Bool.and_comm]

theorem view_endCall_of_ne {k : HandlerCall} (h : k.event.conn? ≠ some c) : (w.endCall k).view c = w.view c := by
  have ho : k.event ≠ .opened c := by rintro he; simp [he, Event.conn?] at h
  have hf : (w.active.filter fun a => decide (a.event.conn? = some c) && !decide (a = k)) =
      w.active.filter fun a => a.event.conn? = some c := by
    refine List.filter_congr fun a _ => ?_
    by_cases hak : a = k
    · simp [hak, h]
    · simp [hak]
  simp [view, endCall, openedFinished, closedStarted, received, delivered, List.filter_filter, ho, hf]

theorem view_append {e : Event} (h : e.conn? = some c) :
    (w.append e).view c = { w.view c with queue := (w.view c).queue ++ [e] } := by
  simp [view, append, openedFinished, closedStarted, received, delivered, h]

theorem view_append_of_ne {e : Event} (h : e.conn? ≠ some c) : (w.append e).view c = w.view c := by
  simp [view, append, openedFinished, closedStarted, received, delivered, h]

theorem view_receive (data : Bytes) :
    (w.receive c data).view c = { w.view c with received := (w.view c).received ++ [data] } := by
  simp [view, receive, openedFinished, closedStarted, received, delivered]

theorem view_receive_of_ne (h : c ≠ d) (data : Bytes) : (w.receive d data).view c = w.view c := by
  simp [view, receive, openedFinished, closedStarted, received, delivered, h.symm]

@[simp] theorem view_calls (calls : List CloseCall) : ({ w with calls := calls } : World).view c = w.view c := rfl

theorem view_take {e : Event} {rest : List Event} (h : e.conn? = some c) :
    (w.take e rest).view c =
      { w.view c with
        active := (w.view c).active ++ [⟨w.nextToken, .worker, e⟩]
        queue := rest.filter fun e => e.conn? = some c
        worker := some e
        closedStarted := (w.view c).closedStarted || e.isClosed
        delivered := (w.view c).delivered ++ (e.payload? c).toList } := by
  rw [take, view_beginCall _ h]
  simp [view, openedFinished, closedStarted, received, delivered, h]

theorem view_take_of_ne {e : Event} {rest : List Event} (hw : w.worker = none) (hq : w.queue = e :: rest)
    (h : e.conn? ≠ some c) : (w.take e rest).view c = w.view c := by
  rw [take, view_beginCall_of_ne _ h]
  simp [view, openedFinished, closedStarted, received, delivered, h, hw, hq]

theorem view_queue_conn {e : Event} (he : e ∈ (w.view c).queue) : e.conn? = some c := by
  simpa using (List.mem_filter.mp he).2

theorem view_worker_conn {e : Event} (he : (w.view c).worker = some e) : e.conn? = some c := by
  obtain ⟨_, he⟩ := Option.filter_eq_some_iff.mp he
  simpa using he

/-- A purge that finds no payload event of the connection with its id changes nothing for it. -/
theorem view_dropQueuedEvents_eq (h : s.resourceId d = s.resourceId c → ∀ e ∈ (w.view c).queue, e.isBytes = false) :
    (w.dropQueuedEventsForResource s d).view c = w.view c := by
  have hf : (w.queue.filter fun e => !(e.isBytes && resource? s e = some (s.resourceId d))).filter
      (fun e => e.conn? = some c) = w.queue.filter fun e => e.conn? = some c := by
    rw [List.filter_filter]
    refine List.filter_congr fun e hmem => ?_
    by_cases he : e.conn? = some c
    · by_cases hid : s.resourceId d = s.resourceId c
      · simp [he, h hid e (List.mem_filter.mpr ⟨hmem, by simpa using he⟩)]
      · simp [resource?, he, Ne.symm hid]
    · simp [he]
  simp only [view, dropQueuedEventsForResource, openedFinished, closedStarted, received, delivered, hf]

/-! ## What the id of a connection covers -/

/-- The handler-origin tokens of the active handler calls for events with the id of a connection. -/
def Peers (s : Settings) (c : ConnId) (w : World) (token : Token) : Prop :=
  ∃ k ∈ w.active, k.token = token ∧ resource? s k.event = some (s.resourceId c)

theorem resource?_of_conn? {e : Event} (h : e.conn? = some c) : resource? s e = some (s.resourceId c) := by
  simp [resource?, h]

theorem resource?_eq (ho : s.Own c) (e : Event) : resource? s e = some (s.resourceId c) ↔ e.conn? = some c := by
  refine ⟨fun h => ?_, resource?_of_conn?⟩
  obtain ⟨d, hd, hid⟩ := Option.map_eq_some_iff.mp h
  rw [hd, ho d hid]

/-- Where no handler call has the id of the connection, it has none of its own. -/
theorem view_active_nil (h : w.hasActiveHandlerContext s c = false) : (w.view c).active = [] := by
  refine List.eq_nil_iff_forall_not_mem.mpr fun k hk => ?_
  obtain ⟨hk, hc⟩ := List.mem_filter.mp hk
  have := List.any_eq_false.mp h k hk
  simp [resource?_of_conn? (of_decide_eq_true hc)] at this

theorem hasActiveHandlerContext_of_own (ho : s.Own c) (h : (w.view c).active = []) :
    w.hasActiveHandlerContext s c = false := by
  refine List.any_eq_false.mpr fun k hk hc => ?_
  have hmem : k ∈ (w.view c).active :=
    List.mem_filter.mpr ⟨hk, by simpa using (resource?_eq ho _).mp (of_decide_eq_true hc)⟩
  simp [h] at hmem

theorem inheritsHandlerOriginContext_eq_false {tokens : List Token} :
    w.inheritsHandlerOriginContext s tokens c = false ↔ ∀ token ∈ tokens, ¬ w.Peers s c token := by
  simp only [inheritsHandlerOriginContext, List.any_eq_false, Peers]
  constructor
  · rintro h token ht ⟨k, hk, rfl, hid⟩
    exact h k hk (by simp [ht, hid])
  · intro h k hk hc
    simp only [Bool.and_eq_true, List.contains_iff_mem, decide_eq_true_eq] at hc
    exact h _ hc.1 ⟨k, hk, rfl, hc.2⟩

/-- A purge for an id drops the queued payload events of each connection that has it. -/
theorem view_dropQueuedEvents (h : s.resourceId d = s.resourceId c) :
    (w.dropQueuedEventsForResource s d).view c =
      { w.view c with queue := (w.view c).queue.filter fun e => !e.isBytes } := by
  have hf : (w.queue.filter fun e => !(e.isBytes && resource? s e = some (s.resourceId d))).filter
      (fun e => e.conn? = some c) = (w.queue.filter fun e => e.conn? = some c).filter fun e => !e.isBytes := by
    rw [h, List.filter_filter, List.filter_filter]
    refine List.filter_congr fun e _ => ?_
    by_cases he : e.conn? = some c
    · simp [he, resource?_of_conn? he]
    · simp [he]
  simp only [view, dropQueuedEventsForResource, openedFinished, closedStarted, received, delivered, hf]

/-! ## Purges -/

/-- The action is a step of a close task that drops the queued payload events of its id. -/
def purges (s : Settings) (w : World) : WorldAct → Bool
  | .closeRun d => w.hasActiveHandlerContext s d || (w.conns d).closeTask.any fun t => !t.needsTeardown
  | .closeCallbackReturned _ => true
  | _ => false

/-- The action drops no queued payload event of the connection. -/
def Spares (s : Settings) (c : ConnId) (w : World) (a : WorldAct) : Prop :=
  w.purges s a → ∀ d ∈ a.conn?, s.resourceId d = s.resourceId c → ∀ e ∈ (w.view c).queue, e.isBytes = false

/-- The view after an action of another connection that may have purged the queued payload events. -/
def Purged (s : Settings) (c d : ConnId) (w w' : World) : Prop :=
  w'.view c = w.view c ∨
    s.resourceId d = s.resourceId c ∧
      w'.view c = { w.view c with queue := (w.view c).queue.filter fun e => !e.isBytes }

theorem purged_dropQueuedEvents : Purged s c d w (w.dropQueuedEventsForResource s d) := by
  by_cases hid : s.resourceId d = s.resourceId c
  · exact .inr ⟨hid, view_dropQueuedEvents hid⟩
  · exact .inl (view_dropQueuedEvents_eq fun h => absurd h hid)

/-- Where there is nothing to purge nothing changes. -/
theorem Purged.view_eq (h : Purged s c d w w')
    (hk : s.resourceId d = s.resourceId c → ∀ e ∈ (w.view c).queue, e.isBytes = false) : w'.view c = w.view c := by
  rcases h with h | ⟨hid, h⟩
  · exact h
  · rw [h, List.filter_eq_self.mpr (by simpa using hk hid)]

/-! ## The actions of another connection -/

section Frame

variable (hne : c ≠ d)

include hne

theorem view_close_of_ne (ctx : CloseContext) : (w.close s ctx d).1.view c = w.view c := by
  rcases close_spec (s := s) (w := w) (c := d) ctx with he | he
  · rw [he]
  · rw [he.1, view_setConn_of_ne hne]

theorem view_userClose_of_ne (ctx : CloseContext) : (w.userClose s ctx d).view c = w.view c := by
  obtain ⟨calls, he⟩ := userClose_frame (s := s) (w := w) (c := d) ctx
  rw [he, view_calls, view_close_of_ne hne]

theorem view_finishClose_of_ne : (w.finishClose d).view c = w.view c := view_setConn_of_ne hne _

theorem view_resolveWaiter_of_ne (captured : Option Nat) : (w.resolveWaiter d captured).view c = w.view c :=
  view_setConn_of_ne hne _

theorem view_startClose_of_ne : (w.startClose s d).view c = w.view c := by
  rw [startClose, view_close_of_ne hne, view_setConn_of_ne hne]

theorem view_startCall_of_ne : (w.startCall d).view c = w.view c := by
  unfold startCall
  dsimp only
  split <;> exact view_setConn_of_ne hne _

theorem view_startOpen_of_ne : (w.startOpen s d).view c = w.view c := by
  unfold startOpen
  dsimp only
  split
  · exact view_setConn_of_ne hne _
  · split
    · rw [view_beginCall_of_ne _ (by simpa [Event.conn?] using hne.symm), view_setConn_of_ne hne]
    · exact view_setConn_of_ne hne _

theorem view_startPublish_of_ne (opened : Bool) : (w.startPublish d opened).view c = w.view c := by
  unfold startPublish
  dsimp only
  split_ifs
  · exact view_setConn_of_ne hne _
  · rw [view_resolveWaiter_of_ne hne, view_setConn_of_ne hne]
  · exact view_setConn_of_ne hne _

theorem view_startSettle_of_ne (opened : Bool) (result : PublishResult) :
    (w.startSettle s d opened result).view c = w.view c := by
  unfold startSettle
  dsimp only
  split
  · exact view_setConn_of_ne hne _
  · split <;> exact view_setConn_of_ne hne _
  · exact view_startClose_of_ne hne

theorem view_publisherRun_of_ne : (w.publisherRun d).view c = w.view c := by
  unfold publisherRun
  dsimp only
  split_ifs
  · exact view_setConn_of_ne hne _
  · rw [view_resolveWaiter_of_ne hne, view_setConn_of_ne hne]
  · exact view_setConn_of_ne hne _

theorem view_readFinally_of_ne : (w.readFinally s d).view c = w.view c := by
  unfold readFinally
  dsimp only
  split_ifs
  · exact view_setConn_of_ne hne _
  · rw [view_setConn_of_ne hne, view_close_of_ne hne]

theorem view_readLoop_of_ne : (w.readLoop s d).view c = w.view c := by
  unfold readLoop
  dsimp only
  split
  · exact view_setConn_of_ne hne _
  · exact view_readFinally_of_ne hne

theorem view_afterReadEmit_of_ne (e : ReadEvent) : (w.afterReadEmit s d e).view c = w.view c := by
  unfold afterReadEmit
  split
  · exact view_readLoop_of_ne hne
  · exact view_readFinally_of_ne hne

theorem view_readEmit_of_ne (e : ReadEvent) : (w.readEmit s d e).view c = w.view c := by
  unfold readEmit
  split
  · rw [view_beginCall_of_ne _ (by simpa using hne.symm), view_setConn_of_ne hne]
  · exact view_setConn_of_ne hne _

theorem view_resume_read_of_ne (raised : Bool) : (w.resume s (.read d) raised).view c = w.view c := by
  simp only [resume]
  split
  · split
    · split
      · exact view_readEmit_of_ne hne _
      · exact view_readFinally_of_ne hne
    · exact view_afterReadEmit_of_ne hne _
  · rfl

theorem purged_deferOrPublish (t : CloseTask) : Purged s c d w (w.deferOrPublish s d t) := by
  have hdrop : ∀ conn, Purged s c d w ((w.setConn d conn).dropQueuedEventsForResource s d) := fun conn => by
    have := purged_dropQueuedEvents (s := s) (c := c) (d := d) (w := w.setConn d conn)
    rwa [Purged, view_setConn_of_ne hne] at this
  unfold deferOrPublish
  dsimp only
  split_ifs
  · rw [Purged, view_finishClose_of_ne hne]; exact hdrop _
  · exact hdrop _
  · rw [Purged, view_finishClose_of_ne hne]; exact purged_dropQueuedEvents
  · rw [Purged, view_setConn_of_ne hne]; exact purged_dropQueuedEvents

theorem purged_runClose (t : CloseTask) : Purged s c d w (w.runClose s d t) := by
  unfold runClose
  dsimp only
  split
  · have hd : Purged s c d w (if w.hasActiveHandlerContext s d then w.dropQueuedEventsForResource s d else w) := by
      split
      · exact purged_dropQueuedEvents
      · exact .inl rfl
    split <;> rw [Purged, view_setConn_of_ne hne] <;> exact hd
  · exact purged_deferOrPublish hne t

end Frame

/-- An action of another connection that is no step of its close task does not change the view. -/
theorem view_of_ne_of_not_closeTask {a : WorldAct} (ha : a.conn? = some d) (hne : c ≠ d) (hs : Step s w a w')
    (hr : a ≠ .closeRun d) (hc : a ≠ .closeCallbackReturned d) : w'.view c = w.view c := by
  cases hs <;> simp only [WorldAct.conn?, Option.some.injEq, reduceCtorEq] at ha <;> subst ha
  case start => exact view_startCall_of_ne hne
  case readyReturned => exact view_startOpen_of_ne hne
  case readyRaised => exact view_startClose_of_ne hne
  case startEnqueueTurn => rw [view_setConn_of_ne hne, view_append_of_ne (by simpa [Event.conn?] using hne.symm)]
  case startPublish => exact view_startPublish_of_ne hne _
  case startPublished => rw [view_resolveWaiter_of_ne hne, view_setConn_of_ne hne]
  case startSettled => exact view_startSettle_of_ne hne _ _
  case readRun => exact view_readLoop_of_ne hne
  case readReturned => rw [view_readEmit_of_ne hne, view_receive_of_ne hne]
  case readEof => exact view_readFinally_of_ne hne
  case readRaised => exact view_readEmit_of_ne hne _
  case readEnqueueTurn => rw [view_afterReadEmit_of_ne hne, view_append_of_ne (by simpa using hne.symm)]
  case close => exact view_userClose_of_ne hne _
  case closeRun => exact absurd rfl hr
  case closeCallbackReturned => exact absurd rfl hc
  case closeFinished => exact view_finishClose_of_ne hne
  case publicationInline => rw [view_beginCall_of_ne _ (by simpa [Event.conn?] using hne.symm), view_setConn_of_ne hne]
  case publicationEnqueueTurn => rw [view_setConn_of_ne hne, view_append_of_ne (by simpa [Event.conn?] using hne.symm)]
  case publisherRun => exact view_publisherRun_of_ne hne
  case publisherPublished => rw [view_resolveWaiter_of_ne hne, view_setConn_of_ne hne]
  all_goals exact view_setConn_of_ne hne _

/-- Of an action of another connection a connection sees a purge at most. -/
theorem purged_of_ne {a : WorldAct} (ha : a.conn? = some d) (hne : c ≠ d) (hs : Step s w a w') : Purged s c d w w' := by
  by_cases hr : a = .closeRun d
  · subst hr
    cases hs
    exact purged_runClose hne _
  by_cases hc : a = .closeCallbackReturned d
  · subst hc
    cases hs
    exact purged_deferOrPublish hne _
  · exact .inl (view_of_ne_of_not_closeTask ha hne hs hr hc)

/-- An action of one connection does not change the view of another one, unless it drops its events. -/
theorem view_of_ne {a : WorldAct} (hk : Spares s c w a) (ha : a.conn? = some d) (hne : c ≠ d) (hs : Step s w a w') :
    w'.view c = w.view c := by
  by_cases hp : w.purges s a
  · exact (purged_of_ne ha hne hs).view_eq (hk hp d ha)
  by_cases hr : a = .closeRun d
  · subst hr
    cases hs with
    | closeRun ht hpc =>
      simp only [purges, ht, Option.any_some, Bool.or_eq_true, Bool.not_eq_true', not_or, Bool.not_eq_true,
        Bool.not_eq_false] at hp
      unfold runClose
      simp only [hp.2, hp.1, if_true, Bool.false_eq_true, if_false]
      split <;> exact view_setConn_of_ne hne _
  · exact view_of_ne_of_not_closeTask ha hne hs hr (by rintro rfl; simp [purges] at hp)

/-! ## Tokens are handed out upwards -/

/-- The handler calls of a later world are calls of the earlier one, or have tokens handed out since. -/
structure Follows (w w' : World) : Prop where
  nextToken : w.nextToken ≤ w'.nextToken
  active : ∀ k ∈ w'.active, k ∈ w.active ∨ w.nextToken ≤ k.token

theorem Follows.of_eq (ha : w'.active = w.active) (hn : w'.nextToken = w.nextToken) : w.Follows w' :=
  ⟨hn.ge, fun _ hk => .inl (ha ▸ hk)⟩

theorem Follows.trans {w₁ : World} (h : w.Follows w₁) (h' : w₁.Follows w') : w.Follows w' :=
  ⟨Nat.le_trans h.nextToken h'.nextToken, fun k hk =>
    (h'.active k hk).elim (h.active k) fun hn => .inr (Nat.le_trans h.nextToken hn)⟩

theorem Follows.beginCall {w₁ : World} (h : w.Follows w₁) (t : TaskId) (e : Event) : w.Follows (w₁.beginCall t e) := by
  refine ⟨Nat.le_succ_of_le h.nextToken, fun k hk => ?_⟩
  rcases List.mem_append.mp hk with hk | hk
  · exact h.active k hk
  · rw [List.mem_singleton] at hk
    exact .inr (by rw [hk]; exact h.nextToken)

theorem Follows.endCall (k : HandlerCall) : w.Follows (w.endCall k) :=
  ⟨Nat.le_refl _, fun _ hk => .inl (List.mem_of_mem_filter hk)⟩

theorem Follows.peers (h : w.Follows w') {token : Token} (hp : w'.Peers s c token) :
    w.Peers s c token ∨ w.nextToken ≤ token := by
  obtain ⟨k, hk, rfl, hid⟩ := hp
  exact (h.active k hk).imp (fun hk => ⟨k, hk, rfl, hid⟩) id

theorem follows_setConn (conn : Conn) : w.Follows (w.setConn d conn) := .of_eq rfl rfl

theorem follows_receive (data : Bytes) : w.Follows (w.receive d data) := .of_eq rfl rfl

theorem follows_append (e : Event) : w.Follows (w.append e) := .of_eq rfl rfl

theorem follows_userClose (ctx : CloseContext) : w.Follows (w.userClose s ctx c) := by
  obtain ⟨calls, he⟩ := userClose_frame (s := s) (w := w) (c := c) ctx
  rw [he]
  exact .of_eq (close_active ctx) (close_nextToken ctx)

theorem follows_startClose : w.Follows (w.startClose s c) :=
  .of_eq (close_active (w := w.setConn c _) _) (close_nextToken (w := w.setConn c _) _)

theorem follows_readFinally : w.Follows (w.readFinally s c) := by
  rw [readFinally_eq]
  exact .of_eq rfl rfl

theorem follows_readLoop : w.Follows (w.readLoop s c) := by
  unfold readLoop
  dsimp only
  split
  · exact .of_eq rfl rfl
  · exact follows_readFinally

theorem follows_afterReadEmit (e : ReadEvent) : w.Follows (w.afterReadEmit s c e) := by
  cases e
  · exact follows_readLoop
  · exact follows_readFinally

theorem follows_readEmit (e : ReadEvent) : w.Follows (w.readEmit s c e) := by
  unfold readEmit
  split
  · exact (follows_setConn _).beginCall _ _
  · exact .of_eq rfl rfl

theorem follows_startOpen : w.Follows (w.startOpen s c) := by
  unfold startOpen
  dsimp only
  split
  · exact .of_eq rfl rfl
  · split
    · exact (follows_setConn _).beginCall _ _
    · exact .of_eq rfl rfl

theorem follows_startSettle (opened : Bool) (result : PublishResult) : w.Follows (w.startSettle s c opened result) := by
  unfold startSettle
  dsimp only
  split
  · exact .of_eq rfl rfl
  · split <;> exact .of_eq rfl rfl
  · exact follows_startClose

theorem follows_deferOrPublish (t : CloseTask) : w.Follows (w.deferOrPublish s c t) := by
  unfold deferOrPublish
  dsimp only
  split_ifs <;> exact .of_eq rfl rfl

theorem follows_runClose (t : CloseTask) : w.Follows (w.runClose s c t) := by
  unfold runClose
  dsimp only
  split_ifs <;> first | exact .of_eq rfl rfl | exact follows_deferOrPublish t

theorem follows_resume (t : TaskId) (raised : Bool) : w.Follows (w.resume s t raised) := by
  rcases t with _ | d | d | d | n
  · simp only [resume]
    split
    · split <;> exact .of_eq rfl rfl
    · exact .of_eq rfl rfl
  · exact .of_eq rfl rfl
  · simp only [resume]
    split
    · split
      · split
        · exact follows_readEmit _
        · exact follows_readFinally
      · exact follows_afterReadEmit _
    · exact .of_eq rfl rfl
  · exact .of_eq rfl rfl
  · exact .of_eq rfl rfl

theorem follows_handlerDone {k : HandlerCall} {outcome : HandlerOutcome}
    (hs : w.handlerDone s k outcome = some w') : w.Follows w' := by
  have hr : ∀ t raised, w.Follows ((w.endCall k).resume s t raised) := fun t raised =>
    (Follows.endCall k).trans (follows_resume t raised)
  unfold handlerDone at hs
  dsimp only at hs
  split at hs
  · cases hs; exact hr _ _
  · split at hs
    · cases hs; exact hr _ _
    · cases hs; exact hr _ _
    · cases hs
  · split at hs
    · cases hs; exact hr _ _
    · cases hs; exact hr _ _
    · split_ifs at hs
      · cases hs; exact hr _ _
      · cases hs; exact (Follows.endCall k).beginCall _ _
    · cases hs

theorem follows_of_step {a : WorldAct} (hs : Step s w a w') : w.Follows w' := by
  cases hs
  case start => unfold startCall; dsimp only; split <;> exact .of_eq rfl rfl
  case readyReturned => exact follows_startOpen
  case readyRaised => exact follows_startClose
  case startPublish => unfold startPublish; dsimp only; split_ifs <;> exact .of_eq rfl rfl
  case startSettled => exact follows_startSettle _ _
  case readRun => exact follows_readLoop
  case readReturned data _ _ => exact (follows_receive data).trans (follows_readEmit _)
  case readEof => exact follows_readFinally
  case readRaised => exact follows_readEmit _
  case readEnqueueTurn => exact (follows_append _).trans (follows_afterReadEmit _)
  case close => exact follows_userClose _
  case closeRun => exact follows_runClose _
  case closeCallbackReturned => exact follows_deferOrPublish _
  case publicationInline => exact (follows_setConn _).beginCall _ _
  case publisherRun => unfold publisherRun; dsimp only; split_ifs <;> exact .of_eq rfl rfl
  case workerTake e rest _ _ _ =>
    have hq : w.Follows { w with worker := some e, queue := rest } := .of_eq rfl rfl
    exact hq.beginCall _ _
  case emitInline => exact Follows.beginCall (.of_eq rfl rfl) _ _
  case handlerDone hf => exact follows_handlerDone hf
  all_goals exact .of_eq rfl rfl

end World

end Aionetx
