import Aionetx.Connection.World

/-!
# A task runs one handler call at a time

* `World.Runs t e` : task `t` is inside the delivery of event `e`;
* `World.Sequential` : every active handler call is on a task that is inside the delivery of its event, or reports the
  failure of its handler there, and no library task runs two of them;
* `sequential_of_reachable` : this holds in every state of every run.
-/

namespace Aionetx

namespace World

variable {s : Settings} {w w' : World} {c d : ConnId}

/-- The task is inside the delivery of the event. -/
def Runs (w : World) : TaskId → Event → Prop
  | .worker, e => w.worker = some e
  | .start c, e => (w.conns c).start = .delivering ∧ e = .opened c
  | .read c, e => ∃ e', (w.conns c).read = .delivering e' ∧ e = e'.event c
  | .publication c, e => ∃ p, (w.conns c).publication = some p ∧ p.pc = .delivering ∧ e = .closed c p.previousState
  | .user _, e => e = .other

/-- The task runs no handler call. -/
def Idle (w : World) (t : TaskId) : Prop := ∀ h ∈ w.active, h.task ≠ t

/-- Library tasks run one handler call at a time, where their code says so. -/
structure Sequential (w : World) : Prop where
  runs : ∀ h ∈ w.active, ∃ e, w.Runs h.task e ∧ (h.event = e ∨ h.event = .control)
  unique : ∀ h ∈ w.active, ∀ h' ∈ w.active, h.task = h'.task → h.task.isUser = false → h = h'
  token : ∀ h ∈ w.active, h.token < w.nextToken

/-! ## What leaves the handler calls alone -/

@[simp] theorem setConn_active (conn : Conn) : (w.setConn c conn).active = w.active := rfl
@[simp] theorem setConn_worker (conn : Conn) : (w.setConn c conn).worker = w.worker := rfl
@[simp] theorem setConn_queue (conn : Conn) : (w.setConn c conn).queue = w.queue := rfl
@[simp] theorem setConn_log (conn : Conn) : (w.setConn c conn).log = w.log := rfl
@[simp] theorem setConn_calls (conn : Conn) : (w.setConn c conn).calls = w.calls := rfl
@[simp] theorem setConn_nextToken (conn : Conn) : (w.setConn c conn).nextToken = w.nextToken := rfl
@[simp] theorem setConn_self (conn : Conn) : (w.setConn c conn).conns c = conn := by simp [setConn]
@[simp] theorem setConn_setConn (conn conn' : Conn) : (w.setConn c conn).setConn c conn' = w.setConn c conn' := by
  simp [setConn]
theorem setConn_of_ne (h : d ≠ c) (conn : Conn) : (w.setConn c conn).conns d = w.conns d := by simp [setConn, h]

theorem Sequential.idle (h : w.Sequential) {t : TaskId} (hn : ∀ e, ¬ w.Runs t e) : w.Idle t := by
  rintro k hk rfl
  obtain ⟨e, he, _⟩ := h.runs k hk
  exact hn e he

/-- The rest of the world changes, and the connections only where no handler call runs. -/
theorem Sequential.of_frame (h : w.Sequential) (ha : w'.active = w.active) (hn : w'.nextToken = w.nextToken)
    (hr : ∀ t e, ¬ w.Idle t → w.Runs t e → w'.Runs t e) : w'.Sequential := by
  refine ⟨fun k hk => ?_, ?_, ?_⟩
  · rw [ha] at hk
    obtain ⟨e, he, hev⟩ := h.runs k hk
    exact ⟨e, hr _ _ (fun hi => hi k hk rfl) he, hev⟩
  · rw [ha]; exact h.unique
  · rw [ha, hn]; exact h.token

/-- A connection changes at a task that runs no handler call. -/
theorem Sequential.setConn (h : w.Sequential) {conn : Conn} (hs : w.Idle (.start c) ∨ conn.start = (w.conns c).start)
    (hr : w.Idle (.read c) ∨ conn.read = (w.conns c).read)
    (hp : w.Idle (.publication c) ∨ conn.publication = (w.conns c).publication) : (w.setConn c conn).Sequential := by
  refine h.of_frame rfl rfl fun t e hi he => ?_
  rcases t with _ | d | d | d | n
  · exact he
  · rcases eq_or_ne d c with rfl | hd
    · simpa [Runs, hs.resolve_left hi] using he
    · simpa [Runs, setConn_of_ne hd] using he
  · rcases eq_or_ne d c with rfl | hd
    · simpa [Runs, hr.resolve_left hi] using he
    · simpa [Runs, setConn_of_ne hd] using he
  · rcases eq_or_ne d c with rfl | hd
    · simpa [Runs, hp.resolve_left hi] using he
    · simpa [Runs, setConn_of_ne hd] using he
  · exact he

/-- A handler call starts on a task that is inside the delivery of its event and runs none. -/
theorem Sequential.beginCall (h : w.Sequential) {t : TaskId} {e : Event} (hi : t.isUser ∨ w.Idle t)
    (hr : ∃ e', w.Runs t e' ∧ (e = e' ∨ e = .control)) : (w.beginCall t e).Sequential := by
  refine ⟨fun k hk => ?_, fun k hk k' hk' ht hu => ?_, fun k hk => ?_⟩
  · rcases List.mem_append.mp hk with hk | hk
    · exact h.runs k hk
    · rw [List.mem_singleton] at hk
      subst hk
      exact hr
  · rcases List.mem_append.mp hk with hk | hk <;> rcases List.mem_append.mp hk' with hk' | hk'
    · exact h.unique k hk k' hk' ht hu
    · rw [List.mem_singleton] at hk'
      subst hk'
      rcases hi with hi | hi
      · simp_all
      · exact absurd ht (hi k hk)
    · rw [List.mem_singleton] at hk
      subst hk
      rcases hi with hi | hi
      · simp_all
      · exact absurd ht.symm (hi k' hk')
    · rw [List.mem_singleton] at hk hk'
      rw [hk, hk']
  · rcases List.mem_append.mp hk with hk | hk
    · exact Nat.lt_succ_of_lt (h.token k hk)
    · rw [List.mem_singleton] at hk
      subst hk
      exact Nat.lt_succ_self _

theorem Sequential.endCall (h : w.Sequential) (k : HandlerCall) : (w.endCall k).Sequential := by
  refine ⟨fun k' hk' => h.runs k' (List.mem_of_mem_filter hk'), fun k₁ h₁ k₂ h₂ => ?_, fun k' hk' => ?_⟩
  · exact h.unique k₁ (List.mem_of_mem_filter h₁) k₂ (List.mem_of_mem_filter h₂)
  · exact h.token k' (List.mem_of_mem_filter hk')

/-- A library task that ends its handler call runs no other. -/
theorem Sequential.idle_endCall (h : w.Sequential) {k : HandlerCall} (hk : k ∈ w.active)
    (hu : k.task.isUser = false) : (w.endCall k).Idle k.task := by
  intro k' hk' ht
  obtain ⟨hmem, hne⟩ := List.mem_filter.mp hk'
  exact absurd (h.unique k' hmem k hk ht (ht ▸ hu)) (by simpa using hne)

/-! ## The stretches of code -/

theorem close_spec (ctx : CloseContext) : (w.close s ctx c).1 = w ∨
    (w.close s ctx c).1 = w.setConn c ((w.conns c).requestClose ctx) ∧
      ((w.conns c).state = .closed → (w.conns c).published = false) := by
  unfold close
  dsimp only
  split_ifs with _ hp
  · exact .inl rfl
  · exact .inl rfl
  all_goals exact .inr ⟨rfl, by simpa using hp⟩

/-- The `finally` block of the read loop changes nothing but its connection. -/
theorem readFinally_eq : w.readFinally s c = w.setConn c
    (if (w.conns c).state = .closing ∨ (w.conns c).state = .closed then { w.conns c with read := .done }
      else { (w.conns c).requestClose { task := .read c } with read := .closing }) := by
  unfold World.readFinally
  dsimp only
  split
  · rfl
  · next hst =>
    have hc : (w.close s { task := .read c } c).1 = w.setConn c ((w.conns c).requestClose { task := .read c }) := by
      unfold World.close
      dsimp only
      split_ifs <;> simp_all
    rw [hc, setConn_setConn, setConn_self]

theorem validContext_tokens {ctx : CloseContext} (hc : w.validContext ctx) : ∀ token ∈ ctx.tokens, token < w.nextToken := by
  have hall := ((Bool.and_eq_true _ _).mp hc).1
  simpa using hall

theorem userClose_frame (ctx : CloseContext) :
    ∃ calls, w.userClose s ctx c = { (w.close s ctx c).1 with calls := calls } := by
  unfold userClose
  dsimp only
  split_ifs
  · exact ⟨_, rfl⟩
  · exact ⟨(w.close s ctx c).1.calls, rfl⟩

theorem Sequential.close (h : w.Sequential) (ctx : CloseContext) : (w.close s ctx c).1.Sequential := by
  rcases close_spec (s := s) (w := w) (c := c) ctx with he | he
  · rw [he]; exact h
  · rw [he.1]; exact h.setConn (.inr (by simp)) (.inr (by simp)) (.inr (by simp))

@[simp] theorem close_active (ctx : CloseContext) : (w.close s ctx c).1.active = w.active := by
  rcases close_spec (s := s) (w := w) (c := c) ctx with he | he
  · rw [he]
  · rw [he.1]; rfl

@[simp] theorem close_nextToken (ctx : CloseContext) : (w.close s ctx c).1.nextToken = w.nextToken := by
  rcases close_spec (s := s) (w := w) (c := c) ctx with he | he
  · rw [he]
  · rw [he.1]; rfl

theorem Idle.close {t : TaskId} (h : w.Idle t) (ctx : CloseContext) : (w.close s ctx c).1.Idle t := by
  simpa [Idle] using h

theorem Sequential.startClose (h : w.Sequential) (hi : w.Idle (.start c)) : (w.startClose s c).Sequential :=
  Sequential.close (by exact h.setConn (.inl hi) (.inr rfl) (.inr rfl)) _

theorem Sequential.readFinally (h : w.Sequential) (hi : w.Idle (.read c)) : (w.readFinally s c).Sequential := by
  unfold World.readFinally
  dsimp only
  split_ifs
  · exact h.setConn (.inr rfl) (.inl hi) (.inr rfl)
  · exact (h.close _).setConn (.inr rfl) (.inl (hi.close _)) (.inr rfl)

theorem Sequential.readLoop (h : w.Sequential) (hi : w.Idle (.read c)) : (w.readLoop s c).Sequential := by
  unfold World.readLoop
  dsimp only
  split_ifs
  · exact h.setConn (.inr rfl) (.inl hi) (.inr rfl)
  · exact h.readFinally hi

theorem Sequential.afterReadEmit (h : w.Sequential) (hi : w.Idle (.read c)) (e : ReadEvent) :
    (w.afterReadEmit s c e).Sequential := by
  unfold World.afterReadEmit
  split
  · exact h.readLoop hi
  · exact h.readFinally hi

theorem Sequential.readEmit (h : w.Sequential) (hi : w.Idle (.read c)) (e : ReadEvent) :
    (w.readEmit s c e).Sequential := by
  unfold World.readEmit
  split
  · refine Sequential.beginCall ?_ (.inr hi) ⟨e.event c, by simp [Runs], .inl rfl⟩
    exact h.setConn (.inr rfl) (.inl hi) (.inr rfl)
  · exact h.setConn (.inr rfl) (.inl hi) (.inr rfl)

theorem Sequential.startOpen (h : w.Sequential) (hi : w.Idle (.start c)) : (w.startOpen s c).Sequential := by
  unfold World.startOpen
  dsimp only
  split_ifs
  · exact h.setConn (.inl hi) (.inr rfl) (.inr rfl)
  · split
    · refine Sequential.beginCall ?_ (.inr hi) ⟨.opened c, by simp [Runs], .inl rfl⟩
      exact h.setConn (.inl hi) (.inr rfl) (.inr rfl)
    · exact h.setConn (.inl hi) (.inr rfl) (.inr rfl)

theorem Sequential.idle_publication (h : w.Sequential) (hp : (w.conns c).publication = none) :
    w.Idle (.publication c) :=
  h.idle (by rintro e ⟨p, hp', _⟩; rw [hp] at hp'; cases hp')

theorem Sequential.resolveWaiter (h : w.Sequential) (captured : Option Nat) : (w.resolveWaiter c captured).Sequential :=
  Sequential.of_frame (w := w.setConn c ((w.conns c).resolveWaiter captured))
    (h.setConn (.inr (by simp)) (.inr (by simp)) (.inr (by simp))) rfl rfl fun t e _ he => by cases t <;> exact he

theorem Sequential.finishClose (h : w.Sequential) : (w.finishClose c).Sequential :=
  Sequential.of_frame (w := w.setConn c { w.conns c with closeTask := none })
    (h.setConn (.inr rfl) (.inr rfl) (.inr rfl)) rfl rfl fun t e _ he => by cases t <;> exact he

theorem Sequential.dropQueuedEvents (h : w.Sequential) : (w.dropQueuedEventsForResource s c).Sequential :=
  h.of_frame rfl rfl fun t e _ he => by cases t <;> exact he

/-- `_finalize_close` creates a publication task only where there is none. -/
theorem Sequential.finalizeClose (h : w.Sequential) (inline : Bool) {conn : Conn}
    (hs : w.Idle (.start c) ∨ conn.start = (w.conns c).start) (hr : w.Idle (.read c) ∨ conn.read = (w.conns c).read)
    (hp : conn.publication = ((w.conns c).finalizeClose inline).publication) : (w.setConn c conn).Sequential := by
  refine h.setConn hs hr ?_
  rcases (w.conns c).finalizeClose_publication inline with hn | he
  · exact .inl (h.idle_publication hn)
  · exact .inr (hp.trans he)

theorem Sequential.deferOrPublish (h : w.Sequential) (t : CloseTask) : (w.deferOrPublish s c t).Sequential := by
  unfold World.deferOrPublish
  dsimp only
  split_ifs
  · refine Sequential.finishClose (Sequential.dropQueuedEvents ?_)
    exact h.setConn (.inr rfl) (.inr rfl) (.inr rfl)
  · refine Sequential.dropQueuedEvents ?_
    exact h.setConn (.inr rfl) (.inr rfl) (.inr rfl)
  · exact h.dropQueuedEvents.finishClose
  · refine Sequential.finalizeClose h.dropQueuedEvents t.callerUsesInlineDelivery (.inr ?_) (.inr ?_) rfl
    · exact (w.conns c).finalizeClose_start _
    · exact (w.conns c).finalizeClose_read _

theorem Sequential.runClose (h : w.Sequential) (t : CloseTask) : (w.runClose s c t).Sequential := by
  unfold World.runClose
  dsimp only
  split
  · have hd : (if w.hasActiveHandlerContext s c then w.dropQueuedEventsForResource s c else w).Sequential := by
      split
      · exact h.dropQueuedEvents
      · exact h
    generalize (if w.hasActiveHandlerContext s c then w.dropQueuedEventsForResource s c else w) = w₁ at hd ⊢
    split
    · rcases hr : (w₁.conns c).read with _ | _ | _ | e | e | _ | _
      case delivering => exact hd.setConn (.inr rfl) (.inr (by simp [hr, ReadPc.cancel])) (.inr rfl)
      all_goals
        refine hd.setConn (.inr rfl) (.inl ?_) (.inr rfl)
        exact hd.idle (by simp [Runs, hr])
    · exact hd.setConn (.inr rfl) (.inr rfl) (.inr rfl)
  · exact h.deferOrPublish t

theorem Sequential.startPublish (h : w.Sequential) (hi : w.Idle (.start c)) (opened : Bool) :
    (w.startPublish c opened).Sequential := by
  unfold World.startPublish
  dsimp only
  split_ifs
  · exact h.setConn (.inl hi) (.inr rfl) (.inr rfl)
  · refine Sequential.resolveWaiter ?_ _
    exact h.setConn (.inl hi) (.inr rfl) (.inr rfl)
  · refine h.finalizeClose true (.inl hi) (.inr ?_) ?_
    · simp
    · simp only [Conn.finalizeClose]; split <;> rfl

theorem Sequential.publisherRun (h : w.Sequential) : (w.publisherRun c).Sequential := by
  unfold World.publisherRun
  dsimp only
  split_ifs
  · exact h.setConn (.inr rfl) (.inr rfl) (.inr rfl)
  · refine Sequential.resolveWaiter ?_ _
    exact h.setConn (.inr rfl) (.inr rfl) (.inr rfl)
  · refine h.finalizeClose true (.inr ?_) (.inr ?_) ?_
    · simp
    · simp
    · simp only [Conn.finalizeClose]; split <;> rfl

/-- The end of a handler call on a library task. -/
theorem Sequential.resume (h : w.Sequential) {t : TaskId} (hi : t.isUser ∨ w.Idle t) (raised : Bool) :
    (w.resume s t raised).Sequential := by
  rcases t with _ | d | d | d | n
  · have hi := hi.resolve_left (by simp [TaskId.isUser])
    -- no handler call is left on the worker, so what it dispatches does not matter
    have hw : ({ w with worker := none } : World).Sequential :=
      h.of_frame rfl rfl fun t e hn he => by
        cases t
        · exact absurd hi hn
        all_goals exact he
    simp only [World.resume]
    split
    · split_ifs with hs
      · refine hw.setConn (.inl (hw.idle ?_)) (.inr rfl) (.inr rfl)
        simp [Runs, hs]
      · exact hw
    · exact hw
  · exact h.setConn (.inl (hi.resolve_left (by simp [TaskId.isUser]))) (.inr rfl) (.inr rfl)
  · have hi := hi.resolve_left (by simp [TaskId.isUser])
    simp only [World.resume]
    split
    · split
      · split
        · exact h.readEmit hi _
        · exact h.readFinally hi
      · exact h.afterReadEmit hi _
    · exact h
  · have hi := hi.resolve_left (by simp [TaskId.isUser])
    refine h.of_frame rfl rfl fun t e hn he => ?_
    rcases t with _ | d' | d' | d' | n
    · exact he
    · rcases eq_or_ne d' d with rfl | hd
      · simpa [Runs, World.resume, Conn.finishPublication] using he
      · simpa [Runs, World.resume, setConn_of_ne hd] using he
    · rcases eq_or_ne d' d with rfl | hd
      · simpa [Runs, World.resume, Conn.finishPublication] using he
      · simpa [Runs, World.resume, setConn_of_ne hd] using he
    · rcases eq_or_ne d' d with rfl | hd
      · exact absurd hi hn
      · simpa [Runs, World.resume, setConn_of_ne hd] using he
    · exact he
  · exact h

theorem Sequential.handlerDone (h : w.Sequential) {k : HandlerCall} (hk : k ∈ w.active) {outcome : HandlerOutcome}
    (hs : w.handlerDone s k outcome = some w') : w'.Sequential := by
  have he := h.endCall k
  have hi : k.task.isUser ∨ (w.endCall k).Idle k.task := by
    rcases hu : k.task.isUser
    · exact .inr (h.idle_endCall hk hu)
    · exact .inl rfl
  unfold World.handlerDone at hs
  dsimp only at hs
  split at hs
  · cases hs; exact he.resume hi _
  · split at hs
    · cases hs; exact he.resume (by simpa [*] using hi) _
    · cases hs; exact he.resume (by simpa [*] using hi) _
    · cases hs
  · split at hs
    · cases hs; exact he.resume hi _
    · cases hs; exact he.resume hi _
    · split_ifs at hs
      · cases hs; exact he.resume hi _
      · cases hs
        obtain ⟨e, hr, _⟩ := h.runs k hk
        exact he.beginCall hi ⟨e, by cases hkt : k.task <;> rw [hkt] at hr <;> exact hr, .inr rfl⟩
    · cases hs

@[simp] theorem append_active (e : Event) : (w.append e).active = w.active := rfl
@[simp] theorem append_conns (e : Event) : (w.append e).conns = w.conns := rfl
@[simp] theorem append_queue (e : Event) : (w.append e).queue = w.queue ++ [e] := rfl

theorem Sequential.append (h : w.Sequential) (e : Event) : (w.append e).Sequential :=
  h.of_frame rfl rfl fun t e _ he => by cases t <;> exact he

theorem Sequential.receive (h : w.Sequential) (data : Bytes) : (w.receive c data).Sequential :=
  h.of_frame rfl rfl fun t e _ he => by cases t <;> exact he

theorem Sequential.startSettle (h : w.Sequential) (hi : w.Idle (.start c)) (hr : w.Idle (.read c)) (opened : Bool)
    (result : PublishResult) : (w.startSettle s c opened result).Sequential := by
  unfold World.startSettle
  dsimp only
  split
  · exact h.setConn (.inl hi) (.inr rfl) (.inr rfl)
  · split
    · exact h.setConn (.inl hi) (.inl hr) (.inr rfl)
    · exact h.setConn (.inl hi) (.inr rfl) (.inr rfl)
  · exact h.startClose hi

/-! ## The read task and `start()` -/

/-- The read task exists only once `start()` is over. -/
def Started (w : World) : Prop := ∀ c, (w.conns c).read ≠ .missing → (w.conns c).start = .done

theorem Started.missing (h : w.Started) (hn : (w.conns c).start ≠ .done) : (w.conns c).read = .missing := by
  by_contra hr
  exact hn (h c hr)

theorem Started.setConn (h : w.Started) {conn : Conn} (hc : conn.read ≠ .missing → conn.start = .done) :
    (w.setConn c conn).Started := by
  intro d
  rcases eq_or_ne d c with rfl | hd
  · simpa using hc
  · rw [setConn_of_ne hd]; exact h d

theorem Started.close (h : w.Started) (ctx : CloseContext) : (w.close s ctx c).1.Started := by
  rcases close_spec (s := s) (w := w) (c := c) ctx with he | he
  · rw [he]; exact h
  · rw [he.1]; exact h.setConn (by simpa using h c)

theorem Started.startClose (h : w.Started) (hr : (w.conns c).read = .missing) : (w.startClose s c).Started :=
  Started.close (by exact h.setConn (by simp [hr])) _

theorem Started.readFinally (h : w.Started) (hs : (w.conns c).start = .done) : (w.readFinally s c).Started := by
  unfold World.readFinally
  dsimp only
  split_ifs
  · exact h.setConn fun _ => hs
  · refine (h.close _).setConn fun _ => ?_
    rcases close_spec (s := s) (w := w) (c := c) { task := .read c } with he | he
    · simp [he, hs]
    · simp [he.1, hs]

theorem Started.readLoop (h : w.Started) (hs : (w.conns c).start = .done) : (w.readLoop s c).Started := by
  unfold World.readLoop
  dsimp only
  split
  · exact h.setConn fun _ => hs
  · exact h.readFinally hs

theorem Started.afterReadEmit (h : w.Started) (hs : (w.conns c).start = .done) (e : ReadEvent) :
    (w.afterReadEmit s c e).Started := by
  unfold World.afterReadEmit
  split
  · exact h.readLoop hs
  · exact h.readFinally hs

theorem Started.readEmit (h : w.Started) (hs : (w.conns c).start = .done) (e : ReadEvent) : (w.readEmit s c e).Started := by
  unfold World.readEmit
  split
  · exact h.setConn (c := c) fun _ => hs
  · exact h.setConn fun _ => hs

theorem Started.resolveWaiter (h : w.Started) (captured : Option Nat) : (w.resolveWaiter c captured).Started :=
  h.setConn (c := c) (by simpa using h c)

theorem Started.finishClose (h : w.Started) : (w.finishClose c).Started := h.setConn (c := c) (h c)

theorem Started.dropQueuedEvents (h : w.Started) : (w.dropQueuedEventsForResource s c).Started := h

theorem Started.deferOrPublish (h : w.Started) (t : CloseTask) : (w.deferOrPublish s c t).Started := by
  unfold World.deferOrPublish
  dsimp only
  split_ifs
  · refine Started.finishClose (Started.dropQueuedEvents ?_)
    exact h.setConn (h c)
  · refine Started.dropQueuedEvents ?_
    exact h.setConn (h c)
  · exact h.dropQueuedEvents.finishClose
  · exact h.dropQueuedEvents.setConn (by simpa [dropQueuedEventsForResource] using h c)

theorem Started.runClose (h : w.Started) (t : CloseTask) : (w.runClose s c t).Started := by
  unfold World.runClose
  dsimp only
  split
  · have hd : (if w.hasActiveHandlerContext s c then w.dropQueuedEventsForResource s c else w).Started := by
      split <;> exact h
    generalize (if w.hasActiveHandlerContext s c then w.dropQueuedEventsForResource s c else w) = w₁ at hd ⊢
    split
    · refine hd.setConn fun hr => hd c fun hm => ?_
      simp [hm, ReadPc.cancel] at hr
    · exact hd.setConn (hd c)
  · exact h.deferOrPublish t

theorem Started.startPublish (h : w.Started) (hr : (w.conns c).read = .missing) (opened : Bool) :
    (w.startPublish c opened).Started := by
  unfold World.startPublish
  dsimp only
  split_ifs
  · exact h.setConn (by simp [hr])
  · refine Started.resolveWaiter ?_ _
    exact h.setConn (by simp [hr])
  · exact h.setConn (by simp [hr])

theorem Started.publisherRun (h : w.Started) : (w.publisherRun c).Started := by
  unfold World.publisherRun
  dsimp only
  split_ifs
  · exact h.setConn (h c)
  · refine Started.resolveWaiter ?_ _
    exact h.setConn (h c)
  · exact h.setConn (by simpa using h c)

theorem Started.startSettle (h : w.Started) (hr : (w.conns c).read = .missing) (opened : Bool)
    (result : PublishResult) : (w.startSettle s c opened result).Started := by
  unfold World.startSettle
  dsimp only
  split
  · exact h.setConn (by simp)
  · split <;> exact h.setConn (by simp)
  · exact h.startClose hr

theorem Started.finishPublication (h : w.Started) (ok : Bool) :
    (w.setConn c ((w.conns c).finishPublication ok)).Started := by
  refine h.setConn fun hr => ?_
  simp [Conn.finishPublication, h c hr, StartPc.publicationDone]

theorem Started.handlerDone (h : w.Started) (hq : w.Sequential) {k : HandlerCall} (hk : k ∈ w.active)
    {outcome : HandlerOutcome} (hs : w.handlerDone s k outcome = some w') : w'.Started := by
  have hresume : ∀ raised, ((w.endCall k).resume s k.task raised).Started := fun raised => by
    obtain ⟨e, hr, _⟩ := hq.runs k hk
    have he : (w.endCall k).Started := h
    rcases ht : k.task with _ | d | d | d | n
    · simp only [World.resume]
      split
      · split_ifs with hs
        · exact Started.setConn he (by simp [he.missing (by rw [hs]; simp)])
        · exact he
      · exact he
    · rw [ht] at hr
      exact he.setConn (by simp [h.missing (c := d) (by rw [hr.1]; simp), World.endCall])
    · rw [ht] at hr
      have hdone : ((w.endCall k).conns d).start = .done := h d (by obtain ⟨e', hr, _⟩ := hr; rw [hr]; simp)
      simp only [World.resume]
      split
      · split
        · split
          · exact he.readEmit hdone _
          · exact he.readFinally hdone
        · exact he.afterReadEmit hdone _
      · exact he
    · exact he.finishPublication _
    · exact he
  unfold World.handlerDone at hs
  dsimp only at hs
  split at hs
  · cases hs; exact hresume _
  · split at hs
    · cases hs; simpa [*] using hresume true
    · cases hs; simpa [*] using hresume true
    · cases hs
  · split at hs
    · cases hs; exact hresume _
    · cases hs; exact hresume _
    · split_ifs at hs <;> cases hs
      · exact hresume _
      · exact h
    · cases hs

theorem Started.step (h : w.Started) (hq : w.Sequential) {a : WorldAct} (hs : Step s w a w') : w'.Started := by
  cases hs with
  | @start c hs =>
    unfold startCall
    dsimp only
    split <;> exact h.setConn (by simp [h.missing (c := c) (by simp [hs])])
  | @readyReturned c hs =>
    have hr := h.missing (c := c) (by simp [hs])
    unfold startOpen
    dsimp only
    split
    · exact h.setConn (by simp [hr])
    · split <;> exact h.setConn (c := c) (by simp [hr])
  | readyRaised hs => exact h.startClose (h.missing (by simp [hs]))
  | @startEnqueueTurn c hs => exact h.setConn (c := c) (by simp [h.missing (c := c) (by simp [hs])])
  | @startCancelled c hs => exact h.setConn (by simp [h.missing (c := c) (by simp [hs])])
  | @startHandled c _ hs => exact h.setConn (by simp [h.missing (c := c) (by simp [hs])])
  | startPublish hs => exact h.startPublish (h.missing (by simp [hs])) _
  | @startPublished c _ _ _ hs =>
    refine Started.resolveWaiter ?_ _
    exact h.setConn (by simp [h.missing (c := c) (by simp [hs])])
  | startSettled hs => exact h.startSettle (h.missing (by simp [hs])) _ _
  | readRun hr => exact h.readLoop (h _ (by simp [hr]))
  | @readReturned c data hr => exact Started.readEmit (w := w.receive c data) h (h c (by simp [hr])) _
  | readEof hr => exact h.readFinally (h _ (by simp [hr]))
  | readRaised hr => exact h.readEmit (h _ (by simp [hr])) _
  | @readEnqueueTurn c e hr => exact Started.afterReadEmit (w := w.append (e.event c)) h (h c (by simp [hr])) _
  | @close c ctx =>
    obtain ⟨calls, he⟩ := userClose_frame (s := s) (w := w) (c := c) ctx
    rw [he]
    exact h.close ctx
  | closeResumed => exact h
  | closeRun => exact h.runClose _
  | closeReadDone => exact h.setConn (h _)
  | closeWriterDone => exact h.setConn (h _)
  | closeCallbackReturned => exact h.deferOrPublish _
  | closeFinished => exact h.finishClose
  | @publicationInline c => exact h.setConn (c := c) (h c)
  | publicationBackground => exact h.setConn (h _)
  | publicationEnqueueTurn => exact h.finishPublication true
  | publisherRun => exact h.publisherRun
  | publisherPublished =>
    refine Started.resolveWaiter ?_ _
    exact h.setConn (h _)
  | workerTake => exact h
  | emitInline => exact h
  | emitBackground => exact h
  | handlerDone hmem hf => exact h.handlerDone hq hmem hf

/-! ## Runs -/

theorem Sequential.step (h : w.Sequential) (hd : w.Started) {a : WorldAct} (hs : Step s w a w') : w'.Sequential := by
  cases hs with
  | @start c hs =>
    have hi : w.Idle (.start c) := h.idle (by simp [Runs, hs])
    unfold startCall
    dsimp only
    split <;> exact h.setConn (.inl hi) (.inr rfl) (.inr rfl)
  | readyReturned hs => exact h.startOpen (h.idle (by simp [Runs, hs]))
  | readyRaised hs => exact h.startClose (h.idle (by simp [Runs, hs]))
  | startEnqueueTurn hs => exact (h.append _).setConn (.inl (h.idle (by simp [Runs, hs]))) (.inr rfl) (.inr rfl)
  | startCancelled hs => exact h.setConn (.inl (h.idle (by simp [Runs, hs]))) (.inr rfl) (.inr rfl)
  | startHandled hs => exact h.setConn (.inl (h.idle (by simp [Runs, hs]))) (.inr rfl) (.inr rfl)
  | startPublish hs => exact h.startPublish (h.idle (by simp [Runs, hs])) _
  | startPublished hs =>
    refine Sequential.resolveWaiter ?_ _
    exact h.setConn (.inl (h.idle (by simp [Runs, hs]))) (.inr rfl) (.inr rfl)
  | @startSettled c _ _ hs =>
    refine h.startSettle (h.idle (by simp [Runs, hs])) (h.idle ?_) _ _
    simp [Runs, hd.missing (c := c) (by simp [hs])]
  | readRun hr => exact h.readLoop (h.idle (by simp [Runs, hr]))
  | readReturned hr => exact (h.receive _).readEmit (h.idle (by simp [Runs, hr])) _
  | readEof hr => exact h.readFinally (h.idle (by simp [Runs, hr]))
  | readRaised hr => exact h.readEmit (h.idle (by simp [Runs, hr])) _
  | readEnqueueTurn hr => exact (h.append _).afterReadEmit (h.idle (by simp [Runs, hr])) _
  | @close c ctx =>
    obtain ⟨calls, he⟩ := userClose_frame (s := s) (w := w) (c := c) ctx
    rw [he]
    exact (h.close ctx).of_frame rfl rfl fun t e _ he => by cases t <;> exact he
  | closeResumed => exact h.of_frame rfl rfl fun t e _ he => by cases t <;> exact he
  | closeRun => exact h.runClose _
  | closeReadDone => exact h.setConn (.inr rfl) (.inr rfl) (.inr rfl)
  | closeWriterDone => exact h.setConn (.inr rfl) (.inr rfl) (.inr rfl)
  | closeCallbackReturned => exact h.deferOrPublish _
  | closeFinished => exact h.finishClose
  | @publicationInline c p hp hpc _ =>
    have hi : w.Idle (.publication c) := h.idle (by simp [Runs, hp, hpc])
    refine Sequential.beginCall ?_ (.inr hi) ⟨.closed c p.previousState, by simp [Runs], .inl rfl⟩
    exact h.setConn (.inr rfl) (.inr rfl) (.inl hi)
  | publicationBackground hp hpc => exact h.setConn (.inr rfl) (.inr rfl) (.inl (h.idle (by simp [Runs, hp, hpc])))
  | @publicationEnqueueTurn c p hp hpc =>
    exact (h.append (.closed c p.previousState)).resume (s := s) (t := .publication c)
      (.inr (h.idle (by simp [Runs, hp, hpc]))) false
  | publisherRun => exact h.publisherRun
  | publisherPublished =>
    refine Sequential.resolveWaiter ?_ _
    exact h.setConn (.inr rfl) (.inr rfl) (.inr rfl)
  | @workerTake e rest _ hw =>
    have hi : w.Idle .worker := h.idle (by simp [Runs, hw])
    refine Sequential.beginCall ?_ (.inr hi) ⟨e, rfl, .inl rfl⟩
    refine h.of_frame rfl rfl fun t e' hn he => ?_
    cases t
    · exact absurd hi hn
    all_goals exact he
  | emitInline => exact h.beginCall (.inl rfl) ⟨.other, rfl, .inl rfl⟩
  | emitBackground => exact h.append _
  | handlerDone hmem hf => exact h.handlerDone hmem hf

theorem sequential_of_reachable {ok : World → WorldAct → Prop} (h : (world s).Reachable ok w) :
    w.Sequential ∧ w.Started := by
  refine h.invariant (I := fun w => w.Sequential ∧ w.Started) ?_
    fun _ _ _ hi _ hs => ⟨hi.1.step hi.2 (.of_step hs), hi.2.step hi.1 (.of_step hs)⟩
  rintro _ rfl
  exact ⟨⟨by simp, by simp, by simp⟩, fun c h => absurd rfl h⟩

end World

end Aionetx
