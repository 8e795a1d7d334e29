import Aionetx.Connection.CallbackFirst
import Aionetx.Server.Runtime

/-!
# The close of a connection, as its server sees it

`TcpConnection` has every await of a close, `ServerRuntime` four steps of it. Unless a close task is cancelled, whatever the one
does the other can do.

* `ConnectionClose.Next` : a step of a close in the server;
* `TcpConnection.serverView` : how far the close of a connection has come, `TcpConnection.Unseen` : what the server does not see;
* `TcpConnection.Attached.step` : a step of the connection is a step of its close in the server, or the server does not see it;
* `TcpConnection.server_follows` : over whole runs.
-/

namespace Aionetx

open Runs

/-- A step of the close of a client's connection, in the server. -/
inductive ConnectionClose.Next : ConnectionClose → ConnectionClose → Prop
  | begins : Next .notClosed .closing
  | tornDown : Next .closing .detaching
  | fails : Next .closing .raised
  | detaches : Next .detaching .closed

theorem ServerRuntime.exists_of_next (settings : TcpServerSettings) {s : ServerRuntime} {k : Nat} {close : ConnectionClose}
    (hk : k ∈ s.accepted) (hlock : s.lock = none) (h : (s.client k).close.Next close) :
    ∃ a s', s.step settings a = some s' ∧ (s'.client k).close = close ∧ s'.accepted = s.accepted ∧ s'.lock = s.lock := by
  have hset : ∀ (s : ServerRuntime) close, ((s.setClose k close).client k).close = close := fun s close => by
    simp [ServerRuntime.setClose]
  generalize hclose : (s.client k).close = before at h
  cases h with
  | begins =>
    refine ⟨.close k, s.setClose k .closing, ?_, hset _ _, rfl, rfl⟩
    simp only [ServerRuntime.step, ServerRuntime.beginClose, if_pos hk, if_pos hclose]
  | tornDown =>
    refine ⟨.closeTurn k true, (s.closeTransport k).setClose k .detaching, ?_, hset _ _, rfl, rfl⟩
    simp only [ServerRuntime.step, ServerRuntime.closeTurn, hclose, if_true]
  | fails =>
    refine ⟨.closeTurn k false, s.setClose k .raised, ?_, hset _ _, rfl, rfl⟩
    simp only [ServerRuntime.step, ServerRuntime.closeTurn, hclose, Bool.false_eq_true, if_false]
  | detaches =>
    refine ⟨.closeTurn k true, { s with toServerRegistry := s.detach k }.setClose k .closed, ?_, hset _ _, ?_, rfl⟩
    · simp only [ServerRuntime.step, ServerRuntime.closeTurn, hclose, if_pos hlock]
    · show (s.detach k).accepted = s.accepted
      unfold ServerRegistry.detach
      split <;> rfl

namespace TcpConnection

/-- How far the close of the connection has come, as its server sees it. -/
def serverView (c : TcpConnection) : ConnectionClose :=
  match c.closeTask with
  | some task =>
    if task.awaitsCallback then .closing
    else if task.pc = .awaitingStateLock then .detaching
    else if c.registered then .raised else .closed
  | none =>
    match c.state with
    | .closing | .closed => if c.registered then .raised else .closed
    | .created | .connecting | .connected => .notClosed

/-- The server sees no difference. -/
structure Unseen (c t : TcpConnection) : Prop where
  closeTask : t.closeTask = c.closeTask
  registered : t.registered = c.registered
  closing : t.IsClosing ↔ c.IsClosing

/-- The connection is registered until its callback has removed it. -/
structure Attached (c : TcpConnection) : Prop where
  live : ¬c.IsClosing → c.registered = true
  task : ∀ task, c.closeTask = some task → task.beforeRemoval = true → c.registered = true

def Uncancelled (_ : TcpConnection) : TcpConnectionAct → Prop
  | .closeTurn outcome _ => outcome ≠ .cancelled
  | _ => True

variable {c t : TcpConnection}

/-- Past its teardown, or with nobody to close it any more. -/
theorem serverView_of_past (hclosing : c.IsClosing) (htask : ∀ task, c.closeTask = some task → task.beforeRemoval = false) :
    c.serverView = if c.registered then .raised else .closed := by
  unfold serverView
  cases hc : c.closeTask with
  | none =>
    rcases hclosing with hstate | hstate <;> simp only [hstate]
  | some task =>
    obtain ⟨hawaits, hpc⟩ := Bool.or_eq_false_iff.mp (htask task hc)
    simp [hawaits, of_decide_eq_false hpc]

theorem serverView_of_live (hclosing : ¬c.IsClosing) (htask : c.closeTask = none) : c.serverView = .notClosed := by
  unfold serverView
  rw [htask]
  cases hstate : c.state with
  | created | connecting | connected => rfl
  | closing => exact absurd (.inl hstate) hclosing
  | closed => exact absurd (.inr hstate) hclosing

theorem Unseen.refl (c : TcpConnection) : Unseen c c := ⟨rfl, rfl, .rfl⟩

theorem Unseen.serverView (h : Unseen c t) : t.serverView = c.serverView := by
  by_cases htask : c.closeTask = none
  · by_cases hclosing : c.IsClosing
    · rw [serverView_of_past hclosing (by rw [htask]; nofun),
        serverView_of_past (h.closing.mpr hclosing) (by rw [h.closeTask, htask]; nofun), h.registered]
    · rw [serverView_of_live hclosing htask, serverView_of_live (mt h.closing.mp hclosing) (h.closeTask.trans htask)]
  · obtain ⟨task, htask⟩ := Option.ne_none_iff_exists'.mp htask
    unfold TcpConnection.serverView
    rw [h.closeTask, htask, h.registered]

theorem Attached.unseen (h : c.Attached) (hu : Unseen c t) : t.Attached where
  live hclosing := hu.registered.trans (h.live (mt hu.closing.mpr hclosing))
  task task htask hbefore := hu.registered.trans (h.task task (hu.closeTask ▸ htask) hbefore)

theorem Attached.of_registered (h : c.registered = true) : c.Attached := ⟨fun _ => h, fun _ _ _ => h⟩

theorem Attached.registered (h : c.Attached) {task : ClosingTask} (htask : c.closeTask = some task)
    (hawaits : task.awaitsCallback) : c.registered = true :=
  h.task task htask (by rw [ClosingTask.beforeRemoval, hawaits]; rfl)

/-! ## What the server does not see -/

theorem unseen_publishDeferred (hp : c.Publishing) : Unseen c c.publishDeferred.1 := by
  obtain ⟨-, hregistered, htask, hclosing⟩ := c.publishDeferred_log
  refine ⟨htask, hregistered, fun h => ?_, hclosing⟩
  by_contra hnot
  have hdeferred : c.deferred = false := Bool.eq_false_iff.mpr fun hd => hnot (hp.deferred hd)
  unfold publishDeferred at h
  rw [if_neg (by rw [hdeferred]; nofun)] at h
  exact hnot h

theorem unseen_publicationTurn {k : Nat} {outcome : Outcome} (ht : c.publicationTurn k outcome = some t) : Unseen c t := by
  unfold publicationTurn at ht
  obtain ⟨p, -, ht⟩ := Option.bind_eq_some_iff.mp ht
  cases hpc : p.pc with
  | created =>
    rw [hpc] at ht
    cases outcome with
    | returned | cancelled => cases ht; exact ⟨rfl, rfl, .rfl⟩
    | raised => cases ht
  | emitting =>
    rw [hpc] at ht
    dsimp only at ht
    split at ht <;> cases ht <;> exact ⟨rfl, rfl, .rfl⟩
  | ended o =>
    rw [hpc] at ht
    cases ht

theorem unseen_releaseWaiter (captured : Option Nat) : Unseen c (c.releaseWaiter captured) := by
  obtain ⟨waiter, waitersDone, h⟩ := c.releaseWaiter_eq captured
  rw [h]
  exact ⟨rfl, rfl, .rfl⟩

theorem unseen_completeWaiter (captured : Option Nat) : Unseen c (c.completeWaiter captured) := by
  obtain ⟨waitersDone, h⟩ := c.completeWaiter_eq captured
  rw [h]
  exact ⟨rfl, rfl, .rfl⟩

theorem Unseen.trans {u : TcpConnection} (h : Unseen c t) (h' : Unseen t u) : Unseen c u :=
  ⟨h'.closeTask.trans h.closeTask, h'.registered.trans h.registered, h'.closing.trans h.closing⟩

theorem unseen_publisherTurn (hp : c.Publishing) {outcome : Outcome} (ht : c.publisherTurn outcome = some t) : Unseen c t := by
  unfold publisherTurn at ht
  obtain ⟨pc, -, ht⟩ := Option.bind_eq_some_iff.mp ht
  cases pc with
  | created =>
    cases outcome with
    | returned | cancelled => cases ht; exact ⟨rfl, rfl, .rfl⟩
    | raised => cases ht
  | waiting =>
    cases outcome with
    | returned => cases ht; exact (unseen_publishDeferred hp).trans ⟨rfl, rfl, .rfl⟩
    | raised => cases ht
    | cancelled => cases ht; exact (unseen_completeWaiter c.waiter).trans ⟨rfl, rfl, .rfl⟩
  | joining k waiter =>
    dsimp only at ht
    split at ht
    · cases ht
    · cases ht
      have hreleased : Unseen c { c.releaseWaiter waiter with publisher := none } :=
        (unseen_releaseWaiter waiter).trans ⟨rfl, rfl, .rfl⟩
      split
      · exact hreleased
      · exact hreleased.trans (unseen_completeWaiter _)

theorem unseen_publishTurn (hp : c.Publishing) {outcome : Outcome} (ht : c.publishTurn outcome = some t) : Unseen c t := by
  unfold publishTurn at ht
  split at ht
  · cases ht; exact (unseen_publishDeferred hp).trans ⟨rfl, rfl, .rfl⟩
  · cases ht; exact ⟨rfl, rfl, .rfl⟩
  · next waiter _ =>
    split at ht
    · cases ht
    · cases ht; exact (unseen_releaseWaiter waiter).trans ⟨rfl, rfl, .rfl⟩
  · cases ht

theorem unseen_ensure (ht : c.ensureDeferredClosePublicationWaiter = some t) : Unseen c t := by
  unfold ensureDeferredClosePublicationWaiter at ht
  split at ht
  · cases ht
    split
    · exact .refl c
    · unfold ensureWaiter
      split <;> exact ⟨rfl, rfl, .rfl⟩
  · cases ht

/-! ## The steps -/

/-- The connection stays attached, and the server sees no step or one of its own. -/
def Moves (c t : TcpConnection) : Prop := t.Attached ∧ (t.serverView = c.serverView ∨ c.serverView.Next t.serverView)

theorem Attached.moves (h : c.Attached) (hu : Unseen c t) : Moves c t := ⟨h.unseen hu, .inl hu.serverView⟩

theorem Unseen.moves {u : TcpConnection} (hu : Unseen c t) (h : Moves t u) : Moves c u := by
  unfold Moves at h ⊢
  rwa [hu.serverView] at h

theorem moves_of_past (hc : c.IsClosing) (hctask : ∀ task, c.closeTask = some task → task.beforeRemoval = false)
    (ht : t.IsClosing) (httask : ∀ task, t.closeTask = some task → task.beforeRemoval = false)
    (hregistered : t.registered = c.registered) : Moves c t := by
  refine ⟨⟨fun h => absurd ht h, fun task htask hb => ?_⟩, .inl ?_⟩
  · rw [httask task htask] at hb
    cases hb
  · rw [serverView_of_past ht httask, serverView_of_past hc hctask, hregistered]

theorem serverView_of_awaits {task : ClosingTask} (htask : c.closeTask = some task) (hawaits : task.awaitsCallback) :
    c.serverView = .closing := by
  unfold serverView
  rw [htask]
  exact if_pos hawaits

theorem suspendClose_task {task : ClosingTask} (htask : c.closeTask = some task) (pc : ClosingPc) :
    (c.suspendClose (some pc)).closeTask = some { task with pc } := by
  unfold suspendClose
  rw [htask]
  rfl

theorem Attached.tear (h : c.Attached) {task : ClosingTask} (htask : c.closeTask = some task) (hawaits : task.awaitsCallback)
    {pc : ClosingPc} (hpc : ClosingTask.awaitsCallback { task with pc }) : Moves c (c.suspendClose (some pc)) := by
  refine ⟨.of_registered (h.registered htask hawaits), .inl ?_⟩
  rw [serverView_of_awaits (suspendClose_task htask pc) hpc, serverView_of_awaits htask hawaits]

theorem Attached.fail (h : c.Attached) (hclosing : c.IsClosing) {task : ClosingTask} (htask : c.closeTask = some task)
    (hawaits : task.awaitsCallback) : Moves c (c.suspendClose none) := by
  have hregistered := h.registered htask hawaits
  refine ⟨.of_registered hregistered, .inr ?_⟩
  have hview : (c.suspendClose none).serverView = .raised := by
    have hclosing' : (c.suspendClose none).IsClosing := hclosing
    rw [serverView_of_past hclosing' fun _ h => by cases h]
    exact if_pos hregistered
  rw [hview, serverView_of_awaits htask hawaits]
  exact .fails

/-- The callback is invoked, and waits for `_state_lock`. -/
theorem Attached.invoke (h : c.Attached) {task : ClosingTask} (htask : c.closeTask = some task)
    (hpc : task.pc = .writerShutdown) : Moves c ((c.note .callback).suspendClose (some .awaitingStateLock)) := by
  have hawaits : task.awaitsCallback := by rw [ClosingTask.awaitsCallback, hpc]
  refine ⟨.of_registered (h.registered htask hawaits), .inr ?_⟩
  have hview : ((c.note .callback).suspendClose (some .awaitingStateLock)).serverView = .detaching := by
    unfold serverView
    rw [suspendClose_task (c := c.note .callback) htask .awaitingStateLock]
    rfl
  rw [hview, serverView_of_awaits htask hawaits]
  exact .tornDown

theorem moves_of_remove {task : ClosingTask} (hclosing : c.IsClosing) (htask : c.closeTask = some task)
    (hpc : task.pc = .awaitingStateLock) : Moves c ({ c with registered := false }.suspendClose (some .inCallback)) := by
  have hclosing' : ({ c with registered := false }.suspendClose (some .inCallback)).IsClosing := hclosing
  have hpast : ∀ t, ({ c with registered := false }.suspendClose (some .inCallback)).closeTask = some t →
      t.beforeRemoval = false := fun t ht =>
    t.beforeRemoval_of_past ((Option.some.inj (suspendClose_pc ht)) ▸ rfl)
  refine ⟨⟨fun hlive => absurd hclosing hlive, fun t ht hb => ?_⟩, .inr ?_⟩
  · rw [hpast t ht] at hb
    cases hb
  · rw [serverView_of_past hclosing' hpast]
    have hview : c.serverView = .detaching := by
      unfold serverView
      simp [htask, ClosingTask.awaitsCallback, hpc]
    rw [hview]
    exact .detaches

theorem Attached.closeTurn (h : c.Attached) (hp : c.Publishing) {outcome : Outcome} {answers : CloseAnswers}
    (hnot : outcome ≠ .cancelled) (ht : c.closeTurn outcome answers = some t) : Moves c t := by
  unfold TcpConnection.closeTurn at ht
  obtain ⟨task, htask, ht⟩ := Option.bind_eq_some_iff.mp ht
  have hclosing : c.IsClosing := hp.task (htask ▸ rfl)
  have hctask : task.beforeRemoval = false → ∀ task, c.closeTask = some task → task.beforeRemoval = false :=
    fun hpast task' htask' => Option.some.inj (htask.symm.trans htask') ▸ hpast
  have hdefer : task.beforeRemoval = false → Moves c (c.deferOrPublish answers) := fun hpast =>
    have ⟨_, hregistered, hclosing', htask'⟩ := deferOrPublish_log hclosing answers
    moves_of_past hclosing (hctask hpast) hclosing' htask' hregistered
  have hover : task.beforeRemoval = false → Moves c (c.suspendClose none) := fun hpast =>
    moves_of_past hclosing (hctask hpast) hclosing (fun _ h => by cases h) rfl
  cases hpc : task.pc with
  | created =>
    rw [hpc] at ht
    cases outcome with
    | returned =>
      cases hneeds : task.needsTeardown with
      | true =>
        simp only [hneeds, if_true] at ht
        cases ht
        exact h.tear htask (by rw [ClosingTask.awaitsCallback, hpc, hneeds]) rfl
      | false =>
        simp only [hneeds] at ht
        cases ht
        exact hdefer (by simp [ClosingTask.beforeRemoval, ClosingTask.awaitsCallback, hpc, hneeds])
    | raised => cases ht
    | cancelled => exact absurd rfl hnot
  | purging =>
    have hawaits : task.awaitsCallback := by rw [ClosingTask.awaitsCallback, hpc]
    rw [hpc] at ht
    cases outcome with
    | returned => cases ht; exact h.tear htask hawaits (by split <;> rfl)
    | raised => cases ht; exact h.fail hclosing htask hawaits
    | cancelled => exact absurd rfl hnot
  | awaitingRead =>
    have hawaits : task.awaitsCallback := by rw [ClosingTask.awaitsCallback, hpc]
    rw [hpc] at ht
    cases outcome with
    | returned => cases ht; exact h.tear htask hawaits rfl
    | raised => cases ht; exact h.fail hclosing htask hawaits
    | cancelled => exact absurd rfl hnot
  | writerShutdown =>
    rw [hpc] at ht
    cases outcome with
    | returned => cases ht; exact h.invoke htask hpc
    | raised => cases ht; exact h.fail hclosing htask (by rw [ClosingTask.awaitsCallback, hpc])
    | cancelled => exact absurd rfl hnot
  | awaitingStateLock =>
    rw [hpc] at ht
    cases outcome with
    | returned => cases ht; exact moves_of_remove hclosing htask hpc
    | raised => cases ht
    | cancelled => exact absurd rfl hnot
  | inCallback =>
    have hpast : task.beforeRemoval = false := task.beforeRemoval_of_past (by rw [hpc]; rfl)
    rw [hpc] at ht
    cases outcome with
    | returned => cases ht; exact hdefer hpast
    | raised => cases ht; exact hover hpast
    | cancelled => exact absurd rfl hnot
  | awaitingWaiter w =>
    rw [hpc] at ht
    dsimp only at ht
    split at ht
    · cases ht
    · cases ht; exact hover (task.beforeRemoval_of_past (by rw [hpc]; rfl))
  | awaitingPublication k =>
    rw [hpc] at ht
    dsimp only at ht
    split at ht
    · cases ht
    · cases ht; exact hover (task.beforeRemoval_of_past (by rw [hpc]; rfl))

/-- `close()`: the first one tears the connection down, a later one goes straight to publication. -/
theorem Attached.close (h : c.Attached) (byOpening : Bool) : Moves c (c.close byOpening) := by
  have hnoted : Moves c (c.note (.closeCalled c.state)) := h.moves ⟨rfl, rfl, .rfl⟩
  unfold TcpConnection.close
  dsimp only
  split
  · exact hnoted
  · split
    · exact hnoted
    · unfold requestClose
      split
      · exact hnoted
      · next hnone =>
        have hfree : c.closeTask = none := by simpa [note] using hnone
        have hstate : (if c.state = .closed then ConnectionState.closed else .closing) = .closing ∨
            (if c.state = .closed then ConnectionState.closed else .closing) = .closed := by
          split
          · exact .inr rfl
          · exact .inl rfl
        by_cases hclosing : c.IsClosing
        · -- a retry
          refine moves_of_past hclosing (fun task htask => ?_) hstate (fun task htask => ?_) rfl
          · rw [hfree] at htask
            cases htask
          · cases htask
            have hnot : ¬(c.state ≠ .closing ∧ c.state ≠ .closed) := fun hs => hclosing.elim hs.1 hs.2
            simp [ClosingTask.beforeRemoval, ClosingTask.awaitsCallback, note, hnot]
        · refine ⟨.of_registered (h.live hclosing), .inr ?_⟩
          rw [serverView_of_live hclosing hfree, serverView_of_awaits rfl]
          · exact .begins
          · exact decide_eq_true ⟨fun hs => hclosing (.inl hs), fun hs => hclosing (.inr hs)⟩

theorem Attached.startTurn (h : c.Attached) {outcome : Outcome} (ht : c.startTurn outcome = some t) : Moves c t := by
  have hclose : ∀ u, Unseen c u → Moves c (u.close false) := fun u hu => hu.moves ((h.unseen hu).close false)
  unfold TcpConnection.startTurn at ht
  split at ht
  · cases ht
    split <;> exact h.moves ⟨rfl, rfl, .rfl⟩
  all_goals first
    | cases ht; exact h.moves ⟨rfl, rfl, .rfl⟩
    | cases ht; exact hclose _ ⟨rfl, rfl, .rfl⟩
    | cases ht

theorem Attached.step (h : c.Attached) (hp : c.Publishing) {a : TcpConnectionAct} (hok : c.Uncancelled a)
    (ht : c.step a = some t) : Moves c t := by
  cases a with
  | start =>
    simp only [TcpConnection.step] at ht
    split at ht
    · cases ht
      split
      · next hcreated =>
        refine h.moves ⟨rfl, rfl, ?_⟩
        simp [IsClosing, hcreated]
      · exact h.moves ⟨rfl, rfl, .rfl⟩
    · cases ht
  | startTurn outcome => exact h.startTurn ht
  | publishTurn outcome => exact h.moves (unseen_publishTurn hp ht)
  | close byOpening => cases ht; exact h.close byOpening
  | closeTurn outcome answers => exact h.closeTurn hp hok ht
  | publicationTurn k outcome => exact h.moves (unseen_publicationTurn ht)
  | publisherTurn outcome => exact h.moves (unseen_publisherTurn hp ht)
  | ensureWaiter => exact h.moves (unseen_ensure ht)

/-- The server, which has accepted the connection and whose `_state_lock` is free, sees how far its close has come. -/
structure SeenBy (k : Nat) (c : TcpConnection) (s : ServerRuntime) : Prop where
  publishing : c.Publishing
  attached : c.Attached
  accepted : k ∈ s.accepted
  unlocked : s.lock = none
  close : (s.client k).close = c.serverView

theorem SeenBy.step (settings : TcpServerSettings) {s : ServerRuntime} {k : Nat} (h : SeenBy k c s) {a : TcpConnectionAct}
    (hok : c.Uncancelled a) (ht : c.step a = some t) :
    SeenBy k t s ∨ ∃ b s', s.step settings b = some s' ∧ SeenBy k t s' := by
  obtain ⟨hattached, hsame | hnext⟩ := h.attached.step h.publishing hok ht
  · exact .inl ⟨h.publishing.step ht, hattached, h.accepted, h.unlocked, h.close.trans hsame.symm⟩
  · rw [← h.close] at hnext
    obtain ⟨b, s', hs, hclose, haccepted, hlock⟩ :=
      ServerRuntime.exists_of_next settings h.accepted h.unlocked hnext
    exact .inr ⟨b, s', hs, h.publishing.step ht, hattached, haccepted ▸ h.accepted, hlock.trans h.unlocked, hclose⟩

/-- Once the server has accepted the connection, and while its `_state_lock` is free: wherever the connection comes to, the
server can come to a state that sees it there. -/
theorem server_follows (settings : TcpServerSettings) {s : ServerRuntime} {k : Nat} (hk : k ∈ s.accepted)
    (hlock : s.lock = none) (hlive : (s.client k).close = .notClosed) (hc : tcpConnectionMachine.Reachable Uncancelled c) :
    ∃ s', Machine.Reachable { serverMachine settings with init := (· = s) } Machine.Any s' ∧ SeenBy k c s' := by
  refine hc.simulate (SeenBy k) (fun c h0 => ?_) fun c a t s' hok ht hs' hseen => ?_
  · subst h0
    exact ⟨s, .init rfl, publishing_of_reachable (.init rfl), .of_registered rfl, hk, hlock, hlive⟩
  · obtain hseen | ⟨b, s'', hb, hseen⟩ := hseen.step settings hok ht
    · exact ⟨s', hs', hseen⟩
    · exact ⟨s'', hs'.step trivial hb, hseen⟩

end TcpConnection

end Aionetx
