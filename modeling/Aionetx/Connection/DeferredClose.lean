import Aionetx.Connection.ClosedOnce

/-!
# Deferred closes and who publishes them

A close that is deferred sets a flag and leaves a waiter; `start()`, after its opened event, or a publisher, once the
handlers have returned, looks at the flag once and publishes. On its error path `start()` looks at the flag before it
clears `_opening_event_task`, and a publisher that has looked at it is still the one behind
`_deferred_close_publish_task`: a close that is deferred in between is left to nobody.

* `TcpConnection.NoOrphan` : a set flag and a pending waiter have a publisher;
* `TcpConnection.DefersInTime` : the flag is set while the one who publishes has still to look at it;
* `TcpConnection.noOrphan_of_reachable` : in the runs whose steps all meet it, with no publisher cancelled;
* `not_noOrphan_of_openedFails` : a close that is deferred after the error path has looked.
-/

namespace Aionetx

/-- `start()` has still to look at the flag. -/
def OpeningPc.willCheck : OpeningPc → Bool
  | .opening | .publishing _ => true
  | _ => false

/-- `start()` joins a publication with the captured waiter `w`. -/
def OpeningPc.Joins (w : Nat) : OpeningPc → Prop
  | .joining _ _ waiter => waiter = some w
  | _ => False

/-- The publisher has still to look at the flag. -/
def DeferredPublisher.willCheck : DeferredPublisher → Bool
  | .created | .waiting => true
  | .joining _ _ => false

/-- The publisher joins a publication with the captured waiter `w`. -/
def DeferredPublisher.Joins (w : Nat) : DeferredPublisher → Prop
  | .joining _ waiter => waiter = some w
  | _ => False

/-- The close task comes to `_defer_close_event_until_opened_event_completes`. -/
def ClosingTask.leavesTeardown (t : ClosingTask) : Outcome → Bool
  | .returned => (t.pc = .created && !t.needsTeardown) || t.pc = .inCallback
  | .raised => false
  | .cancelled =>
    match t.pc with
    | .purging | .awaitingRead | .writerShutdown | .awaitingStateLock | .inCallback => true
    | _ => false

def TcpConnectionAct.PublishersRun : TcpConnectionAct → Prop
  | .publisherTurn outcome | .publishTurn outcome => outcome ≠ .cancelled
  | _ => True

instance : ∀ a : TcpConnectionAct, Decidable a.PublishersRun
  | .publisherTurn outcome | .publishTurn outcome => inferInstanceAs (Decidable (outcome ≠ .cancelled))
  | .start | .startTurn _ | .close _ | .closeTurn _ _ | .publicationTurn _ _ | .ensureWaiter => .isTrue trivial

namespace TcpConnection
variable (c : TcpConnection)

/-- The opened event is in flight and `start()` will publish, a publisher runs, or a publication is in progress. -/
def Served : Prop :=
  c.start.willCheck = true ∨ (∃ opened k waiter, c.start = .joining opened k waiter) ∨ c.publisher.isSome ∨
    ∃ (k : Nat) (p : ClosePublication), c.publications[k]? = some p ∧ p.inFlight

/-- No deferred close is left to nobody: one whose flag is set or whose current waiter is not done is served, and a waiter
that is not done, on which a caller may wait, is the current one. -/
structure NoOrphan : Prop where
  served : c.deferred = true ∨ c.pendingDeferredCloseWaiter.isSome → c.Served
  current : ∀ w, c.Pending w → c.waiter = some w

/-- A publisher is created, or the one that runs has still to look at the flag. -/
def PublisherChecks : Prop := c.publisher.all (·.willCheck) = true

instance : Decidable c.PublisherChecks := inferInstanceAs (Decidable (_ = _))

/-- The flag is set in time: it is set already, or the one who publishes has still to look at it. -/
def DefersInTime : TcpConnectionAct → Prop
  | .closeTurn outcome answers =>
    c.closeTask.any (·.leavesTeardown outcome) = true →
      c.opening || answers.fromHandler || answers.activeInlineHandler →
        c.deferred = true ∨ if c.opening then c.start.willCheck = true else c.PublisherChecks
  | .ensureWaiter => c.published = true ∨ c.deferred = true ∨ c.PublisherChecks
  | _ => True

instance : ∀ a, Decidable (c.DefersInTime a)
  | .closeTurn outcome answers =>
    inferInstanceAs (Decidable (c.closeTask.any (fun t => t.leavesTeardown outcome) = true →
      (c.opening || answers.fromHandler || answers.activeInlineHandler) = true →
        c.deferred = true ∨ if c.opening then c.start.willCheck = true else c.PublisherChecks))
  | .ensureWaiter => inferInstanceAs (Decidable (c.published = true ∨ c.deferred = true ∨ c.PublisherChecks))
  | .start | .startTurn _ | .publishTurn _ | .close _ | .publicationTurn _ _ | .publisherTurn _ => .isTrue trivial

/-! ## The invariant -/

/-- Someone has still to look at the flag. -/
def WillCheck : Prop := c.start.willCheck = true ∨ ∃ p, c.publisher = some p ∧ p.willCheck = true

/-- Someone has captured the waiter `w` and completes it. -/
def Captured (w : Nat) : Prop := c.start.Joins w ∨ ∃ p, c.publisher = some p ∧ p.Joins w

/-- A set flag will be looked at; a pending waiter is the current one, and belongs to a set flag or was captured. -/
structure Attended : Prop where
  checked : c.deferred = true → c.WillCheck
  current : ∀ w, c.Pending w → c.waiter = some w
  held : ∀ w, c.Pending w → c.deferred = true ∨ c.Captured w

variable {c} {t : TcpConnection}

theorem Attended.noOrphan (h : c.Attended) : c.NoOrphan := by
  refine ⟨fun hset => ?_, h.current⟩
  have hcheck : c.WillCheck → c.Served := by
    rintro (hs | ⟨p, hp, -⟩)
    · exact .inl hs
    · exact .inr (.inr (.inl (hp ▸ rfl)))
  rcases hset with hd | hw
  · exact hcheck (h.checked hd)
  · obtain ⟨w, hw⟩ := Option.isSome_iff_exists.mp hw
    obtain ⟨-, hpending⟩ := Option.filter_eq_some_iff.mp hw
    rcases h.held w (of_decide_eq_true hpending) with hd | hs | ⟨p, hp, -⟩
    · exact hcheck (h.checked hd)
    · cases hstart : c.start <;> rw [hstart] at hs <;> first | exact hs.elim | exact .inr (.inl ⟨_, _, _, hstart⟩)
    · exact .inr (.inr (.inl (hp ▸ rfl)))

/-- The parts of a connection that the deferral of its close does not read. -/
theorem Attended.frame (h : c.Attended) {state : ConnectionState} {previousState : Option ConnectionState}
    {published opening : Bool} {closeTask : Option ClosingTask} {closeEventTask : Option Nat}
    {publications : List ClosePublication} {registered : Bool} {log : List CloseMark} :
    Attended { c with state, previousState, published, opening, closeTask, closeEventTask, publications, registered, log } :=
  ⟨h.checked, h.current, h.held⟩

theorem pending_releaseWaiter {captured : Option Nat} {w : Nat} (hp : (c.releaseWaiter captured).Pending w) :
    c.Pending w ∧ captured ≠ some w := by
  cases captured with
  | none => exact ⟨hp, nofun⟩
  | some v =>
    change (c.waitersDone.set v true)[w]? = some false at hp
    by_cases hvw : v = w
    · subst hvw
      rw [List.getElem?_set] at hp
      split at hp
      · split at hp <;> cases hp
      · exact absurd rfl (by assumption)
    · rw [List.getElem?_set_ne hvw] at hp
      exact ⟨hp, fun he => hvw (Option.some.inj he)⟩

theorem releaseWaiter_waiter {captured : Option Nat} {w : Nat} (hne : captured ≠ some w) (hw : c.waiter = some w) :
    (c.releaseWaiter captured).waiter = some w := by
  have hn : c.waiter ≠ captured := fun he => hne (he.symm.trans hw)
  exact (if_neg hn).trans hw

/-- `_ensure_deferred_close_publication_waiter` and the deferral: the flag is set, a waiter is pending, and someone has
still to look. -/
theorem Attended.defer (h : c.Attended) (state : ConnectionState) {publisher : Option DeferredPublisher}
    (hcheck : c.start.willCheck = true ∨ ∃ p, publisher = some p ∧ p.willCheck = true) :
    Attended { { c with state, deferred := true }.ensureWaiter with publisher } := by
  unfold TcpConnection.ensureWaiter
  split
  · exact ⟨fun _ => hcheck, h.current, fun _ _ => .inl rfl⟩
  · next hnone =>
    refine ⟨fun _ => hcheck, fun w hw => ?_, fun _ _ => .inl rfl⟩
    change (c.waitersDone ++ [false])[w]? = some false at hw
    rw [List.getElem?_append] at hw
    split at hw
    · -- a pending waiter is the current one, so there was none
      have hw : c.Pending w := hw
      have hpending : c.pendingDeferredCloseWaiter = some w := by
        rw [pendingDeferredCloseWaiter, h.current w hw]
        exact if_pos (decide_eq_true hw)
      exact absurd (congrArg Option.isSome hpending) hnone
    · next hge =>
      have hge : ¬w < c.waitersDone.length := hge
      obtain ⟨hlt, -⟩ := List.getElem?_eq_some_iff.mp hw
      have hlt : w - c.waitersDone.length < 1 := hlt
      exact congrArg some (show c.waitersDone.length = w by omega)

theorem finalizeClose_eq (c : TcpConnection) : ∃ state closeEventTask publications,
    c.finalizeClose.1 = { c with state, closeEventTask, publications } := by
  unfold TcpConnection.finalizeClose
  split
  · exact ⟨_, _, _, rfl⟩
  · split
    · exact ⟨_, _, _, rfl⟩
    · exact ⟨_, _, _, rfl⟩

theorem willCheck_ensurePublisher (hchecks : c.PublisherChecks) : (c.publisher.getD .created).willCheck = true := by
  unfold PublisherChecks at hchecks
  cases hp : c.publisher with
  | none => rfl
  | some p => rwa [hp] at hchecks

/-- The publisher that runs goes on looking at the flag. -/
theorem WillCheck.ensurePublisher (h : c.WillCheck) :
    c.start.willCheck = true ∨ ∃ p, some (c.publisher.getD .created) = some p ∧ p.willCheck = true :=
  h.imp id fun ⟨p, hp, hcheck⟩ => ⟨p, by rw [hp]; rfl, hcheck⟩

theorem Attended.deferOrPublish (h : c.Attended) {answers : CloseAnswers}
    (hkept : c.opening || answers.fromHandler || answers.activeInlineHandler →
      c.deferred = true ∨ if c.opening then c.start.willCheck = true else c.PublisherChecks) :
    (c.deferOrPublish answers).Attended := by
  unfold TcpConnection.deferOrPublish
  split
  · next hdefers =>
    suffices hd : (c.deferCloseEvent answers).Attended from hd.frame
    unfold TcpConnection.deferCloseEvent
    have hopen : { c with state := .closed, deferred := true }.ensureWaiter.opening = c.opening := by
      obtain ⟨waiter, waitersDone, hw⟩ := { c with state := .closed, deferred := true }.ensureWaiter_eq
      rw [hw]
    have hpublisher : { c with state := .closed, deferred := true }.ensureWaiter.publisher = c.publisher := by
      obtain ⟨waiter, waitersDone, hw⟩ := { c with state := .closed, deferred := true }.ensureWaiter_eq
      rw [hw]
    dsimp only
    rw [hopen]
    unfold TcpConnection.ensurePublisher
    rw [hpublisher]
    split
    · next hpublish =>
      rw [Bool.and_eq_true, Bool.not_eq_true'] at hpublish
      refine h.defer .closed ?_
      rcases hkept (by rw [Bool.or_assoc, hpublish.2, Bool.or_true]) with hd | hintime
      · exact (h.checked hd).ensurePublisher
      · rw [hpublish.1] at hintime
        exact .inr ⟨_, rfl, willCheck_ensurePublisher hintime⟩
    · next hpublish =>
      have hcheck : c.WillCheck := by
        by_cases hd : c.deferred = true
        · exact h.checked hd
        · cases ho : c.opening with
          | true =>
            have hintime := (hkept (by rw [ho]; rfl)).resolve_left hd
            rw [ho] at hintime
            exact .inl hintime
          | false =>
            simp only [ho, hd, Bool.false_or, Bool.or_false] at hdefers
            exact absurd (by simpa [ho] using hdefers) hpublish
      have hsame : { { c with state := .closed, deferred := true }.ensureWaiter with publisher := c.publisher } =
          { c with state := .closed, deferred := true }.ensureWaiter := by
        obtain ⟨waiter, waitersDone, hw⟩ := { c with state := .closed, deferred := true }.ensureWaiter_eq
        rw [hw]
      exact hsame ▸ h.defer .closed hcheck
  · obtain ⟨state, closeEventTask, publications, hf⟩ := c.finalizeClose_eq
    dsimp only
    rw [hf]
    exact h.frame

/-! ## The publishers look at the flag -/

theorem publishDeferred_cases (c : TcpConnection) :
    (c.deferred = false ∧ c.publishDeferred = (c, .notDeferred, none)) ∨
      ∃ state closeEventTask publications,
        (∃ k, c.publishDeferred =
          ({ c with state, closeEventTask, publications, deferred := false }, .published, some (k, c.waiter))) ∨
        c.publishDeferred =
          ({ c with state, closeEventTask, publications, deferred := false }.releaseWaiter c.waiter, .published, none) := by
  obtain ⟨state, closeEventTask, publications, hf⟩ := { c with deferred := false }.finalizeClose_eq
  cases hd : c.deferred with
  | false => exact .inl ⟨rfl, by unfold TcpConnection.publishDeferred; rw [hd]; rfl⟩
  | true =>
    refine .inr ⟨state, closeEventTask, publications, ?_⟩
    unfold TcpConnection.publishDeferred
    rw [hd, if_pos rfl]
    dsimp only
    split
    · next c' k heq =>
      rw [heq] at hf
      obtain rfl : c' = _ := hf
      exact .inl ⟨k, rfl⟩
    · next c' heq =>
      rw [heq] at hf
      obtain rfl : c' = _ := hf
      exact .inr rfl

theorem Attended.publishTurn (h : c.Attended) {outcome : Outcome} (hrun : outcome ≠ .cancelled)
    (ht : c.publishTurn outcome = some t) : t.Attended := by
  unfold TcpConnection.publishTurn at ht
  split at ht
  · next opened hstart =>
    obtain ⟨hd, hp⟩ | ⟨state, closeEventTask, publications, ⟨k, hp⟩ | hp⟩ := c.publishDeferred_cases
    · rw [hp] at ht
      cases ht
      refine ⟨fun hd' => absurd hd' (by simp [hd]), h.current, fun w hw => (h.held w hw).imp id ?_⟩
      rintro (hj | hj)
      · rw [hstart] at hj
        exact hj.elim
      · exact .inr hj
    · rw [hp] at ht
      cases ht
      exact ⟨nofun, h.current, fun w hw => .inr (.inl (h.current w hw))⟩
    · rw [hp] at ht
      cases ht
      have hnone : ∀ w, ¬({ c with state, closeEventTask, publications, deferred := false }.releaseWaiter
          c.waiter).Pending w := fun w hw => by
        obtain ⟨hw, hne⟩ := pending_releaseWaiter hw
        exact hne (h.current w hw)
      refine ⟨fun hd => ?_, fun w hw => absurd hw (hnone w), fun w hw => absurd hw (hnone w)⟩
      obtain ⟨waiter, waitersDone, hr⟩ :=
        { c with state, closeEventTask, publications, deferred := false }.releaseWaiter_eq c.waiter
      rw [hr] at hd
      cases hd
  · exact absurd rfl hrun
  · next opened k waiter hstart =>
    split at ht
    · cases ht
    · cases ht
      refine ⟨fun hd => ?_, fun w hw => ?_, fun w hw => ?_⟩
      · obtain ⟨waiter', waitersDone, hr⟩ := c.releaseWaiter_eq waiter
        rw [hr] at hd ⊢
        refine .inr ((h.checked hd).resolve_left fun hs => ?_)
        rw [hstart] at hs
        cases hs
      · obtain ⟨hw, hne⟩ := pending_releaseWaiter hw
        exact releaseWaiter_waiter hne (h.current w hw)
      · obtain ⟨hw, hne⟩ := pending_releaseWaiter hw
        have hheld := h.held w hw
        obtain ⟨waiter', waitersDone, hr⟩ := c.releaseWaiter_eq waiter
        rw [hr]
        refine hheld.imp id fun hj => .inr (hj.resolve_left fun hs => ?_)
        rw [hstart] at hs
        exact hne hs
  · cases ht

theorem Attended.completeCurrent (h : c.Attended) : (c.completeWaiter c.waiter).Attended := by
  have hnone : ∀ w, ¬(c.completeWaiter c.waiter).Pending w := fun w hw => by
    have hreleased : (c.releaseWaiter c.waiter).Pending w := hw
    obtain ⟨hw, hne⟩ := pending_releaseWaiter hreleased
    exact hne (h.current w hw)
  refine ⟨fun hd => ?_, fun w hw => absurd hw (hnone w), fun w hw => absurd hw (hnone w)⟩
  obtain ⟨waitersDone, hw⟩ := c.completeWaiter_eq c.waiter
  rw [hw] at hd ⊢
  exact h.checked hd

theorem Attended.publisherTurn (h : c.Attended) {outcome : Outcome} (hrun : outcome ≠ .cancelled)
    (ht : c.publisherTurn outcome = some t) : t.Attended := by
  unfold TcpConnection.publisherTurn at ht
  obtain ⟨pc, hpc, ht⟩ := Option.bind_eq_some_iff.mp ht
  cases pc with
  | created =>
    cases outcome with
    | cancelled => exact absurd rfl hrun
    | raised => cases ht
    | returned =>
      cases ht
      refine ⟨fun _ => .inr ⟨_, rfl, rfl⟩, h.current, fun w hw => (h.held w hw).imp id ?_⟩
      rintro (hj | ⟨p, hp, hj⟩)
      · exact .inl hj
      · cases hpc.symm.trans hp
        exact hj.elim
  | waiting =>
    cases outcome with
    | cancelled => exact absurd rfl hrun
    | raised => cases ht
    | returned =>
      dsimp only at ht
      obtain ⟨hd, hp⟩ | ⟨state, closeEventTask, publications, ⟨k, hp⟩ | hp⟩ := c.publishDeferred_cases
      · rw [hp] at ht
        cases ht
        refine ⟨fun hd' => absurd hd' (by simp [hd]), h.current, fun w hw => (h.held w hw).imp id ?_⟩
        rintro (hj | ⟨p, hp, hj⟩)
        · exact .inl hj
        · cases hpc.symm.trans hp
          exact hj.elim
      · rw [hp] at ht
        cases ht
        exact ⟨nofun, h.current, fun w hw => .inr (.inr ⟨_, rfl, h.current w hw⟩)⟩
      · rw [hp] at ht
        cases ht
        have hnone : ∀ w, ¬({ c with state, closeEventTask, publications, deferred := false }.releaseWaiter
            c.waiter).Pending w := fun w hw => by
          obtain ⟨hw, hne⟩ := pending_releaseWaiter hw
          exact hne (h.current w hw)
        refine ⟨fun hd => ?_, fun w hw => absurd hw (hnone w), fun w hw => absurd hw (hnone w)⟩
        obtain ⟨waiter, waitersDone, hr⟩ :=
          { c with state, closeEventTask, publications, deferred := false }.releaseWaiter_eq c.waiter
        rw [hr] at hd
        cases hd
  | joining k waiter =>
    dsimp only at ht
    split at ht
    · cases ht
    · have hreleased : Attended { c.releaseWaiter waiter with publisher := none } := by
        refine ⟨fun hd => ?_, fun w hw => ?_, fun w hw => ?_⟩
        · obtain ⟨waiter', waitersDone, hr⟩ := c.releaseWaiter_eq waiter
          rw [hr] at hd ⊢
          refine .inl ((h.checked hd).resolve_right ?_)
          rintro ⟨p, hp, hcheck⟩
          cases hpc.symm.trans hp
          cases hcheck
        · obtain ⟨hw, hne⟩ := pending_releaseWaiter hw
          exact releaseWaiter_waiter hne (h.current w hw)
        · obtain ⟨hw, hne⟩ := pending_releaseWaiter hw
          have hheld := h.held w hw
          obtain ⟨waiter', waitersDone, hr⟩ := c.releaseWaiter_eq waiter
          rw [hr]
          refine hheld.imp id fun hj => .inl (hj.resolve_right ?_)
          rintro ⟨p, hp, hj⟩
          cases hpc.symm.trans hp
          exact hne hj
      split at ht
      · cases ht; exact hreleased
      · cases ht; exact hreleased.completeCurrent

/-! ## The other tasks -/

theorem Attended.close (h : c.Attended) (byOpening : Bool) : (c.close byOpening).Attended := by
  unfold TcpConnection.close requestClose note
  dsimp only
  split
  · exact h.frame
  · split
    · exact h.frame
    · split
      · exact h.frame
      · exact h.frame

theorem Attended.closeTurn (h : c.Attended) {outcome : Outcome} {answers : CloseAnswers}
    (hkept : c.DefersInTime (.closeTurn outcome answers)) (ht : c.closeTurn outcome answers = some t) : t.Attended := by
  unfold TcpConnection.closeTurn at ht
  obtain ⟨task, htask, ht⟩ := Option.bind_eq_some_iff.mp ht
  have hdefer : task.leavesTeardown outcome → (c.deferOrPublish answers).Attended := fun hl =>
    h.deferOrPublish (hkept (by rw [htask, Option.any_some, hl]))
  unfold ClosingTask.leavesTeardown at hdefer
  cases hpc : task.pc with
  | created =>
    rw [hpc] at ht hdefer
    cases outcome with
    | returned =>
      cases ht
      split
      · exact h.frame
      · next hneeds => exact hdefer (by simpa using hneeds)
    | raised => cases ht
    | cancelled => cases ht; exact h.frame
  | purging | awaitingRead | writerShutdown =>
    rw [hpc] at ht hdefer
    cases outcome with
    | returned | raised => cases ht; exact h.frame
    | cancelled => cases ht; exact hdefer rfl
  | awaitingStateLock =>
    rw [hpc] at ht hdefer
    cases outcome with
    | returned => cases ht; exact h.frame
    | raised => cases ht
    | cancelled => cases ht; exact hdefer rfl
  | inCallback =>
    rw [hpc] at ht hdefer
    cases outcome with
    | returned => cases ht; exact hdefer (by simp)
    | raised => cases ht; exact h.frame
    | cancelled => cases ht; exact hdefer rfl
  | awaitingWaiter w =>
    rw [hpc] at ht
    dsimp only at ht
    split at ht
    · cases ht
    · cases ht; exact h.frame
  | awaitingPublication k =>
    rw [hpc] at ht
    dsimp only at ht
    split at ht
    · cases ht
    · cases ht; exact h.frame

/-- `start()` goes on from an await in which it had captured nothing, and looks at the flag if it was to. -/
theorem Attended.withStart (h : c.Attended) (hjoins : ∀ w, ¬c.start.Joins w) {start : OpeningPc} {opening : Bool}
    (hcheck : c.start.willCheck = true → start.willCheck = true) : Attended { c with start, opening } :=
  ⟨fun hd => (h.checked hd).imp hcheck id, h.current,
    fun w hw => (h.held w hw).imp id fun hj => .inr (hj.resolve_left (hjoins w))⟩

theorem Attended.startTurn (h : c.Attended) {outcome : Outcome} (ht : c.startTurn outcome = some t) : t.Attended := by
  unfold TcpConnection.startTurn at ht
  have hquiet : c.start.willCheck = false → (∀ w, ¬c.start.Joins w) → ∀ (start : OpeningPc) (opening : Bool),
      Attended { c with start, opening } := fun hc hj _ _ => h.withStart hj (by rw [hc]; exact nofun)
  cases hstart : c.start with
  | idle | publishing | joining | done =>
    rw [hstart] at ht
    cases outcome <;> cases ht
  | notifyingReady =>
    rw [hstart] at ht hquiet
    replace hquiet := hquiet rfl fun _ => id
    cases outcome with
    | returned =>
      cases ht
      split
      · exact hquiet _ _
      · exact hquiet _ _
    | raised | cancelled => cases ht; exact (hquiet _ _).close false
  | opening =>
    rw [hstart] at ht
    have hpublishing : ∀ opened opening : Bool, Attended { c with start := .publishing opened, opening } := fun _ _ =>
      h.withStart (by rw [hstart]; exact fun _ => id) fun _ => rfl
    cases outcome with
    | returned | raised | cancelled => cases ht; exact hpublishing _ _
  | settled opened result =>
    rw [hstart] at ht hquiet
    replace hquiet := hquiet rfl fun _ => id
    cases opened with
    | false => cases ht; exact (hquiet _ _).close false
    | true =>
      cases result with
      | failed => cases ht; exact (hquiet _ _).close false
      | published | notDeferred =>
        cases outcome with
        | returned => cases ht; exact hquiet _ _
        | raised => cases ht
        | cancelled => cases ht; exact (hquiet _ _).close false

theorem Attended.ensure (h : c.Attended) (hkept : c.DefersInTime .ensureWaiter)
    (ht : c.ensureDeferredClosePublicationWaiter = some t) : t.Attended := by
  unfold ensureDeferredClosePublicationWaiter at ht
  split at ht
  · cases ht
    split
    · exact h
    · next hp =>
      have hcheck : c.start.willCheck = true ∨
          ∃ p, some (c.publisher.getD .created) = some p ∧ p.willCheck = true := by
        rcases hkept.resolve_left hp with hd | hchecks
        · exact (h.checked hd).ensurePublisher
        · exact .inr ⟨_, rfl, willCheck_ensurePublisher hchecks⟩
      have hpublisher : { c with deferred := true }.ensureWaiter.publisher = c.publisher := by
        obtain ⟨waiter, waitersDone, hw⟩ := { c with deferred := true }.ensureWaiter_eq
        rw [hw]
      unfold TcpConnection.ensurePublisher
      rw [hpublisher]
      exact h.defer c.state hcheck
  · cases ht

theorem Attended.step (h : c.Attended) {a : TcpConnectionAct} (hrun : a.PublishersRun) (hkept : c.DefersInTime a)
    (ht : c.step a = some t) : t.Attended := by
  cases a with
  | start =>
    simp only [TcpConnection.step] at ht
    split at ht
    · next hstart =>
      cases ht
      have hidle : ∀ start : OpeningPc, Attended { c with start, opening := c.opening } := fun _ =>
        h.withStart (by rw [hstart]; exact fun _ => id) fun hc => by rw [hstart] at hc; cases hc
      split
      · exact (hidle .notifyingReady).frame
      · exact hidle .done
    · cases ht
  | startTurn outcome => exact h.startTurn ht
  | publishTurn outcome => exact h.publishTurn hrun ht
  | close byOpening =>
    cases ht
    exact h.close byOpening
  | closeTurn outcome answers => exact h.closeTurn hkept ht
  | publicationTurn k outcome =>
    obtain ⟨p, -, ht⟩ := Option.bind_eq_some_iff.mp ht
    split at ht
    · cases ht; exact h.frame
    · cases ht; exact h.frame
    · dsimp only at ht
      split at ht
      · cases ht; exact h.frame
      · cases ht; exact h.frame
    · cases ht
  | publisherTurn outcome => exact h.publisherTurn hrun ht
  | ensureWaiter => exact h.ensure hkept ht

/-! ## The runs -/

/-- With no publisher cancelled, in every run in which a close is deferred only while the one who is to publish it has
still to look at the flag, no deferred close is left to nobody. -/
theorem noOrphan_of_reachable (c : TcpConnection)
    (hc : tcpConnectionMachine.Reachable (fun c a => a.PublishersRun ∧ c.DefersInTime a) c) : c.NoOrphan := by
  have h : c.Attended := by
    refine hc.invariant (fun c hc => ?_) fun c a t h hok ht => h.step hok.1 hok.2 ht
    cases hc
    exact ⟨nofun, fun w hw => (by cases w <;> cases hw), fun w hw => (by cases w <;> cases hw)⟩
  exact h.noOrphan

end TcpConnection

/-- A close from outside is deferred while the opened event is in flight; `start()` publishes it and completes the
waiter. -/
theorem noOrphan_of_deferredInTime :
    ∃ c, tcpConnectionMachine.Reachable (fun c a => a.PublishersRun ∧ c.DefersInTime a) c ∧
      ((.published ∈ c.log ∧ c.waitersDone = [true]) ∧ c.NoOrphan) := by
  have hrun : ∃ c, tcpConnectionMachine.Reachable (fun c a => a.PublishersRun ∧ c.DefersInTime a) c ∧
      decide (.published ∈ c.log ∧ c.waitersDone = [true]) :=
    Runs.Machine.Reachable.exists_of_execOk rfl
      [.start, .startTurn .returned, .close false, .closeTurn .returned {}, .closeTurn .returned {},
        .closeTurn .returned {}, .closeTurn .returned {}, .closeTurn .returned {}, .startTurn .returned,
        .publishTurn .returned, .publicationTurn 0 .returned, .publicationTurn 0 .returned, .publishTurn .returned,
        .closeTurn .returned {}] _ (by decide)
  obtain ⟨c, hc, hend⟩ := hrun
  exact ⟨c, hc, of_decide_eq_true hend, TcpConnection.noOrphan_of_reachable c hc⟩

/-- The opened event fails, and the publish task of `start()` finds the flag clear; a close from outside comes to its
deferral before `start()` goes on: the flag is set and the waiter pending, and there is no one to publish. -/
theorem not_noOrphan_of_openedFails :
    ¬∀ c, tcpConnectionMachine.Reachable (fun _ a => a.PublishersRun) c → c.NoOrphan := by
  intro h
  have hrun : ∃ c, tcpConnectionMachine.Reachable (fun _ a => a.PublishersRun) c ∧
      decide (c.deferred = true ∧ c.start = .done ∧ c.publisher = none ∧ c.publications = [] ∧
        c.closeTask.map (·.pc) = some (.awaitingWaiter 0) ∧ c.Pending 0) :=
    Runs.Machine.Reachable.exists_of_execOk rfl
      [.start, .startTurn .returned, .close false, .closeTurn .returned {}, .closeTurn .returned {},
        .closeTurn .returned {}, .closeTurn .returned {}, .startTurn .raised, .publishTurn .returned,
        .closeTurn .returned {}, .startTurn .returned] _ (by decide)
  obtain ⟨c, hc, hend⟩ := hrun
  obtain ⟨hdeferred, hstart, hpublisher, hpublications, -, -⟩ := of_decide_eq_true hend
  rcases (h c hc).served (.inl hdeferred) with hs | ⟨_, _, _, hs⟩ | hs | ⟨k, p, hk, -⟩
  · rw [hstart] at hs
    cases hs
  · rw [hstart] at hs
    cases hs
  · rw [hpublisher] at hs
    cases hs
  · rw [hpublications] at hk
    cases hk

end Aionetx
