import Aionetx.Datagram.Runtime

/-!
# The sockets and the receive tasks of the datagram receiver

* `ReceiverRuntime.Inv` : the invariant of the sockets, the receive tasks and the owned stop, one lemma for each action;
* `ReceiverRuntime.Tidy` : what it says of them; `ReceiverRuntime.exists_live_in_stopped`, `exists_live_of_inheritedStop` : runs
  outside `ReceiverRuntime.OneStart`.
-/

namespace Aionetx

open Runs

theorem ReceiverStopPc.late_of_early {pc : ReceiverStopPc} (h : pc.early = true) : pc.late = false := by
  cases pc with
  | publishingStopping _ | awaitingTask => rfl
  | waitingHandlers | announcing _ | publishingClosed _ | awaitingClosed | publishingStopped _ | stoppingDispatcher => cases h

theorem ReceiverStopPc.early_of_late {pc : ReceiverStopPc} (h : pc.late = true) : pc.early = false := by
  cases hpc : pc.early with
  | false => rfl
  | true => rw [late_of_early hpc] at h; cases h

namespace ReceiverRuntime

structure Inv (s : ReceiverRuntime) : Prop where
  run : s.running = true ↔ s.lifecycle = .running
  attached : ∀ k, s.socket = some k → s.running = true ∧ k + 1 = s.sessions
  socket : s.running = true → s.socket ≠ none
  task : ∀ k, s.task = some k → s.socket = some k
  stopping : ∀ c, s.stop = some c → (s.lifecycle = .stopping ↔ c.pc.late = false)
  current : ∀ c, s.stop = some c → c.pc.late = false → ∀ k, c.session = some k → k + 1 = s.sessions
  resting : s.lifecycle = .stopping → s.stop = none → 0 < s.sessions
  plan : ∀ c, s.stop = some c → ∀ inline, c.pc = .publishingStopping inline → c.deferred = false
  pair : ∀ c, s.stop = some c → (∀ k, c.task = some k → c.socket = some k) ∧ ∀ k, c.socket = some k → c.session = some k
  unclosed : ∀ k, s.sockets k = .open → s.socket = some k ∨ ∃ c, s.stop = some c ∧ c.socket = some k ∧ c.pc.early = true
  lost : ∀ k, s.sockets k = .lost → s.receivers k = .ended true
  live : ∀ k, (s.receivers k).live = true → s.task = some k ∨ ∃ c, s.stop = some c ∧ c.task = some k ∧
    (c.awaits = true ∧ c.pc.early = true ∨
      c.deferred = true ∧ (c.pc.early = true ∨ c.pc = .waitingHandlers) ∧ (s.receivers k).inline = true)
  own : ∀ k j, s.receivers k = .receiving j → j = k
  known : ∀ k, s.sessions ≤ k → s.receivers k = .absent ∧ s.sockets k = .closed
  one : ∀ i j, s.starts i ≠ .idle → s.starts j ≠ .idle → i = j
  called : ∀ i, s.calls ≤ i → s.starts i = .idle
  starting : ∀ i, s.starts i ≠ .idle → s.task = none ∧ ∀ k, (s.receivers k).live = false
  beginning : ∀ i k, (s.starts i).session? = some k → s.receivers k = .absent ∧ k + 1 = s.sessions

attribute [grind cases] Inv

variable {s s' : ReceiverRuntime} {c : ReceiverStop}

theorem Inv.log (h : s.Inv) (e : ReceiverEntry) : (s.log e).Inv := by
  exact { h with }

theorem Inv.setStart_idle (h : s.Inv) (i : Nat) : (s.setStart i .idle).Inv := by
  unfold setStart
  refine { h with one := ?_, called := ?_, starting := ?_, beginning := ?_ } <;>
  grind [Function.update_apply, ReceiverStart.session?]

theorem Inv.fields_none (h : s.Inv) (hl : s.lifecycle ≠ .running) : s.socket = none ∧ s.task = none := by
  have hsocket : s.socket = none := by
    by_contra hk
    obtain ⟨k, hk⟩ := Option.ne_none_iff_exists'.mp hk
    exact hl (h.run.mp (h.attached k hk).1)
  refine ⟨hsocket, ?_⟩
  by_contra hk
  obtain ⟨k, hk⟩ := Option.ne_none_iff_exists'.mp hk
  have := h.task k hk
  rw [hsocket] at this
  cases this

/-! ### The stop paths -/

theorem setStop_eq (h : s.stop = some c) : s.setStop c = s := by
  unfold setStop
  rw [← h]

theorem Inv.setStop_failed (h : (s.setStop c).Inv) (failed : Bool) :
    (s.setStop { c with failed := failed }).Inv := by
  simp only [setStop] at *
  refine { h with stopping := ?_, current := ?_, resting := ?_, plan := ?_, pair := ?_, unclosed := ?_, live := ?_ } <;> grind

theorem Inv.live_of_stopping (h : (s.setStop c).Inv) (hc : c.pc.late = false) {k : Nat}
    (hk : (s.receivers k).live = true) : c.task = some k ∧ (c.awaits = true ∧ c.pc.early = true ∨
      c.deferred = true ∧ (c.pc.early = true ∨ c.pc = .waitingHandlers) ∧ (s.receivers k).inline = true) := by
  rcases h.live k hk with htask | ⟨c', hc', hlive⟩
  · have hrun := h.run.mp (h.attached k (h.task k htask)).1
    rw [(h.stopping c rfl).mpr hc] at hrun
    cases hrun
  · cases hc'
    exact hlive

/-- The receive task of the fields is the only live one if the lifecycle is not `STOPPING`. -/
theorem Inv.task_of_live (h : s.Inv) (hl : s.lifecycle ≠ .stopping) {k : Nat}
    (hk : (s.receivers k).live = true) : s.task = some k := by
  rcases h.live k hk with htask | ⟨c, hc, -, hpc⟩
  · exact htask
  · exfalso
    have hlate : c.pc.late = true := eq_true_of_ne_false fun hlate => hl ((h.stopping c hc).mpr hlate)
    have hearly := ReceiverStopPc.early_of_late hlate
    rcases hpc with ⟨-, he⟩ | ⟨-, he | he, -⟩
    · rw [hearly] at he; cases he
    · rw [hearly] at he; cases he
    · rw [he] at hlate; cases hlate

theorem Inv.endStop (h : (s.setStop c).Inv) (hpc : c.pc.early = false)
    (hlate : c.pc.late = false → 0 < s.sessions) (hlive : ∀ k, (s.receivers k).live = true → s.task = some k) :
    ({ s with stop := none } : ReceiverRuntime).Inv := by
  simp only [setStop] at *
  refine { h with stopping := ?_, current := ?_, resting := ?_, plan := ?_, pair := ?_, unclosed := ?_, live := ?_ } <;> grind

theorem Inv.setStop_pc (h : (s.setStop c).Inv) (hc : c.pc.late = false) (pc : ReceiverStopPc)
    (hsocket : c.pc.early = true → pc.early = true ∨ ∀ k, c.socket = some k → s.sockets k ≠ .open) (hpc : pc.late = false)
    (hplan : ∀ inline, pc ≠ .publishingStopping inline)
    (hlive : ∀ k, c.task = some k → (s.receivers k).live = true → c.awaits = true ∧ pc.early = true ∨
      c.deferred = true ∧ (pc.early = true ∨ pc = .waitingHandlers) ∧ (s.receivers k).inline = true) :
    (s.setStop { c with pc := pc }).Inv := by
  have hl := (h.stopping c rfl).mpr hc
  simp only [setStop] at *
  refine { h with stopping := ?_, current := ?_, resting := ?_, plan := ?_, pair := ?_, unclosed := ?_, live := ?_ } <;> grind

theorem Inv.apply_stopped (h : (s.setStop c).Inv)
    (hpc : c.pc = .awaitingClosed ∨ ∃ inline, c.pc = .publishingClosed inline) (pc : ReceiverStopPc) (hlate : pc.late = true) :
    (({ s with lifecycle := .stopped } : ReceiverRuntime).setStop { c with pc := pc }).Inv := by
  simp only [setStop] at *
  have hl : s.lifecycle = .stopping := by grind [ReceiverStopPc.late]
  have hearly : c.pc.early = false := by grind [ReceiverStopPc.early]
  have hw : c.pc ≠ .waitingHandlers := by grind
  have hlate' : pc.early = false := ReceiverStopPc.early_of_late hlate
  refine { h with
      run := ?_, stopping := ?_, current := ?_, resting := ?_, plan := ?_, pair := ?_, unclosed := ?_
      live := ?_ } <;> grind [ReceiverStopPc.late]

theorem Inv.publishStopped (h : (s.setStop c).Inv)
    (hpc : c.pc = .awaitingClosed ∨ ∃ inline, c.pc = .publishingClosed inline) (t : ReceiverTurn) : (s.publishStopped c t).Inv := by
  unfold ReceiverRuntime.publishStopped
  split
  · exact h.apply_stopped hpc _ rfl
  · have hI := h.apply_stopped hpc (.publishingStopped t.inline) rfl
    rcases c with ⟨_ | k, socket, task, awaits, deferred, announces, failed, pc⟩
    · exact hI
    · exact hI.log (.stopped k)

/-- The close event is handed over; without one, `STOPPED` is next. -/
theorem Inv.publishClosed (h : (s.setStop { c with pc := .awaitingClosed }).Inv)
    (t : ReceiverTurn) : (s.publishClosed c t).Inv := by
  have hstop : (s.publishStopped c t).Inv := by
    have := h.publishStopped (.inl rfl) t
    exact this
  unfold ReceiverRuntime.publishClosed
  split
  · exact hstop
  · split
    · exact hstop
    · next k hk =>
      split
      · exact { h with }
      · suffices hI : (s.setStop { c with pc := .publishingClosed t.inline }).Inv from hI.log (.closed k)
        apply h.setStop_pc rfl (.publishingClosed t.inline) nofun rfl nofun
        intro j _ hlive
        obtain ⟨-, ⟨-, hearly⟩ | ⟨-, hearly | hearly, -⟩⟩ := h.live_of_stopping rfl hlive <;> cases hearly

theorem Inv.afterTeardown (h : (s.setStop { c with pc := .waitingHandlers }).Inv)
    (hfailed : c.failed = true → c.deferred = true → 0 < s.sessions ∧ ∀ k, (s.receivers k).live = false) (t : ReceiverTurn) :
    (s.afterTeardown c t).Inv := by
  unfold ReceiverRuntime.afterTeardown
  split
  · next hdeferred =>
    split
    · next hf =>
      obtain ⟨hsessions, hlive⟩ := hfailed hf hdeferred
      have hend := h.endStop rfl (fun _ => hsessions) fun k hk => by simp [hlive k] at hk
      exact hend
    · exact h
  · next hdeferred =>
    apply Inv.publishClosed
    apply h.setStop_pc rfl .awaitingClosed nofun rfl nofun
    intro k _ hlive
    obtain ⟨-, ⟨-, hearly⟩ | ⟨hd, -⟩⟩ := h.live_of_stopping rfl hlive
    · cases hearly
    · exact absurd hd hdeferred

/-- The teardown of a stop closes its socket, or loses it to the exception of the receive task. -/
theorem Inv.release (h : (s.setStop c).Inv) (hearly : c.pc.early = true)
    {state : ReceiverSocket} (hstate : state = .closed ∨ state = .lost ∧ ∀ k, c.socket = some k → s.receivers k = .ended true)
    (hlive : ∀ k, c.task = some k → (s.receivers k).live = true → c.deferred = true ∧ (s.receivers k).inline = true) :
    ((s.release c state).setStop { c with pc := .waitingHandlers }).Inv := by
  have hlate := ReceiverStopPc.late_of_early hearly
  have hl := (h.stopping c rfl).mpr hlate
  rcases c with ⟨session, _ | j, task, awaits, deferred, announces, failed, pc⟩ <;>
  simp only [setStop, ReceiverRuntime.release, Option.elim] at *
  · refine { h with stopping := ?_, current := ?_, resting := ?_, plan := ?_, pair := ?_, unclosed := ?_, live := ?_ } <;>
      grind [ReceiverStopPc.late]
  · refine { h with
        stopping := ?_, current := ?_, resting := ?_, plan := ?_, pair := ?_, unclosed := ?_, lost := ?_
        live := ?_, known := ?_ } <;>
      grind [ReceiverStopPc.late, Function.update_apply]

/-- A teardown that awaits no receive task leaves one only to a stop that waits for its handler. -/
theorem Inv.release_closed (h : (s.setStop { c with pc := .awaitingTask }).Inv)
    (hc : c.task = none ∨ c.awaits = false) : ((s.release c .closed).setStop { c with pc := .waitingHandlers }).Inv := by
  have hI := h.release rfl (.inl rfl) fun k hk hlive => by
    obtain ⟨-, ⟨ha, -⟩ | ⟨hd, -, hi⟩⟩ := h.live_of_stopping rfl hlive
    · rcases hc with hc | hc <;> simp_all
    · exact ⟨hd, hi⟩
  exact hI

theorem Inv.teardown (h : (s.setStop { c with pc := .awaitingTask }).Inv)
    (hfailed : c.failed = true → c.deferred = false) (t : ReceiverTurn) : (s.teardown c t).Inv := by
  have hclose : (c.task = none ∨ c.awaits = false) → ((s.release c .closed).afterTeardown c t).Inv := by
    intro hc
    apply Inv.afterTeardown
    · exact h.release_closed hc
    · intro hf hd
      simp [hfailed hf] at hd
  unfold ReceiverRuntime.teardown
  split
  · split
    · exact { h with }
    · next ha => exact hclose (.inr (Bool.eq_false_iff.mpr ha))
  · next hc => exact hclose (.inl hc)

/-- There was a session if there is something to stop past `STARTING`. -/
theorem Inv.sessions_pos (h : s.Inv) (hstop : s.stop = none) (hfull : s.isFullyStopped = false)
    (hstarting : s.lifecycle ≠ .starting) : 0 < s.sessions := by
  cases hl : s.lifecycle with
  | stopping => exact h.resting hl hstop
  | running =>
    obtain ⟨k, hk⟩ := Option.ne_none_iff_exists'.mp (h.socket (h.run.mpr hl))
    have := (h.attached k hk).2
    omega
  | stopped =>
    have hrun : s.running = false := by
      by_contra hrun
      have := h.run.mp (eq_true_of_ne_false hrun)
      rw [hl] at this
      cases this
    simp [isFullyStopped, hrun, (h.fields_none (by simp [hl])).1, hl] at hfull
  | starting => exact absurd hl hstarting

/-- Where a stop may come from: the receive task that it would not await is in its `finally` block, or runs a handler that the stop
waits for. -/
structure Caller (s : ReceiverRuntime) (origin : StopOrigin) (current : Option Nat) : Prop where
  current : ∀ k, current = some k → (s.receivers k).live = true → origin.defersTerminalEvents = true ∧ (s.receivers k).inline = true
  active : s.stop = none → origin = .activeInlineHandler → ∀ k, (s.receivers k).live = true → (s.receivers k).inline = true

/-- A stop is planned: it takes the socket and the task out of the fields. -/
theorem Inv.detach (h : s.Inv) (hstop : s.stop = none) (hfull : s.isFullyStopped = false) {origin : StopOrigin}
    {current : Option Nat} (hcaller : s.Caller origin current) (t : ReceiverTurn) (pc : ReceiverStopPc) (hpc : pc.early = true)
    (hplan : ∀ inline, pc = .publishingStopping inline → origin.defersTerminalEvents = false) :
    (s.detach.setStop { s.planStop origin current t with pc := pc }).Inv := by
  have hlate := ReceiverStopPc.late_of_early hpc
  have hsessions := h.sessions_pos hstop hfull
  have hcurrent := hcaller.current
  have hactive := hcaller.active hstop
  have horigin : origin = .activeInlineHandler → origin.defersTerminalEvents = true := by rintro rfl; rfl
  simp only [ReceiverRuntime.detach, ReceiverRuntime.planStop, setStop, isFullyStopped] at *
  refine { h with
      run := ?_, attached := ?_, socket := ?_, task := ?_, stopping := ?_, current := ?_, resting := ?_
      plan := ?_, pair := ?_, unclosed := ?_, live := ?_, starting := ?_ } <;> grind

theorem Inv.stopCall (h : s.Inv) {origin : StopOrigin} {current : Option Nat} (hcaller : s.Caller origin current)
    (t : ReceiverTurn) : (s.stopCall origin current t).Inv := by
  unfold ReceiverRuntime.stopCall
  split
  · exact h
  · next hplan =>
    obtain ⟨hstop, hfull⟩ : s.stop = none ∧ s.isFullyStopped = false := by simpa using hplan
    have hI := h.detach hstop hfull hcaller t
    dsimp only
    split
    · next hd =>
      have hd' : origin.defersTerminalEvents = false := by
        simp only [ReceiverRuntime.planStop, Bool.and_eq_true, Bool.not_eq_true'] at hd
        exact hd.2
      exact hI (.publishingStopping t.inline) rfl fun _ _ => hd'
    · exact (hI .awaitingTask rfl nofun).teardown nofun t

theorem Inv.setStop_late (h : (s.setStop c).Inv) (hc : c.pc.late = true) (pc : ReceiverStopPc)
    (hpc : pc.late = true) : (s.setStop { c with pc := pc }).Inv := by
  have hearly := ReceiverStopPc.early_of_late hc
  have hearly' := ReceiverStopPc.early_of_late hpc
  have hw : c.pc ≠ .waitingHandlers := fun hw => by rw [hw] at hc; cases hc
  simp only [setStop] at *
  refine { h with stopping := ?_, current := ?_, resting := ?_, plan := ?_, pair := ?_, unclosed := ?_, live := ?_ } <;>
    grind [ReceiverStopPc.late]

theorem Inv.active_of_inline (h : s.Inv) {k : Nat} (hk : (s.receivers k).inline = true) : s.active = true := by
  have hlt : k < s.sessions := by
    apply Nat.lt_of_not_le
    intro hle
    rw [(h.known k hle).1] at hk
    cases hk
  have hany : ((List.range s.sessions).any fun k => (s.receivers k).inline) = true :=
    List.any_eq_true.mpr ⟨k, List.mem_range.mpr hlt, hk⟩
  unfold active
  rw [hany]
  simp

/-- A stop that is past the handlers has no live task behind it. -/
theorem Inv.not_live (h : (s.setStop c).Inv) (hc : c.pc.late = false)
    (hearly : c.pc.early = false) (hw : c.pc = .waitingHandlers → ∀ k, (s.receivers k).inline = false) (k : Nat) :
    (s.receivers k).live = false := by
  by_contra hk
  obtain ⟨-, ⟨-, he⟩ | ⟨-, he | he, hi⟩⟩ := h.live_of_stopping hc (eq_true_of_ne_false hk)
  · rw [hearly] at he; cases he
  · rw [hearly] at he; cases he
  · rw [hw he k] at hi; cases hi

theorem Inv.setStop_awaitingTask (h : (s.setStop c).Inv) (hearly : c.pc.early = true) :
    (s.setStop { c with pc := .awaitingTask }).Inv := by
  have hlate := ReceiverStopPc.late_of_early hearly
  apply h.setStop_pc hlate .awaitingTask (fun _ => .inl rfl) rfl nofun
  intro k _ hk
  obtain ⟨-, ⟨ha, -⟩ | ⟨hd, -, hi⟩⟩ := h.live_of_stopping hlate hk
  · exact .inl ⟨ha, rfl⟩
  · exact .inr ⟨hd, .inl rfl, hi⟩

theorem Inv.release_awaited (h : (s.setStop c).Inv) (hpc : c.pc = .awaitingTask) {k : Nat}
    (hk : c.task = some k) {raised : Bool} (hended : s.receivers k = .ended raised) {state : ReceiverSocket}
    (hstate : state = .closed ∨ state = .lost ∧ raised = true) :
    ((s.release c state).setStop { c with pc := .waitingHandlers }).Inv := by
  obtain ⟨hpair, -⟩ := h.pair c rfl
  apply h.release
  · rw [hpc]; rfl
  · refine hstate.imp_right fun ⟨hlost, hraised⟩ => ⟨hlost, fun j hj => ?_⟩
    have hk' : c.socket = some k := hpair k hk
    cases hk'.symm.trans hj
    rw [hended, hraised]
  · intro j hj hl
    cases hk.symm.trans hj
    rw [hended] at hl
    cases hl

theorem Inv.stopTurn (h : s.Inv) {t : ReceiverTurn} (hs : s.stopTurn t = some s') : s'.Inv := by
  obtain ⟨c, hc, hs⟩ := Option.bind_eq_some_iff.mp hs
  have hI : (s.setStop c).Inv := (setStop_eq hc).symm ▸ h
  have hclosed : ∀ failed, c.pc.late = false → c.pc.early = false →
      (c.pc = .waitingHandlers → ∀ k, (s.receivers k).inline = false) → (s.publishClosed { c with failed := failed } t).Inv := by
    intro failed hlate hearly hw
    apply Inv.publishClosed
    have hpc := (hI.setStop_failed failed).setStop_pc hlate .awaitingClosed (by simp [hearly]) rfl nofun fun k _ hk => by
      simp [hI.not_live hlate hearly hw k] at hk
    exact hpc
  cases hpc : c.pc with
  | publishingStopping inline =>
    simp only [hpc, Option.some.injEq] at hs
    subst hs
    apply Inv.teardown
    · exact (hI.setStop_failed t.failed).setStop_awaitingTask (by rw [hpc]; rfl)
    · exact fun _ => hI.plan c rfl inline hpc
  | awaitingTask =>
    simp only [hpc] at hs
    split at hs
    · cases hs
    · next k hk =>
      have hafter : ∀ state raised failed, s.receivers k = .ended raised → (state = .closed ∨ state = .lost ∧ raised = true) →
          ((s.release c state).afterTeardown { c with failed := failed } t).Inv := by
        intro state raised failed hended hstate
        have hrelease := hI.release_awaited hpc hk hended hstate
        apply Inv.afterTeardown
        · have hfailed := hrelease.setStop_failed failed
          exact hfailed
        · intro _ _
          obtain ⟨hpair, hsession⟩ := hI.pair c rfl
          have hk' := hI.current c rfl (by rw [hpc]; rfl) k (hsession k (hpair k hk))
          refine ⟨?_, fun j => ?_⟩
          · unfold ReceiverRuntime.release
            cases c.socket <;> exact Nat.lt_of_lt_of_le (Nat.succ_pos k) (Nat.le_of_eq hk')
          · have hj : (s.receivers j).live = false := by
              by_contra hl
              have htask := (hI.live_of_stopping (by rw [hpc]; rfl) (eq_true_of_ne_false hl)).1
              cases hk.symm.trans htask
              rw [hended] at hl
              exact hl rfl
            unfold ReceiverRuntime.release
            cases c.socket <;> exact hj
      split at hs
      · next hended => cases hs; exact hafter _ true true hended (by split <;> simp)
      · next hended => cases hs; exact hafter .closed false _ hended (.inl rfl)
      · cases hs
  | waitingHandlers =>
    simp only [hpc] at hs
    split at hs
    · cases hs
    · next hactive =>
      have hinline : ∀ k, (s.receivers k).inline = false := fun k => by
        by_contra hk
        exact hactive (h.active_of_inline (eq_true_of_ne_false hk))
      split at hs
      · cases hs
        apply hI.setStop_pc (by rw [hpc]; rfl) (.announcing t.inline) (by simp [hpc, ReceiverStopPc.early]) rfl nofun
        intro k _ hk
        simp [hI.not_live (by rw [hpc]; rfl) (by rw [hpc]; rfl) (fun _ => hinline) k] at hk
      · cases hs
        exact hclosed c.failed (by rw [hpc]; rfl) (by rw [hpc]; rfl) fun _ => hinline
  | announcing inline =>
    simp only [hpc, Option.some.injEq] at hs
    subst hs
    exact hclosed _ (by rw [hpc]; rfl) (by rw [hpc]; rfl) (by simp [hpc])
  | publishingClosed inline =>
    simp only [hpc, Option.some.injEq] at hs
    subst hs
    exact (hI.setStop_failed t.failed).publishStopped (.inr ⟨inline, hpc⟩) t
  | awaitingClosed =>
    simp only [hpc] at hs
    split at hs
    · cases hs
    · cases hs
      exact (hI.setStop_failed t.failed).publishStopped (.inl hpc) t
  | publishingStopped inline =>
    have hlate : c.pc.late = true := by rw [hpc]; rfl
    have hl : s.lifecycle ≠ .stopping := fun hl => by rw [(hI.stopping c rfl).mp hl] at hlate; cases hlate
    simp only [hpc, Option.some.injEq] at hs
    subst hs
    split
    · exact hI.endStop (ReceiverStopPc.early_of_late hlate) (fun hc' => by rw [hlate] at hc'; cases hc') fun k => h.task_of_live hl
    · exact hI.setStop_late hlate .stoppingDispatcher rfl
  | stoppingDispatcher =>
    have hlate : c.pc.late = true := by rw [hpc]; rfl
    have hl : s.lifecycle ≠ .stopping := fun hl => by rw [(hI.stopping c rfl).mp hl] at hlate; cases hlate
    simp only [hpc, Option.some.injEq] at hs
    subst hs
    exact hI.endStop (ReceiverStopPc.early_of_late hlate) (fun hc' => by rw [hlate] at hc'; cases hc') fun k => h.task_of_live hl

/-! ### `start()` and the receive tasks -/

theorem Inv.start (h : s.Inv) (hidle : ∀ i < s.calls, s.starts i = .idle) (inline : Bool) : (s.start inline).Inv := by
  have hlive := fun hl k => h.task_of_live (k := k) hl
  have hnone := h.fields_none
  unfold ReceiverRuntime.start
  split
  · have hidle' : ∀ i, s.starts i = .idle := fun i => by
      rcases Nat.lt_or_ge i s.calls with hi | hi
      · exact hidle i hi
      · exact h.called i hi
    refine { h with
        run := ?_, attached := ?_, socket := ?_, stopping := ?_, resting := ?_, one := ?_, called := ?_
        starting := ?_, beginning := ?_ } <;>
      grind [Function.update_apply, ReceiverStart.session?]
  · exact { h with }

theorem Inv.resetFields (h : s.Inv) (hl : s.lifecycle = .starting) : s.resetFields.Inv := by
  have hlive := fun k => h.task_of_live (k := k) (by simp [hl])
  have hnone := h.fields_none (by simp [hl])
  unfold ReceiverRuntime.resetFields
  refine { h with
      run := ?_, attached := ?_, socket := ?_, task := ?_, stopping := ?_, resting := ?_, unclosed := ?_
      live := ?_, starting := ?_ } <;> grind

theorem Inv.setStart (h : s.Inv) {call : Nat} (hcall : s.starts call ≠ .idle) (pc : ReceiverStart)
    (hsession : ∀ k, pc.session? = some k → (s.starts call).session? = some k) : (s.setStart call pc).Inv := by
  unfold ReceiverRuntime.setStart
  refine { h with one := ?_, called := ?_, starting := ?_, beginning := ?_ } <;>
    grind [Function.update_apply]

theorem Inv.attach (h : s.Inv) {call : Nat} (hcall : s.starts call ≠ .idle) (hl : s.lifecycle = .starting)
    (inline : Bool) : (s.attach call inline).Inv := by
  unfold ReceiverRuntime.attach
  refine { h with
      run := ?_, attached := ?_, socket := ?_, task := ?_, stopping := ?_, current := ?_, resting := ?_
      unclosed := ?_, lost := ?_, known := ?_, one := ?_, called := ?_, starting := ?_, beginning := ?_ } <;>
    grind [Function.update_apply, ReceiverStart.session?]

theorem Inv.createTask (h : s.Inv) {call k : Nat} (hcall : (s.starts call).session? = some k)
    (hattached : s.attached k = true) :
    ((({ s with task := some k } : ReceiverRuntime).setReceiver k .created).setStart call .idle).Inv := by
  have hcall' : s.starts call ≠ .idle := fun hidle => by rw [hidle] at hcall; cases hcall
  simp only [ReceiverRuntime.attached, Bool.and_eq_true, decide_eq_true_eq] at hattached
  unfold ReceiverRuntime.setReceiver ReceiverRuntime.setStart
  refine { h with
      task := ?_, lost := ?_, live := ?_, own := ?_, known := ?_, one := ?_, called := ?_, starting := ?_
      beginning := ?_ } <;>
    grind [Function.update_apply, ReceiverStart.session?]

structure Frame (s s' : ReceiverRuntime) : Prop where
  opening : s'.opening = s.opening
  calls : s'.calls = s.calls
  starts : s'.starts = s.starts
  sessions : s'.sessions = s.sessions
  receivers : s'.receivers = s.receivers

theorem Frame.trans {a b c : ReceiverRuntime} (h : Frame a b) (h' : Frame b c) : Frame a c :=
  ⟨h'.opening.trans h.opening, h'.calls.trans h.calls, h'.starts.trans h.starts, h'.sessions.trans h.sessions,
    h'.receivers.trans h.receivers⟩

theorem publishStopped_frame (s : ReceiverRuntime) (c : ReceiverStop) (t : ReceiverTurn) : Frame s (s.publishStopped c t) := by
  unfold publishStopped
  rcases c with ⟨_ | k, socket, task, awaits, deferred, announces, failed, pc⟩ <;> cases failed <;> exact ⟨rfl, rfl, rfl, rfl, rfl⟩

theorem publishClosed_frame (s : ReceiverRuntime) (c : ReceiverStop) (t : ReceiverTurn) : Frame s (s.publishClosed c t) := by
  unfold publishClosed
  split
  · exact publishStopped_frame s c t
  · split
    · exact publishStopped_frame s c t
    · split <;> exact ⟨rfl, rfl, rfl, rfl, rfl⟩

theorem afterTeardown_frame (s : ReceiverRuntime) (c : ReceiverStop) (t : ReceiverTurn) : Frame s (s.afterTeardown c t) := by
  unfold afterTeardown
  split
  · split <;> exact ⟨rfl, rfl, rfl, rfl, rfl⟩
  · exact publishClosed_frame s c t

theorem release_frame (s : ReceiverRuntime) (c : ReceiverStop) (state : ReceiverSocket) : Frame s (s.release c state) := by
  unfold release
  cases c.socket <;> exact ⟨rfl, rfl, rfl, rfl, rfl⟩

theorem teardown_frame (s : ReceiverRuntime) (c : ReceiverStop) (t : ReceiverTurn) : Frame s (s.teardown c t) := by
  have hclose := (release_frame s c .closed).trans (afterTeardown_frame _ c t)
  unfold teardown
  split
  · split
    · exact ⟨rfl, rfl, rfl, rfl, rfl⟩
    · exact hclose
  · exact hclose

theorem stopCall_frame (s : ReceiverRuntime) (origin : StopOrigin) (current : Option Nat) (t : ReceiverTurn) :
    Frame s (s.stopCall origin current t) := by
  unfold stopCall
  split
  · exact ⟨rfl, rfl, rfl, rfl, rfl⟩
  · dsimp only
    split
    · exact ⟨rfl, rfl, rfl, rfl, rfl⟩
    · have hdetach : Frame s s.detach := ⟨rfl, rfl, rfl, rfl, rfl⟩
      exact hdetach.trans (teardown_frame s.detach _ t)

/-- No receive task is live while a call of `start()` is in progress. -/
theorem Inv.caller_of_start (h : s.Inv) {call : Nat} (hcall : s.starts call ≠ .idle) (origin : StopOrigin)
    (current : Option Nat) : s.Caller origin current := by
  have hlive := (h.starting call hcall).2
  constructor
  · intro k _ hk
    rw [hlive k] at hk; cases hk
  · intro _ _ k hk
    rw [hlive k] at hk; cases hk

theorem Inv.caller_of_admits (h : s.Inv) {origin : StopOrigin} {current : Option Nat} {t : ReceiverTurn}
    (hs : s.admits origin current = true) (hok : s.OneStart (.stop origin current t)) : s.Caller origin current := by
  constructor
  · intro k hk hlive
    subst hk
    cases origin with
    | handler => exact ⟨rfl, hs⟩
    | external | activeInlineHandler | childOfHandler => cases hs
  · intro hstop horigin k hlive
    subst horigin
    refine hok hstop k (Nat.lt_of_not_le fun hle => ?_) hlive
    rw [(h.known k hle).1] at hlive
    cases hlive

/-- A handler that runs on a task of the receiver when no stop is owned runs on its receive task, if there is one. -/
theorem Inv.inside_of_active (h : s.Inv) (hstop : s.stop = none) (hactive : s.active = true) {k : Nat}
    (hlive : (s.receivers k).live = true) : (s.receivers k).inline = true := by
  have htask : ∀ j, (s.receivers j).live = true → s.task = some j := fun j hj => by
    rcases h.live j hj with htask | ⟨c, hc, -⟩
    · exact htask
    · rw [hstop] at hc; cases hc
  simp only [active, hstop, Option.any_none, Bool.or_false, Bool.or_eq_true, List.any_eq_true] at hactive
  rcases hactive with ⟨i, -, hi⟩ | ⟨j, -, hj⟩
  · -- no receive task is live while a call of start() is in progress
    have hi' : s.starts i ≠ .idle := fun hidle => by rw [hidle] at hi; cases hi
    rw [(h.starting i hi').2 k] at hlive
    cases hlive
  · have hj' : (s.receivers j).live = true := by
      cases hpc : s.receivers j with
      | emitting _ | reporting _ => rfl
      | absent | created | receiving _ | stopping _ | ended _ => rw [hpc] at hj; cases hj
    cases (htask j hj').symm.trans (htask k hlive)
    exact hj

/-- So in INLINE mode, where every handler runs on a task of the receiver, its `stop()` calls are in order. -/
theorem Inv.oneStart_of_active (h : s.Inv) (hactive : s.stop = none → s.active = true) (current : Option Nat)
    (t : ReceiverTurn) : s.OneStart (.stop .activeInlineHandler current t) :=
  fun hstop _ _ hlive => h.inside_of_active hstop (hactive hstop) hlive

theorem Inv.publishDeferred (h : s.Inv) : s.publishDeferred.Inv := by
  unfold ReceiverRuntime.publishDeferred
  cases s.deferredClose <;> exact { h with }

theorem Inv.setOpening (h : s.Inv) (opening : Option Nat) : ({ s with opening := opening } : ReceiverRuntime).Inv := by
  exact { h with }

theorem publishDeferred_starts (s : ReceiverRuntime) : s.publishDeferred.starts = s.starts := by
  unfold publishDeferred
  cases s.deferredClose <;> rfl

theorem Inv.startTurn (h : s.Inv) {call : Nat} {t : ReceiverTurn} (hs : s.startTurn call t = some s') : s'.Inv := by
  unfold ReceiverRuntime.startTurn at hs
  cases hpc : s.starts call with
  | idle => simp [hpc] at hs
  | publishingStarting inline =>
    have hcall : s.starts call ≠ .idle := by simp [hpc]
    simp only [hpc] at hs
    split at hs
    · cases hs
      split
      · next hl => exact (h.resetFields hl).setStart_idle call
      · exact h.setStart_idle call
    · split at hs
      · next hl =>
        cases hs
        split
        · exact h.attach hcall hl t.inline
        · exact (h.resetFields hl).setStart hcall _ nofun
      · cases hs
        split
        · exact h.setStart hcall _ nofun
        · exact h.setStart_idle call
  | awaitingStop | failing inline =>
    simp only [hpc, Option.some.injEq] at hs
    subst hs
    exact h.setStart_idle call
  | publishingRunning k inline =>
    have hcall : s.starts call ≠ .idle := by simp [hpc]
    simp only [hpc] at hs
    split at hs
    · cases hs
      exact h.setStart hcall _ nofun
    · split at hs
      · cases hs
        apply ((h.setOpening (some call)).log (.opening k)).setStart hcall
        intro j hj
        cases hj
        exact congrArg ReceiverStart.session? hpc
      · cases hs
        exact h.setStart_idle call
  | publishingOpened k inline =>
    have hcall : s.starts call ≠ .idle := by simp [hpc]
    have hsession : ∀ j, (ReceiverStart.settling k t.failed).session? = some j → (s.starts call).session? = some j := by
      intro j hj
      cases hj
      exact congrArg ReceiverStart.session? hpc
    simp only [hpc, Option.some.injEq] at hs
    subst hs
    split
    · exact (h.log (.opened k (!t.failed))).setStart hcall _ hsession
    · exact ((h.setOpening none).log (.opened k (!t.failed))).setStart hcall _ hsession
  | settling k failed =>
    have hstarts := publishDeferred_starts s
    simp only [hpc, Option.some.injEq] at hs
    subst hs
    apply h.publishDeferred.setStart
    · rw [hstarts, hpc]; nofun
    · intro j hj
      cases hj
      rw [hstarts]
      exact congrArg ReceiverStart.session? hpc
  | settled k failed published inline =>
    have hcall : s.starts call ≠ .idle := by simp [hpc]
    simp only [hpc] at hs
    split at hs
    · cases hs
      exact (h.setOpening none).setStart hcall _ nofun
    · split at hs
      · cases hs
        exact h.setStart hcall _ nofun
      · split at hs
        · cases hs
          exact h.setStart_idle call
        · split at hs
          · next hattached =>
            cases hs
            exact h.createTask (congrArg ReceiverStart.session? hpc) hattached
          · cases hs
            exact h.setStart_idle call
  | rollingBack =>
    have hcall : s.starts call ≠ .idle := by simp [hpc]
    simp only [hpc, Option.some.injEq] at hs
    subst hs
    have hstop := h.stopCall (h.caller_of_start hcall t.origin none) t
    have hstarts := (stopCall_frame s t.origin none t).starts
    split
    · exact hstop.setStart (by rw [hstarts]; exact hcall) _ nofun
    · exact hstop.setStart_idle call

/-- A receive task goes on: it stays live only if it was, and inline if its stop waits for a handler. -/
theorem Inv.setReceiver (h : s.Inv) {k : Nat} (hk : s.receivers k ≠ .absent) (hended : ∀ raised, s.receivers k ≠ .ended raised)
    (pc : ReceiverPc) (hlive : pc.live = true → (s.receivers k).live = true ∧
      ((s.receivers k).inline = true → pc.inline = true ∨ s.running = true)) (hown : ∀ j, pc = .receiving j → j = k) :
    (s.setReceiver k pc).Inv := by
  have htask := fun hl => h.task_of_live (k := k) hl
  unfold ReceiverRuntime.setReceiver
  refine { h with lost := ?_, live := ?_, own := ?_, known := ?_, starting := ?_, beginning := ?_ } <;>
    grind [Function.update_apply]

theorem setReceiver_receivers (s : ReceiverRuntime) (k : Nat) (pc : ReceiverPc) :
    (s.setReceiver k pc).receivers = Function.update s.receivers k pc := rfl

theorem Inv.caller_of_finish (h : s.Inv) {k : Nat} (hk : (s.receivers k).live = true) (raised : Bool)
    (origin : StopOrigin) : (s.setReceiver k (.stopping raised)).Caller origin (some k) := by
  have hlive : ∀ j, ((s.setReceiver k (.stopping raised)).receivers j).live = true → (s.receivers j).live = true ∧ j ≠ k := by
    intro j hj
    rw [setReceiver_receivers, Function.update_apply] at hj
    split at hj
    · cases hj
    · next hjk => exact ⟨hj, hjk⟩
  constructor
  · intro j hj hj'
    cases hj
    exact absurd rfl (hlive k hj').2
  · intro hstop _ j hj
    have htask : ∀ i, (s.receivers i).live = true → s.task = some i := fun i hi => by
      rcases h.live i hi with htask | ⟨c, hc, -⟩
      · exact htask
      · exact absurd (hc.symm.trans hstop) nofun
    -- it is the receive task of the fields, so no other one is live
    cases (htask j (hlive j hj).1).symm.trans (htask k hk)
    exact absurd rfl (hlive _ hj).2

theorem Inv.finish (h : s.Inv) {k : Nat} (hk : (s.receivers k).live = true) (raised : Bool) (t : ReceiverTurn) :
    (s.finish k raised t).Inv := by
  have hne : s.receivers k ≠ .absent := fun hpc => by rw [hpc] at hk; cases hk
  have hended : ∀ b, s.receivers k ≠ .ended b := fun b hpc => by rw [hpc] at hk; cases hk
  unfold ReceiverRuntime.finish
  split
  · exact (h.setReceiver hne hended (.stopping raised) nofun nofun).stopCall (h.caller_of_finish hk raised t.origin) t
  · exact h.setReceiver hne hended (.ended raised) nofun nofun

theorem Inv.receiveNext (h : s.Inv) {k : Nat} (hk : (s.receivers k).live = true) (t : ReceiverTurn) :
    (s.receiveNext k t).Inv := by
  have hne : s.receivers k ≠ .absent := fun hpc => by rw [hpc] at hk; cases hk
  have hended : ∀ b, s.receivers k ≠ .ended b := fun b hpc => by rw [hpc] at hk; cases hk
  unfold ReceiverRuntime.receiveNext
  split
  · next hrun =>
    apply h.setReceiver hne hended
    · exact fun _ => ⟨hk, fun _ => .inr hrun⟩
    · intro j hj
      have hl : s.lifecycle ≠ .stopping := by rw [h.run.mp hrun]; decide
      rw [h.task k (h.task_of_live hl hk)] at hj
      cases hj
      rfl
  · exact h.finish hk false t

theorem Inv.receiverTurn (h : s.Inv) {k : Nat} {wake : ReceiverWake} {t : ReceiverTurn}
    (hs : s.receiverTurn k wake t = some s') : s'.Inv := by
  have hset : ∀ pc, (s.receivers k).live = true → ((s.receivers k).inline = true → pc.inline = true) →
      (∀ j, pc = .receiving j → j = k) → (s.setReceiver k pc).Inv := by
    intro pc hlive hinline
    have hne : s.receivers k ≠ .absent := fun hpc => by rw [hpc] at hlive; cases hlive
    have hended : ∀ b, s.receivers k ≠ .ended b := fun b hpc => by rw [hpc] at hlive; cases hlive
    exact h.setReceiver hne hended pc fun _ => ⟨hlive, fun hi => .inl (hinline hi)⟩
  unfold ReceiverRuntime.receiverTurn at hs
  split at hs
  · next hpc =>
    cases hs
    split
    · exact h.setReceiver (by simp [hpc]) (by simp [hpc]) _ nofun nofun
    · exact h.receiveNext (by rw [hpc]; rfl) t
  · next hpc =>
    split at hs
    · cases hs
      exact (hset (.emitting t.inline) (by rw [hpc]; rfl) (by simp [hpc, ReceiverPc.inline]) nofun).log (.bytes k _)
    · cases hs
  · next hpc =>
    split at hs
    · cases hs
    · cases hs
      exact hset (.reporting t.inline) (by rw [hpc]; rfl) (by simp [hpc, ReceiverPc.inline]) nofun
  · next inline hpc =>
    cases hs
    exact hset (.reporting (inline || t.inline)) (by rw [hpc]; rfl) (by simp +contextual [hpc, ReceiverPc.inline]) nofun
  · next hpc =>
    split at hs
    · cases hs
      exact h.finish (by rw [hpc]; rfl) false t
    · cases hs
  · next hpc =>
    split at hs
    · cases hs
      exact h.finish (by rw [hpc]; rfl) false t
    · cases hs
  · next hpc =>
    split at hs
    · cases hs
      exact h.finish (by rw [hpc]; rfl) false t
    · cases hs
  · next hpc => cases hs; exact h.receiveNext (by rw [hpc]; rfl) t
  · next hpc => cases hs; exact h.finish (by rw [hpc]; rfl) false t
  · next hpc => cases hs; exact h.finish (by rw [hpc]; rfl) true t
  · next raised hpc =>
    cases hs
    exact h.setReceiver (by simp [hpc]) (by simp [hpc]) _ nofun nofun
  · cases hs

theorem Inv.step {a : ReceiverAct} (h : s.Inv) (hok : s.OneStart a) (hs : s.step a = some s') : s'.Inv := by
  cases a with
  | start inline =>
    cases hs
    exact h.start hok inline
  | startTurn call t => exact h.startTurn hs
  | stop origin current t =>
    simp only [ReceiverRuntime.step] at hs
    split at hs
    · next hadmits =>
      cases hs
      exact h.stopCall (h.caller_of_admits hadmits hok) t
    · cases hs
  | stopTurn t => exact h.stopTurn hs
  | receiverTurn k wake t => exact h.receiverTurn hs
  | publisherTurn =>
    simp only [ReceiverRuntime.step, publisherTurn] at hs
    split at hs
    · cases hs
      exact { h.publishDeferred with }
    · cases hs

theorem Inv.empty : ({} : ReceiverRuntime).Inv := by
  refine ⟨?_, ?_, ?_, ?_, ?_, ?_, ?_, ?_, ?_, ?_, ?_, ?_, ?_, ?_, ?_, ?_, ?_, ?_⟩ <;> simp [ReceiverPc.live, ReceiverStart.session?]

theorem inv_of_reachable (h : receiverMachine.Reachable OneStart s) : s.Inv := by
  apply h.invariant
  · intro s hs
    cases hs
    exact .empty
  · intro s a t hI hok hstep
    exact hI.step hok hstep

/-! ### What holds in every state -/

theorem Inv.last_of_live (h : s.Inv) {k : Nat} (hk : (s.receivers k).live = true) : k + 1 = s.sessions := by
  rcases h.live k hk with htask | ⟨c, hc, htask, hpc⟩
  · exact (h.attached k (h.task k htask)).2
  · have hlate : c.pc.late = false := by
      rcases hpc with ⟨-, he⟩ | ⟨-, he | he, -⟩
      · exact ReceiverStopPc.late_of_early he
      · exact ReceiverStopPc.late_of_early he
      · rw [he]; rfl
    exact h.current c hc hlate k ((h.pair c hc).2 k ((h.pair c hc).1 k htask))

theorem Inv.last_of_open (h : s.Inv) {k : Nat} (hk : s.sockets k = .open) : k + 1 = s.sessions := by
  rcases h.unclosed k hk with hsocket | ⟨c, hc, hsocket, he⟩
  · exact (h.attached k hsocket).2
  · exact h.current c hc (ReceiverStopPc.late_of_early he) k ((h.pair c hc).2 k hsocket)

/-- The sockets and the receive tasks are under control. -/
structure Tidy (s : ReceiverRuntime) : Prop where
  held : ∀ k, s.sockets k = .open → s.socket = some k ∨ ∃ c, s.stop = some c ∧ c.socket = some k ∧ c.pc.early = true
  lost : ∀ k, s.sockets k = .lost → s.receivers k = .ended true
  socket : ∀ j k, s.sockets j = .open → s.sockets k = .open → j = k
  task : ∀ j k, (s.receivers j).live = true → (s.receivers k).live = true → j = k
  own : ∀ k j, s.receivers k = .receiving j → j = k
  stopped : s.lifecycle = .stopped → ∀ k, (s.receivers k).live = false ∧ s.sockets k ≠ .open

theorem Inv.tidy (h : s.Inv) : s.Tidy where
  held := h.unclosed
  lost := h.lost
  socket j k hj hk := by
    have := h.last_of_open hj
    have := h.last_of_open hk
    omega
  task j k hj hk := by
    have := h.last_of_live hj
    have := h.last_of_live hk
    omega
  own := h.own
  stopped hl k := by
    have hne : s.lifecycle ≠ .stopping := by rw [hl]; decide
    obtain ⟨hsocket, htask⟩ := h.fields_none (by rw [hl]; decide)
    constructor
    · by_contra hk
      cases htask.symm.trans (h.task_of_live hne (eq_true_of_ne_false hk))
    · intro hk
      rcases h.unclosed k hk with hk' | ⟨c, hc, -, he⟩
      · cases hsocket.symm.trans hk'
      · exact hne ((h.stopping c hc).mpr (ReceiverStopPc.late_of_early he))

/-- Over every run that meets `OneStart`: each open socket is attached or held by the stop that is to close it, and
is lost only to a receive task that raised; at most one socket is open and at most one receive task runs, on its own socket; and in
`STOPPED` there is none of either. -/
theorem tidy_of_reachable (h : receiverMachine.Reachable OneStart s) : s.Tidy :=
  (inv_of_reachable h).tidy

/-- Up to the receive task of a session that has been opened. -/
def receiving (call session : Nat) : List ReceiverAct :=
  [.start true] ++ (List.replicate 5 (.startTurn call {})) ++ [.receiverTurn session .returned {}]

/-- A receive task that raises takes the socket with it: the stop that awaits it does not close it. -/
theorem tidy_of_raisedTask :
    ∃ s, receiverMachine.Reachable OneStart s ∧ s.Tidy ∧ s.sockets 0 = .lost ∧ s.lifecycle = .stopped := by
  obtain ⟨s, hs, ht⟩ : ∃ s, receiverMachine.Reachable OneStart s ∧ decide (s.sockets 0 = .lost ∧ s.lifecycle = .stopped) :=
    Machine.Reachable.exists_of_execOk rfl
      (receiving 0 0 ++ [.receiverTurn 0 .raised {}, .stop .external none {}, .stopTurn {}, .receiverTurn 0 .raised {}, .stopTurn {}])
      _ (by decide +kernel)
  obtain ⟨hlost, hstopped⟩ := of_decide_eq_true ht
  exact ⟨s, hs, tidy_of_reachable hs, hlost, hstopped⟩

/-- With overlapping calls of `start()` a receive task can outlive its stop: the inline handler that the stop waits for may be the
one of the other call. -/
theorem exists_live_in_stopped :
    ∃ s, receiverMachine.Reachable Machine.Any s ∧ s.lifecycle = .stopped ∧ (s.receivers 0).live = true := by
  obtain ⟨s, hs, ht⟩ := Machine.Reachable.exists_of_exec (M := receiverMachine) rfl
    ([.start true, .startTurn 0 { bound := false }] ++ receiving 1 0 ++
      [.stop .activeInlineHandler none {}, .startTurn 0 {}, .stopTurn {}, .stopTurn {}, .stopTurn {}])
    (fun s => s.lifecycle = .stopped ∧ (s.receivers 0).live = true) (by decide +kernel)
  exact ⟨s, hs, of_decide_eq_true ht⟩

/-- So can it in BACKGROUND mode, if the handler runs on the worker and the stop comes from a task that has inherited the
inline-delivery context: the receive task is not cancelled, and nobody waits for it. -/
theorem exists_live_of_inheritedStop :
    ∃ s, receiverMachine.Reachable Machine.Any s ∧ s.lifecycle = .stopped ∧ s.calls = 1 ∧ (s.receivers 0).live = true := by
  obtain ⟨s, hs, ht⟩ := Machine.Reachable.exists_of_exec (M := receiverMachine) rfl
    (receiving 0 0 ++ [.stop .activeInlineHandler none {}, .stopTurn {}, .stopTurn {}, .stopTurn {}])
    (fun s => s.lifecycle = .stopped ∧ s.calls = 1 ∧ (s.receivers 0).live = true) (by decide +kernel)
  exact ⟨s, hs, of_decide_eq_true ht⟩

end ReceiverRuntime

end Aionetx
