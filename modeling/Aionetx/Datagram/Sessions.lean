import Aionetx.Runs.Trace
import Aionetx.Datagram.Sockets

/-!
# The sessions of the datagram receiver

* `ReceiverEntry.Law` : the order of the events that the receiver hands over;
* `ReceiverRuntime.Logged` : the invariant that gives it, one lemma for each action, and `ReceiverRuntime.journal_lawful`;
* `ReceiverRuntime.Stranded` : a deferred close event that is never handed over.
-/

namespace Aionetx

open Runs

namespace ReceiverEntry

def session : ReceiverEntry → Nat
  | .opening k | .opened k _ | .bytes k _ | .closed k | .stopped k => k

/-- What an entry of the journal demands of those before it. -/
def Law (before : List ReceiverEntry) (e : ReceiverEntry) (_ : List ReceiverEntry) : Prop :=
  (∀ d ∈ before, d.session ≤ e.session) ∧
    match e with
    | .opening k => .opening k ∉ before ∧ .closed k ∉ before ∧ .stopped k ∉ before
    | .opened k _ => .opening k ∈ before ∧ ∀ handled, .opened k handled ∉ before
    | .bytes k _ => .opened k true ∈ before ∧ .closed k ∉ before ∧ .stopped k ∉ before
    | .closed k => .closed k ∉ before ∧ .stopped k ∉ before ∧ (.opening k ∈ before → ∃ handled, .opened k handled ∈ before)
    | .stopped k => .closed k ∈ before ∧ .stopped k ∉ before

theorem Law.concat {journal : List ReceiverEntry} (h : Everywhere Law journal) {e : ReceiverEntry} (he : Law journal e []) :
    Everywhere Law (journal ++ [e]) :=
  Everywhere.concat h he fun _ _ _ _ hx => hx

end ReceiverEntry

/-- The session whose opened event it publishes. -/
def ReceiverStart.opens : ReceiverStart → Option Nat
  | .publishingOpened k _ => some k
  | _ => none

theorem ReceiverStart.opens_eq_none {pc : ReceiverStart} (h : pc.session? = none) : pc.opens = none := by
  cases pc with
  | publishingRunning _ _ | publishingOpened _ _ | settling _ _ | settled _ _ _ _ => cases h
  | idle | publishingStarting _ | awaitingStop | failing _ | rollingBack => rfl

namespace ReceiverRuntime

/-- No end of the session has been handed over. -/
def Undone (s : ReceiverRuntime) (k : Nat) : Prop := .closed k ∉ s.journal ∧ .stopped k ∉ s.journal

structure Logged (s : ReceiverRuntime) : Prop where
  law : Everywhere ReceiverEntry.Law s.journal
  bound : ∀ e ∈ s.journal, e.session < s.sessions
  opened : ∀ k, (s.receivers k).live = true → .opened k true ∈ s.journal
  beginning : ∀ i k inline, s.starts i = .publishingRunning k inline → .opening k ∉ s.journal
  publishing : ∀ i k, (s.starts i).opens = some k →
    s.opening = some i ∧ .opening k ∈ s.journal ∧ ∀ handled, .opened k handled ∉ s.journal
  settling : ∀ i k failed, s.starts i = .settling k failed → .opened k (!failed) ∈ s.journal
  settled : ∀ i k failed published inline, s.starts i = .settled k failed published inline → .opened k (!failed) ∈ s.journal
  ended : ∀ k, .opening k ∈ s.journal → .opened k true ∈ s.journal ∨ .opened k false ∈ s.journal ∨
    ∃ i, s.opening = some i ∧ (s.starts i).opens = some k
  current : ∀ k, s.socket = some k → s.Undone k
  resting : s.lifecycle = .stopping → s.stop = none → s.Undone (s.sessions - 1)
  stop : ∀ c, s.stop = some c → ∀ k, c.session = some k → c.pc.pastClose = false → s.Undone k
  closing : ∀ c, s.stop = some c → ∀ k, c.session = some k → ∀ inline, c.pc = .publishingClosed inline →
    .closed k ∈ s.journal ∧ .stopped k ∉ s.journal
  deferred : ∀ c, s.stop = some c → ∀ k, c.session = some k → c.pc = .awaitingClosed →
    .stopped k ∉ s.journal ∧ (s.deferredClose = some k ∧ .closed k ∉ s.journal ∨ s.deferredClose = none ∧ .closed k ∈ s.journal)
  slot : ∀ k, s.deferredClose = some k → ∃ c, s.stop = some c ∧ c.pc = .awaitingClosed ∧ c.session = some k
  publisher : s.publisher = true → s.opening = none ∧ (s.lifecycle = .stopping ∨ s.lifecycle = .stopped)

attribute [grind cases] Logged

variable {s s' : ReceiverRuntime} {c : ReceiverStop}

theorem Logged.setStop_failed (h : (s.setStop c).Logged) (failed : Bool) :
    (s.setStop { c with failed := failed }).Logged := by
  simp only [setStop] at *
  refine { h with resting := ?_, stop := ?_, closing := ?_, deferred := ?_, slot := ?_ } <;> grind [Undone]

theorem Logged.setStop_pc (h : (s.setStop c).Logged) (hc : c.pc.pastClose = false)
    (pc : ReceiverStopPc) (hpc : pc.pastClose = false) : (s.setStop { c with pc := pc }).Logged := by
  simp only [setStop] at *
  refine { h with resting := ?_, stop := ?_, closing := ?_, deferred := ?_, slot := ?_ } <;>
    grind [Undone, ReceiverStopPc.pastClose]

/-- `STOPPED` is applied: the stop has no close event to hand over any more. -/
theorem Logged.apply_stopped (h : (s.setStop c).Logged) (hslot : s.deferredClose = none)
    (pc : ReceiverStopPc) (hlate : pc.late = true) :
    (({ s with lifecycle := .stopped } : ReceiverRuntime).setStop { c with pc := pc }).Logged := by
  have hpast : pc.pastClose = true := by
    cases pc with
    | publishingStopped _ | stoppingDispatcher => rfl
    | publishingStopping _ | awaitingTask | waitingHandlers | announcing _ | publishingClosed _ | awaitingClosed => cases hlate
  simp only [setStop] at *
  refine { h with resting := ?_, stop := ?_, closing := ?_, deferred := ?_, slot := ?_, publisher := ?_ } <;>
    grind [ReceiverStopPc.late]

theorem Logged.log_stopped (h : (s.setStop c).Logged) (hlate : c.pc.late = true) {k : Nat}
    (hk : k + 1 = s.sessions) (hsocket : s.socket = none) (hlaw : (ReceiverEntry.stopped k).Law s.journal []) :
    ((s.log (.stopped k)).setStop c).Logged := by
  have hpast : c.pc.pastClose = true := by
    cases hpc : c.pc with
    | publishingStopped _ | stoppingDispatcher => rfl
    | publishingStopping _ | awaitingTask | waitingHandlers | announcing _ | publishingClosed _ | awaitingClosed =>
      rw [hpc] at hlate; cases hlate
  simp only [setStop, ReceiverRuntime.log] at *
  constructor
  case law => exact ReceiverEntry.Law.concat h.law hlaw
  all_goals grind [Undone, ReceiverEntry.session, ReceiverStopPc.late]

/-- The close event of a session, handed over by its stop. -/
theorem Logged.log_closed (h : (s.setStop c).Logged) (hc : c.pc.pastClose = false) {k : Nat}
    (hsession : c.session = some k) (hk : k + 1 = s.sessions) (hsocket : s.socket = none)
    (hlaw : (ReceiverEntry.closed k).Law s.journal []) (inline : Bool) :
    ((s.log (.closed k)).setStop { c with pc := .publishingClosed inline }).Logged := by
  obtain ⟨-, hlaw', hlaw'', -⟩ := id hlaw
  simp only [setStop, ReceiverRuntime.log] at *
  constructor
  case law => exact ReceiverEntry.Law.concat h.law hlaw
  all_goals grind [Undone, ReceiverEntry.session, ReceiverStopPc.pastClose]

/-- Every entry of the journal is of the last session or an earlier one. -/
theorem Logged.le_of_mem (h : s.Logged) {k : Nat} (hk : k + 1 = s.sessions) :
    ∀ d ∈ s.journal, d.session ≤ k := fun d hd => by
  have := h.bound d hd
  omega

theorem Logged.publishStopped (h : (s.setStop c).Logged) (hI : (s.setStop c).Inv)
    (hc : c.pc.late = false) (hslot : s.deferredClose = none)
    (hclosed : c.failed = false → ∀ k, c.session = some k → .closed k ∈ s.journal ∧ .stopped k ∉ s.journal) (t : ReceiverTurn) :
    (s.publishStopped c t).Logged := by
  have hl : s.lifecycle = .stopping := (hI.stopping c rfl).mpr hc
  have hsocket : s.socket = none := (hI.fields_none (by rw [show (s.setStop c).lifecycle = s.lifecycle from rfl, hl]; decide)).1
  unfold ReceiverRuntime.publishStopped
  split
  · exact h.apply_stopped hslot .stoppingDispatcher rfl
  · next hfailed =>
    have hcurrent := hI.current c rfl hc
    have hstopped := h.apply_stopped hslot (.publishingStopped t.inline) rfl
    rcases c with ⟨_ | k, socket, task, awaits, deferred, announces, failed, pc⟩
    · exact hstopped
    · obtain ⟨hk, hk'⟩ := hclosed (Bool.eq_false_iff.mpr hfailed) k rfl
      exact hstopped.log_stopped rfl (hcurrent k rfl) hsocket ⟨h.le_of_mem (hcurrent k rfl), hk, hk'⟩

theorem Logged.publishClosed (h : (s.setStop c).Logged) (hI : (s.setStop c).Inv)
    (hc : c.pc.pastClose = false) (t : ReceiverTurn) : (s.publishClosed c t).Logged := by
  have hlate : c.pc.late = false := by
    cases hpc : c.pc with
    | publishingStopped _ | stoppingDispatcher => rw [hpc] at hc; cases hc
    | publishingStopping _ | awaitingTask | waitingHandlers | announcing _ | publishingClosed _ | awaitingClosed => rfl
  have hl : s.lifecycle = .stopping := (hI.stopping c rfl).mpr hlate
  have hsocket : s.socket = none := (hI.fields_none (by rw [show (s.setStop c).lifecycle = s.lifecycle from rfl, hl]; decide)).1
  have hslot : s.deferredClose = none := by
    by_contra hslot
    obtain ⟨k, hk⟩ := Option.ne_none_iff_exists'.mp hslot
    obtain ⟨c', hc', hpc, -⟩ := h.slot k hk
    cases hc'
    rw [hpc] at hc
    cases hc
  unfold ReceiverRuntime.publishClosed
  split
  · next hfailed => exact h.publishStopped hI hlate hslot (fun hf => by rw [hfailed] at hf; cases hf) t
  · split
    · next hsession => exact h.publishStopped hI hlate hslot (fun _ k hk => by rw [hsession] at hk; cases hk) t
    · next k hsession =>
      have hk := hI.current c rfl hlate k hsession
      obtain ⟨hclosed, hstopped⟩ := h.stop c rfl k hsession hc
      split
      · simp only [setStop] at *
        refine { h with resting := ?_, stop := ?_, closing := ?_, deferred := ?_, slot := ?_, publisher := ?_ } <;>
          grind [ReceiverStopPc.pastClose, Option.isNone_iff_eq_none]
      · next hnot =>
        apply h.log_closed hc hsession hk hsocket
        refine ⟨h.le_of_mem hk, hclosed, hstopped, fun hopening => ?_⟩
        -- the opened event of the session is not being published, since no start is in the opening slot
        rcases h.ended k hopening with hopened | hopened | ⟨i, hi, -⟩
        · exact ⟨true, hopened⟩
        · exact ⟨false, hopened⟩
        · rw [show (s.setStop c).opening = s.opening from rfl] at hi
          exact absurd (by simp [hi]) hnot

theorem Logged.afterTeardown (h : (s.setStop { c with pc := .waitingHandlers }).Logged)
    (hI : (s.setStop { c with pc := .waitingHandlers }).Inv)
    (hfailed : c.failed = true → c.deferred = true → c.session ≠ none) (t : ReceiverTurn) : (s.afterTeardown c t).Logged := by
  unfold ReceiverRuntime.afterTeardown
  split
  · next hdeferred =>
    split
    · next hf =>
      obtain ⟨k, hk⟩ := Option.ne_none_iff_exists'.mp (hfailed hf hdeferred)
      have hlast : s.sessions - 1 = k := by
        have : k + 1 = s.sessions := hI.current _ rfl rfl k hk
        omega
      have hundone : s.Undone k := h.stop _ rfl k hk rfl
      simp only [setStop] at *
      refine { h with resting := ?_, stop := ?_, closing := ?_, deferred := ?_, slot := ?_ } <;> grind [Undone]
    · exact h
  · have hclosed := h.publishClosed hI rfl t
    exact hclosed

theorem Logged.release (h : (s.setStop c).Logged) (hc : c.pc.pastClose = false)
    (state : ReceiverSocket) : ((s.release c state).setStop { c with pc := .waitingHandlers }).Logged := by
  unfold ReceiverRuntime.release
  rcases c with ⟨session, _ | j, task, awaits, deferred, announces, failed, pc⟩
  · exact { h.setStop_pc hc .waitingHandlers rfl with }
  · exact { h.setStop_pc hc .waitingHandlers rfl with }

theorem Logged.teardown (h : (s.setStop { c with pc := .awaitingTask }).Logged)
    (hI : (s.setStop { c with pc := .awaitingTask }).Inv) (hfailed : c.failed = true → c.deferred = false) (t : ReceiverTurn) :
    (s.teardown c t).Logged := by
  have hclose : (c.task = none ∨ c.awaits = false) → ((s.release c .closed).afterTeardown c t).Logged := by
    intro hc
    apply Logged.afterTeardown
    · have hL := h.release rfl .closed
      exact hL
    · exact hI.release_closed hc
    · intro hf hd
      simp [hfailed hf] at hd
  unfold ReceiverRuntime.teardown
  split
  · split
    · exact { h with }
    · next ha => exact hclose (.inr (Bool.eq_false_iff.mpr ha))
  · next hc => exact hclose (.inl hc)

theorem Logged.stopCall (h : s.Logged) (hI : s.Inv) {origin : StopOrigin} {current : Option Nat}
    (hcaller : s.Caller origin current) (t : ReceiverTurn) : (s.stopCall origin current t).Logged := by
  unfold ReceiverRuntime.stopCall
  split
  · exact h
  · next hplan =>
    obtain ⟨hstop, hfull⟩ : s.stop = none ∧ s.isFullyStopped = false := by simpa using hplan
    have hL : ∀ pc : ReceiverStopPc, pc.pastClose = false →
        (s.detach.setStop { s.planStop origin current t with pc := pc }).Logged := by
      intro pc hpc
      have hlast : s.lifecycle ≠ .starting → s.Undone (s.sessions - 1) := by
        intro hl
        cases hl' : s.lifecycle with
        | starting => exact absurd hl' hl
        | stopping => exact h.resting hl' hstop
        | running =>
          obtain ⟨k, hk⟩ := Option.ne_none_iff_exists'.mp (hI.socket (hI.run.mpr hl'))
          rw [← (hI.attached k hk).2]
          exact h.current k hk
        | stopped =>
          have hrun : s.running = false := Bool.eq_false_iff.mpr fun hrun => by rw [hI.run.mp hrun] at hl'; cases hl'
          simp [isFullyStopped, hrun, (hI.fields_none (by simp [hl'])).1, hl'] at hfull
      simp only [ReceiverRuntime.detach, ReceiverRuntime.planStop, setStop] at *
      refine { h with current := ?_, resting := ?_, stop := ?_, closing := ?_, deferred := ?_, slot := ?_, publisher := ?_ } <;>
        grind [Undone, ReceiverStopPc.pastClose]
    dsimp only
    split
    · exact hL (.publishingStopping t.inline) rfl
    · have hstopI := hI.detach hstop hfull hcaller t .awaitingTask rfl (by intro inline hpc; cases hpc)
      exact (hL .awaitingTask rfl).teardown hstopI (by intro hf; cases hf) t

theorem Logged.endStop (h : (s.setStop c).Logged) (hI : (s.setStop c).Inv)
    (hlate : c.pc.late = true) : ({ s with stop := none } : ReceiverRuntime).Logged := by
  have hl : s.lifecycle ≠ .stopping := fun hl => by rw [(hI.stopping c rfl).mp hl] at hlate; cases hlate
  simp only [setStop] at *
  refine { h with resting := ?_, stop := ?_, closing := ?_, deferred := ?_, slot := ?_ } <;> grind [ReceiverStopPc.late]

theorem Logged.setStop_stoppingDispatcher (h : (s.setStop c).Logged) (hlate : c.pc.late = true) :
    (s.setStop { c with pc := .stoppingDispatcher }).Logged := by
  simp only [setStop] at *
  refine { h with resting := ?_, stop := ?_, closing := ?_, deferred := ?_, slot := ?_ } <;>
    grind [ReceiverStopPc.late, ReceiverStopPc.pastClose]

theorem Logged.stopTurn (h : s.Logged) (hI : s.Inv) {t : ReceiverTurn} (hs : s.stopTurn t = some s') :
    s'.Logged := by
  obtain ⟨c, hc, hs⟩ := Option.bind_eq_some_iff.mp hs
  rw [← setStop_eq hc] at h hI
  cases hpc : c.pc with
  | publishingStopping inline =>
    simp only [hpc, Option.some.injEq] at hs
    subst hs
    apply Logged.teardown
    · exact (h.setStop_failed t.failed).setStop_pc (by rw [hpc]; rfl) .awaitingTask rfl
    · exact (hI.setStop_failed t.failed).setStop_awaitingTask (by rw [hpc]; rfl)
    · exact fun _ => hI.plan c rfl inline hpc
  | awaitingTask =>
    simp only [hpc] at hs
    split at hs
    · cases hs
    · next k hk =>
      have hafter : ∀ state raised failed, s.receivers k = .ended raised → (state = .closed ∨ state = .lost ∧ raised = true) →
          ((s.release c state).afterTeardown { c with failed := failed } t).Logged := by
        intro state raised failed hended hstate
        have hrelease := (h.release (by rw [hpc]; rfl) state).setStop_failed failed
        have hreleaseI := (hI.release_awaited hpc hk hended hstate).setStop_failed failed
        obtain ⟨hpair, hsession⟩ := hI.pair c rfl
        apply Logged.afterTeardown
        · exact hrelease
        · exact hreleaseI
        · intro _ _ hnone
          have hk' : c.session = some k := hsession k (hpair k hk)
          cases hk'.symm.trans hnone
      split at hs
      · next hended => cases hs; exact hafter _ true true hended (by split <;> simp)
      · next hended => cases hs; exact hafter .closed false _ hended (.inl rfl)
      · cases hs
  | waitingHandlers =>
    simp only [hpc] at hs
    split at hs
    · cases hs
    · split at hs
      · cases hs
        exact h.setStop_pc (by rw [hpc]; rfl) (.announcing t.inline) rfl
      · cases hs
        exact h.publishClosed hI (by rw [hpc]; rfl) t
  | announcing inline =>
    simp only [hpc, Option.some.injEq] at hs
    subst hs
    exact (h.setStop_failed t.failed).publishClosed (hI.setStop_failed t.failed) (by rw [hpc]; rfl) t
  | publishingClosed inline =>
    simp only [hpc, Option.some.injEq] at hs
    subst hs
    apply (h.setStop_failed t.failed).publishStopped (hI.setStop_failed t.failed)
    · rw [hpc]; rfl
    · by_contra hslot
      obtain ⟨k, hk⟩ := Option.ne_none_iff_exists'.mp hslot
      obtain ⟨c', hc', hpc', -⟩ := h.slot k hk
      cases hc'
      cases hpc.symm.trans hpc'
    · exact fun _ k hk => h.closing c rfl k hk inline hpc
  | awaitingClosed =>
    simp only [hpc] at hs
    split at hs
    · cases hs
    · next hslot =>
      cases hs
      have hslot' : s.deferredClose = none := Option.not_isSome_iff_eq_none.mp hslot
      apply (h.setStop_failed t.failed).publishStopped (hI.setStop_failed t.failed)
      · rw [hpc]; rfl
      · exact hslot'
      · intro _ k hk
        obtain ⟨hstopped, ⟨hsome, -⟩ | ⟨-, hclosed⟩⟩ := h.deferred c rfl k hk hpc
        · cases hslot'.symm.trans hsome
        · exact ⟨hclosed, hstopped⟩
  | publishingStopped inline =>
    simp only [hpc, Option.some.injEq] at hs
    subst hs
    split
    · exact h.endStop hI (by rw [hpc]; rfl)
    · exact h.setStop_stoppingDispatcher (by rw [hpc]; rfl)
  | stoppingDispatcher =>
    simp only [hpc, Option.some.injEq] at hs
    subst hs
    exact h.endStop hI (by rw [hpc]; rfl)

/-! ### `start()` -/

theorem Logged.start (h : s.Logged) (hI : s.Inv) (hpublisher : s.publisher = false) (inline : Bool) :
    (s.start inline).Logged := by
  have hcall := hI.called s.calls (Nat.le_refl _)
  unfold ReceiverRuntime.start
  split
  · refine { h with
        beginning := ?_, publishing := ?_, settling := ?_, settled := ?_, ended := ?_, resting := nofun
        publisher := ?_ } <;> grind [Function.update_apply, ReceiverStart.opens]
  · exact { h with }

theorem Logged.resetFields (h : s.Logged) : s.resetFields.Logged := by
  exact { h with current := nofun, resting := nofun, publisher := fun hp => ⟨(h.publisher hp).1, .inr rfl⟩ }

theorem Logged.setStart (h : s.Logged) {call : Nat} (hcall : (s.starts call).opens = none)
    (pc : ReceiverStart) (hpc : pc.session? = none) : (s.setStart call pc).Logged := by
  have hopens := ReceiverStart.opens_eq_none hpc
  unfold ReceiverRuntime.setStart
  refine { h with beginning := ?_, publishing := ?_, settling := ?_, settled := ?_, ended := ?_ } <;>
    grind [Function.update_apply, ReceiverStart.session?, ReceiverStart.opens]

theorem Logged.setOpening_none (h : s.Logged) (hno : ∀ i, (s.starts i).opens = none) :
    ({ s with opening := none } : ReceiverRuntime).Logged := by
  refine { h with publishing := ?_, ended := ?_, publisher := fun hp => ⟨rfl, (h.publisher hp).2⟩ } <;> grind

theorem Logged.attach (h : s.Logged) (hI : s.Inv) {call : Nat} (hcall : s.starts call ≠ .idle)
    (hl : s.lifecycle = .starting) (inline : Bool) (hpc : (s.starts call).session? = none) : (s.attach call inline).Logged := by
  have hone := hI.one
  have hopens := ReceiverStart.opens_eq_none hpc
  have hnew : ∀ e ∈ s.journal, e.session ≠ s.sessions := fun e he => Nat.ne_of_lt (h.bound e he)
  unfold ReceiverRuntime.attach
  refine { h with
      bound := ?_, beginning := ?_, publishing := ?_, settling := ?_, settled := ?_, ended := ?_, current := ?_
      resting := nofun, publisher := ?_ } <;>
    grind [Function.update_apply, ReceiverStart.session?, ReceiverStart.opens, ReceiverEntry.session, Undone]

theorem Inv.opens_eq_none (h : s.Inv) {call : Nat} (hcall : s.starts call ≠ .idle) (i : Nat) (hi : i ≠ call) :
    (s.starts i).opens = none := by
  have hidle : s.starts i = .idle := by
    by_contra hne
    exact hi (h.one i call hne hcall)
  rw [hidle]
  rfl

theorem Logged.opening_of_opened (h : s.Logged) {k : Nat} {handled : Bool} (hk : .opened k handled ∈ s.journal) :
    .opening k ∈ s.journal := by
  obtain ⟨before, after, heq⟩ := List.append_of_mem hk
  rw [heq]
  exact List.mem_append_left _ (h.law before _ after heq).2.1

theorem Logged.log_opening (h : s.Logged) (hI : s.Inv) {call k : Nat} {inline inline' : Bool}
    (hcall : s.starts call = .publishingRunning k inline) (hattached : s.attached k = true) :
    (({ s with opening := some call } : ReceiverRuntime).log (.opening k)
      |>.setStart call (.publishingOpened k inline')).Logged := by
  simp only [ReceiverRuntime.attached, Bool.and_eq_true, decide_eq_true_eq] at hattached
  obtain ⟨⟨hsocket, -⟩, hl⟩ := hattached
  have hopening := h.beginning call k inline hcall
  have hopened : ∀ handled, .opened k handled ∉ s.journal := fun handled hk => hopening (h.opening_of_opened hk)
  have hk := (hI.attached k hsocket).2
  have hlaw : (ReceiverEntry.opening k).Law s.journal [] := ⟨h.le_of_mem hk, hopening, h.current k hsocket⟩
  have hopens : (s.starts call).opens = none := by rw [hcall]; rfl
  have hothers := @Inv.opens_eq_none _ hI call (by simp [hcall])
  have hone := hI.one
  unfold ReceiverRuntime.setStart ReceiverRuntime.log
  constructor
  case law => exact ReceiverEntry.Law.concat h.law hlaw
  all_goals grind [Function.update_apply, ReceiverStart.opens, ReceiverEntry.session, Undone]

theorem Logged.log_opened (h : s.Logged) (hI : s.Inv) {call k : Nat} {inline : Bool}
    (hcall : s.starts call = .publishingOpened k inline) (failed : Bool) (opening : Option Nat)
    (ho : opening = none ∨ opening = s.opening) :
    (({ s with opening := opening } : ReceiverRuntime).log (.opened k (!failed)) |>.setStart call (.settling k failed)).Logged := by
  obtain ⟨-, hopening, hopened⟩ := h.publishing call k (congrArg ReceiverStart.opens hcall)
  have hk := (hI.beginning call k (congrArg ReceiverStart.session? hcall)).2
  have hlaw : (ReceiverEntry.opened k (!failed)).Law s.journal [] := ⟨h.le_of_mem hk, hopening, hopened⟩
  have hothers := @Inv.opens_eq_none _ hI call (by rw [hcall]; nofun)
  have hended : ∀ j, .opening j ∈ s.journal ++ [.opened k (!failed)] → .opened j true ∈ s.journal ++ [.opened k (!failed)] ∨
      .opened j false ∈ s.journal ++ [.opened k (!failed)] := by
    intro j hj
    rcases List.mem_append.mp hj with hj | hj
    · rcases h.ended j hj with hopened | hopened | ⟨i, -, hi⟩
      · exact .inl (List.mem_append_left _ hopened)
      · exact .inr (List.mem_append_left _ hopened)
      · by_cases hcall' : i = call
        · rw [hcall', hcall] at hi
          cases hi
          cases failed <;> simp
        · cases (hothers i hcall').symm.trans hi
    · simp at hj
  have hpublisher : s.publisher = true → opening = none := fun hp => ho.elim id fun ho => ho.trans (h.publisher hp).1
  unfold ReceiverRuntime.setStart ReceiverRuntime.log
  constructor
  case law => exact ReceiverEntry.Law.concat h.law hlaw
  case ended => exact fun j hj => (hended j hj).imp_right .inl
  all_goals grind [Function.update_apply, ReceiverStart.opens, ReceiverEntry.session, Undone]

/-- The deferred close event is handed over when no opened event is being published. -/
theorem Logged.publishDeferred (h : s.Logged) (hI : s.Inv) (hno : ∀ i, (s.starts i).opens = none) :
    s.publishDeferred.Logged := by
  unfold ReceiverRuntime.publishDeferred
  cases hslot : s.deferredClose with
  | none => exact h
  | some k =>
    obtain ⟨c, hc, hpc, hsession⟩ := h.slot k hslot
    obtain ⟨hstopped, ⟨-, hclosed⟩ | ⟨hnone, -⟩⟩ := h.deferred c hc k hsession hpc
    · have hk := hI.current c hc (by rw [hpc]; rfl) k hsession
      have hl : s.lifecycle = .stopping := (hI.stopping c hc).mpr (by rw [hpc]; rfl)
      have hsocket := (hI.fields_none (by rw [hl]; decide)).1
      have hopened : .opening k ∈ s.journal → ∃ handled, .opened k handled ∈ s.journal := by
        intro hopening
        rcases h.ended k hopening with hopened | hopened | ⟨i, -, hi⟩
        · exact ⟨true, hopened⟩
        · exact ⟨false, hopened⟩
        · cases (hno i).symm.trans hi
      have hlaw : (ReceiverEntry.closed k).Law s.journal [] := ⟨h.le_of_mem hk, hclosed, hstopped, hopened⟩
      simp only [Option.elim, ReceiverRuntime.log]
      constructor
      case law => exact ReceiverEntry.Law.concat h.law hlaw
      all_goals grind [ReceiverEntry.session, Undone, ReceiverStopPc.pastClose, ReceiverStopPc.late]
    · cases hslot.symm.trans hnone

/-- A call of `start()` goes on after the barrier of the opened event. -/
theorem Logged.settle (h : s.Logged) {call k : Nat} {failed : Bool} (hopened : .opened k (!failed) ∈ s.journal)
    (hcall : (s.starts call).opens = none) (published inline : Bool) :
    (s.setStart call (.settled k failed published inline)).Logged := by
  unfold ReceiverRuntime.setStart
  refine { h with beginning := ?_, publishing := ?_, settling := ?_, settled := ?_, ended := ?_ } <;>
    grind [Function.update_apply, ReceiverStart.opens]

theorem Logged.createTask (h : s.Logged) {call k : Nat} (hopened : .opened k true ∈ s.journal)
    (hcall : (s.starts call).opens = none) :
    ((({ s with task := some k } : ReceiverRuntime).setReceiver k .created).setStart call .idle).Logged := by
  have hL : (({ s with task := some k } : ReceiverRuntime).setReceiver k .created).Logged := by
    unfold ReceiverRuntime.setReceiver
    refine { h with opened := ?_ }
    grind [Function.update_apply]
  exact hL.setStart hcall .idle rfl

theorem Logged.startTurn (h : s.Logged) (hI : s.Inv) {call : Nat} {t : ReceiverTurn}
    (hs : s.startTurn call t = some s') : s'.Logged := by
  unfold ReceiverRuntime.startTurn at hs
  cases hpc : s.starts call with
  | idle => simp [hpc] at hs
  | publishingStarting inline =>
    have hcall : s.starts call ≠ .idle := by simp [hpc]
    have hopens : (s.starts call).opens = none := by rw [hpc]; rfl
    have hreset : ∀ pc : ReceiverStart, pc.session? = none → (s.resetFields.setStart call pc).Logged :=
      h.resetFields.setStart hopens
    simp only [hpc] at hs
    split at hs
    · cases hs
      split
      · exact hreset .idle rfl
      · exact h.setStart hopens .idle rfl
    · split at hs
      · next hl =>
        cases hs
        split
        · exact h.attach hI hcall hl t.inline (by rw [hpc]; rfl)
        · exact hreset _ rfl
      · cases hs
        split
        · exact h.setStart hopens _ rfl
        · exact h.setStart hopens _ rfl
  | awaitingStop | failing inline =>
    simp only [hpc, Option.some.injEq] at hs
    subst hs
    exact h.setStart (by rw [hpc]; rfl) _ rfl
  | publishingRunning k inline =>
    have hopens : (s.starts call).opens = none := by rw [hpc]; rfl
    simp only [hpc] at hs
    split at hs
    · cases hs
      exact h.setStart hopens _ rfl
    · split at hs
      · next hattached =>
        cases hs
        exact h.log_opening hI hpc hattached
      · cases hs
        exact h.setStart hopens _ rfl
  | publishingOpened k inline =>
    simp only [hpc, Option.some.injEq] at hs
    subst hs
    split
    · next hfailed =>
      have hL := h.log_opened hI hpc t.failed s.opening (.inr rfl)
      exact hL
    · have hL := h.log_opened hI hpc t.failed none (.inl rfl)
      exact hL
  | settling k failed =>
    have hcall : s.starts call ≠ .idle := by simp [hpc]
    have hno : ∀ i, (s.starts i).opens = none := fun i => by
      by_cases hi : i = call
      · rw [hi, hpc]; rfl
      · exact hI.opens_eq_none hcall i hi
    have hopened := h.settling call k failed hpc
    simp only [hpc, Option.some.injEq] at hs
    subst hs
    apply (h.publishDeferred hI hno).settle
    · unfold ReceiverRuntime.publishDeferred
      cases s.deferredClose with
      | none => exact hopened
      | some j => exact List.mem_append_left _ hopened
    · rw [publishDeferred_starts]; exact hno call
  | settled k failed published inline =>
    have hcall : s.starts call ≠ .idle := by simp [hpc]
    have hopens : (s.starts call).opens = none := by rw [hpc]; rfl
    simp only [hpc] at hs
    split at hs
    · cases hs
      have hno : ∀ i, (s.starts i).opens = none := fun i => by
        by_cases hi : i = call
        · rw [hi]; exact hopens
        · exact hI.opens_eq_none hcall i hi
      exact (h.setOpening_none hno).setStart hopens _ rfl
    · next hfailed =>
      split at hs
      · cases hs
        exact h.setStart hopens _ rfl
      · split at hs
        · cases hs
          exact h.setStart hopens _ rfl
        · split at hs
          · cases hs
            have hopened := h.settled call k failed published inline hpc
            rw [Bool.eq_false_iff.mpr hfailed] at hopened
            exact h.createTask hopened hopens
          · cases hs
            exact h.setStart hopens _ rfl
  | rollingBack =>
    have hcall : s.starts call ≠ .idle := by simp [hpc]
    simp only [hpc, Option.some.injEq] at hs
    subst hs
    have hopens : ((s.stopCall t.origin none t).starts call).opens = none := by
      rw [(stopCall_frame s t.origin none t).starts, hpc]; rfl
    have hL := h.stopCall hI (hI.caller_of_start hcall t.origin none) t
    split
    · exact hL.setStart hopens _ rfl
    · exact hL.setStart hopens _ rfl

/-! ### The receive tasks -/

/-- The session of a receive task that runs has not ended. -/
theorem Logged.undone_of_live (h : s.Logged) (hI : s.Inv) {k : Nat} (hk : (s.receivers k).live = true) : s.Undone k := by
  rcases hI.live k hk with htask | ⟨c, hc, htask, hpc⟩
  · exact h.current k (hI.task k htask)
  · have hpast : c.pc.pastClose = false := by
      cases hpc' : c.pc with
      | publishingStopping _ | awaitingTask | waitingHandlers | announcing _ => rfl
      | publishingClosed _ | awaitingClosed | publishingStopped _ | stoppingDispatcher =>
        rcases hpc with ⟨-, he⟩ | ⟨-, he | he, -⟩ <;> rw [hpc'] at he <;> cases he
    exact h.stop c hc k ((hI.pair c hc).2 k ((hI.pair c hc).1 k htask)) hpast

theorem Logged.setReceiver (h : s.Logged) {k : Nat} (pc : ReceiverPc)
    (hlive : pc.live = true → (s.receivers k).live = true) : (s.setReceiver k pc).Logged := by
  unfold ReceiverRuntime.setReceiver
  refine { h with opened := ?_ }
  grind [Function.update_apply]

theorem Logged.log_bytes (h : s.Logged) (hI : s.Inv) {k : Nat} (hk : (s.receivers k).live = true) (data : Bytes) :
    (s.log (.bytes k data)).Logged := by
  have hlast := hI.last_of_live hk
  have hlaw : (ReceiverEntry.bytes k data).Law s.journal [] := ⟨h.le_of_mem hlast, h.opened k hk, h.undone_of_live hI hk⟩
  unfold ReceiverRuntime.log
  constructor
  case law => exact ReceiverEntry.Law.concat h.law hlaw
  all_goals grind [ReceiverEntry.session, Undone]

theorem Logged.finish (h : s.Logged) (hI : s.Inv) {k : Nat} (hk : (s.receivers k).live = true) (raised : Bool)
    (t : ReceiverTurn) : (s.finish k raised t).Logged := by
  have hne : s.receivers k ≠ .absent := fun hpc => by rw [hpc] at hk; cases hk
  have hended : ∀ b, s.receivers k ≠ .ended b := fun b hpc => by rw [hpc] at hk; cases hk
  unfold ReceiverRuntime.finish
  split
  · have hI' := hI.setReceiver hne hended (.stopping raised) nofun nofun
    exact (h.setReceiver (.stopping raised) nofun).stopCall hI' (hI.caller_of_finish hk raised t.origin) t
  · exact h.setReceiver (.ended raised) nofun

theorem Logged.receiveNext (h : s.Logged) (hI : s.Inv) {k : Nat} (hk : (s.receivers k).live = true) (t : ReceiverTurn) :
    (s.receiveNext k t).Logged := by
  unfold ReceiverRuntime.receiveNext
  split
  · exact h.setReceiver _ fun _ => hk
  · exact h.finish hI hk false t

theorem Logged.receiverTurn (h : s.Logged) (hI : s.Inv) {k : Nat} {wake : ReceiverWake} {t : ReceiverTurn}
    (hs : s.receiverTurn k wake t = some s') : s'.Logged := by
  unfold ReceiverRuntime.receiverTurn at hs
  split at hs
  · next hpc =>
    cases hs
    split
    · exact h.setReceiver _ nofun
    · exact h.receiveNext hI (by rw [hpc]; rfl) t
  · next hpc =>
    have hk : (s.receivers k).live = true := by rw [hpc]; rfl
    split at hs
    · cases hs
      exact (h.log_bytes hI hk _).setReceiver _ fun _ => hk
    · cases hs
  · next hpc =>
    split at hs
    · cases hs
    · cases hs
      exact h.setReceiver _ fun _ => by rw [hpc]; rfl
  · next hpc => cases hs; exact h.setReceiver _ fun _ => by rw [hpc]; rfl
  · next hpc =>
    split at hs
    · cases hs
      exact h.finish hI (by rw [hpc]; rfl) false t
    · cases hs
  · next hpc =>
    split at hs
    · cases hs
      exact h.finish hI (by rw [hpc]; rfl) false t
    · cases hs
  · next hpc =>
    split at hs
    · cases hs
      exact h.finish hI (by rw [hpc]; rfl) false t
    · cases hs
  · next hpc => cases hs; exact h.receiveNext hI (by rw [hpc]; rfl) t
  · next hpc => cases hs; exact h.finish hI (by rw [hpc]; rfl) false t
  · next hpc => cases hs; exact h.finish hI (by rw [hpc]; rfl) true t
  · cases hs
    exact h.setReceiver _ nofun
  · cases hs

theorem Logged.publisherTurn (h : s.Logged) (hI : s.Inv) (hs : s.publisherTurn = some s') : s'.Logged := by
  unfold ReceiverRuntime.publisherTurn at hs
  split at hs
  · next hp =>
    cases hs
    simp only [Bool.and_eq_true] at hp
    have hno : ∀ i, (s.starts i).opens = none := by
      intro i
      by_contra hi
      obtain ⟨k, hk⟩ := Option.ne_none_iff_exists'.mp hi
      cases (h.publisher hp.1).1.symm.trans (h.publishing i k hk).1
    exact { h.publishDeferred hI hno with publisher := nofun }
  · cases hs

theorem Logged.step {a : ReceiverAct} (hI : s.Inv) (h : s.Logged) (hok : s.Orderly a) (hs : s.step a = some s') :
    s'.Logged := by
  cases a with
  | start inline =>
    cases hs
    exact h.start hI hok.2 inline
  | startTurn call t => exact h.startTurn hI hs
  | stop origin current t =>
    simp only [ReceiverRuntime.step] at hs
    split at hs
    · next hadmits =>
      cases hs
      exact h.stopCall hI (hI.caller_of_admits hadmits hok) t
    · cases hs
  | stopTurn t => exact h.stopTurn hI hs
  | receiverTurn k wake t => exact h.receiverTurn hI hs
  | publisherTurn => exact h.publisherTurn hI hs

theorem Logged.empty : ({} : ReceiverRuntime).Logged := by
  refine ⟨Everywhere.nil, ?_, ?_, ?_, ?_, ?_, ?_, ?_, ?_, ?_, ?_, ?_, ?_, ?_, ?_⟩ <;>
    simp [ReceiverPc.live, ReceiverStart.opens]

theorem inv_of_orderly (h : receiverMachine.Reachable Orderly s) : s.Inv :=
  inv_of_reachable (h.mono fun _ _ hok => hok.oneStart)

theorem logged_of_reachable (h : receiverMachine.Reachable Orderly s) : s.Logged := by
  apply h.invariant_of (J := Inv) inv_of_orderly
  · intro s hs
    cases hs
    exact .empty
  · intro s a t hI hL hok hstep
    exact hL.step hI hok hstep

/-- Over every run without overlapping calls of `start()`: the entries of the sessions do not interleave; the opened, the close and
the `STOPPED` event of a session are handed over at most once, in this order; no close event is handed over while the opened event
is being published; and every datagram is after an opened event that was handled and before the close event. -/
theorem journal_lawful (h : receiverMachine.Reachable Orderly s) : Everywhere ReceiverEntry.Law s.journal :=
  (logged_of_reachable h).law

/-- A stop during the opened event, and a second session. -/
theorem journal_lawful_of_deferredClose : ∃ s, receiverMachine.Reachable Orderly s ∧ Everywhere ReceiverEntry.Law s.journal ∧
    s.journal = [.opening 0, .opened 0 true, .closed 0, .stopped 0, .opening 1, .opened 1 true, .bytes 1 []] := by
  obtain ⟨s, hs, ht⟩ : ∃ s, receiverMachine.Reachable Orderly s ∧
      decide (s.journal = [.opening 0, .opened 0 true, .closed 0, .stopped 0, .opening 1, .opened 1 true, .bytes 1 []]) :=
    Machine.Reachable.exists_of_execOk rfl
      ([.start true, .startTurn 0 {}, .startTurn 0 {}, .stop .external none {}, .stopTurn {}, .startTurn 0 {}, .startTurn 0 {},
        .startTurn 0 {}, .stopTurn {}, .stopTurn {}, .stopTurn {}] ++ receiving 1 1 ++ [.receiverTurn 1 (.datagram []) {}])
      _ (by decide +kernel)
  exact ⟨s, hs, journal_lawful hs, of_decide_eq_true ht⟩

/-! ### A close event that no task hands over -/

end ReceiverRuntime

/-- The call is to look into the slot of the deferred close event. -/
def ReceiverStart.flushes : ReceiverStart → Bool
  | .publishingOpened _ _ | .settling _ _ => true
  | _ => false

namespace ReceiverRuntime

/-- The slot is taken, and no task is to look into it. -/
structure Stranded (s : ReceiverRuntime) : Prop where
  lifecycle : s.lifecycle = .stopping
  running : s.running = false
  stop : ∃ c, s.stop = some c ∧ c.pc = .awaitingClosed
  slot : s.deferredClose.isSome = true
  publisher : s.publisher = false
  starts : ∀ i, (s.starts i).flushes = false

/-- What a step leaves of a stranded stop. -/
structure Waits (s s' : ReceiverRuntime) : Prop where
  stranded : s'.Stranded
  stop : s'.stop = s.stop
  slot : s'.deferredClose = s.deferredClose
  closed : ∀ k, .closed k ∈ s'.journal → .closed k ∈ s.journal

variable {s s' : ReceiverRuntime}

theorem Stranded.setStart (h : s.Stranded) (call : Nat) (pc : ReceiverStart) (hpc : pc.flushes = false) :
    Waits s (s.setStart call pc) := by
  refine ⟨{ h with starts := ?_ }, rfl, rfl, fun _ hk => hk⟩
  have hstarts := h.starts
  unfold ReceiverRuntime.setStart
  grind [Function.update_apply]

theorem Stranded.setReceiver (h : s.Stranded) (k : Nat) (pc : ReceiverPc) : Waits s (s.setReceiver k pc) := by
  exact ⟨{ h with }, rfl, rfl, fun _ hk => hk⟩

theorem Stranded.stopCall (h : s.Stranded) (origin : StopOrigin) (current : Option Nat) (t : ReceiverTurn) :
    s.stopCall origin current t = s := by
  obtain ⟨c, hc, -⟩ := h.stop
  unfold ReceiverRuntime.stopCall
  simp [hc]

theorem Stranded.startTurn (h : s.Stranded) {call : Nat} {t : ReceiverTurn} (hs : s.startTurn call t = some s') :
    Waits s s' := by
  have hnot : ∀ k, s.attached k = false := fun k => by
    unfold ReceiverRuntime.attached
    simp [h.running]
  have hflushes := h.starts call
  unfold ReceiverRuntime.startTurn at hs
  cases hpc : s.starts call with
  | idle => simp [hpc] at hs
  | publishingStarting inline =>
    simp only [hpc, h.lifecycle, reduceCtorEq, if_false] at hs
    split at hs
    · cases hs
      exact h.setStart call _ rfl
    · cases hs
      split
      · exact h.setStart call _ rfl
      · exact h.setStart call _ rfl
  | awaitingStop | failing inline =>
    simp only [hpc, Option.some.injEq] at hs
    subst hs
    exact h.setStart call _ rfl
  | publishingRunning k inline =>
    simp only [hpc, hnot k] at hs
    split at hs
    · cases hs
      exact h.setStart call _ rfl
    · cases hs
      exact h.setStart call _ rfl
  | publishingOpened k inline | settling k failed => rw [hpc] at hflushes; cases hflushes
  | settled k failed published inline =>
    simp only [hpc, hnot k] at hs
    split at hs
    · cases hs
      have h' : ({ s with opening := none } : ReceiverRuntime).Stranded := { h with }
      obtain ⟨hstranded, hstop, hslot, hclosed⟩ := h'.setStart call .rollingBack rfl
      exact ⟨hstranded, hstop, hslot, hclosed⟩
    · split at hs
      · cases hs
        exact h.setStart call _ rfl
      · split at hs
        · cases hs
          exact h.setStart call _ rfl
        · cases hs
          exact h.setStart call _ rfl
  | rollingBack =>
    simp only [hpc, h.stopCall, Option.some.injEq] at hs
    subst hs
    split
    · exact h.setStart call _ rfl
    · exact h.setStart call _ rfl

theorem Stranded.receiverTurn (h : s.Stranded) {k : Nat} {wake : ReceiverWake} {t : ReceiverTurn}
    (hs : s.receiverTurn k wake t = some s') : Waits s s' := by
  have hfinish : ∀ raised, s.finish k raised t = s.setReceiver k (.ended raised) := fun raised => by
    unfold ReceiverRuntime.finish
    simp [h.running]
  have hnext : s.receiveNext k t = s.setReceiver k (.ended false) := by
    unfold ReceiverRuntime.receiveNext
    simp [h.running, hfinish]
  unfold ReceiverRuntime.receiverTurn at hs
  simp only [hfinish, hnext] at hs
  split at hs
  · cases hs
    split <;> exact h.setReceiver k _
  · split at hs
    · cases hs
      refine ⟨{ h with }, rfl, rfl, ?_⟩
      intro j hj
      simpa [ReceiverRuntime.log, ReceiverRuntime.setReceiver] using hj
    · cases hs
  all_goals
    try split at hs
    all_goals
      cases hs
      try exact h.setReceiver k _

/-- No step ends the wait, or hands over a close event. -/
theorem Stranded.step {a : ReceiverAct} (h : s.Stranded) (hs : s.step a = some s') : Waits s s' := by
  have hself : Waits s s := ⟨h, rfl, rfl, fun _ hk => hk⟩
  cases a with
  | start inline =>
    cases hs
    unfold ReceiverRuntime.start
    rw [if_neg (by rw [h.lifecycle]; decide)]
    exact hself
  | startTurn call t => exact h.startTurn hs
  | stop origin current t =>
    simp only [ReceiverRuntime.step, h.stopCall] at hs
    split at hs
    · cases hs
      exact hself
    · cases hs
  | stopTurn t =>
    obtain ⟨c, hc, hpc⟩ := h.stop
    simp [ReceiverRuntime.step, ReceiverRuntime.stopTurn, hc, hpc, h.slot] at hs
  | receiverTurn k wake t => exact h.receiverTurn hs
  | publisherTurn => simp [ReceiverRuntime.step, ReceiverRuntime.publisherTurn, h.publisher] at hs

theorem Stranded.exec (h : s.Stranded) (acts : List ReceiverAct) (hs : receiverMachine.exec s acts = some s') :
    Waits s s' := by
  induction acts generalizing s with
  | nil => cases hs; exact ⟨h, rfl, rfl, fun _ hk => hk⟩
  | cons a acts ih =>
    obtain ⟨u, hu, hs⟩ := Option.bind_eq_some_iff.mp hs
    have hstep := h.step hu
    have hrest := ih hstep.stranded hs
    exact ⟨hrest.stranded, hrest.stop.trans hstep.stop, hrest.slot.trans hstep.slot,
      fun k hk => hstep.closed k (hrest.closed k hk)⟩

/-- A close event in the slot that neither the publisher nor a call of `start()` is to look for is never handed over: whatever
happens, the stop waits for it in `STOPPING`. -/
theorem waits_of_stranded (h : receiverMachine.Reachable Orderly s) {k : Nat} (hslot : s.deferredClose = some k)
    (hpublisher : s.publisher = false) (hstarts : ∀ i, (s.starts i).flushes = false) {acts : List ReceiverAct}
    (hrun : receiverMachine.exec s acts = some s') :
    s'.lifecycle = .stopping ∧ s'.stop.isSome = true ∧ s'.stop = s.stop ∧ s'.deferredClose = some k ∧ .closed k ∉ s'.journal := by
  have hI := inv_of_orderly h
  have hL := logged_of_reachable h
  obtain ⟨c, hc, hpc, hsession⟩ := hL.slot k hslot
  have hl : s.lifecycle = .stopping := (hI.stopping c hc).mpr (by rw [hpc]; rfl)
  have hclosed : .closed k ∉ s.journal := by
    rcases (hL.deferred c hc k hsession hpc).2 with ⟨-, hclosed⟩ | ⟨hnone, -⟩
    · exact hclosed
    · cases hslot.symm.trans hnone
  have hrunning : s.running = false := Bool.eq_false_iff.mpr fun hr => by rw [hI.run.mp hr] at hl; cases hl
  have hS : s.Stranded := ⟨hl, hrunning, ⟨c, hc, hpc⟩, by rw [hslot]; rfl, hpublisher, hstarts⟩
  obtain ⟨hS', hstop, hslot', hclosed'⟩ := hS.exec acts hrun
  refine ⟨hS'.lifecycle, ?_, hstop, hslot'.trans hslot, fun hk => hclosed (hclosed' k hk)⟩
  rw [hstop, hc]
  rfl

/-- The handler of the opened event raises, and a stop comes between the look into the slot and the reset of
`opening_event_task`. -/
theorem waits_of_lateStop : ∃ s s', receiverMachine.Reachable Orderly s ∧
    receiverMachine.exec s [.startTurn 0 {}, .startTurn 0 {}, .stop .external none {}] = some s' ∧ s'.starts 0 = .idle ∧
      s'.lifecycle = .stopping ∧ s'.stop.isSome = true ∧ s'.stop = s.stop ∧ s'.deferredClose = some 0 ∧ .closed 0 ∉ s'.journal := by
  obtain ⟨s, hs, ht⟩ : ∃ s, receiverMachine.Reachable Orderly s ∧
      decide (s.deferredClose = some 0 ∧ s.publisher = false ∧ (∀ i < s.calls, (s.starts i).flushes = false) ∧
        (receiverMachine.exec s [.startTurn 0 {}, .startTurn 0 {}, .stop .external none {}]).any (fun s' => s'.starts 0 = .idle)) :=
    Machine.Reachable.exists_of_execOk rfl
      [.start true, .startTurn 0 {}, .startTurn 0 {}, .startTurn 0 { failed := true }, .startTurn 0 {}, .stop .external none {},
        .stopTurn {}]
      _ (by decide +kernel)
  obtain ⟨hslot, hpublisher, hcalls, hrun⟩ := of_decide_eq_true ht
  have hstarts : ∀ i, (s.starts i).flushes = false := fun i => by
    rcases Nat.lt_or_ge i s.calls with hi | hi
    · exact hcalls i hi
    · rw [(inv_of_orderly hs).called i hi]; rfl
  obtain ⟨s', hs', hidle⟩ := (Option.any_eq_true _ _).mp hrun
  exact ⟨s, s', hs, hs', of_decide_eq_true hidle, waits_of_stranded hs hslot hpublisher hstarts hs'⟩

end ReceiverRuntime

end Aionetx
