import Mathlib
import Aionetx.Client.Reconnects

/-!
# The grammar of the reconnect events

`_determine_failure_outcome` plans the retry, and so the delay that the failure event carries, before
`_should_stop_after_failure` looks at the error policy.

* `ReconnectRuns.Kept` : no attempt fails under `FAIL_FAST` while a retry would be planned, no teardown before a planned
  retry raises, and the client is started again only when its earlier supervisors are done with their loop;
* `ReconnectRuns.grammar_of_reachable` : in the runs whose steps all meet it, with handlers that return, the log follows
  the grammar;
* `not_grammar_of_failFast` : a failure that carries a delay and is followed by no retry.
-/

namespace Aionetx
variable {F : Type}

open ReconnectEntry (lastEvent Law)

/-! ## The condition -/

def ReconnectPc.emits : ReconnectPc F → Bool
  | .announcing | .reportingError _ | .reportingFailure _ | .scheduling _ => true
  | _ => false

def ReconnectPc.reported : ReconnectPc F → ReconnectPlan F
  | .reportingFailure plan | .tearingDown plan => plan
  | _ => none

/-- The supervisor has left its loop, or leaves it when it goes on. -/
def ReconnectSupervisor.leaving (v : ReconnectSupervisor F) : Bool := v.pc.left || (v.cancelRequested && v.pc.waits)

theorem ReconnectSupervisor.cancelled_of_leaving (v : ReconnectSupervisor F) {outcome : Outcome} (h : v.leaving)
    (hadmits : v.admits outcome) : outcome = .cancelled ∧ v.pc.reported = none := by
  obtain ⟨pc, cancelRequested⟩ := v
  cases pc with
  | created | terminating => cases outcome <;> cases cancelRequested <;> first | exact ⟨rfl, rfl⟩ | contradiction
  | finalizing => cases outcome <;> contradiction
  | announcing | connecting | reportingError | reportingFailure | tearingDown | scheduling | sleeping =>
    cases cancelRequested <;> contradiction

namespace ReconnectRuns
variable (settings : TcpClientSettings) (reconnect : TcpReconnectSettings F) (s : ReconnectRuns F)

def HandlersReturn : ReconnectAct F → Prop
  | .resume run .raised _ => s.supervisors[run]?.all fun v => !v.pc.emits
  | _ => True

/-- The retry that a failure promises is not dropped. -/
def keepsRetry : ReconnectPc F → Bool
  | .connecting => !(s.running && settings.reconnectEnabled && settings.resolveErrorPolicy = .failFast)
  | .tearingDown (some _) => !s.running
  | _ => true

def Kept : ReconnectAct F → Prop
  | .start => ∀ v ∈ s.supervisors, v.leaving
  | .resume run .raised _ => s.supervisors[run]?.all fun v => s.keepsRetry settings v.pc
  | _ => True

instance : ∀ a, Decidable (s.HandlersReturn a)
  | .resume run .raised _ => inferInstanceAs (Decidable (s.supervisors[run]?.all (fun v => !v.pc.emits) = true))
  | .resume _ .returned _ | .resume _ .cancelled _ | .start | .supervise | .stop _ | .terminate _ | .cancel _ =>
    .isTrue trivial

instance : ∀ a, Decidable (s.Kept settings a)
  | .start => inferInstanceAs (Decidable (∀ v ∈ s.supervisors, v.leaving = true))
  | .resume run .raised _ =>
    inferInstanceAs (Decidable (s.supervisors[run]?.all (fun v => s.keepsRetry settings v.pc) = true))
  | .resume _ .returned _ | .resume _ .cancelled _ | .supervise | .stop _ | .terminate _ | .cancel _ => .isTrue trivial

/-! ## The invariant -/

/-- A retry that is planned after a failure is made. -/
def Retries : Prop := settings.reconnectEnabled = true ∧ settings.resolveErrorPolicy ≠ .failFast

/-- What the log ends with while the supervisor of the last run is suspended at `pc`. -/
def Current (run : Nat) : ReconnectPc F → Prop
  | .created => ∀ event, .emitted run event ∉ s.log
  | .announcing | .connecting | .terminating => lastEvent s.log = some (run, .started s.attemptCounter)
  | .reportingError plan =>
    lastEvent s.log = some (run, .started s.attemptCounter) ∧
      (plan.isSome → Retries settings ∧ (s.log.getLast? ≠ some .stopped → s.lifecycle = .running))
  | .reportingFailure plan | .tearingDown plan =>
    lastEvent s.log = some (run, .failed s.attemptCounter plan) ∧ (plan.isSome → Retries settings)
  | .scheduling _ | .sleeping => ∃ delay, lastEvent s.log = some (run, .scheduled (s.attemptCounter + 1) delay)
  | .finalizing => True

/-- The supervisors of earlier runs are leaving, and so are all of them while the client is `STARTING`; a log that ends
with a failure that carries a delay, with the client not stopped around it, is that of a supervisor on its way to the
retry. -/
structure Inv : Prop where
  runs : ∀ run event, .emitted run event ∈ s.log → run < s.supervisors.length
  older : ∀ run v, s.supervisors[run]? = some v → run + 1 < s.supervisors.length ∨ s.lifecycle = .starting → v.leaving
  attended : ∀ run v, s.supervisors[run]? = some v → run + 1 = s.supervisors.length → s.lifecycle = .running →
    v.cancelRequested = false
  current : ∀ run v, s.supervisors[run]? = some v → run + 1 = s.supervisors.length → s.Current settings run v.pc
  pending : ∀ before run n delay, s.log = before ++ [.emitted run (.failed n (some delay))] →
    before.getLast? ≠ some .stopped →
    s.lifecycle = .running ∧ run + 1 = s.supervisors.length ∧
      ∃ v, s.supervisors[run]? = some v ∧ v.pc.reported = some delay
  numbered : s.log.filterMap ReconnectEntry.attemptStarted? = List.range' 1 s.attemptCounter
  lawful : Runs.Everywhere (Law fun _ => True) s.log

end ReconnectRuns

/-! ## The log grows -/

namespace ReconnectEntry
variable {log : List (ReconnectEntry F)} {run : Nat} {event : ReconnectEvent F}

@[simp] theorem lastEvent_emitted : lastEvent (log ++ [.emitted run event]) = some (run, event) := by
  simp [lastEvent, event?]

@[simp] theorem lastEvent_stopped : lastEvent (log ++ [.stopped]) = lastEvent log := by
  simp [lastEvent, event?]

/-- One more entry: it obeys its law, and it is the retry if the log ends with a failure that asks for one. -/
theorem lawful_concat {underway : Nat → Prop} {entry : ReconnectEntry F} (h : Runs.Everywhere (Law underway) log)
    (hlast : Law underway log entry [])
    (hnext : ∀ before run n delay, log = before ++ [.emitted run (.failed n (some delay))] →
      before.getLast? = some .stopped ∨ entry = .stopped ∨ entry = .emitted run (.scheduled (n + 1) delay)) :
    Runs.Everywhere (Law underway) (log ++ [entry]) := by
  refine h.concat hlast fun before x after hlog hx => ?_
  cases x with
  | stopped => trivial
  | emitted run event =>
    cases event with
    | started n => exact hx
    | scheduled m delay => exact hx
    | failed n plan =>
      refine ⟨hx.1, fun delay hplan => ?_⟩
      subst hplan
      cases after with
      | cons y after => exact (hx.2 delay rfl).imp id (Or.imp id fun h => absurd h.1 (List.cons_ne_nil _ _))
      | nil =>
        rcases hnext before run n delay hlog with hstop | rfl | rfl
        · exact .inr (.inl (.inr hstop))
        · exact .inr (.inl (.inl rfl))
        · exact .inl rfl

end ReconnectEntry

/-! ## The steps of a supervisor -/

namespace ReconnectRuns
variable {settings : TcpClientSettings} {reconnect : TcpReconnectSettings F} {s t : ReconnectRuns F} {run : Nat}
variable {v : ReconnectSupervisor F} {pc : ReconnectPc F}

/-- The pending retry is that of the supervisor of the last run. -/
theorem Inv.reported (h : s.Inv settings) (hv : s.supervisors[run]? = some v) (hlast : run + 1 = s.supervisors.length)
    {before : List (ReconnectEntry F)} {m n : Nat} {delay : F}
    (hlog : s.log = before ++ [.emitted m (.failed n (some delay))]) (hstop : before.getLast? ≠ some .stopped) :
    s.lifecycle = .running ∧ m = run ∧ v.pc.reported = some delay := by
  obtain ⟨hrunning, hm, w, hw, hdelay⟩ := h.pending before m n delay hlog hstop
  obtain rfl : m = run := by omega
  obtain rfl : v = w := Option.some.inj (hv.symm.trans hw)
  exact ⟨hrunning, rfl, hdelay⟩

/-- A supervisor that has no retry pending leaves its loop. -/
theorem Inv.leave (h : s.Inv settings) (hv : s.supervisors[run]? = some v)
    (hpending : run + 1 = s.supervisors.length → s.lifecycle = .running → v.pc.reported = none) :
    Inv settings { s with supervisors := s.supervisors.set run { pc := .finalizing } } := by
  have hlt : run < s.supervisors.length := (List.getElem?_eq_some_iff.mp hv).1
  have hself : (s.supervisors.set run { pc := .finalizing })[run]? = some { pc := .finalizing } :=
    List.getElem?_set_self hlt
  have hne : ∀ {m : Nat}, m ≠ run → (s.supervisors.set run { pc := .finalizing })[m]? = s.supervisors[m]? :=
    fun hm => List.getElem?_set_ne hm.symm
  refine ⟨?_, ?_, ?_, ?_, ?_, h.numbered, h.lawful⟩
  · simpa using h.runs
  · intro m w hw hm
    obtain rfl | hmr := eq_or_ne m run
    · cases hself.symm.trans hw
      rfl
    · exact h.older m w ((hne hmr).symm.trans hw) (by simpa using hm)
  · intro m w hw hm hrunning
    obtain rfl | hmr := eq_or_ne m run
    · cases hself.symm.trans hw
      rfl
    · exact h.attended m w ((hne hmr).symm.trans hw) (by simpa using hm) hrunning
  · intro m w hw hm
    obtain rfl | hmr := eq_or_ne m run
    · cases hself.symm.trans hw
      trivial
    · exact h.current m w ((hne hmr).symm.trans hw) (by simpa using hm)
  · intro before m n delay hlog hstop
    obtain ⟨hrunning, hm, w, hw, hdelay⟩ := h.pending before m n delay hlog hstop
    obtain rfl | hmr := eq_or_ne m run
    · cases hv.symm.trans hw
      rw [hpending hm hrunning] at hdelay
      cases hdelay
    · exact ⟨hrunning, by simpa using hm, w, (hne hmr).trans hw, hdelay⟩

/-- The supervisor of the last run goes on to `pc` without an event. -/
theorem Inv.quiet (h : s.Inv settings) (hv : s.supervisors[run]? = some v) (hlast : run + 1 = s.supervisors.length)
    (hstarting : s.lifecycle ≠ .starting) (hlog : t.log = s.log) (hlife : t.lifecycle = s.lifecycle)
    (hcounter : t.attemptCounter = s.attemptCounter) (hsup : t.supervisors = s.supervisors.set run { pc })
    (hcurrent : t.Current settings run pc)
    (hpending : ∀ delay, v.pc.reported = some delay → pc.reported = some delay) : t.Inv settings := by
  have hlen : t.supervisors.length = s.supervisors.length := by simp [hsup]
  have hself : t.supervisors[run]? = some { pc } := by
    rw [hsup, List.getElem?_set_self (by omega)]
  have hne : ∀ {m : Nat}, m ≠ run → t.supervisors[m]? = s.supervisors[m]? := fun hm => by
    rw [hsup, List.getElem?_set_ne hm.symm]
  have hself_of : ∀ {m : Nat} {w : ReconnectSupervisor F}, t.supervisors[m]? = some w → m + 1 = t.supervisors.length →
      m = run ∧ w = { pc } := fun {m w} hw hm => by
    obtain rfl : m = run := by omega
    exact ⟨rfl, Option.some.inj (hw.symm.trans hself)⟩
  refine ⟨?_, ?_, ?_, ?_, ?_, ?_, ?_⟩
  · simpa [hlog, hlen] using h.runs
  · intro m w hw hm
    rw [hlife, hlen] at hm
    have hm := hm.resolve_right hstarting
    exact h.older m w ((hne (by omega)).symm.trans hw) (.inl hm)
  · intro m w hw hm _
    obtain ⟨-, rfl⟩ := hself_of hw hm
    rfl
  · intro m w hw hm
    obtain ⟨rfl, rfl⟩ := hself_of hw hm
    exact hcurrent
  · intro before m n delay hl hstop
    obtain ⟨hrunning, rfl, hdelay⟩ := h.reported hv hlast (hlog.symm.trans hl) hstop
    exact ⟨hlife.trans hrunning, by omega, { pc }, hself, hpending delay hdelay⟩
  · rw [hlog, hcounter]
    exact h.numbered
  · rw [hlog]
    exact h.lawful

/-- The supervisor of the last run emits an event and goes on to `pc`. -/
theorem Inv.emit (h : s.Inv settings) (hv : s.supervisors[run]? = some v) (hlast : run + 1 = s.supervisors.length)
    (hstarting : s.lifecycle ≠ .starting) {event : ReconnectEvent F} (hlog : t.log = s.log ++ [.emitted run event])
    (hlife : t.lifecycle = s.lifecycle) (hsup : t.supervisors = s.supervisors.set run { pc })
    (hnumbered : t.log.filterMap ReconnectEntry.attemptStarted? = List.range' 1 t.attemptCounter)
    (hlaw : Law (fun _ => True) s.log (.emitted run event) [])
    (hnext : ∀ before n delay, s.log = before ++ [.emitted run (.failed n (some delay))] →
      v.pc.reported = some delay → event = .scheduled (n + 1) delay)
    (hcurrent : t.Current settings run pc)
    (hpending : ∀ n delay, event = .failed n (some delay) → s.log.getLast? ≠ some .stopped →
      s.lifecycle = .running ∧ pc.reported = some delay) : t.Inv settings := by
  have hlen : t.supervisors.length = s.supervisors.length := by simp [hsup]
  have hself : t.supervisors[run]? = some { pc } := by
    rw [hsup, List.getElem?_set_self (by omega)]
  have hne : ∀ {m : Nat}, m ≠ run → t.supervisors[m]? = s.supervisors[m]? := fun hm => by
    rw [hsup, List.getElem?_set_ne hm.symm]
  have hself_of : ∀ {m : Nat} {w : ReconnectSupervisor F}, t.supervisors[m]? = some w → m + 1 = t.supervisors.length →
      m = run ∧ w = { pc } := fun {m w} hw hm => by
    obtain rfl : m = run := by omega
    exact ⟨rfl, Option.some.inj (hw.symm.trans hself)⟩
  refine ⟨?_, ?_, ?_, ?_, ?_, hnumbered, ?_⟩
  · intro m e hm
    rw [hlog, List.mem_append, List.mem_singleton] at hm
    rw [hlen]
    rcases hm with hm | hm
    · exact h.runs m e hm
    · cases hm
      omega
  · intro m w hw hm
    rw [hlife, hlen] at hm
    have hm := hm.resolve_right hstarting
    exact h.older m w ((hne (by omega)).symm.trans hw) (.inl hm)
  · intro m w hw hm _
    obtain ⟨-, rfl⟩ := hself_of hw hm
    rfl
  · intro m w hw hm
    obtain ⟨rfl, rfl⟩ := hself_of hw hm
    exact hcurrent
  · intro before m n delay hl hstop
    obtain ⟨rfl, hx⟩ := List.append_inj' (hlog.symm.trans hl) rfl
    cases hx
    obtain ⟨hrunning, hdelay⟩ := hpending n delay rfl hstop
    exact ⟨hlife.trans hrunning, by omega, { pc }, hself, hdelay⟩
  · rw [hlog]
    refine ReconnectEntry.lawful_concat h.lawful hlaw fun before m n delay hl => ?_
    by_cases hstop : before.getLast? = some .stopped
    · exact .inl hstop
    · obtain ⟨-, rfl, hdelay⟩ := h.reported hv hlast hl hstop
      rw [hnext before n delay hl hdelay]
      exact .inr (.inr rfl)

/-- The state in which a supervisor is suspended after a segment. -/
def suspend (run : Nat) (r : ReconnectRuns F × ReconnectPc F) : ReconnectRuns F :=
  { r.1 with supervisors := r.1.supervisors.set run { pc := r.2 } }

theorem running_iff (hstarting : s.lifecycle ≠ .starting) : s.running = true ↔ s.lifecycle = .running := by
  unfold running
  cases hs : s.lifecycle <;> simp_all [ComponentLifecycleState.active]

theorem Inv.startConnectAttempt (h : s.Inv settings) (hv : s.supervisors[run]? = some v)
    (hlast : run + 1 = s.supervisors.length) (hstarting : s.lifecycle ≠ .starting) (hreported : v.pc.reported = none)
    (hlog : (∀ event, .emitted run event ∉ s.log) ∨
      ∃ delay, lastEvent s.log = some (run, .scheduled (s.attemptCounter + 1) delay)) :
    (suspend run (s.startConnectAttempt run)).Inv settings := by
  unfold ReconnectRuns.startConnectAttempt
  split
  · refine h.emit hv hlast hstarting rfl rfl rfl ?_ hlog ?_ ReconnectEntry.lastEvent_emitted ?_
    · change (s.log ++ [_]).filterMap _ = List.range' 1 (s.attemptCounter + 1)
      rw [List.filterMap_append, h.numbered, List.range'_1_concat, Nat.add_comm 1]
      rfl
    · intro before n delay _ hdelay
      rw [hreported] at hdelay
      cases hdelay
    · intro n delay hevent
      cases hevent
  · exact h.leave hv fun _ _ => hreported

theorem Inv.emitFailure (h : s.Inv settings) (hv : s.supervisors[run]? = some v)
    (hlast : run + 1 = s.supervisors.length) (hstarting : s.lifecycle ≠ .starting) (hreported : v.pc.reported = none)
    {plan : ReconnectPlan F} (hcurrent : s.Current settings run (.reportingError plan)) :
    (suspend run (s.emitFailure run plan)).Inv settings := by
  obtain ⟨hstarted, hplan⟩ := hcurrent
  refine h.emit hv hlast hstarting rfl rfl rfl ?_ ⟨hstarted, fun delay _ => .inr (.inr ⟨rfl, trivial⟩)⟩ ?_
    ⟨ReconnectEntry.lastEvent_emitted, fun hsome => (hplan hsome).1⟩ ?_
  · change (s.log ++ [_]).filterMap _ = List.range' 1 s.attemptCounter
    rw [List.filterMap_append, h.numbered]
    exact List.append_nil _
  · intro before n delay _ hdelay
    rw [hreported] at hdelay
    cases hdelay
  · intro n delay hevent hstop
    cases hevent
    exact ⟨(hplan rfl).2 hstop, rfl⟩

theorem Inv.sleepUntilNextReconnect (h : s.Inv settings) (hv : s.supervisors[run]? = some v)
    (hlast : run + 1 = s.supervisors.length) (hstarting : s.lifecycle ≠ .starting) (handling : Bool)
    {plan : ReconnectPlan F} (hreported : v.pc.reported = none ∨ v.pc.reported = plan)
    (hretries : v.pc.reported.isSome → settings.reconnectEnabled = true)
    (hlog : ∀ delay, plan = some delay → lastEvent s.log = some (run, .started s.attemptCounter) ∨
      lastEvent s.log = some (run, .failed s.attemptCounter (some delay))) :
    (suspend run (s.sleepUntilNextReconnect settings run handling plan)).Inv settings := by
  cases plan with
  | none => exact h.leave hv fun _ _ => hreported.elim id id
  | some delay =>
    simp only [ReconnectRuns.sleepUntilNextReconnect]
    split
    · refine h.emit hv hlast hstarting rfl rfl rfl ?_ ⟨_, rfl, hlog delay rfl⟩ ?_
        ⟨delay, ReconnectEntry.lastEvent_emitted⟩ ?_
      · change (s.log ++ [_]).filterMap _ = List.range' 1 s.attemptCounter
        rw [List.filterMap_append, h.numbered]
        exact List.append_nil _
      · intro before n d hl _
        have hfailed : lastEvent s.log = some (run, .failed n (some d)) := by
          rw [hl]
          exact ReconnectEntry.lastEvent_emitted
        rcases hlog delay rfl with hs | hs
        · cases hs.symm.trans hfailed
        · cases hs.symm.trans hfailed
          rfl
      · intro n d hevent
        cases hevent
    · next hgo =>
      refine h.leave hv fun _ hrunning => ?_
      rcases hreported with hnone | hsome
      · exact hnone
      · rw [(running_iff hstarting).mpr hrunning, hretries (by rw [hsome]; rfl)] at hgo
        exact absurd rfl hgo

theorem Inv.afterTeardown (h : s.Inv settings) {plan : ReconnectPlan F} (hv : s.supervisors[run]? = some v)
    (hpc : v.pc = .tearingDown plan) (hlast : run + 1 = s.supervisors.length) (hstarting : s.lifecycle ≠ .starting) :
    (suspend run (s.afterTeardown settings run plan)).Inv settings := by
  have hreported : v.pc.reported = plan := by rw [hpc]; rfl
  have hcurrent := h.current run v hv hlast
  rw [hpc] at hcurrent
  obtain ⟨hfailed, hretries⟩ := hcurrent
  unfold ReconnectRuns.afterTeardown
  split
  · next hstop =>
    refine h.leave hv fun _ hrunning => ?_
    rw [hreported]
    by_contra hplan
    obtain ⟨henabled, hpolicy⟩ := hretries (Option.isSome_iff_ne_none.mpr hplan)
    simp [shouldStopAfterFailure, henabled, hpolicy, (running_iff hstarting).mpr hrunning] at hstop
  · refine h.sleepUntilNextReconnect hv hlast hstarting true (.inr hreported) (fun hsome => ?_) fun delay hplan => ?_
    · exact (hretries (hreported ▸ hsome)).1
    · exact .inr (hplan ▸ hfailed)

theorem Inv.delayed (h : s.Inv settings) (currentDelay : F) : Inv settings { s with currentDelay } :=
  ⟨h.runs, h.older, h.attended, h.current, h.pending, h.numbered, h.lawful⟩

section Backoff
variable [Zero F] [OfNat F 2] [Add F] [Sub F] [Mul F] [Div F] [Min F] {draw : F}

/-- A plan changes the delay progression at most, and is made if the client is running and reconnects. -/
theorem planReconnect_spec (s : ReconnectRuns F) (settings : TcpClientSettings) (reconnect : TcpReconnectSettings F)
    (draw : F) : ∃ currentDelay plan,
    s.planReconnect settings reconnect draw = ({ s with currentDelay }, plan) ∧
      (plan.isSome → s.running = true ∧ settings.reconnectEnabled = true) := by
  unfold planReconnect
  split
  · exact ⟨s.currentDelay, none, rfl, nofun⟩
  · next hplan =>
    refine ⟨_, _, rfl, fun _ => ?_⟩
    simpa using hplan

theorem Inv.handleConnectCycleFailure (h : s.Inv settings) (hv : s.supervisors[run]? = some v)
    (hpc : v.pc = .connecting) (hlast : run + 1 = s.supervisors.length) (hstarting : s.lifecycle ≠ .starting)
    (hkept : s.keepsRetry settings v.pc) :
    (suspend run (s.handleConnectCycleFailure settings reconnect run draw)).Inv settings := by
  have hreported : v.pc.reported = none := by rw [hpc]; rfl
  have hstarted := h.current run v hv hlast
  rw [hpc] at hstarted hkept
  obtain ⟨currentDelay, plan, hplan, hsome⟩ := s.planReconnect_spec settings reconnect draw
  have hcurrent : Current settings { s with currentDelay } run (.reportingError plan) := by
    refine ⟨hstarted, fun hp => ⟨⟨(hsome hp).2, fun hpolicy => ?_⟩, fun _ => (running_iff hstarting).mp (hsome hp).1⟩⟩
    simp [keepsRetry, hsome hp, hpolicy] at hkept
  unfold ReconnectRuns.handleConnectCycleFailure
  rw [hplan]
  dsimp only
  split
  · exact (h.delayed currentDelay).emitFailure hv hlast hstarting hreported hcurrent
  · exact (h.delayed currentDelay).quiet hv hlast hstarting rfl rfl rfl rfl hcurrent fun delay hd => by
      rw [hreported] at hd
      cases hd

theorem Inv.scheduleReconnectAfterDisconnect (h : s.Inv settings) (hv : s.supervisors[run]? = some v)
    (hpc : v.pc = .terminating) (hlast : run + 1 = s.supervisors.length) (hstarting : s.lifecycle ≠ .starting) :
    (suspend run (s.scheduleReconnectAfterDisconnect settings reconnect run draw)).Inv settings := by
  have hreported : v.pc.reported = none := by rw [hpc]; rfl
  have hstarted := h.current run v hv hlast
  rw [hpc] at hstarted
  obtain ⟨currentDelay, plan, hplan, -⟩ := s.planReconnect_spec settings reconnect draw
  unfold ReconnectRuns.scheduleReconnectAfterDisconnect
  rw [hplan]
  refine (h.delayed currentDelay).sleepUntilNextReconnect hv hlast hstarting false (.inl hreported) (fun hsome => ?_)
    fun _ _ => .inl hstarted
  rw [hreported] at hsome
  cases hsome

theorem Inv.turn (h : s.Inv settings) (hv : s.supervisors[run]? = some v) (hlast : run + 1 = s.supervisors.length)
    (hstarting : s.lifecycle ≠ .starting) {outcome : Outcome} (hadmits : v.admits outcome)
    (hreturn : outcome = .raised → !v.pc.emits) (hkept : outcome = .raised → s.keepsRetry settings v.pc) :
    (suspend run (s.turn settings reconnect run draw v.pc outcome)).Inv settings := by
  have hcurrent := h.current run v hv hlast
  have hquiet : ∀ {pc : ReconnectPc F} {t : ReconnectRuns F}, t.log = s.log → t.lifecycle = s.lifecycle →
      t.attemptCounter = s.attemptCounter → t.supervisors = s.supervisors.set run { pc } →
      t.Current settings run pc → (∀ delay, v.pc.reported = some delay → pc.reported = some delay) → t.Inv settings :=
    fun h1 h2 h3 h4 h5 h6 => h.quiet hv hlast hstarting h1 h2 h3 h4 h5 h6
  cases outcome with
  | cancelled =>
    refine h.leave hv fun _ hrunning => ?_
    simp [ReconnectSupervisor.admits, h.attended run v hv hlast hrunning] at hadmits
  | raised =>
    have hreturn := hreturn rfl
    have hkept := hkept rfl
    cases hpc : v.pc with
    | created | terminating | sleeping | finalizing => rw [ReconnectSupervisor.admits, hpc] at hadmits; cases hadmits
    | announcing | reportingError | reportingFailure | scheduling => rw [hpc] at hreturn; cases hreturn
    | connecting => exact h.handleConnectCycleFailure hv hpc hlast hstarting hkept
    | tearingDown plan =>
      refine h.leave hv fun _ hrunning => ?_
      rw [hpc] at hkept ⊢
      cases plan with
      | none => rfl
      | some delay => simp [keepsRetry, (running_iff hstarting).mpr hrunning] at hkept
  | returned =>
    cases hpc : v.pc with
    | finalizing => rw [ReconnectSupervisor.admits, hpc] at hadmits; cases hadmits
    | created =>
      rw [hpc] at hcurrent
      exact h.startConnectAttempt hv hlast hstarting (by rw [hpc]; rfl) (.inl hcurrent)
    | announcing =>
      rw [hpc] at hcurrent hquiet
      simp only [ReconnectRuns.turn]
      split
      · exact hquiet rfl rfl rfl rfl hcurrent nofun
      · exact h.leave hv fun _ _ => by rw [hpc]; rfl
    | connecting =>
      rw [hpc] at hcurrent hquiet
      simp only [ReconnectRuns.turn]
      split
      · exact hquiet rfl rfl rfl rfl hcurrent nofun
      · exact h.leave hv fun _ _ => by rw [hpc]; rfl
    | terminating => exact h.scheduleReconnectAfterDisconnect hv hpc hlast hstarting
    | reportingError plan =>
      rw [hpc] at hcurrent
      exact h.emitFailure hv hlast hstarting (by rw [hpc]; rfl) hcurrent
    | reportingFailure plan =>
      rw [hpc] at hcurrent hquiet
      exact hquiet rfl rfl rfl rfl hcurrent fun _ hdelay => hdelay
    | tearingDown plan => exact h.afterTeardown hv hpc hlast hstarting
    | scheduling handling =>
      rw [hpc] at hcurrent hquiet
      simp only [ReconnectRuns.turn]
      split
      · exact hquiet rfl rfl rfl rfl hcurrent nofun
      · exact h.leave hv fun _ _ => by rw [hpc]; rfl
    | sleeping =>
      rw [hpc] at hcurrent
      simp only [ReconnectRuns.turn]
      split
      · exact h.startConnectAttempt hv hlast hstarting (by rw [hpc]; rfl) (.inr hcurrent)
      · exact h.leave hv fun _ _ => by rw [hpc]; rfl

theorem Inv.resume (h : s.Inv settings) {outcome : Outcome} (ht : s.resume settings reconnect run outcome draw = some t)
    (hreturn : s.HandlersReturn (.resume run outcome draw)) (hkept : s.Kept settings (.resume run outcome draw)) :
    t.Inv settings := by
  unfold ReconnectRuns.resume at ht
  split at ht
  · cases ht
  · next v hv =>
    split at ht
    · next hadmits =>
      obtain rfl : suspend run (s.turn settings reconnect run draw v.pc outcome) = t := Option.some.inj ht
      have hlt : run < s.supervisors.length := (List.getElem?_eq_some_iff.mp hv).1
      by_cases hlast : run + 1 = s.supervisors.length ∧ s.lifecycle ≠ .starting
      · refine h.turn hv hlast.1 hlast.2 hadmits (fun ho => ?_) fun ho => ?_
        · subst ho
          rw [HandlersReturn, hv] at hreturn
          exact hreturn
        · subst ho
          rw [Kept, hv] at hkept
          exact hkept
      · -- such a supervisor is cancelled where it waits, if it has not left its loop
        have hold : run + 1 < s.supervisors.length ∨ s.lifecycle = .starting := by
          by_cases hs : s.lifecycle = .starting
          · exact .inr hs
          · exact .inl (Nat.lt_of_le_of_ne hlt fun he => hlast ⟨he, hs⟩)
        obtain ⟨rfl, hpending⟩ := v.cancelled_of_leaving (h.older run v hv hold) hadmits
        exact h.leave hv fun _ _ => hpending
    · cases ht

end Backoff

/-! ## The other actions -/

theorem Inv.start (h : s.Inv settings) (hleaving : ∀ v ∈ s.supervisors, v.leaving) (ht : s.start = some t) :
    t.Inv settings := by
  unfold ReconnectRuns.start at ht
  split at ht
  · cases ht
  · next hidle =>
    cases ht
    have hidle : s.lifecycle ≠ .running := fun hrunning => hidle (by rw [running, hrunning]; rfl)
    refine ⟨h.runs, fun run v hv _ => hleaving v (List.mem_of_getElem? hv), nofun, fun run v hv hlast => ?_,
      fun before run n delay hl hstop => absurd (h.pending before run n delay hl hstop).1 hidle, h.numbered, h.lawful⟩
    have hcurrent := h.current run v hv hlast
    cases hpc : v.pc with
    | reportingError plan =>
      rw [hpc] at hcurrent
      exact ⟨hcurrent.1, fun hp => ⟨(hcurrent.2 hp).1, fun hl => absurd ((hcurrent.2 hp).2 hl) hidle⟩⟩
    | created | announcing | connecting | terminating | reportingFailure | tearingDown | scheduling | sleeping
    | finalizing =>
      rw [hpc] at hcurrent
      exact hcurrent

theorem Inv.supervise (h : s.Inv settings) (ht : s.supervise = some t) : t.Inv settings := by
  unfold ReconnectRuns.supervise at ht
  split at ht
  · next hstarting =>
    cases ht
    have hcases : ∀ {run : Nat} {v : ReconnectSupervisor F}, (s.supervisors ++ [({} : ReconnectSupervisor F)])[run]? = some v →
        s.supervisors[run]? = some v ∨ run = s.supervisors.length ∧ v = {} := fun {run v} hv => by
      rw [List.getElem?_append] at hv
      split at hv
      · exact .inl hv
      · obtain ⟨hlt, rfl⟩ := List.getElem?_eq_some_iff.mp hv
        simp only [List.length_singleton] at hlt
        exact .inr ⟨by omega, by simp⟩
    have hlen : (s.supervisors ++ [({} : ReconnectSupervisor F)]).length = s.supervisors.length + 1 := List.length_append
    refine ⟨fun run event hm => hlen ▸ Nat.lt_succ_of_lt (h.runs run event hm), ?_, ?_, ?_,
      fun before run n delay hl hstop => ?_, h.numbered, h.lawful⟩
    · intro run v hv hold
      obtain hv | ⟨rfl, rfl⟩ := hcases hv
      · exact h.older run v hv (.inr hstarting)
      · exact absurd (hold.resolve_right nofun) (hlen ▸ Nat.lt_irrefl _)
    · intro run v hv hlast _
      obtain hv | ⟨rfl, rfl⟩ := hcases hv
      · exact absurd (List.getElem?_eq_some_iff.mp hv).1 (Nat.succ.inj (hlast.trans hlen) ▸ Nat.lt_irrefl _)
      · rfl
    · intro run v hv hlast
      obtain hv | ⟨rfl, rfl⟩ := hcases hv
      · exact absurd (List.getElem?_eq_some_iff.mp hv).1 (Nat.succ.inj (hlast.trans hlen) ▸ Nat.lt_irrefl _)
      · intro event hm
        exact absurd (h.runs _ event hm) (Nat.lt_irrefl _)
    · rw [(h.pending before run n delay hl hstop).1] at hstarting
      cases hstarting
  · cases ht

theorem Inv.applyStop (h : s.Inv settings) {noted : Bool} {target : ComponentLifecycleState} (hactive : target.active = false)
    (hnoted : noted = false → ∀ run v, s.supervisors[run]? = some v → run + 1 = s.supervisors.length → v.pc.left) :
    (s.applyStop noted target).Inv settings := by
  have htarget : target ≠ .running ∧ target ≠ .starting := by
    constructor <;> rintro rfl <;> cases hactive
  unfold ReconnectRuns.applyStop
  split
  · -- the log ends with the stop: nothing is pending any more
    refine ⟨?_, ?_, fun _ _ _ _ hr => absurd hr htarget.1, ?_, ?_, ?_, ?_⟩
    · intro run event hm
      rw [List.mem_append, List.mem_singleton] at hm
      exact h.runs run event (hm.resolve_right nofun)
    · exact fun run v hv hold => h.older run v hv (.inl (hold.resolve_right htarget.2))
    · intro run v hv hlast
      have hcurrent := h.current run v hv hlast
      cases hpc : v.pc with
      | created =>
        rw [hpc] at hcurrent
        intro event hm
        rw [List.mem_append, List.mem_singleton] at hm
        exact hcurrent event (hm.resolve_right nofun)
      | finalizing => trivial
      | reportingError plan =>
        rw [hpc] at hcurrent
        refine ⟨ReconnectEntry.lastEvent_stopped.trans hcurrent.1, fun hp => ⟨(hcurrent.2 hp).1, fun hl => ?_⟩⟩
        simp at hl
      | announcing | connecting | terminating =>
        rw [hpc] at hcurrent
        exact ReconnectEntry.lastEvent_stopped.trans hcurrent
      | reportingFailure | tearingDown =>
        rw [hpc] at hcurrent
        exact ⟨ReconnectEntry.lastEvent_stopped.trans hcurrent.1, hcurrent.2⟩
      | scheduling | sleeping =>
        rw [hpc] at hcurrent
        obtain ⟨delay, hdelay⟩ := hcurrent
        exact ⟨delay, ReconnectEntry.lastEvent_stopped.trans hdelay⟩
    · intro before run n delay hl _
      cases (List.append_inj' hl rfl).2
    · change (s.log ++ [_]).filterMap _ = List.range' 1 s.attemptCounter
      rw [List.filterMap_append, h.numbered]
      exact List.append_nil _
    · exact ReconnectEntry.lawful_concat h.lawful trivial fun _ _ _ _ _ => .inr (.inl rfl)
  · next hquiet =>
    -- the client is not running, or its supervisor is done: no failure asks for a retry
    have hidle : ∀ {run : Nat} {v : ReconnectSupervisor F}, s.supervisors[run]? = some v →
        run + 1 = s.supervisors.length → s.lifecycle = .running → v.pc.left := fun hv hlast hrunning => by
      cases noted with
      | false => exact hnoted rfl _ _ hv hlast
      | true => exact absurd (by simp [running, hrunning, ComponentLifecycleState.active]) hquiet
    refine ⟨h.runs, fun run v hv hold => h.older run v hv (.inl (hold.resolve_right htarget.2)),
      fun _ _ _ _ hr => absurd hr htarget.1, ?_, ?_, h.numbered, h.lawful⟩
    · intro run v hv hlast
      have hcurrent := h.current run v hv hlast
      have hidle := hidle hv hlast
      cases hpc : v.pc with
      | reportingError plan =>
        rw [hpc] at hcurrent hidle
        exact ⟨hcurrent.1, fun hp => ⟨(hcurrent.2 hp).1, fun hl => absurd (hidle ((hcurrent.2 hp).2 hl)) nofun⟩⟩
      | created | announcing | connecting | terminating | reportingFailure | tearingDown | scheduling | sleeping
      | finalizing =>
        rw [hpc] at hcurrent
        exact hcurrent
    · intro before run n delay hl hstop
      obtain ⟨hrunning, hlast, v, hv, hdelay⟩ := h.pending before run n delay hl hstop
      have hleft := hidle hv hlast hrunning
      cases hpc : v.pc <;> rw [hpc] at hleft hdelay <;> contradiction

theorem Inv.terminate (h : s.Inv settings) (ht : s.terminate run = some t) : t.Inv settings := by
  unfold ReconnectRuns.terminate at ht
  split at ht
  · next hleft =>
    cases ht
    refine h.applyStop rfl fun hnoted m v hv hlast => ?_
    obtain ⟨w, hw, hleft⟩ := (Option.any_eq_true ..).mp hleft
    have hlt := (List.getElem?_eq_some_iff.mp hw).1
    obtain rfl : m = run := by
      have := of_decide_eq_false hnoted
      omega
    cases hv.symm.trans hw
    exact hleft
  · cases ht

theorem Inv.cancel (h : s.Inv settings) (ht : s.cancel run = some t) : t.Inv settings := by
  unfold ReconnectRuns.cancel at ht
  split at ht
  · cases ht
  · next hstopped =>
    cases ht
    -- a supervisor keeps its await, and is leaving if it was
    have hcases : ∀ {m : Nat} {w : ReconnectSupervisor F},
        (s.supervisors.modify run fun v => { v with cancelRequested := true })[m]? = some w →
        ∃ v, s.supervisors[m]? = some v ∧ w.pc = v.pc ∧ (v.leaving → w.leaving) ∧ (m ≠ run → w = v) :=
      fun {m w} hw => by
        rw [List.getElem?_modify, Option.map_eq_map, Option.map_eq_some_iff] at hw
        obtain ⟨v, hv, rfl⟩ := hw
        refine ⟨v, hv, ?_⟩
        split
        · next hm =>
          refine ⟨rfl, fun hl => ?_, fun hne => absurd hm.symm hne⟩
          unfold ReconnectSupervisor.leaving at hl ⊢
          simp only [Bool.or_eq_true, Bool.and_eq_true] at hl ⊢
          exact hl.imp id fun hc => ⟨trivial, hc.2⟩
        · exact ⟨rfl, id, fun _ => rfl⟩
    have hlen := s.supervisors.length_modify (fun v => { v with cancelRequested := true }) run
    refine ⟨?_, ?_, ?_, ?_, ?_, h.numbered, h.lawful⟩
    · intro m event hm
      exact hlen ▸ h.runs m event hm
    · intro m w hw hold
      obtain ⟨v, hv, -, hl, -⟩ := hcases hw
      exact hl (h.older m v hv (hlen ▸ hold))
    · intro m w hw hlast hrunning
      obtain ⟨v, hv, -, -, hne⟩ := hcases hw
      have hlast : m + 1 = s.supervisors.length := hlen ▸ hlast
      rw [hne (fun he => hstopped ⟨hrunning, he ▸ hlast⟩)]
      exact h.attended m v hv hlast hrunning
    · intro m w hw hlast
      obtain ⟨v, hv, hpc, -, -⟩ := hcases hw
      rw [hpc]
      exact h.current m v hv (hlen ▸ hlast)
    · intro before m n delay hl hstop
      obtain ⟨hrunning, hlast, v, hv, hdelay⟩ := h.pending before m n delay hl hstop
      refine ⟨hrunning, hlen.symm ▸ hlast, v, ?_, hdelay⟩
      have hne : run ≠ m := fun he => hstopped ⟨hrunning, he ▸ hlast⟩
      simp [hv, hne]

/-! ## The runs -/

section Backoff
variable [Zero F] [OfNat F 2] [Add F] [Sub F] [Mul F] [Div F] [Min F]

theorem Inv.step (h : s.Inv settings) {a : ReconnectAct F} (hreturn : s.HandlersReturn a) (hkept : s.Kept settings a)
    (ht : s.step settings reconnect a = some t) : t.Inv settings := by
  cases a with
  | start => exact h.start hkept ht
  | supervise => exact h.supervise ht
  | stop target =>
    simp only [ReconnectRuns.step] at ht
    split at ht
    · cases ht
    · next hactive =>
      cases ht
      exact h.applyStop (Bool.eq_false_iff.mpr hactive) nofun
  | terminate run => exact h.terminate ht
  | cancel run => exact h.cancel ht
  | resume run outcome draw => exact h.resume ht hreturn hkept

theorem inv_of_reachable (hs : (reconnectMachine settings reconnect).Reachable
    (fun s a => s.HandlersReturn a ∧ s.Kept settings a) s) : s.Inv settings := by
  refine hs.invariant (fun s hs => ?_) fun s a t h hok ht => h.step hok.1 hok.2 ht
  cases hs
  refine ⟨nofun, nofun, nofun, nofun, fun before run n delay hl => ?_, rfl, .nil⟩
  exact absurd hl.symm (List.append_ne_nil_of_right_ne_nil _ (List.cons_ne_nil _ _))

/-- With handlers that return, in every run in which no attempt fails under `FAIL_FAST` while a retry would be planned, no
teardown before a planned retry raises, and the client is started again only when its earlier supervisors are done with
their loop, the reconnect events follow their grammar. -/
theorem grammar_of_reachable (settings : TcpClientSettings) (reconnect : TcpReconnectSettings F) (s : ReconnectRuns F)
    (hs : (reconnectMachine settings reconnect).Reachable (fun s a => s.HandlersReturn a ∧ s.Kept settings a) s) :
    s.Grammar := by
  have h := inv_of_reachable hs
  refine ⟨h.numbered, fun before x after hl => ?_⟩
  have hlaw := h.lawful before x after hl
  cases x with
  | stopped => trivial
  | emitted run event =>
    cases event with
    | started n => exact hlaw
    | scheduled m delay => exact hlaw
    | failed n plan =>
      refine ⟨hlaw.1, fun delay hplan => ?_⟩
      subst hplan
      by_cases hstop : before.getLast? = some .stopped
      · exact .inr (.inl (.inr hstop))
      · refine (hlaw.2 delay rfl).imp id (Or.imp id fun hend => ⟨hend.1, ?_⟩)
        -- the retry is still to come: the supervisor has not left its loop
        obtain ⟨rfl, -⟩ := hend
        obtain ⟨-, -, v, hv, hdelay⟩ := h.pending before run n delay hl hstop
        refine ⟨v, hv, ?_⟩
        cases hpc : v.pc <;> rw [hpc] at hdelay <;> first | rfl | cases hdelay

end Backoff

end ReconnectRuns

/-! ## Runs that keep and that break the grammar -/

def doublingDelays : TcpReconnectSettings Nat where
  initialDelaySeconds := 1
  maxDelaySeconds := 8
  backoffFactor := 2

/-- Two attempts fail and are retried, the third connects; the client is stopped after the disconnect and started
again. -/
def twoRetries : List (ReconnectAct Nat) :=
  [.start, .supervise, .resume 0 .returned 0,
    .resume 0 .returned 0, .resume 0 .raised 0, .resume 0 .returned 0, .resume 0 .returned 0, .resume 0 .returned 0,
    .resume 0 .returned 0, .resume 0 .returned 0,
    .resume 0 .returned 0, .resume 0 .raised 0, .resume 0 .returned 0, .resume 0 .returned 0, .resume 0 .returned 0,
    .resume 0 .returned 0, .resume 0 .returned 0,
    .resume 0 .returned 0, .resume 0 .returned 0, .resume 0 .returned 0, .stop .stopping, .cancel 0,
    .resume 0 .cancelled 0, .stop .stopped, .start, .supervise, .resume 1 .returned 0]

/-- Each failure is followed by the retry it announces. -/
theorem grammar_of_twoRetries :
    ∃ s, (reconnectMachine { reconnectEnabled := true } doublingDelays).Reachable
        (fun s a => s.HandlersReturn a ∧ s.Kept { reconnectEnabled := true } a) s ∧
      (s.log = [.emitted 0 (.started 1), .emitted 0 (.failed 1 (some 1)), .emitted 0 (.scheduled 2 1),
        .emitted 0 (.started 2), .emitted 0 (.failed 2 (some 2)), .emitted 0 (.scheduled 3 2), .emitted 0 (.started 3),
        .emitted 0 (.scheduled 4 1), .stopped, .emitted 1 (.started 4)] ∧ s.Grammar) := by
  have hrun : ∃ s : ReconnectRuns Nat, (reconnectMachine { reconnectEnabled := true } doublingDelays).Reachable
      (fun s a => s.HandlersReturn a ∧ s.Kept { reconnectEnabled := true } a) s ∧
      decide (s.log = [.emitted 0 (.started 1), .emitted 0 (.failed 1 (some 1)), .emitted 0 (.scheduled 2 1),
        .emitted 0 (.started 2), .emitted 0 (.failed 2 (some 2)), .emitted 0 (.scheduled 3 2), .emitted 0 (.started 3),
        .emitted 0 (.scheduled 4 1), .stopped, .emitted 1 (.started 4)]) :=
    Runs.Machine.Reachable.exists_of_execOk rfl twoRetries _ (by decide)
  obtain ⟨s, hs, hlog⟩ := hrun
  exact ⟨s, hs, of_decide_eq_true hlog, ReconnectRuns.grammar_of_reachable _ _ s hs⟩

/-- With reconnect enabled and the policy `FAIL_FAST`, the failure event carries a delay, and the supervisor leaves its
loop without a retry. -/
theorem not_grammar_of_failFast :
    ¬ ∀ (settings : TcpClientSettings) (reconnect : TcpReconnectSettings Nat) (s : ReconnectRuns Nat),
      (reconnectMachine settings reconnect).Reachable ReconnectRuns.HandlersReturn s → s.Grammar := by
  intro h
  have hrun : ∃ s : ReconnectRuns Nat, (reconnectMachine
      { reconnectEnabled := true, errorPolicy := some .failFast } doublingDelays).Reachable
      ReconnectRuns.HandlersReturn s ∧
      decide (s.log = [.emitted 0 (.started 1), .emitted 0 (.failed 1 (some 1))] ∧
        s.supervisors = [{ pc := .finalizing }]) :=
    Runs.Machine.Reachable.exists_of_execOk rfl
      [.start, .supervise, .resume 0 .returned 0, .resume 0 .returned 0, .resume 0 .raised 0, .resume 0 .returned 0,
        .resume 0 .returned 0, .resume 0 .returned 0] _ (by decide)
  obtain ⟨s, hs, hend⟩ := hrun
  obtain ⟨hlog, hsup⟩ := of_decide_eq_true hend
  have hlaw := (h _ _ s hs).lawful [.emitted 0 (.started 1)] _ [] hlog
  rcases hlaw.2 1 rfl with hnext | (hnext | hnext) | ⟨-, v, hv, hleft⟩
  · cases hnext
  · cases hnext
  · cases hnext
  · rw [hsup] at hv
    cases hv
    cases hleft

end Aionetx
