import Mathlib.Algebra.Order.Field.Basic
import Mathlib.Data.List.Induction
import Mathlib.Tactic.Linarith
import Aionetx.Client.Reconnects

/-!
# The backoff law

The delays that supervision asks of its `ReconnectBackoff`, over any linearly ordered field.

* `TcpReconnectSettings.Valid` : the bounds that `validate` checks;
* `TcpReconnectSettings.delayAt` : the closed form, `TcpReconnectSettings.currentDelayAt`, `TcpReconnectSettings.advance` : the
  recurrence;
* `BackoffEntry`, `ReconnectRuns.observe`, `backoffMachine` : the machine of the reconnect events with the record of its
  plans and connects;
* `BackoffRuns.Law`, `BackoffRuns.law_of_reachable`.
-/

namespace Aionetx

/-! ## The settings -/

variable {F : Type} [Field F] [LinearOrder F] [IsStrictOrderedRing F]

structure TcpReconnectSettings.Valid (reconnect : TcpReconnectSettings F) : Prop where
  initial_pos : 0 < reconnect.initialDelaySeconds
  initial_le_max : reconnect.initialDelaySeconds ≤ reconnect.maxDelaySeconds
  one_le_factor : 1 ≤ reconnect.backoffFactor

/-! ## The recurrence and its closed form -/

/-- The delay of the plan number `k` after a reset. -/
def TcpReconnectSettings.delayAt (reconnect : TcpReconnectSettings F) (k : Nat) : F :=
  min (reconnect.initialDelaySeconds * reconnect.backoffFactor ^ k) reconnect.maxDelaySeconds

namespace TcpReconnectSettings
variable {reconnect : TcpReconnectSettings F}

omit [IsStrictOrderedRing F] in
theorem delayAt_zero (h : reconnect.Valid) : reconnect.delayAt 0 = reconnect.initialDelaySeconds := by
  rw [delayAt, pow_zero, mul_one, min_eq_left h.initial_le_max]

omit [IsStrictOrderedRing F] in
theorem delayAt_le_max (k : Nat) : reconnect.delayAt k ≤ reconnect.maxDelaySeconds := min_le_right _ _

/-- One step of the recurrence: the clamp is applied before the multiplication, and a factor of at least one does not
undo it. -/
theorem delayAt_succ (h : reconnect.Valid) (k : Nat) :
    reconnect.delayAt (k + 1) = min (reconnect.delayAt k * reconnect.backoffFactor) reconnect.maxDelaySeconds := by
  have hfactor : 0 ≤ reconnect.backoffFactor := zero_le_one.trans h.one_le_factor
  have hmax : 0 ≤ reconnect.maxDelaySeconds := h.initial_pos.le.trans h.initial_le_max
  have hclamp : reconnect.maxDelaySeconds ≤ reconnect.maxDelaySeconds * reconnect.backoffFactor :=
    le_mul_of_one_le_right hmax h.one_le_factor
  calc reconnect.delayAt (k + 1)
      = min (reconnect.initialDelaySeconds * reconnect.backoffFactor ^ k * reconnect.backoffFactor)
          reconnect.maxDelaySeconds := by rw [delayAt, pow_succ, mul_assoc]
    _ = min (min (reconnect.initialDelaySeconds * reconnect.backoffFactor ^ k * reconnect.backoffFactor)
          (reconnect.maxDelaySeconds * reconnect.backoffFactor)) reconnect.maxDelaySeconds := by
        rw [min_assoc, min_eq_right hclamp]
    _ = min (reconnect.delayAt k * reconnect.backoffFactor) reconnect.maxDelaySeconds := by
        rw [delayAt, min_mul_of_nonneg _ _ hfactor]

theorem monotone_delayAt (h : reconnect.Valid) : Monotone reconnect.delayAt := by
  refine monotone_nat_of_le_succ fun k => ?_
  refine min_le_min_right _ (mul_le_mul_of_nonneg_left ?_ h.initial_pos.le)
  exact pow_le_pow_right₀ h.one_le_factor (Nat.le_succ k)

theorem delayAt_pos (h : reconnect.Valid) (k : Nat) : 0 < reconnect.delayAt k := by
  have hfactor : 0 < reconnect.backoffFactor := zero_lt_one.trans_le h.one_le_factor
  exact lt_min (mul_pos h.initial_pos (pow_pos hfactor k)) (h.initial_pos.trans_le h.initial_le_max)

/-- `_current_delay` after `k` calls of `next_delay()` without a reset, whatever the settings. -/
def currentDelayAt (reconnect : TcpReconnectSettings F) : Nat → F
  | 0 => reconnect.initialDelaySeconds
  | k + 1 => (nextDelay reconnect (reconnect.currentDelayAt k) 0).2

theorem currentDelayAt_eq (h : reconnect.Valid) (k : Nat) : reconnect.currentDelayAt k = reconnect.delayAt k := by
  induction k with
  | zero => exact (delayAt_zero h).symm
  | succ k ih =>
    show min (reconnect.currentDelayAt k * reconnect.backoffFactor) reconnect.maxDelaySeconds = _
    rw [ih, delayAt_succ h]

end TcpReconnectSettings

/-! ## The jitter -/

/-- The range that a jitter leaves to the returned delay. -/
def ReconnectJitter.Allows (jitter : ReconnectJitter) (delay returned : F) : Prop :=
  match jitter with
  | .none => returned = delay
  | .full => 0 ≤ returned ∧ returned ≤ delay
  | .equal => delay / 2 ≤ returned ∧ returned ≤ delay

/-- `random.uniform(a, b)` lies between its bounds. -/
theorem uniform_mem {a b draw : F} (hab : a ≤ b) (h0 : 0 ≤ draw) (h1 : draw ≤ 1) :
    a ≤ uniform a b draw ∧ uniform a b draw ≤ b := by
  have hwidth : 0 ≤ b - a := sub_nonneg.mpr hab
  have hlow : 0 ≤ (b - a) * draw := mul_nonneg hwidth h0
  have hhigh : (b - a) * draw ≤ b - a := mul_le_of_le_one_right hwidth h1
  unfold uniform
  exact ⟨by linarith, by linarith⟩

theorem allows_applyJitter (reconnect : TcpReconnectSettings F) {delay draw : F} (hdelay : 0 ≤ delay) (h0 : 0 ≤ draw)
    (h1 : draw ≤ 1) : reconnect.jitter.Allows delay (applyJitter reconnect delay draw) := by
  unfold ReconnectJitter.Allows applyJitter
  cases reconnect.jitter with
  | none => rfl
  | full => exact uniform_mem hdelay h0 h1
  | equal =>
    obtain ⟨hlow, hhigh⟩ := uniform_mem (div_nonneg hdelay zero_le_two) h0 h1
    refine ⟨le_add_of_nonneg_right hlow, ?_⟩
    calc delay / 2 + uniform 0 (delay / 2) draw
        ≤ delay / 2 + delay / 2 := add_le_add_right hhigh _
      _ = delay := add_halves delay

/-! ## What supervision asks of the backoff -/

/-- A step of supervision, as the backoff sees it: a successful connect, or a planned reconnect with the delay before the
jitter and the one returned. -/
inductive BackoffEntry (F : Type)
  | connected
  | planned (delay returned : F)
  deriving DecidableEq, Repr

def plansSinceReset (history : List (BackoffEntry F)) : Nat :=
  history.foldl (fun k entry => match entry with | .connected => 0 | .planned _ _ => k + 1) 0

omit [Field F] [LinearOrder F] [IsStrictOrderedRing F] in
@[simp] theorem plansSinceReset_connected (history : List (BackoffEntry F)) :
    plansSinceReset (history ++ [.connected]) = 0 := by
  rw [plansSinceReset, List.foldl_append]
  rfl

omit [Field F] [LinearOrder F] [IsStrictOrderedRing F] in
@[simp] theorem plansSinceReset_planned (history : List (BackoffEntry F)) (delay returned : F) :
    plansSinceReset (history ++ [.planned delay returned]) = plansSinceReset history + 1 := by
  rw [plansSinceReset, List.foldl_append]
  rfl

omit [Field F] [LinearOrder F] [IsStrictOrderedRing F] in
theorem plansSinceReset_append (history : List (BackoffEntry F)) {entries : List (BackoffEntry F)}
    (h : .connected ∉ entries) : plansSinceReset (history ++ entries) = plansSinceReset history + entries.length := by
  induction entries using List.reverseRecOn with
  | nil => simp
  | append_singleton entries entry ih =>
    rw [List.mem_append, List.mem_singleton, not_or] at h
    cases entry with
    | connected => exact absurd rfl h.2
    | planned delay returned =>
      rw [← List.append_assoc, plansSinceReset_planned, ih h.1, List.length_append]
      rfl

/-- What an entry does to `_current_delay`: `reset()`, or one step of `next_delay()`. -/
def TcpReconnectSettings.advance (reconnect : TcpReconnectSettings F) (currentDelay : F) : BackoffEntry F → F
  | .connected => reconnect.initialDelaySeconds
  | .planned _ _ => min (currentDelay * reconnect.backoffFactor) reconnect.maxDelaySeconds

/-- The history determines `_current_delay`. -/
theorem TcpReconnectSettings.foldl_advance {reconnect : TcpReconnectSettings F} (h : reconnect.Valid)
    (history : List (BackoffEntry F)) :
    history.foldl reconnect.advance reconnect.initialDelaySeconds = reconnect.delayAt (plansSinceReset history) := by
  induction history using List.reverseRecOn with
  | nil => exact (delayAt_zero h).symm
  | append_singleton history entry ih =>
    rw [List.foldl_append, ih]
    cases entry with
    | connected => exact (plansSinceReset_connected history).symm ▸ (delayAt_zero h).symm
    | planned delay returned => rw [plansSinceReset_planned, delayAt_succ h]; rfl

/-- The supervisor plans a reconnect when its await ends so: `_handle_connect_cycle_failure` or
`_schedule_reconnect_after_disconnect`. -/
def ReconnectPc.plansReconnect : ReconnectPc F → Outcome → Bool
  | .announcing, .raised | .connecting, .raised | .scheduling false, .raised | .terminating, .returned => true
  | _, _ => false

def ReconnectPc.connects : ReconnectPc F → Outcome → Bool
  | .connecting, .returned => true
  | _, _ => false

namespace ReconnectRuns
variable (settings : TcpClientSettings) (reconnect : TcpReconnectSettings F) (s : ReconnectRuns F)

def observeTurn (pc : ReconnectPc F) (outcome : Outcome) (draw : F) : List (BackoffEntry F) :=
  if pc.plansReconnect outcome then
    ((s.planReconnect settings reconnect draw).2.map (BackoffEntry.planned s.currentDelay)).toList
  else if pc.connects outcome && s.running then [.connected]
  else []

def observe : ReconnectAct F → List (BackoffEntry F)
  | .resume run outcome draw =>
    match s.supervisors[run]? with
    | some v => s.observeTurn settings reconnect v.pc outcome draw
    | none => []
  | _ => []

end ReconnectRuns

structure BackoffRuns (F : Type) where
  client : ReconnectRuns F
  history : List (BackoffEntry F) := []

def backoffMachine (settings : TcpClientSettings) (reconnect : TcpReconnectSettings F) :
    Runs.Machine (BackoffRuns F) (ReconnectAct F) where
  init b := b = { client := { currentDelay := reconnect.initialDelaySeconds } }
  step b a := (b.client.step settings reconnect a).map fun client =>
    { client, history := b.history ++ b.client.observe settings reconnect a }

/-! ## The law -/

def ReconnectEvent.delay? : ReconnectEvent F → Option F
  | .started _ => none
  | .failed _ nextDelaySeconds => nextDelaySeconds
  | .scheduled _ delaySeconds => some delaySeconds

namespace BackoffRuns

/-- The backoff law: the closed form of the delay of each plan, what follows from it for neighbouring entries, the bounds
of the jitter, one step of the backoff for each plan and none besides, and no delay in an event but a planned one. -/
structure Law (reconnect : TcpReconnectSettings F) (b : BackoffRuns F) : Prop where
  closedForm : ∀ before delay returned after, b.history = before ++ .planned delay returned :: after →
    delay = reconnect.delayAt (plansSinceReset before)
  ascending : ∀ before delay returned between delay' returned' after,
    b.history = before ++ .planned delay returned :: (between ++ .planned delay' returned' :: after) →
      .connected ∉ between → delay ≤ delay'
  restarts : ∀ before delay returned after, b.history = before ++ .connected :: .planned delay returned :: after →
    delay = reconnect.initialDelaySeconds
  bounded : ∀ delay returned, .planned delay returned ∈ b.history → delay ≤ reconnect.maxDelaySeconds
  jittered : ∀ delay returned, .planned delay returned ∈ b.history → reconnect.jitter.Allows delay returned
  oneStep : b.client.currentDelay = b.history.foldl reconnect.advance reconnect.initialDelaySeconds
  emitted : ∀ run event delay, .emitted run event ∈ b.client.log → event.delay? = some delay →
    ∃ d, .planned d delay ∈ b.history

def Drawn (_ : BackoffRuns F) : ReconnectAct F → Prop
  | .resume _ _ draw => 0 ≤ draw ∧ draw ≤ 1
  | _ => True

end BackoffRuns

/-! ## The steps of a supervisor -/

/-- The planned delay that a suspended supervisor carries. -/
def ReconnectPc.plan? : ReconnectPc F → ReconnectPlan F
  | .reportingError plan | .reportingFailure plan | .tearingDown plan => plan
  | _ => none

namespace ReconnectRuns
variable {settings : TcpClientSettings} {reconnect : TcpReconnectSettings F} {s t : ReconnectRuns F} {run : Nat}
variable {P : F → Prop} {plan : ReconnectPlan F} {pc : ReconnectPc F} {outcome : Outcome} {draw : F}

/-- The backoff and the supervisors are left alone, and a delay that is emitted or kept is one of `P`. -/
structure Passes (P : F → Prop) (s : ReconnectRuns F) (r : ReconnectRuns F × ReconnectPc F) : Prop where
  currentDelay : r.1.currentDelay = s.currentDelay
  supervisors : r.1.supervisors = s.supervisors
  log : ∀ run event delay, .emitted run event ∈ r.1.log → event.delay? = some delay → .emitted run event ∈ s.log ∨ P delay
  plan : ∀ delay, r.2.plan? = some delay → P delay

section Passing
omit [Field F] [LinearOrder F] [IsStrictOrderedRing F]

theorem Passes.quiet {pc : ReconnectPc F} (hdelay : t.currentDelay = s.currentDelay)
    (hsupervisors : t.supervisors = s.supervisors) (hlog : t.log = s.log)
    (hpc : ∀ delay, pc.plan? = some delay → P delay) : Passes P s (t, pc) :=
  ⟨hdelay, hsupervisors, fun _ _ _ he _ => .inl (hlog ▸ he), hpc⟩

theorem Passes.finalizing : Passes P s (s, .finalizing) := .quiet rfl rfl rfl nofun

theorem Passes.emit {event : ReconnectEvent F} {pc : ReconnectPc F} (hdelay : t.currentDelay = s.currentDelay)
    (hsupervisors : t.supervisors = s.supervisors) (hlog : t.log = s.log ++ [.emitted run event]) (hevent : ∀ delay, event.delay? = some delay → P delay)
    (hpc : ∀ delay, pc.plan? = some delay → P delay) : Passes P s (t, pc) := by
  refine ⟨hdelay, hsupervisors, fun m e delay he hd => ?_, hpc⟩
  rw [hlog, List.mem_append, List.mem_singleton] at he
  rcases he with he | he
  · exact .inl he
  · cases he
    exact .inr (hevent delay hd)

theorem passes_startConnectAttempt : Passes P s (s.startConnectAttempt run) := by
  unfold startConnectAttempt
  split
  · exact .emit rfl rfl rfl nofun nofun
  · exact .finalizing

theorem passes_sleepUntilNextReconnect (handling : Bool) (hplan : ∀ delay, plan = some delay → P delay) :
    Passes P s (s.sleepUntilNextReconnect settings run handling plan) := by
  unfold sleepUntilNextReconnect
  split
  · exact .finalizing
  · next delay =>
    split
    · exact .emit rfl rfl rfl (fun d hd => hplan d hd) nofun
    · exact .finalizing

theorem passes_emitFailure (hplan : ∀ delay, plan = some delay → P delay) : Passes P s (s.emitFailure run plan) :=
  .emit rfl rfl rfl (fun d hd => hplan d hd) hplan

theorem passes_afterTeardown (hplan : ∀ delay, plan = some delay → P delay) :
    Passes P s (s.afterTeardown settings run plan) := by
  unfold afterTeardown
  split
  · exact .finalizing
  · exact passes_sleepUntilNextReconnect true hplan

end Passing

/-! ## One segment -/

omit [IsStrictOrderedRing F] in
/-- A plan is one step of the backoff, and nothing else. -/
theorem planReconnect_advances (settings : TcpClientSettings) (reconnect : TcpReconnectSettings F) (s : ReconnectRuns F) (draw : F) :
    (s.planReconnect settings reconnect draw).1.supervisors = s.supervisors ∧
      (s.planReconnect settings reconnect draw).1.log = s.log ∧
      (s.planReconnect settings reconnect draw).1.currentDelay =
        ((s.planReconnect settings reconnect draw).2.map (BackoffEntry.planned s.currentDelay)).toList.foldl
          reconnect.advance s.currentDelay := by
  unfold planReconnect
  split
  · exact ⟨rfl, rfl, rfl⟩
  · exact ⟨rfl, rfl, rfl⟩

/-- The delay that is returned is the current one up to the jitter. -/
theorem allows_planReconnect (hdelay : 0 ≤ s.currentDelay) (h0 : 0 ≤ draw) (h1 : draw ≤ 1)
    {returned : F} (h : (s.planReconnect settings reconnect draw).2 = some returned) :
    reconnect.jitter.Allows s.currentDelay returned := by
  unfold planReconnect at h
  split at h
  · cases h
  · cases h
    exact allows_applyJitter reconnect hdelay h0 h1

omit [IsStrictOrderedRing F]

/-- The delay of a segment: it is planned in the segment, or the supervisor carries it. -/
def Sourced (entries : List (BackoffEntry F)) (pc : ReconnectPc F) (delay : F) : Prop :=
  pc.plan? = some delay ∨ ∃ d, .planned d delay ∈ entries

/-- What a segment does: the backoff follows the entry of the segment, and the delays have a source. -/
structure Turned (reconnect : TcpReconnectSettings F) (s : ReconnectRuns F) (pc : ReconnectPc F)
    (entries : List (BackoffEntry F)) (r : ReconnectRuns F × ReconnectPc F) : Prop where
  currentDelay : r.1.currentDelay = entries.foldl reconnect.advance s.currentDelay
  supervisors : r.1.supervisors = s.supervisors
  log : ∀ run event delay, .emitted run event ∈ r.1.log → event.delay? = some delay →
    .emitted run event ∈ s.log ∨ Sourced entries pc delay
  plan : ∀ delay, r.2.plan? = some delay → Sourced entries pc delay

theorem Turned.of_passes {entries : List (BackoffEntry F)} {r : ReconnectRuns F × ReconnectPc F}
    (hdelay : t.currentDelay = entries.foldl reconnect.advance s.currentDelay)
    (hsupervisors : t.supervisors = s.supervisors) (hlog : t.log = s.log) (h : Passes (Sourced entries pc) t r) :
    Turned reconnect s pc entries r :=
  ⟨h.currentDelay.trans hdelay, h.supervisors.trans hsupervisors, hlog ▸ h.log, h.plan⟩

theorem turned_planned {f : ReconnectRuns F × ReconnectPlan F → ReconnectRuns F × ReconnectPc F}
    (hpc : pc.plansReconnect outcome = true)
    (hf : ∀ t plan, (∀ P : F → Prop, (∀ delay, plan = some delay → P delay) → Passes P t (f (t, plan)))) :
    Turned reconnect s pc (s.observeTurn settings reconnect pc outcome draw)
      (f (s.planReconnect settings reconnect draw)) := by
  obtain ⟨hsupervisors, hlog, hdelay⟩ := planReconnect_advances settings reconnect s draw
  unfold observeTurn
  rw [if_pos hpc]
  refine .of_passes hdelay hsupervisors hlog (hf _ (s.planReconnect settings reconnect draw).2 _ fun delay hplan => .inr ⟨s.currentDelay, ?_⟩)
  rw [hplan]
  exact List.mem_singleton_self _

theorem turned_handleConnectCycleFailure (hpc : pc.plansReconnect outcome = true) :
    Turned reconnect s pc (s.observeTurn settings reconnect pc outcome draw)
      (s.handleConnectCycleFailure settings reconnect run draw) := by
  refine turned_planned (f := fun r => if settings.resolveErrorPolicy = .ignore then r.1.emitFailure run r.2 else
    (r.1, .reportingError r.2)) hpc fun t plan P hplan => ?_
  dsimp only
  split
  · exact passes_emitFailure hplan
  · exact .quiet rfl rfl rfl hplan

theorem turned_scheduleReconnectAfterDisconnect (hpc : pc.plansReconnect outcome = true) :
    Turned reconnect s pc (s.observeTurn settings reconnect pc outcome draw)
      (s.scheduleReconnectAfterDisconnect settings reconnect run draw) :=
  turned_planned (f := fun r => r.1.sleepUntilNextReconnect settings run false r.2) hpc fun _ _ _ hplan =>
    passes_sleepUntilNextReconnect false hplan

/-- A segment that asks nothing of the backoff. -/
theorem turned_quiet {r : ReconnectRuns F × ReconnectPc F} (hplans : pc.plansReconnect outcome = false)
    (hconnects : pc.connects outcome = false) (h : Passes (Sourced [] pc) s r) :
    Turned reconnect s pc (s.observeTurn settings reconnect pc outcome draw) r := by
  unfold observeTurn
  rw [hplans, hconnects]
  exact .of_passes rfl rfl rfl h

theorem turned (settings : TcpClientSettings) (reconnect : TcpReconnectSettings F) (s : ReconnectRuns F) (run : Nat) (pc : ReconnectPc F) (outcome : Outcome) (draw : F) :
    Turned reconnect s pc (s.observeTurn settings reconnect pc outcome draw)
      (s.turn settings reconnect run draw pc outcome) := by
  cases pc with
  | created =>
    cases outcome with
    | returned => exact turned_quiet rfl rfl passes_startConnectAttempt
    | raised | cancelled => exact turned_quiet rfl rfl .finalizing
  | announcing =>
    cases outcome with
    | returned =>
      refine turned_quiet rfl rfl ?_
      simp only [turn]
      split
      · exact .quiet rfl rfl rfl nofun
      · exact .finalizing
    | raised => exact turned_handleConnectCycleFailure rfl
    | cancelled => exact turned_quiet rfl rfl .finalizing
  | connecting =>
    cases outcome with
    | returned =>
      simp only [turn, observeTurn, ReconnectPc.plansReconnect, ReconnectPc.connects, Bool.true_and]
      by_cases hrunning : s.running = true
      · rw [if_pos hrunning, if_pos hrunning]
        exact .of_passes (t := { s with currentDelay := reconnect.initialDelaySeconds }) rfl rfl rfl
          (.quiet rfl rfl rfl (fun _ h => nomatch h))
      · rw [if_neg hrunning, if_neg hrunning]
        exact .of_passes rfl rfl rfl .finalizing
    | raised => exact turned_handleConnectCycleFailure rfl
    | cancelled => exact turned_quiet rfl rfl .finalizing
  | terminating =>
    cases outcome with
    | returned => exact turned_scheduleReconnectAfterDisconnect rfl
    | raised | cancelled => exact turned_quiet rfl rfl .finalizing
  | reportingError plan =>
    cases outcome with
    | returned => exact turned_quiet rfl rfl (passes_emitFailure fun delay hplan => .inl hplan)
    | raised | cancelled => exact turned_quiet rfl rfl .finalizing
  | reportingFailure plan =>
    cases outcome with
    | returned => exact turned_quiet rfl rfl (.quiet rfl rfl rfl fun delay hplan => .inl hplan)
    | raised | cancelled => exact turned_quiet rfl rfl .finalizing
  | tearingDown plan =>
    cases outcome with
    | returned => exact turned_quiet rfl rfl (passes_afterTeardown fun delay hplan => .inl hplan)
    | raised | cancelled => exact turned_quiet rfl rfl .finalizing
  | scheduling handling =>
    cases outcome with
    | returned =>
      refine turned_quiet (by cases handling <;> rfl) rfl ?_
      simp only [turn]
      split
      · exact .quiet rfl rfl rfl nofun
      · exact .finalizing
    | raised =>
      cases handling with
      | false => exact turned_handleConnectCycleFailure rfl
      | true => exact turned_quiet rfl rfl .finalizing
    | cancelled => exact turned_quiet (by cases handling <;> rfl) rfl .finalizing
  | sleeping =>
    cases outcome with
    | returned =>
      refine turned_quiet rfl rfl ?_
      simp only [turn]
      split
      · exact passes_startConnectAttempt
      · exact .finalizing
    | raised | cancelled => exact turned_quiet rfl rfl .finalizing
  | finalizing => cases outcome <;> exact turned_quiet rfl rfl .finalizing

end ReconnectRuns

/-! ## Runs -/

/-- A plan asks for the delay that the closed form gives, and the delay returned is within the jitter. -/
def TcpReconnectSettings.PlanLaw (reconnect : TcpReconnectSettings F) (before : List (BackoffEntry F))
    (entry : BackoffEntry F) (_ : List (BackoffEntry F)) : Prop :=
  match entry with
  | .connected => True
  | .planned delay returned =>
    delay = reconnect.delayAt (plansSinceReset before) ∧ reconnect.jitter.Allows delay returned

namespace BackoffRuns
variable {settings : TcpClientSettings} {reconnect : TcpReconnectSettings F} {b b' : BackoffRuns F}

def Returned (b : BackoffRuns F) (delay : F) : Prop := ∃ d, .planned d delay ∈ b.history

/-- The history has the law and determines the current delay; what supervisors carry and have emitted was returned. -/
structure Inv (reconnect : TcpReconnectSettings F) (b : BackoffRuns F) : Prop where
  oneStep : b.client.currentDelay = b.history.foldl reconnect.advance reconnect.initialDelaySeconds
  lawful : Runs.Everywhere reconnect.PlanLaw b.history
  plans : ∀ (run : Nat) (v : ReconnectSupervisor F) delay, b.client.supervisors[run]? = some v → v.pc.plan? = some delay → b.Returned delay
  emitted : ∀ run event delay, .emitted run event ∈ b.client.log → event.delay? = some delay → b.Returned delay

theorem Inv.currentDelay (h : b.Inv reconnect) (hvalid : reconnect.Valid) :
    b.client.currentDelay = reconnect.delayAt (plansSinceReset b.history) :=
  h.oneStep.trans (TcpReconnectSettings.foldl_advance hvalid b.history)

omit [IsStrictOrderedRing F] in
theorem observeTurn_cases (settings : TcpClientSettings) (reconnect : TcpReconnectSettings F) (s : ReconnectRuns F) (pc : ReconnectPc F) (outcome : Outcome) (draw : F) :
    s.observeTurn settings reconnect pc outcome draw = [] ∨
      s.observeTurn settings reconnect pc outcome draw = [.connected] ∨
        ∃ returned, s.observeTurn settings reconnect pc outcome draw = [.planned s.currentDelay returned] ∧
          (s.planReconnect settings reconnect draw).2 = some returned := by
  unfold ReconnectRuns.observeTurn
  split
  · cases hplan : (s.planReconnect settings reconnect draw).2 with
    | none => exact .inl rfl
    | some returned => exact .inr (.inr ⟨returned, rfl, rfl⟩)
  · split
    · exact .inr (.inl rfl)
    · exact .inl rfl

theorem Inv.lawful_append (h : b.Inv reconnect) (hvalid : reconnect.Valid) {pc : ReconnectPc F} {outcome : Outcome}
    {draw : F} (hdraw : 0 ≤ draw ∧ draw ≤ 1) :
    Runs.Everywhere reconnect.PlanLaw (b.history ++ b.client.observeTurn settings reconnect pc outcome draw) := by
  have hkeep : ∀ before x after, reconnect.PlanLaw before x after → ∀ e, reconnect.PlanLaw before x (after ++ [e]) :=
    fun _ _ _ hx _ => hx
  rcases observeTurn_cases settings reconnect b.client pc outcome draw with
    he | he | ⟨returned, he, hplan⟩
  · rw [he, List.append_nil]
    exact h.lawful
  · rw [he]
    exact h.lawful.concat trivial fun before x after _ hx => hkeep before x after hx _
  · rw [he]
    have hcurrent := h.currentDelay hvalid
    have hnonneg : 0 ≤ b.client.currentDelay := hcurrent ▸ (TcpReconnectSettings.delayAt_pos hvalid _).le
    refine h.lawful.concat ⟨hcurrent, ?_⟩ fun before x after _ hx => hkeep before x after hx _
    exact ReconnectRuns.allows_planReconnect hnonneg hdraw.1 hdraw.2 hplan

omit [IsStrictOrderedRing F] in
theorem Inv.quiet (h : b.Inv reconnect) (hhistory : b'.history = b.history)
    (hdelay : b'.client.currentDelay = b.client.currentDelay)
    (hplans : ∀ (run : Nat) (v : ReconnectSupervisor F) delay, b'.client.supervisors[run]? = some v → v.pc.plan? = some delay →
      ∃ w : ReconnectSupervisor F, b.client.supervisors[run]? = some w ∧ w.pc.plan? = some delay)
    (hlog : ∀ run event, .emitted run event ∈ b'.client.log → .emitted run event ∈ b.client.log) : b'.Inv reconnect := by
  refine ⟨?_, hhistory ▸ h.lawful, fun run v delay hv hdelay => ?_, fun run event delay he hd => ?_⟩
  · rw [hdelay, hhistory]
    exact h.oneStep
  · obtain ⟨w, hw, hwdelay⟩ := hplans run v delay hv hdelay
    unfold Returned
    rw [hhistory]
    exact h.plans run w delay hw hwdelay
  · unfold Returned
    rw [hhistory]
    exact h.emitted run event delay (hlog run event he) hd

omit [Field F] [LinearOrder F] [IsStrictOrderedRing F] in
theorem mem_log_applyStop {s : ReconnectRuns F} {noted : Bool} {target : ComponentLifecycleState} {run : Nat}
    {event : ReconnectEvent F} (h : .emitted run event ∈ (s.applyStop noted target).log) :
    .emitted run event ∈ s.log := by
  unfold ReconnectRuns.applyStop at h
  dsimp only at h
  split at h
  · simpa using h
  · exact h

theorem Inv.resume (settings : TcpClientSettings) (h : b.Inv reconnect) (hvalid : reconnect.Valid) {run : Nat} {outcome : Outcome} {draw : F}
    (hdraw : 0 ≤ draw ∧ draw ≤ 1) {v : ReconnectSupervisor F} (hv : b.client.supervisors[run]? = some v)
    (hdelay : b'.client.currentDelay = (b.client.turn settings reconnect run draw v.pc outcome).1.currentDelay)
    (hlog : b'.client.log = (b.client.turn settings reconnect run draw v.pc outcome).1.log)
    (hsupervisors : b'.client.supervisors =
      b.client.supervisors.set run { pc := (b.client.turn settings reconnect run draw v.pc outcome).2 })
    (hhistory : b'.history = b.history ++ b.client.observeTurn settings reconnect v.pc outcome draw) :
    b'.Inv reconnect := by
  have hturn := ReconnectRuns.turned settings reconnect b.client run v.pc outcome draw
  have hold : ∀ delay, b.Returned delay → b'.Returned delay := by
    rintro delay ⟨d, hd⟩
    exact ⟨d, hhistory ▸ List.mem_append_left _ hd⟩
  have hsourced : ∀ delay, ReconnectRuns.Sourced (b.client.observeTurn settings reconnect v.pc outcome draw) v.pc delay →
      b'.Returned delay := by
    rintro delay (hpc | ⟨d, hd⟩)
    · exact hold delay (h.plans run v delay hv hpc)
    · exact ⟨d, hhistory ▸ List.mem_append_right _ hd⟩
  refine ⟨?_, hhistory ▸ h.lawful_append hvalid hdraw, fun m w delay hw hdelay => ?_, fun m event delay he hd => ?_⟩
  · rw [hdelay, hhistory, List.foldl_append, ← h.oneStep]
    exact hturn.currentDelay
  · rw [hsupervisors, List.getElem?_set] at hw
    split at hw
    · split at hw
      · cases hw
        exact hsourced delay (hturn.plan delay hdelay)
      · cases hw
    · exact hold delay (h.plans m w delay hw hdelay)
  · rw [hlog] at he
    exact (hturn.log m event delay he hd).elim (fun he => hold delay (h.emitted m event delay he hd)) (hsourced delay)

theorem Inv.step {a : ReconnectAct F} (h : b.Inv reconnect) (hvalid : reconnect.Valid) (hdrawn : b.Drawn a)
    (hstep : (backoffMachine settings reconnect).step b a = some b') : b'.Inv reconnect := by
  obtain ⟨client, hclient, rfl⟩ := Option.map_eq_some_iff.mp hstep
  cases a with
  | start =>
    simp only [ReconnectRuns.step, ReconnectRuns.start] at hclient
    split at hclient
    · cases hclient
    · cases hclient
      exact h.quiet (List.append_nil _) rfl (fun run v delay hv hd => ⟨v, hv, hd⟩) fun _ _ he => he
  | supervise =>
    simp only [ReconnectRuns.step, ReconnectRuns.supervise] at hclient
    split at hclient
    · cases hclient
      refine h.quiet (List.append_nil _) rfl (fun run v delay hv hd => ?_) fun _ _ he => he
      change (b.client.supervisors ++ [_])[run]? = some v at hv
      rw [List.getElem?_append] at hv
      split at hv
      · exact ⟨v, hv, hd⟩
      · obtain rfl : v = {} := List.mem_singleton.mp (List.mem_of_getElem? hv)
        cases hd
    · cases hclient
  | stop target =>
    simp only [ReconnectRuns.step] at hclient
    split at hclient
    · cases hclient
    · cases hclient
      exact h.quiet (List.append_nil _) rfl (fun run v delay hv hd => ⟨v, hv, hd⟩) fun _ _ => mem_log_applyStop
  | terminate run =>
    simp only [ReconnectRuns.step, ReconnectRuns.terminate] at hclient
    split at hclient
    · cases hclient
      exact h.quiet (List.append_nil _) rfl (fun run v delay hv hd => ⟨v, hv, hd⟩) fun _ _ => mem_log_applyStop
    · cases hclient
  | cancel run =>
    simp only [ReconnectRuns.step, ReconnectRuns.cancel] at hclient
    split at hclient
    · cases hclient
    · cases hclient
      refine h.quiet (List.append_nil _) rfl (fun m v delay hv hd => ?_) fun _ _ he => he
      change (List.modify _ run _)[m]? = some v at hv
      rw [List.getElem?_modify] at hv
      obtain ⟨w, hw, rfl⟩ := Option.map_eq_some_iff.mp hv
      refine ⟨w, hw, ?_⟩
      split at hd
      · exact hd
      · exact hd
  | resume run outcome draw =>
    simp only [ReconnectRuns.step, ReconnectRuns.resume] at hclient
    split at hclient
    · cases hclient
    · next v hv =>
      split at hclient
      · cases hclient
        have hturn := ReconnectRuns.turned settings reconnect b.client run v.pc outcome draw
        refine h.resume settings hvalid hdrawn hv rfl rfl ?_ (by simp only [ReconnectRuns.observe, hv])
        exact congrArg (fun l => List.set l run _) hturn.supervisors
      · cases hclient

theorem Inv.law (h : b.Inv reconnect) (hvalid : reconnect.Valid) : b.Law reconnect := by
  have hclosed : ∀ before delay returned after, b.history = before ++ .planned delay returned :: after →
      delay = reconnect.delayAt (plansSinceReset before) :=
    fun before delay returned after he => (h.lawful before _ after he).1
  refine ⟨hclosed, ?_, ?_, ?_, ?_, h.oneStep, h.emitted⟩
  · intro before delay returned between delay' returned' after he hbetween
    have hfirst := hclosed before delay returned _ he
    have hsecond := hclosed (before ++ .planned delay returned :: between) delay' returned' after (by rw [he]; simp)
    rw [plansSinceReset_append _ (by simpa using hbetween)] at hsecond
    rw [hfirst, hsecond]
    exact TcpReconnectSettings.monotone_delayAt hvalid (Nat.le_add_right _ _)
  · intro before delay returned after he
    have hplan := hclosed (before ++ [.connected]) delay returned after (by rw [he]; simp)
    rw [plansSinceReset_connected] at hplan
    rw [hplan, TcpReconnectSettings.delayAt_zero hvalid]
  · intro delay returned hmem
    obtain ⟨before, after, he⟩ := List.append_of_mem hmem
    rw [hclosed before delay returned after he]
    exact TcpReconnectSettings.delayAt_le_max _
  · intro delay returned hmem
    obtain ⟨before, after, he⟩ := List.append_of_mem hmem
    exact (h.lawful before _ after he).2

/-- For all valid settings and every interleaving of supervisors, failures and connects, the backoff obeys its law. -/
theorem law_of_reachable (hvalid : reconnect.Valid) (h : (backoffMachine settings reconnect).Reachable Drawn b) :
    b.Law reconnect := by
  refine (h.invariant (I := Inv reconnect) ?_ fun b a b' hi hdrawn hstep => hi.step hvalid hdrawn hstep).law hvalid
  rintro _ rfl
  exact ⟨rfl, .nil, nofun, nofun⟩

end BackoffRuns

/-- Delays that double up to three seconds, each shortened by at most a half. -/
def cappedDelays : TcpReconnectSettings ℚ where
  initialDelaySeconds := 1
  maxDelaySeconds := 3
  backoffFactor := 2
  jitter := .equal

instance (b : BackoffRuns ℚ) : (a : ReconnectAct ℚ) → Decidable (b.Drawn a)
  | .resume _ _ draw => inferInstanceAs (Decidable (0 ≤ draw ∧ draw ≤ 1))
  | .start | .supervise | .stop _ | .terminate _ | .cancel _ => isTrue trivial

/-- Three attempts fail, the fourth connects and is disconnected. -/
theorem law_of_threeFailures :
    ∃ b, (backoffMachine { reconnectEnabled := true } cappedDelays).Reachable BackoffRuns.Drawn b ∧
      b.history = [.planned 1 (3 / 4), .planned 2 (3 / 2), .planned 3 (9 / 4), .connected, .planned 1 (3 / 4)] ∧
      b.Law cappedDelays := by
  have hrun : ∃ b, (backoffMachine { reconnectEnabled := true } cappedDelays).Reachable BackoffRuns.Drawn b ∧
      decide (b.history = [.planned 1 (3 / 4), .planned 2 (3 / 2), .planned 3 (9 / 4), .connected, .planned 1 (3 / 4)]) :=
    Runs.Machine.Reachable.exists_of_execOk rfl
      ([.start, .supervise, .resume 0 .returned 0] ++
        (List.replicate 3 [.resume 0 .returned 0, .resume 0 .raised (1 / 2), .resume 0 .returned 0,
          .resume 0 .returned 0, .resume 0 .returned 0, .resume 0 .returned 0, .resume 0 .returned 0]).flatten ++
        [.resume 0 .returned 0, .resume 0 .returned 0, .resume 0 .returned (1 / 2)]) _ (by decide +kernel)
  obtain ⟨b, hb, hhistory⟩ := hrun
  have hvalid : cappedDelays.Valid := ⟨by decide +kernel, by decide +kernel, by decide +kernel⟩
  exact ⟨b, hb, of_decide_eq_true hhistory, BackoffRuns.law_of_reachable hvalid hb⟩

end Aionetx
