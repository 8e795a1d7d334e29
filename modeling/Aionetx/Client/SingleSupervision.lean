import Aionetx.Client.Supervisions

/-!
# Single supervision

A supervisor that is still in its loop, or has its resources to shut down, is that of the last run, because the next run does
not begin before; so what it reads of the shared state is about its own run.

* `ClientRuntime.Shed`, `ClientRuntime.Segment` : what closing and stopping does, and what a segment of a supervisor does;
* `ClientSupervisions.Kept` : the invariant, with `Kept.single` and `Kept.step`;
* `ClientSupervisions.single_of_reachable` : one supervisor at a time, and each keeps to its run;
* `not_single_of_restartedWhileOpening` : a client that is restarted in a handler has two.
-/

namespace Aionetx

namespace ClientRuntime

variable {settings : TcpClientSettings} {run n : Nat} {c c' : ClientRuntime} {pc : SupervisorPc}
  {r : ClientRuntime × SupervisorPc}

/-! ## Closing and stopping -/

/-- Nothing is attached, created or started. -/
structure Shed (c c' : ClientRuntime) : Prop where
  lifecycle : c'.lifecycle = c.lifecycle
  connection : ∀ n, c'.connection = some n → c.connection = some n
  runs : ∀ n, (c'.connections n).run = (c.connections n).run
  next : c'.nextConnection = c.nextConnection
  sender : ∀ y, c'.heartbeatSender = some y → ∃ x, c.heartbeatSender = some x ∧ x.run = y.run

theorem Shed.refl (c : ClientRuntime) : Shed c c := ⟨rfl, fun _ => id, fun _ => rfl, rfl, fun y h => ⟨y, h, rfl⟩⟩

theorem Shed.trans {c'' : ClientRuntime} (h : Shed c c') (h' : Shed c' c'') : Shed c c'' where
  lifecycle := h'.lifecycle.trans h.lifecycle
  connection n := h.connection n ∘ h'.connection n
  runs n := (h'.runs n).trans (h.runs n)
  next := h'.next.trans h.next
  sender y hy := by
    obtain ⟨x, hx, hrun⟩ := h'.sender y hy
    obtain ⟨w, hw, hrun'⟩ := h.sender x hx
    exact ⟨w, hw, hrun'.trans hrun⟩

theorem shed_setConnection {x : ClientConnection} (hx : x.run = (c.connections n).run) : Shed c (c.setConnection n x) :=
  { Shed.refl c with
    runs := fun m => by
      by_cases hm : m = n
      · subst hm
        rw [setConnection_self, hx]
      · rw [setConnection_of_ne c hm] }

theorem shed_requestClose (c : ClientRuntime) (n : Nat) : Shed c (c.requestClose n) := by
  refine shed_setConnection ?_
  unfold ClientConnection.requestClose
  split <;> rfl

theorem shed_stopHeartbeatSender (c : ClientRuntime) : Shed c c.stopHeartbeatSender.1 :=
  { Shed.refl c with sender := nofun }

theorem shed_beginClosing (c : ClientRuntime) : Shed c c.beginClosing.1 := { Shed.refl c with }

theorem shed_endClosing (c : ClientRuntime) (closing : Closing) : Shed c (c.endClosing closing) :=
  { Shed.refl c with
    connection := fun n hn => by
      unfold endClosing at hn
      dsimp only at hn
      split at hn
      · cases hn
      · exact hn }

theorem shed_closeNext (c : ClientRuntime) (closing : Closing) : Shed c (c.closeNext closing).1 := by
  unfold closeNext
  split
  · exact shed_endClosing c closing
  · exact shed_requestClose c _

theorem shed_onConnectionClosed (c : ClientRuntime) (n : Nat) : Shed c (c.onConnectionClosed n) := by
  unfold onConnectionClosed
  split
  · exact { Shed.refl c with connection := nofun }
  · exact .refl c

theorem shed_runClosedCallback (c : ClientRuntime) (n : Nat) : Shed c (c.runClosedCallback n) := by
  have hshed := (shed_onConnectionClosed c n).trans (shed_stopHeartbeatSender _)
  unfold runClosedCallback
  refine hshed.trans (shed_setConnection ?_)
  unfold ClientConnection.afterCallback
  split <;> rfl

theorem shed_closeTurn {outcome : Outcome} (h : c.closeTurn n outcome = some c') : Shed c c' := by
  unfold closeTurn at h
  split at h
  · cases h
    exact shed_runClosedCallback c n
  · obtain ⟨x, hx, rfl⟩ := Option.map_eq_some_iff.mp h
    obtain ⟨-, -, rfl | ⟨_, rfl, -⟩⟩ := ClientConnection.closeTurn_cases hx
    · exact shed_setConnection rfl
    · exact shed_setConnection rfl

/-! ## The segments of a supervisor -/

/-- A segment of the supervisor of the run starts an attempt only for a running client, attaches only to one that is `RUNNING`,
and creates connections and senders of its own run only. -/
structure Segment (run : Nat) (c : ClientRuntime) (r : ClientRuntime × SupervisorPc) : Prop where
  attempts : r.2.attempting = true → c.running = true
  attaches : ∀ n, r.1.connection = some n → c.connection = some n ∨ c.lifecycle = .running
  runs : ∀ n < r.1.nextConnection,
    (r.1.connections n).run = run ∨ n < c.nextConnection ∧ (r.1.connections n).run = (c.connections n).run
  sender : ∀ y, r.1.heartbeatSender = some y → y.run = run ∨ ∃ x, c.heartbeatSender = some x ∧ x.run = y.run

theorem Shed.segment (h : Shed c c') (hpc : pc.attempting = true → c.running = true) : Segment run c (c', pc) where
  attempts := hpc
  attaches n hn := .inl (h.connection n hn)
  runs n hn := .inr ⟨h.next ▸ hn, h.runs n⟩
  sender y hy := .inr (h.sender y hy)

theorem Segment.after (h : Segment run c' r) (hs : Shed c c') : Segment run c r where
  attempts hpc := by
    rw [running, ← hs.lifecycle]
    exact h.attempts hpc
  attaches n hn := (h.attaches n hn).imp (hs.connection n) (hs.lifecycle.symm.trans ·)
  runs n hn := (h.runs n hn).imp_right fun hn => ⟨hs.next ▸ hn.1, hn.2.trans (hs.runs n)⟩
  sender y hy := (h.sender y hy).imp_right fun ⟨x, hx, hrun⟩ => by
    obtain ⟨w, hw, hrun'⟩ := hs.sender x hx
    exact ⟨w, hw, hrun'.trans hrun⟩

theorem segment_stopDispatcher : Segment run c c.stopDispatcher := by
  unfold stopDispatcher
  split <;> exact (Shed.refl c).segment nofun

theorem segment_publishTerminal (events : List ComponentLifecycleChangedEvent) : Segment run c (c.publishTerminal events) := by
  cases events with
  | nil => exact segment_stopDispatcher
  | cons e es => exact (Shed.refl c).segment nofun

theorem segment_publishTerminalLifecycleTransitions : Segment run c c.publishTerminalLifecycleTransitions := by
  unfold publishTerminalLifecycleTransitions
  split
  · exact segment_stopDispatcher
  · have hstopped : c.collectTerminalLifecycleEvents.1.lifecycle = .stopped := applyStopped_of_applyStopping _
    have hpublish : Segment run c.collectTerminalLifecycleEvents.1
        (c.collectTerminalLifecycleEvents.1.publishTerminal c.collectTerminalLifecycleEvents.2) := segment_publishTerminal _
    obtain ⟨hattempts, hattaches, hruns, hsender⟩ := hpublish
    refine ⟨fun hpc => ?_, fun n hn => ?_, hruns, hsender⟩
    · have hrunning := hattempts hpc
      rw [running, hstopped] at hrunning
      cases hrunning
    · refine (hattaches n hn).imp id fun hrunning => ?_
      cases hstopped.symm.trans hrunning

theorem segment_finalClose (closing : Closing) : Segment run c (c.finalClose closing) := by
  have hshed := shed_closeNext c closing
  unfold finalClose
  generalize c.closeNext closing = next at hshed
  obtain ⟨c', left⟩ := next
  cases left with
  | none => exact segment_publishTerminalLifecycleTransitions.after hshed
  | some left => exact hshed.segment nofun

theorem segment_finalizeSupervision : Segment run c c.finalizeSupervision := by
  have hshed := shed_stopHeartbeatSender c
  unfold finalizeSupervision
  dsimp only
  split
  · exact hshed.segment nofun
  · exact (segment_finalClose _).after (hshed.trans (shed_beginClosing _))

theorem segment_sleepUntilNextReconnect (handling plan : Bool) :
    Segment run c (c.sleepUntilNextReconnect settings handling plan) := by
  unfold sleepUntilNextReconnect
  split
  · exact (Shed.refl c).segment nofun
  · exact segment_finalizeSupervision

theorem segment_afterTeardown (plan : Bool) : Segment run c (c.afterTeardown settings plan) := by
  unfold afterTeardown
  split
  · exact segment_finalizeSupervision
  · exact segment_sleepUntilNextReconnect true plan

theorem segment_teardownClose (closing : Closing) (plan : Bool) : Segment run c (c.teardownClose settings closing plan) := by
  have hshed := shed_closeNext c closing
  unfold teardownClose
  generalize c.closeNext closing = next at hshed
  obtain ⟨c', left⟩ := next
  cases left with
  | none => exact (segment_afterTeardown plan).after hshed
  | some left => exact hshed.segment nofun

theorem segment_teardownAfterFailure (plan : Bool) : Segment run c (c.teardownAfterFailure settings plan) := by
  have hshed := shed_stopHeartbeatSender c
  unfold teardownAfterFailure
  dsimp only
  split
  · exact hshed.segment nofun
  · exact (segment_teardownClose _ plan).after (hshed.trans (shed_beginClosing _))

/-- The loop goes on only while the client is running. -/
theorem segment_startConnectAttempt : Segment run c c.startConnectAttempt := by
  unfold startConnectAttempt
  split
  · next hrunning => exact (Shed.refl c).segment fun _ => hrunning
  · exact segment_finalizeSupervision

theorem segment_connectionTerminated : Segment run c (c.connectionTerminated settings) := by
  have hshed : Shed c { c with connectionClosedEvent := false } := { Shed.refl c with }
  unfold connectionTerminated
  dsimp only
  split
  · exact (segment_sleepUntilNextReconnect false _).after hshed
  · split
    · exact hshed.segment nofun
    · exact (segment_sleepUntilNextReconnect false _).after hshed

theorem segment_attemptSucceeded : Segment run c (c.attemptSucceeded settings) := by
  unfold attemptSucceeded awaitConnectionTermination
  split
  · split
    · exact segment_connectionTerminated
    · exact (Shed.refl c).segment nofun
  · exact segment_finalizeSupervision

theorem segment_startHeartbeatSender (hlife : c'.lifecycle = c.lifecycle) (hrunning : c.lifecycle = .running)
    (hconns : c'.connections = c.connections) (hnext : c'.nextConnection = c.nextConnection) :
    Segment run c ((c'.startHeartbeatSender settings run).attemptSucceeded settings) := by
  have hsucceeded : Segment run (c'.startHeartbeatSender settings run)
      ((c'.startHeartbeatSender settings run).attemptSucceeded settings) := segment_attemptSucceeded
  obtain ⟨hattempts, -, hruns, hsender⟩ := hsucceeded
  refine ⟨fun hpc => ?_, fun _ _ => .inr hrunning, fun n hn => ?_, fun y hy => .inl ?_⟩
  · rw [running, ← hlife]
    exact hattempts hpc
  · refine (hruns n hn).imp_right fun hn => ⟨hnext ▸ hn.1, hn.2.trans ?_⟩
    exact congrArg (fun connections => (connections n).run) hconns
  · rcases hsender y hy with hrun | ⟨x, hx, hrun⟩
    · exact hrun
    · unfold startHeartbeatSender at hx
      dsimp only at hx
      split at hx
      · cases hx
        exact hrun.symm
      · cases hx

theorem segment_connectedOnce (n : Nat) : Segment run c (c.connectedOnce settings run n) := by
  have hshed : Shed c
      { c with startingConnection := if c.startingConnection = some n then none else c.startingConnection } :=
    { Shed.refl c with }
  unfold connectedOnce
  dsimp only
  split
  · split
    · next hconnected => exact segment_startHeartbeatSender rfl hconnected.1 rfl rfl
    · exact segment_attemptSucceeded.after hshed
  · split
    · split
      · exact segment_attemptSucceeded.after (hshed.trans { Shed.refl _ with })
      · exact (hshed.trans (shed_requestClose _ n)).segment nofun
    · next hwanted =>
      rw [not_or, not_not] at hwanted
      exact segment_startHeartbeatSender rfl hwanted.1 rfl rfl

theorem segment_abandon (settings : TcpClientSettings) (left : Nat) (cause : Outcome) :
    Segment run c (c.abandon settings n left cause) := by
  unfold abandon
  split
  · split
    · exact (shed_requestClose c n).segment nofun
    · exact (Shed.refl c).segment nofun
  · split
    · exact segment_finalizeSupervision
    · exact (Shed.refl c).segment nofun

theorem segment_openConnection : Segment run c (c.openConnection run, .opening n) := by
  let x : ClientConnection := { run, state := .connected }
  have hruns : ∀ n < c.nextConnection + 1, ((c.setConnection c.nextConnection x).connections n).run = run ∨
      n < c.nextConnection ∧ ((c.setConnection c.nextConnection x).connections n).run = (c.connections n).run := fun n hn => by
    by_cases hn' : n = c.nextConnection
    · subst hn'
      rw [setConnection_self]
      exact .inl rfl
    · rw [setConnection_of_ne c hn']
      exact .inr ⟨by omega, rfl⟩
  unfold openConnection
  dsimp only
  split
  · next hrunning => exact ⟨nofun, fun _ _ => .inr hrunning, hruns, fun y hy => .inr ⟨y, hy, rfl⟩⟩
  · exact ⟨nofun, fun _ hn => .inl hn, hruns, fun y hy => .inr ⟨y, hy, rfl⟩⟩

theorem segment_supervisorTurn (settings : TcpClientSettings) (run : Nat) (c : ClientRuntime) (pc : SupervisorPc)
    (outcome : Outcome) : Segment run c (c.supervisorTurn settings run pc outcome) := by
  have hrefl : ∀ {pc : SupervisorPc}, pc.attempting = false → Segment run c (c, pc) := fun hpc =>
    (Shed.refl c).segment fun h => by cases hpc.symm.trans h
  have hfinal : Segment run c c.finalizeSupervision := segment_finalizeSupervision
  cases pc with
  | created =>
    cases outcome with
    | cancelled => exact hrefl rfl
    | returned | raised => exact segment_startConnectAttempt
  | announcing =>
    cases outcome with
    | returned =>
      simp only [supervisorTurn]
      split
      · next hrunning => exact (Shed.refl c).segment fun _ => by rw [running, hrunning]; rfl
      · exact hfinal
    | raised => exact hrefl rfl
    | cancelled => exact hfinal
  | connecting =>
    cases outcome with
    | returned => exact segment_openConnection
    | raised => exact hrefl rfl
    | cancelled => exact hfinal
  | opening n =>
    cases outcome with
    | returned => exact hrefl rfl
    | raised | cancelled => exact segment_abandon settings 3 _
  | settling n =>
    cases outcome with
    | returned => exact segment_connectedOnce n
    | raised | cancelled => exact segment_abandon settings 2 _
  | abandoning n left cause => exact segment_abandon settings (left - 1) cause
  | discarding n => exact segment_attemptSucceeded.after { Shed.refl c with }
  | parked =>
    cases outcome with
    | returned => exact segment_connectionTerminated
    | raised | cancelled => exact hfinal
  | scheduling handling =>
    cases outcome with
    | returned =>
      simp only [supervisorTurn]
      split
      · exact hrefl rfl
      · exact hfinal
    | raised =>
      cases handling with
      | false => exact hrefl rfl
      | true => exact hfinal
    | cancelled => cases handling <;> exact hfinal
  | sleeping =>
    cases outcome with
    | returned =>
      simp only [supervisorTurn]
      split
      · exact segment_startConnectAttempt
      · exact hfinal
    | raised | cancelled => exact hfinal
  | reporting left plan =>
    cases outcome with
    | returned =>
      simp only [supervisorTurn]
      split
      · exact hrefl rfl
      · exact segment_teardownAfterFailure plan
    | raised | cancelled => exact hfinal
  | tearingHeartbeat plan =>
    cases outcome with
    | returned => exact (segment_teardownClose _ plan).after (shed_beginClosing c)
    | raised | cancelled => exact hfinal
  | tearingDown closing plan =>
    cases outcome with
    | returned => exact segment_teardownClose _ plan
    | raised | cancelled => exact segment_finalizeSupervision.after (shed_endClosing c closing)
  | finalHeartbeat =>
    cases outcome with
    | returned => exact (segment_finalClose _).after (shed_beginClosing c)
    | raised | cancelled => exact segment_stopDispatcher
  | finalClosing closing =>
    cases outcome with
    | returned => exact segment_finalClose _
    | raised | cancelled => exact segment_stopDispatcher.after (shed_endClosing c closing)
  | publishing events =>
    cases outcome with
    | returned => exact segment_publishTerminal _
    | raised | cancelled => exact segment_stopDispatcher
  | stoppingDispatcher | ended => exact hrefl rfl

end ClientRuntime

namespace ClientSupervisor

variable {v : ClientSupervisor}

theorem attempts_of_finished (h : v.finished = true) : v.attempts = false := by
  obtain ⟨pc, cancelRequested⟩ := v
  cases pc with
  | created =>
    obtain rfl : cancelRequested = true := h
    rfl
  | publishing | stoppingDispatcher | ended => rfl
  | _ => cases h

theorem attempting_of_finished (h : v.finished = true) : v.pc.attempting = false := by
  obtain ⟨pc, cancelRequested⟩ := v
  cases pc with
  | announcing | connecting => cases h
  | _ => rfl

theorem finished_cancelled (h : v.finished = true) : ({ v with cancelRequested := true } : ClientSupervisor).finished = true := by
  obtain ⟨pc, cancelRequested⟩ := v
  cases pc with
  | created | publishing | stoppingDispatcher | ended => rfl
  | _ => cases h

theorem supervisorTurn_of_finished (settings : TcpClientSettings) (run : Nat) (c : ClientRuntime) {outcome : Outcome}
    (h : v.finished = true) (hadmits : v.admits c.connectionClosedEvent outcome = true) :
    ∃ pc, c.supervisorTurn settings run v.pc outcome = (c, pc) ∧ ({ pc } : ClientSupervisor).finished = true := by
  have hstop : ∃ pc, c.stopDispatcher = (c, pc) ∧ ({ pc } : ClientSupervisor).finished = true := by
    unfold ClientRuntime.stopDispatcher
    split
    · exact ⟨_, rfl, rfl⟩
    · exact ⟨_, rfl, rfl⟩
  obtain ⟨pc, cancelRequested⟩ := v
  cases pc with
  | created =>
    obtain rfl : cancelRequested = true := h
    cases outcome with
    | cancelled => exact ⟨.ended, rfl, rfl⟩
    | returned | raised => cases hadmits
  | publishing events =>
    cases outcome with
    | returned =>
      show ∃ pc, c.publishTerminal events.tail = (c, pc) ∧ _
      cases events.tail with
      | nil => exact hstop
      | cons e es => exact ⟨_, rfl, rfl⟩
    | raised | cancelled => exact hstop
  | stoppingDispatcher | ended => exact ⟨.ended, rfl, rfl⟩
  | _ => cases h

end ClientSupervisor

namespace ClientSupervisions

open ClientRuntime (Shed)

variable {settings : TcpClientSettings} {s t : ClientSupervisions} {run : Nat}

/-! ## The invariant -/

/-- Every supervisor but the last is finished, and so is that one while the next run is starting; connections and senders are those
of a run that has begun. -/
structure Kept (s : ClientSupervisions) : Prop where
  older : ∀ k v, s.supervisors[k]? = some v → k + 1 < s.supervisors.length ∨ s.runtime.lifecycle = .starting → v.finished = true
  runs : ∀ n < s.runtime.nextConnection, (s.runtime.connections n).run < s.supervisors.length
  sender : ∀ y, s.runtime.heartbeatSender = some y → y.run < s.supervisors.length

/-- A supervisor that is not finished is that of the last run, and the next one is not starting. -/
theorem Kept.latest (h : s.Kept) {v : ClientSupervisor} (hv : s.supervisors[run]? = some v) (hfin : ¬ v.finished = true) :
    run + 1 = s.supervisors.length ∧ s.runtime.lifecycle ≠ .starting := by
  have hlt := (List.getElem?_eq_some_iff.mp hv).1
  refine ⟨?_, fun hstarting => hfin (h.older run v hv (.inr hstarting))⟩
  by_contra hne
  exact hfin (h.older run v hv (.inl (by omega)))

theorem superviseTurn_cases {outcome : Outcome} (hs : s.superviseTurn settings run outcome = some t) :
    ∃ v, s.supervisors[run]? = some v ∧ v.admits s.runtime.connectionClosedEvent outcome = true ∧
      t = { s with
        runtime := (s.runtime.supervisorTurn settings run v.pc outcome).1
        supervisors := s.supervisors.set run { pc := (s.runtime.supervisorTurn settings run v.pc outcome).2 } } := by
  unfold superviseTurn at hs
  split at hs
  · cases hs
  · next v hv =>
    split at hs
    · next hgo =>
      cases hs
      exact ⟨v, hv, hgo.2, rfl⟩
    · cases hs

theorem Kept.keepsToRun (h : s.Kept) {outcome : Outcome} (hs : s.superviseTurn settings run outcome = some t) :
    s.KeepsToRun t run := by
  obtain ⟨v, hv, hadmits, rfl⟩ := superviseTurn_cases hs
  have hlt := (List.getElem?_eq_some_iff.mp hv).1
  have hself : ∀ {pc : SupervisorPc} {w : ClientSupervisor}, (s.supervisors.set run { pc })[run]? = some w → w = { pc } :=
    fun hw => (Option.some.inj ((List.getElem?_set_self hlt).symm.trans hw)).symm
  by_cases hfin : v.finished = true
  · obtain ⟨pc, hturn, hpc⟩ := v.supervisorTurn_of_finished settings run s.runtime hfin hadmits
    rw [hturn]
    refine ⟨fun w hw hattempting => ?_, fun _ hn => .inl hn, fun _ _ _ => ⟨rfl, id⟩, fun _ hy _ => hy, .inl rfl⟩
    obtain rfl := hself hw
    cases (ClientSupervisor.attempting_of_finished hpc).symm.trans hattempting
  · obtain ⟨hlast, hstarting⟩ := h.latest hv hfin
    have hturn := ClientRuntime.segment_supervisorTurn settings run s.runtime v.pc outcome
    refine ⟨fun w hw hattempting => ⟨hlast, ?_⟩, fun n hn => (hturn.attaches n hn).imp_right fun hrunning => ⟨hlast, hrunning⟩,
      fun n hn hlater => ?_, fun y hy hlater => ?_, .inr ⟨hlast, hstarting⟩⟩
    · obtain rfl := hself hw
      have hactive := hturn.attempts hattempting
      unfold ClientRuntime.running at hactive
      cases hlife : s.runtime.lifecycle with
      | running => rfl
      | starting => exact absurd hlife hstarting
      | stopping | stopped =>
        rw [hlife] at hactive
        cases hactive
    · -- there is no later run
      have hbegun := h.runs n hn
      omega
    · have hbegun := h.sender y hy
      omega

theorem Kept.single (h : s.Kept) : s.Single settings where
  one i j v w hv hw hattempts hattempts' := by
    have hlast : ∀ {k : Nat} {u : ClientSupervisor}, s.supervisors[k]? = some u → u.attempts = true →
        k + 1 = s.supervisors.length := fun hu hattempts =>
      (h.latest hu fun hfin => by cases (ClientSupervisor.attempts_of_finished hfin).symm.trans hattempts).1
    have hi := hlast hv hattempts
    have hj := hlast hw hattempts'
    omega
  keeps run outcome t hs := h.keepsToRun hs

/-! ## The steps -/

theorem Kept.shed (h : s.Kept) {c : ClientRuntime} (hc : Shed s.runtime c) (cleanups : List Closing) :
    Kept { s with runtime := c, cleanups } where
  older k v hv hk := h.older k v hv (hk.imp_right hc.lifecycle.symm.trans)
  runs n hn := by
    show (c.connections n).run < s.supervisors.length
    rw [hc.runs]
    exact h.runs n (hc.next ▸ hn)
  sender y hy := by
    obtain ⟨x, hx, hrun⟩ := hc.sender y hy
    show y.run < s.supervisors.length
    rw [← hrun]
    exact h.sender x hx

/-- The lifecycle state changes, apart from the beginning of a run. -/
theorem Kept.setLifecycle (h : s.Kept) {lifecycle : ComponentLifecycleState} (stopInProgress : Bool)
    (hl : lifecycle = .starting → s.runtime.lifecycle = .starting) :
    Kept { s with runtime := { s.runtime with lifecycle, stopInProgress } } :=
  { h with older := fun k v hv hk => h.older k v hv (hk.imp_right hl) }

/-- The supervisors before a run that begins are finished. -/
theorem Kept.start (h : s.Kept) (hok : ∀ v ∈ s.supervisors, v.finished = true) :
    Kept { s with runtime := { s.runtime with lifecycle := .starting } } :=
  { h with older := fun _ v hv _ => hok v (List.mem_of_getElem? hv) }

theorem Kept.supervise (h : s.Kept) (hs : s.supervise = some t) : t.Kept := by
  unfold ClientSupervisions.supervise at hs
  split at hs
  · next hstarting =>
    cases hs
    have hlen : (s.supervisors ++ [({} : ClientSupervisor)]).length = s.supervisors.length + 1 := List.length_append
    refine ⟨fun k v hv hk => ?_, fun n hn => ?_, fun y hy => ?_⟩
    · have hk' : k < s.supervisors.length := by
        rcases hk with hk | hk
        · have hk' : k + 1 < (s.supervisors ++ [({} : ClientSupervisor)]).length := hk
          omega
        · cases hk
      exact h.older k v ((List.getElem?_append_left hk').symm.trans hv) (.inr hstarting)
    · have hbegun := h.runs n hn
      show (s.runtime.connections n).run < (s.supervisors ++ [({} : ClientSupervisor)]).length
      omega
    · have hbegun := h.sender y hy
      show y.run < (s.supervisors ++ [({} : ClientSupervisor)]).length
      omega
  · cases hs

theorem Kept.cancel (h : s.Kept) (run : Nat) :
    Kept { s with supervisors := s.supervisors.modify run fun v => { v with cancelRequested := true } } := by
  have hlen : (s.supervisors.modify run fun v => { v with cancelRequested := true }).length = s.supervisors.length :=
    List.length_modify ..
  refine ⟨fun k w hw hk => ?_, fun n hn => lt_of_lt_of_eq (h.runs n hn) hlen.symm,
    fun y hy => lt_of_lt_of_eq (h.sender y hy) hlen.symm⟩
  have hw' : (s.supervisors.modify run fun v => { v with cancelRequested := true })[k]? = some w := hw
  rw [List.getElem?_modify] at hw'
  obtain ⟨v, hv, rfl⟩ := Option.map_eq_some_iff.mp hw'
  have hfin := h.older k v hv (hk.imp_left fun hk => lt_of_lt_of_eq hk hlen)
  split
  · exact ClientSupervisor.finished_cancelled hfin
  · exact hfin

/-- A supervisor goes on: one that is not finished is that of the last run. -/
theorem Kept.superviseTurn (h : s.Kept) {outcome : Outcome} (hs : s.superviseTurn settings run outcome = some t) : t.Kept := by
  obtain ⟨v, hv, hadmits, rfl⟩ := superviseTurn_cases hs
  have hlt := (List.getElem?_eq_some_iff.mp hv).1
  have hlen : ∀ {pc : SupervisorPc}, (s.supervisors.set run { pc }).length = s.supervisors.length := List.length_set
  have hturn := ClientRuntime.segment_supervisorTurn settings run s.runtime v.pc outcome
  have hlife := (s.runtime.frame_supervisorTurn settings run v.pc outcome).lifecycle
  refine ⟨fun k w hw hk => ?_, fun n hn => ?_, fun y hy => ?_⟩
  · have hk' : k + 1 < s.supervisors.length ∨ s.runtime.lifecycle = .starting := by
      rcases hk with hk | hstarting
      · exact .inl (lt_of_lt_of_eq hk hlen)
      · rcases hlife with hlife | hlife
        · exact .inr (hlife.symm.trans hstarting)
        · cases hlife.symm.trans hstarting
    by_cases hkr : k = run
    · subst hkr
      obtain ⟨pc, hpc, hfin⟩ := v.supervisorTurn_of_finished settings k s.runtime (h.older k v hv hk') hadmits
      obtain rfl := Option.some.inj ((List.getElem?_set_self hlt).symm.trans hw)
      rw [hpc]
      exact hfin
    · exact h.older k w ((List.getElem?_set_ne (Ne.symm hkr)).symm.trans hw) hk'
  · refine lt_of_lt_of_eq ?_ hlen.symm
    rcases hturn.runs n hn with hrun | ⟨hn', hrun⟩
    · exact lt_of_eq_of_lt hrun hlt
    · exact lt_of_eq_of_lt hrun (h.runs n hn')
  · refine lt_of_lt_of_eq ?_ hlen.symm
    rcases hturn.sender y hy with hrun | ⟨x, hx, hrun⟩
    · exact lt_of_eq_of_lt hrun hlt
    · exact lt_of_eq_of_lt hrun.symm (h.sender x hx)

theorem Kept.cleanupTurn (h : s.Kept) {i : Nat} {outcome : Outcome} (hs : s.cleanupTurn i outcome = some t) : t.Kept := by
  obtain ⟨closing, -, rfl⟩ := Option.map_eq_some_iff.mp hs
  split
  · exact h.shed (ClientRuntime.shed_closeNext _ _) _
  · exact h.shed (ClientRuntime.shed_endClosing _ _) _

theorem Kept.step {a : SupervisionsAct} (h : s.Kept) (hok : s.OneAtATime a) (hs : s.step settings a = some t) : t.Kept := by
  cases a with
  | start =>
    simp only [ClientSupervisions.step] at hs
    split at hs <;> cases hs
    exact h.start hok
  | supervise => exact h.supervise hs
  | beginStop =>
    cases hs
    refine h.setLifecycle true fun hl => ?_
    split at hl
    · cases hl
    · exact hl
  | endStop => cases hs; exact h.setLifecycle false id
  | rollback | applyStopped =>
    simp only [ClientSupervisions.step] at hs
    split at hs <;> cases hs
    exact h.setLifecycle _ nofun
  | cancel run => cases hs; exact h.cancel run
  | cleanHeartbeat => cases hs; exact h.shed (ClientRuntime.shed_stopHeartbeatSender _) _
  | beginCleanup =>
    cases hs
    exact h.shed ((ClientRuntime.shed_beginClosing _).trans (ClientRuntime.shed_closeNext _ _)) _
  | cleanupTurn i outcome => exact h.cleanupTurn hs
  | close n =>
    simp only [ClientSupervisions.step] at hs
    split at hs <;> cases hs
    exact h.shed (ClientRuntime.shed_requestClose _ n) _
  | closeTurn n outcome =>
    obtain ⟨c, hc, rfl⟩ := Option.map_eq_some_iff.mp hs
    exact h.shed (ClientRuntime.shed_closeTurn hc) _
  | heartbeatEnds =>
    obtain ⟨sender, hsender, rfl⟩ := Option.map_eq_some_iff.mp hs
    refine { h with sender := fun y hy => ?_ }
    cases hy
    exact h.sender sender hsender
  | superviseTurn run outcome => exact h.superviseTurn hs

theorem kept_init : Kept {} where
  older _ _ hv := by cases hv
  runs _ hn := absurd hn (Nat.not_lt_zero _)
  sender _ hy := by cases hy

/-- In every run in which `start()` begins a run only when the earlier supervisors are finished, whatever connects, fails, is
cancelled or is closed: at most one supervisor may start another attempt, and each supervisor keeps to its run. -/
theorem single_of_reachable (h : (supervisionsMachine settings).Reachable OneAtATime s) : s.Single settings := by
  have hkept : s.Kept := by
    refine h.invariant (I := Kept) ?_ fun _ _ _ hk hok hs => hk.step hok hs
    rintro _ rfl
    exact kept_init
  exact hkept.single

end ClientSupervisions

/-! ## Runs -/

/-- A session, a stop that awaits the supervisor, and the first attempt of a second run. -/
def stoppedAndRestarted : List SupervisionsAct :=
  [.start, .supervise, .superviseTurn 0 .returned, .superviseTurn 0 .returned, .superviseTurn 0 .returned,
    .superviseTurn 0 .returned, .superviseTurn 0 .returned, .beginStop, .cancel 0, .superviseTurn 0 .cancelled,
    .closeTurn 0 .returned, .superviseTurn 0 .returned, .applyStopped, .endStop, .start, .supervise, .superviseTurn 1 .returned]

/-- The first supervisor is finished when the second one starts an attempt. -/
theorem single_of_stoppedAndRestarted : ∃ s : ClientSupervisions,
    s.supervisors = [{ pc := .ended }, { pc := .announcing }] ∧ s.Single {} := by
  have hrun : ∃ s : ClientSupervisions, (supervisionsMachine {}).Reachable ClientSupervisions.OneAtATime s ∧
      decide (s.supervisors = [{ pc := .ended }, { pc := .announcing }]) :=
    Runs.Machine.Reachable.exists_of_execOk rfl stoppedAndRestarted _ (by decide)
  obtain ⟨s, hs, hp⟩ := hrun
  exact ⟨s, of_decide_eq_true hp, ClientSupervisions.single_of_reachable hs⟩

/-- The handler of the opened event stops the client and starts it again; the supervisor of the first run goes on, finds its
connection closed, and reconnects. -/
def restartedWhileOpening : List SupervisionsAct :=
  [.start, .supervise, .superviseTurn 0 .returned, .superviseTurn 0 .returned, .superviseTurn 0 .returned, .beginStop,
    .beginCleanup, .closeTurn 0 .returned, .cleanupTurn 0 .returned, .applyStopped, .start, .supervise,
    .superviseTurn 0 .returned, .superviseTurn 0 .returned, .superviseTurn 0 .returned]

/-- Then two supervisors may start attempts: the first one sleeps until its next. -/
theorem not_single_of_restartedWhileOpening :
    ¬ ∀ s : ClientSupervisions, (supervisionsMachine {}).Reachable Runs.Machine.Any s → s.Single {} := by
  have hrun : ∃ s : ClientSupervisions, (supervisionsMachine {}).Reachable Runs.Machine.Any s ∧
      decide (s.supervisors = [{ pc := .sleeping }, {}]) :=
    Runs.Machine.Reachable.exists_of_exec rfl restartedWhileOpening _ (by decide)
  obtain ⟨s, hs, hp⟩ := hrun
  have hsupervisors := of_decide_eq_true hp
  intro hall
  have hone := (hall s hs).one 0 1 { pc := .sleeping } {} (by rw [hsupervisors]; rfl) (by rw [hsupervisors]; rfl) rfl rfl
  cases hone

end Aionetx
