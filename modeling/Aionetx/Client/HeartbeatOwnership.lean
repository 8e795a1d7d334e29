import Aionetx.Client.Heartbeats

/-!
# Who owns the heartbeat sender

Apart from an opening and the start of a sender, what a task does to a client only winds down: it stops the sender in the slot,
asks a connection to close, or detaches one whose callback has run.

* `ClientConnection.Sound`, `ClientConnection.Winds` : a connection whose callback is still to come is open, or in its teardown;
* `ClientHeartbeats.Winds` : what winding down can do; it is transitive, and each of these methods winds down;
* `ClientHeartbeats.Held`, `ClientHeartbeats.Kept` : the invariant, by the place of the last supervisor, with `Kept.step`;
* `ClientHeartbeats.owned_of_reachable` : a client that is wound up before it starts again owns one sender at a time;
* `not_owned_of_restartedInHandler` : one that is restarted during an opening need not.
-/

namespace Aionetx

open Runs

/-! ## One connection -/

namespace ClientConnection

variable {x y z : ClientConnection} {outcome : Outcome}

theorem spent_iff : x.spent = true ↔ (x.state = .closing ∨ x.state = .closed) ∧ x.closeTask ≠ some .teardown := by
  simp [spent]

theorem spent_of_teardown (ht : x.closeTask = some .teardown) : x.spent = false :=
  Bool.eq_false_iff.mpr fun h => (spent_iff.mp h).2 ht

/-- While its callback is to come the connection is open, or in the teardown. -/
inductive Sound (x : ClientConnection) : Prop
  | opened (hran : x.callbackRan = false) (ht : x.closeTask = none) (hclosing : x.state ≠ .closing) (hclosed : x.state ≠ .closed)
  | teardown (hran : x.callbackRan = false) (ht : x.closeTask = some .teardown) (hs : x.state = .closing)
  | spent (h : x.spent = true)

theorem Sound.spent_of_closed (h : x.Sound) (hclosed : x.state = .closed) : x.spent = true := by
  cases h with
  | opened _ _ _ h => exact absurd hclosed h
  | teardown _ _ h => cases h.symm.trans hclosed
  | spent h => exact h

theorem Sound.pending (h : x.Sound) (ht : x.closeTask = some .teardown) : x.callbackRan = false ∧ x.state = .closing := by
  cases h with
  | opened _ h => cases h.symm.trans ht
  | teardown hran _ hs => exact ⟨hran, hs⟩
  | spent h => cases h.symm.trans (spent_of_teardown ht)

theorem Sound.open_of_not_spent (h : x.Sound) (hx : x.spent = false) : x.callbackRan = false ∧ x.state ≠ .closed := by
  cases h with
  | opened hran _ _ hs => exact ⟨hran, hs⟩
  | teardown hran _ hs => exact ⟨hran, by simp [hs]⟩
  | spent h => cases hx.symm.trans h

/-- `CLOSED` is final, and so is the end of the callback. -/
structure Winds (x y : ClientConnection) : Prop where
  run : y.run = x.run
  spent : x.spent = true → y.spent = true
  closed : x.state = .closed → y.state = .closed
  sound : x.Sound → y.Sound

theorem Winds.refl (x : ClientConnection) : Winds x x := ⟨rfl, id, id, id⟩

theorem Winds.trans (h : Winds x y) (h' : Winds y z) : Winds x z :=
  ⟨h'.run.trans h.run, h'.spent ∘ h.spent, h'.closed ∘ h.closed, h'.sound ∘ h.sound⟩

theorem spent_requestClose (x : ClientConnection) : x.requestClose.spent = x.spent := by
  unfold requestClose
  split
  · rfl
  · next hs ht =>
    have hy : ({ x with closeTask := some .reconciling } : ClientConnection).spent = true :=
      spent_iff.mpr ⟨.inl hs, by simp⟩
    exact hy.trans (spent_iff.mpr ⟨.inl hs, by simp [ht]⟩).symm
  · next hclosed hclosing =>
    exact (spent_of_teardown rfl).trans (Bool.eq_false_iff.mpr fun h => (spent_iff.mp h).1.elim hclosing hclosed).symm
  · rfl

theorem sound_requestClose (h : x.Sound) : x.requestClose.Sound := by
  cases h with
  | opened hran ht hs hs' =>
    unfold requestClose
    split
    · next hclosed => exact absurd hclosed hs'
    · next hclosing _ => exact absurd hclosing hs
    · exact .teardown hran rfl rfl
    · next hsome _ => cases ht.symm.trans hsome
  | teardown hran ht hs =>
    unfold requestClose
    rw [hs, ht]
    exact .teardown hran ht hs
  | spent h => exact .spent ((spent_requestClose x).trans h)

theorem winds_requestClose (x : ClientConnection) : Winds x x.requestClose := by
  refine ⟨?_, fun h => (spent_requestClose x).trans h, fun h => ?_, sound_requestClose⟩
  · unfold requestClose
    split <;> rfl
  · unfold requestClose
    rw [h]
    exact h

theorem spent_afterCallback (hs : x.state = .closing) (suspended : Bool) : (x.afterCallback suspended).spent = true := by
  cases suspended with
  | false => rfl
  | true => exact spent_iff.mpr ⟨.inl hs, by simp [afterCallback]⟩

theorem winds_afterCallback (hs : x.state = .closing) (suspended : Bool) : Winds x (x.afterCallback suspended) := by
  refine ⟨?_, fun _ => spent_afterCallback hs suspended, fun h => ?_, fun _ => .spent (spent_afterCallback hs suspended)⟩
  · cases suspended <;> rfl
  · cases hs.symm.trans h

/-- A segment of the close task that does not run the callback: none is to come after it. -/
theorem winds_closeTurn (hs : x.Sound) (h : x.closeTurn outcome = some y) :
    Winds x y ∧ y.spent = true ∧ (x.closeTask ≠ some .teardown → x.spent = true) := by
  obtain ⟨htask, -, hy⟩ := closeTurn_cases h
  have hstate : x.state = .closing ∨ x.state = .closed := by
    cases hs with
    | opened _ hnone => exact absurd hnone htask
    | teardown _ _ hclosing => exact .inl hclosing
    | spent hspent => exact (spent_iff.mp hspent).1
  have hspent : y.spent = true := by
    rcases hy with rfl | ⟨_, rfl, hne⟩
    · rfl
    · exact spent_iff.mpr ⟨hstate, hne⟩
  refine ⟨⟨?_, fun _ => hspent, fun hclosed => ?_, fun _ => .spent hspent⟩, hspent, fun hne => spent_iff.mpr ⟨hstate, hne⟩⟩
  · rcases hy with rfl | ⟨_, rfl, -⟩ <;> rfl
  · rcases hy with rfl | ⟨_, rfl, -⟩
    · rfl
    · exact hclosed

end ClientConnection

namespace ClientHeartbeats

variable {settings : TcpClientSettings} {s t u : ClientHeartbeats} {run n m i j : Nat} {pc : SupervisionPc}
  {move : SupervisionMove}

/-! ## Winding down -/

/-- The connection is the current one, and its callback is still to come. -/
def Attached (s : ClientHeartbeats) (n : Nat) : Prop := s.connection = some n ∧ (s.connections n).spent = false

/-- Each running sender is the one in the slot. -/
def Slotted (s : ClientHeartbeats) : Prop := ∀ i n, s.Beats i n → s.heartbeatSender = some i

structure Winds (s t : ClientHeartbeats) : Prop where
  lifecycle : t.lifecycle = s.lifecycle
  supervisors : t.supervisors = s.supervisors
  teardowns : t.teardowns = s.teardowns
  next : t.nextConnection = s.nextConnection
  connections : ∀ n, (s.connections n).Winds (t.connections n)
  beats : ∀ i n, t.Beats i n → s.Beats i n
  kept : ∀ i n, t.Beats i n → s.Attached n → t.heartbeatSender = s.heartbeatSender ∧ t.Attached n
  attached : (∀ i n, ¬ s.Beats i n) → ∀ n, s.Attached n → t.Attached n ∨ (t.connections n).state = .closed
  detached : ∀ n, s.connection = some n → t.connection = some n ∨ (t.connections n).spent = true
  stoppedBy : ∀ p ∈ t.stoppedBy, p ∈ s.stoppedBy ∨ p.2 = p.1

theorem Winds.refl (s : ClientHeartbeats) : Winds s s where
  lifecycle := rfl
  supervisors := rfl
  teardowns := rfl
  next := rfl
  connections _ := .refl _
  beats _ _ h := h
  kept _ _ _ h := ⟨rfl, h⟩
  attached _ _ h := .inl h
  detached _ h := .inl h
  stoppedBy _ h := .inl h

theorem Winds.trans (h : Winds s t) (h' : Winds t u) : Winds s u where
  lifecycle := h'.lifecycle.trans h.lifecycle
  supervisors := h'.supervisors.trans h.supervisors
  teardowns := h'.teardowns.trans h.teardowns
  next := h'.next.trans h.next
  connections n := (h.connections n).trans (h'.connections n)
  beats i n hb := h.beats i n (h'.beats i n hb)
  kept i n hb ha := by
    obtain ⟨hslot, hat⟩ := h.kept i n (h'.beats i n hb) ha
    obtain ⟨hslot', hat'⟩ := h'.kept i n hb hat
    exact ⟨hslot'.trans hslot, hat'⟩
  attached hnone n ha := by
    rcases h.attached hnone n ha with hat | hclosed
    · exact h'.attached (fun i n hb => hnone i n (h.beats i n hb)) n hat
    · exact .inr ((h'.connections n).closed hclosed)
  detached n hc := by
    rcases h.detached n hc with hc | hran
    · exact h'.detached n hc
    · exact .inr ((h'.connections n).spent hran)
  stoppedBy p hp := by
    rcases h'.stoppedBy p hp with hp | hp
    · exact h.stoppedBy p hp
    · exact .inr hp

theorem Winds.sound (h : Winds s t) (hs : ∀ n, (s.connections n).Sound) (n : Nat) : (t.connections n).Sound :=
  (h.connections n).sound (hs n)

@[simp] theorem setConnection_self (s : ClientHeartbeats) (n : Nat) (x : ClientConnection) :
    (s.setConnection n x).connections n = x := Function.update_self ..

theorem setConnection_of_ne (h : m ≠ n) (s : ClientHeartbeats) (x : ClientConnection) :
    (s.setConnection n x).connections m = s.connections m := Function.update_of_ne h _ _

theorem winds_setConnection {x : ClientConnection} (hx : (s.connections n).Winds x)
    (hcurrent : s.connection = some n → x.spent = (s.connections n).spent) : Winds s (s.setConnection n x) := by
  have hconn : ∀ m, (s.connections m).Winds ((s.setConnection n x).connections m) ∧
      (s.connection = some m → ((s.setConnection n x).connections m).spent = (s.connections m).spent) := fun m => by
    by_cases hm : m = n
    · subst hm
      rw [setConnection_self]
      exact ⟨hx, hcurrent⟩
    · rw [setConnection_of_ne hm]
      exact ⟨.refl _, fun _ => rfl⟩
  exact
    { Winds.refl s with
      connections := fun m => (hconn m).1
      kept := fun _ m _ ha => ⟨rfl, ha.1, ((hconn m).2 ha.1).trans ha.2⟩
      attached := fun _ m ha => .inl ⟨ha.1, ((hconn m).2 ha.1).trans ha.2⟩
      detached := fun _ hm => .inl hm }

theorem winds_requestClose (s : ClientHeartbeats) (n : Nat) : Winds s (s.requestClose n) :=
  winds_setConnection (ClientConnection.winds_requestClose _) fun _ => ClientConnection.spent_requestClose _

theorem winds_detach (hran : (s.connections n).spent = true) : Winds s (s.endClosing n) := by
  have hconn : ∀ m, s.connection = some m → m ≠ n → (s.endClosing n).connection = some m := fun m hm hne => by
    unfold endClosing
    dsimp only
    rw [if_neg (by rw [hm]; exact fun h => hne (Option.some.inj h)), hm]
  have hne : ∀ m, s.Attached m → m ≠ n := by
    rintro m ha rfl
    cases ha.2.symm.trans hran
  exact
    { Winds.refl s with
      kept := fun _ m _ ha => ⟨rfl, hconn m ha.1 (hne m ha), ha.2⟩
      attached := fun _ m ha => .inl ⟨hconn m ha.1 (hne m ha), ha.2⟩
      detached := fun m hm => by
        by_cases h : m = n
        · exact .inr (h ▸ hran)
        · exact .inl (hconn m hm h) }

theorem winds_beginClosing (hs : ∀ n, (s.connections n).Sound) : Winds s s.beginClosing.1 := by
  unfold beginClosing
  split
  · exact .refl s
  · next n hn =>
    split
    · next hclosed =>
      have hend : { s with connection := none } = s.endClosing n := by
        unfold endClosing
        rw [if_pos hn]
      rw [hend]
      exact winds_detach ((hs n).spent_of_closed hclosed)
    · exact winds_requestClose s n

/-! ## Stopping a sender -/

theorem beats_haltSender : (s.haltSender j).Beats i n ↔ s.Beats i n ∧ i ≠ j := by
  unfold Beats haltSender
  dsimp only
  rw [List.getElem?_modify]
  by_cases hj : j = i
  · subst hj
    cases s.senders[j]? with
    | none => simp
    | some y => simp
  · simp [hj, Ne.symm hj]

theorem winds_haltSender (s : ClientHeartbeats) (i : Nat) : Winds s (s.haltSender i) :=
  { Winds.refl s with
    beats := fun _ _ h => (beats_haltSender.mp h).1
    kept := fun _ _ _ ha => ⟨rfl, ha⟩
    attached := fun _ _ ha => .inl ha }

theorem not_beats_stopHeartbeatSender (h : s.Slotted) (i n : Nat) : ¬ s.stopHeartbeatSender.1.Beats i n := by
  unfold stopHeartbeatSender
  intro hb
  split at hb
  · next hnone => cases hnone.symm.trans (h i n hb)
  · next j hj =>
    have hb' : (s.haltSender j).Beats i n := hb
    obtain ⟨hb', hne⟩ := beats_haltSender.mp hb'
    exact hne (Option.some.inj ((h i n hb').symm.trans hj))

theorem winds_stopHeartbeatSender (h : s.Slotted) : Winds s s.stopHeartbeatSender.1 := by
  have hnone := not_beats_stopHeartbeatSender h
  unfold stopHeartbeatSender at hnone ⊢
  split
  · exact .refl s
  · next j hj =>
    rw [hj] at hnone
    exact
      { winds_haltSender s j with
        kept := fun i n hb => absurd hb (hnone i n) }

theorem stopHeartbeatSender_frame (s : ClientHeartbeats) :
    s.stopHeartbeatSender.1.connection = s.connection ∧ s.stopHeartbeatSender.1.connections = s.connections ∧
      s.stopHeartbeatSender.1.stoppedBy = s.stoppedBy := by
  unfold stopHeartbeatSender
  split <;> exact ⟨rfl, rfl, rfl⟩

/-- The stop of a sender is awaited only if one was running. -/
theorem beats_of_suspended (h : s.stopHeartbeatSender.2 = true) : ∃ i n, s.Beats i n := by
  unfold stopHeartbeatSender at h
  split at h
  · cases h
  · next i hi =>
    obtain ⟨⟨n, running⟩, hy, hrunning⟩ := (Option.any_eq_true _ _).mp h
    obtain rfl : running = true := hrunning
    exact ⟨i, n, hy⟩

theorem beats_of_mem_stoppedNow (h : m ∈ s.stoppedNow) : ∃ i, s.Beats i m := by
  unfold stoppedNow at h
  split at h
  · cases h
  · next i hi =>
    obtain ⟨⟨n, running⟩, hy, rfl⟩ := List.mem_map.mp h
    obtain ⟨hy, hrunning⟩ := List.mem_filter.mp hy
    obtain rfl : running = true := hrunning
    exact ⟨i, Option.mem_toList.mp hy⟩

/-! ## The close task -/

/-- The callback of a connection stops no sender but its own. -/
theorem winds_runClosedCallback (h : s.Slotted) (hclosing : (s.connections n).state = .closing)
    (hown : ∀ i m, s.Beats i m → m = n) :
    Winds s (s.runClosedCallback n) ∧ ∀ i m, ¬ (s.runClosedCallback n).Beats i m := by
  have hslot : (s.onConnectionClosed n).Slotted := h
  have hnone := not_beats_stopHeartbeatSender hslot
  have hw := winds_stopHeartbeatSender hslot
  obtain ⟨hconn, hconns, hstopped⟩ := stopHeartbeatSender_frame (s.onConnectionClosed n)
  have hsuspended : (∀ i m, ¬ s.Beats i m) → (s.onConnectionClosed n).stopHeartbeatSender.2 = false := fun hno => by
    by_contra hsusp
    obtain ⟨i, m, hb⟩ := beats_of_suspended (Bool.of_not_eq_false hsusp)
    exact hno i m hb
  unfold runClosedCallback
  dsimp only
  generalize (s.onConnectionClosed n).stopHeartbeatSender = stop at hnone hw hconn hconns hstopped hsuspended
  have hself : stop.1.connections n = s.connections n := congrFun hconns n
  have hother : ∀ {m}, m ≠ n → ∀ x, (stop.1.setConnection n x).connections m = s.connections m := fun hm x =>
    (setConnection_of_ne hm stop.1 x).trans (congrFun hconns _)
  have hcur : ∀ {m}, s.connection = some m → m ≠ n → stop.1.connection = some m := fun hm hne => by
    rw [hconn]
    unfold onConnectionClosed
    dsimp only
    rw [if_neg (by rw [hm]; exact fun he => hne (Option.some.inj he)), hm]
  refine ⟨⟨hw.lifecycle, hw.supervisors, hw.teardowns, hw.next, fun m => ?_, fun i m hb => absurd hb (hnone i m),
    fun i m hb => absurd hb (hnone i m), fun hno m ha => ?_, fun m hm => ?_, fun p hp => ?_⟩, hnone⟩
  · show (s.connections m).Winds ((stop.1.setConnection n _).connections m)
    by_cases hm : m = n
    · subst hm
      rw [setConnection_self, hself]
      exact ClientConnection.winds_afterCallback hclosing _
    · rw [hother hm]
      exact .refl _
  · by_cases hm : m = n
    · subst hm
      refine .inr ?_
      show ((stop.1.setConnection m _).connections m).state = _
      rw [setConnection_self, hsuspended hno]
      rfl
    · refine .inl ⟨hcur ha.1 hm, ?_⟩
      show ((stop.1.setConnection n _).connections m).spent = false
      rw [hother hm]
      exact ha.2
  · by_cases hm' : m = n
    · subst hm'
      refine .inr ?_
      show ((stop.1.setConnection m _).connections m).spent = true
      rw [setConnection_self]
      rw [hself]
      exact ClientConnection.spent_afterCallback hclosing _
    · exact .inl (hcur hm hm')
  · rcases List.mem_append.mp hp with hp | hp
    · exact .inl (hstopped ▸ hp)
    · obtain ⟨m, hm, rfl⟩ := List.mem_map.mp hp
      obtain ⟨i, hb⟩ := beats_of_mem_stoppedNow hm
      exact .inr (hown i m hb)

/-! ## What holds at the places of the last supervisor -/

/-- The callback of each connection of the run has run, apart from that of `n`. -/
def SettledBut (s : ClientHeartbeats) (run n : Nat) : Prop :=
  ∀ m < s.nextConnection, (s.connections m).run = run → m ≠ n → (s.connections m).spent = true

/-- The callback of each connection of the run has run. -/
def Settled (s : ClientHeartbeats) (run : Nat) : Prop :=
  ∀ m < s.nextConnection, (s.connections m).run = run → (s.connections m).spent = true

theorem SettledBut.settled (h : s.SettledBut run n) (hran : (s.connections n).spent = true) : s.Settled run :=
  fun m hm hmrun => by
    by_cases hmn : m = n
    · exact hmn ▸ hran
    · exact h m hm hmrun hmn

/-- What holds of a running client at the place of its last supervisor. -/
def Held (s : ClientHeartbeats) (run : Nat) : SupervisionPc → Prop
  | .created | .away | .connecting | .tearingHeartbeat | .tearingDown _ => s.Settled run
  | .opening n =>
    n < s.nextConnection ∧ (s.connections n).run = run ∧ (s.Attached n ∨ (s.connections n).state = .closed) ∧ s.SettledBut run n
  | .abandoning n _ | .discarding n => s.SettledBut run n
  | .parked =>
    ∀ m < s.nextConnection, (s.connections m).run = run → (s.connections m).spent = true ∨ s.connection = some m
  | .finalHeartbeat | .finalClosing _ | .ended => True

theorem Winds.settledBut (hw : Winds s t) (h : s.SettledBut run n) : t.SettledBut run n := fun m hm hrun hne =>
  (hw.connections m).spent (h m (hw.next ▸ hm) ((hw.connections m).run.symm.trans hrun) hne)

theorem Winds.settled (hw : Winds s t) (h : s.Settled run) : t.Settled run := fun m hm hrun =>
  (hw.connections m).spent (h m (hw.next ▸ hm) ((hw.connections m).run.symm.trans hrun))

/-- Winding down keeps it, also during an opening, when no sender is running. -/
theorem Winds.held (hw : Winds s t) (hno : pc ≠ .parked → ∀ i n, ¬ s.Beats i n) (h : s.Held run pc) : t.Held run pc := by
  cases pc with
  | created | away | connecting | tearingHeartbeat | tearingDown => exact hw.settled h
  | opening n =>
    obtain ⟨hn, hrun, hopen, hbut⟩ := h
    refine ⟨hw.next ▸ hn, (hw.connections n).run.trans hrun, ?_, hw.settledBut hbut⟩
    rcases hopen with ha | hclosed
    · exact hw.attached (hno nofun) n ha
    · exact .inr ((hw.connections n).closed hclosed)
  | abandoning n cause | discarding n => exact hw.settledBut h
  | parked =>
    intro m hm hrun
    rcases h m (hw.next ▸ hm) ((hw.connections m).run.symm.trans hrun) with hran | hcur
    · exact .inl ((hw.connections m).spent hran)
    · exact (hw.detached m hcur).symm
  | finalHeartbeat | finalClosing | ended => trivial

theorem Held.of_eq (h : s.Held run pc) (hconn : t.connection = s.connection) (hconns : t.connections = s.connections)
    (hnext : t.nextConnection = s.nextConnection) : t.Held run pc := by
  have hattached : ∀ n, s.Attached n → t.Attached n := fun n ha => ⟨hconn.trans ha.1, hconns ▸ ha.2⟩
  have hbut : ∀ n, s.SettledBut run n → t.SettledBut run n := fun n hb => by
    unfold SettledBut
    rw [hconns, hnext]
    exact hb
  cases pc with
  | created | away | connecting | tearingHeartbeat | tearingDown =>
    unfold Held Settled
    rw [hconns, hnext]
    exact h
  | opening n =>
    obtain ⟨hn, hrun, hopen, hsettled⟩ := h
    exact ⟨hnext ▸ hn, hconns ▸ hrun, hopen.imp (hattached n) (fun hc => hconns ▸ hc), hbut n hsettled⟩
  | abandoning n cause | discarding n => exact hbut n h
  | parked =>
    unfold Held
    rw [hconns, hnext, hconn]
    exact h
  | finalHeartbeat | finalClosing | ended => trivial

/-! ## The invariant -/

/-- The last supervisor, that of the run, is parked. -/
def InSession (s : ClientHeartbeats) (run : Nat) : Prop :=
  run + 1 = s.supervisors.length ∧ ∃ v, s.supervisors[run]? = some v ∧ v.pc = .parked

/-- What every wound-up run keeps. A sender is running only while the last supervisor is parked, and then no other connection
has its callback still to come. -/
structure Kept (s : ClientHeartbeats) : Prop where
  slotted : s.Slotted
  attached : ∀ i n, s.Beats i n → s.Attached n
  session : ∀ i n, s.Beats i n → n < s.nextConnection ∧ s.InSession (s.connections n).run ∧
    ∀ m < s.nextConnection, m ≠ n → (s.connections m).spent = true
  sound : ∀ n, (s.connections n).Sound
  runs : ∀ n < s.nextConnection, (s.connections n).run < s.supervisors.length
  older : ∀ k v, s.supervisors[k]? = some v → k + 1 < s.supervisors.length → v.pc.left = true ∨ v.doomed = true
  held : s.lifecycle = .running → ∀ k v, s.supervisors[k]? = some v → k + 1 = s.supervisors.length → s.Held k v.pc
  planned : ∀ p ∈ s.teardowns, p.runs ≤ s.supervisors.length ∧ (s.lifecycle = .running → p.runs < s.supervisors.length)
  stopped : ∀ p ∈ s.teardowns, p.pc ≠ .waiting → ∀ i n, s.Beats i n → p.runs ≤ (s.connections n).run
  stoppedBy : ∀ p ∈ s.stoppedBy, p.2 = p.1

theorem Kept.owned (h : s.Kept) : s.Owned where
  one i j n m hn hm := Option.some.inj ((h.slotted i n hn).symm.trans (h.slotted j m hm))
  current i n hb := (h.attached i n hb).1
  closed i n hb := by
    exact (h.sound n).open_of_not_spent (h.attached i n hb).2
  stopped i n p hb hp hdone := h.stopped p hp (by simp [hdone]) i n hb
  older := h.stoppedBy

/-- While the last supervisor is not parked, no sender is running. -/
theorem Kept.quiet (h : s.Kept) {v : Supervision} (hv : s.supervisors[run]? = some v) (hlast : run + 1 = s.supervisors.length)
    (hpc : v.pc ≠ .parked) (i n : Nat) : ¬ s.Beats i n := by
  intro hb
  obtain ⟨-, ⟨hlast', v', hv', hpark⟩, -⟩ := h.session i n hb
  obtain rfl : (s.connections n).run = run := by omega
  obtain rfl := Option.some.inj (hv.symm.trans hv')
  exact hpc hpark

theorem Kept.winds (h : s.Kept) (hw : Winds s t) : t.Kept where
  slotted i n hb := by
    have hb' := hw.beats i n hb
    exact (hw.kept i n hb (h.attached i n hb')).1.trans (h.slotted i n hb')
  attached i n hb := (hw.kept i n hb (h.attached i n (hw.beats i n hb))).2
  session i n hb := by
    obtain ⟨hn, hsession, hothers⟩ := h.session i n (hw.beats i n hb)
    refine ⟨hw.next ▸ hn, ?_, fun m hm hne => (hw.connections m).spent (hothers m (hw.next ▸ hm) hne)⟩
    unfold InSession at hsession ⊢
    rw [hw.supervisors, (hw.connections n).run]
    exact hsession
  sound := hw.sound h.sound
  runs n hn := by
    rw [hw.supervisors, (hw.connections n).run]
    exact h.runs n (hw.next ▸ hn)
  older k v hv hk := by
    rw [hw.supervisors] at hv hk
    exact h.older k v hv hk
  held hrun k v hv hk := by
    rw [hw.supervisors] at hv hk
    exact hw.held (fun hpc => h.quiet hv hk hpc) (h.held (hw.lifecycle ▸ hrun) k v hv hk)
  planned p hp := by
    rw [hw.supervisors, hw.lifecycle]
    exact h.planned p (hw.teardowns ▸ hp)
  stopped p hp hpc i n hb := by
    rw [(hw.connections n).run]
    exact h.stopped p (hw.teardowns ▸ hp) hpc i n (hw.beats i n hb)
  stoppedBy p hp := (hw.stoppedBy p hp).elim (h.stoppedBy p) id

theorem Kept.setSupervisor (h : s.Kept) {v : Supervision} (hv : s.supervisors[run]? = some v)
    (hleft : pc.left = true ∨ run + 1 = s.supervisors.length)
    (hquiet : run + 1 = s.supervisors.length → pc ≠ .parked → ∀ i n, ¬ s.Beats i n)
    (hheld : s.lifecycle = .running → run + 1 = s.supervisors.length → s.Held run pc) :
    Kept { s with supervisors := s.supervisors.set run { pc } } := by
  have hlen : (s.supervisors.set run { pc }).length = s.supervisors.length := List.length_set
  have hself : (s.supervisors.set run { pc })[run]? = some { pc } :=
    List.getElem?_set_self (List.getElem?_eq_some_iff.mp hv).1
  have hother : ∀ {k}, k ≠ run → (s.supervisors.set run { pc })[k]? = s.supervisors[k]? := fun hk =>
    List.getElem?_set_ne (Ne.symm hk)
  exact
    { slotted := h.slotted
      attached := h.attached
      session := fun i n hb => by
        obtain ⟨hn, ⟨hlast, w, hw, hpark⟩, hothers⟩ := h.session i n hb
        refine ⟨hn, ⟨hlast.trans hlen.symm, ?_⟩, hothers⟩
        by_cases hk : (s.connections n).run = run
        · refine ⟨{ pc }, ?_, ?_⟩
          · show (s.supervisors.set run { pc })[(s.connections n).run]? = _
            rw [hk]
            exact hself
          · by_contra hpc
            exact hquiet (hk ▸ hlast) hpc i n hb
        · exact ⟨w, (hother hk).trans hw, hpark⟩
      sound := h.sound
      runs := fun n hn => lt_of_lt_of_eq (h.runs n hn) hlen.symm
      older := fun k w hw hk => by
        have hk' : k + 1 < s.supervisors.length := lt_of_lt_of_eq hk hlen
        by_cases hkr : k = run
        · subst hkr
          obtain rfl := Option.some.inj (hself.symm.trans hw)
          exact .inl (hleft.resolve_right (by omega))
        · exact h.older k w ((hother hkr).symm.trans hw) hk'
      held := fun hrun k w hw hk => by
        have hk' : k + 1 = s.supervisors.length := hk.trans hlen
        refine Held.of_eq (s := s) ?_ rfl rfl rfl
        by_cases hkr : k = run
        · subst hkr
          obtain rfl := Option.some.inj (hself.symm.trans hw)
          exact hheld hrun hk'
        · exact h.held hrun k w ((hother hkr).symm.trans hw) hk'
      planned := fun p hp => by
        show p.runs ≤ (s.supervisors.set run { pc }).length ∧ (_ → p.runs < (s.supervisors.set run { pc }).length)
        rw [hlen]
        exact h.planned p hp
      stopped := h.stopped
      stoppedBy := h.stoppedBy }

/-! ## Supervision -/

/-- A segment of the supervisor of the run `run` winds down, and gets to a place that it keeps. -/
structure Goes (s : ClientHeartbeats) (run : Nat) (r : ClientHeartbeats × SupervisionPc) : Prop where
  winds : Winds s r.1
  left : r.2.left = true ∨ run + 1 = s.supervisors.length
  quiet : run + 1 = s.supervisors.length → r.2 ≠ .parked → ∀ i n, ¬ r.1.Beats i n
  held : s.lifecycle = .running → run + 1 = s.supervisors.length → r.1.Held run r.2

theorem Goes.after {r : ClientHeartbeats × SupervisionPc} (h : Goes t run r) (hw : Winds s t) : Goes s run r where
  winds := hw.trans h.winds
  left := hw.supervisors ▸ h.left
  quiet := hw.supervisors ▸ h.quiet
  held := hw.supervisors ▸ hw.lifecycle ▸ h.held

/-- The last supervisor winds down, and it was not parked. -/
theorem Kept.goes_of_winds (h : s.Kept) {v : Supervision} (hv : s.supervisors[run]? = some v)
    (hlast : run + 1 = s.supervisors.length) (hpc : v.pc ≠ .parked) (hw : Winds s t)
    (hheld : s.lifecycle = .running → t.Held run pc) : Goes s run (t, pc) where
  winds := hw
  left := .inr hlast
  quiet _ _ i n hb := h.quiet hv hlast hpc i n (hw.beats i n hb)
  held hrun _ := hheld hrun

/-- The supervisor stays where it is, or goes on without doing anything. -/
theorem Kept.goes_self (h : s.Kept) {v : Supervision} (hv : s.supervisors[run]? = some v)
    (hlast : run + 1 = s.supervisors.length) (hpc : v.pc ≠ .parked) (hheld : s.lifecycle = .running → s.Held run pc) :
    Goes s run (s, pc) :=
  h.goes_of_winds hv hlast hpc (.refl s) hheld

theorem goes_parked (hlast : run + 1 = s.supervisors.length) (hheld : s.lifecycle = .running → s.Held run .parked) :
    Goes s run (s, .parked) where
  winds := .refl s
  left := .inr hlast
  quiet _ hpc := absurd rfl hpc
  held hrun _ := hheld hrun

theorem Kept.goes_finalClose (h : s.Kept) (hno : run + 1 = s.supervisors.length → ∀ i n, ¬ s.Beats i n) :
    Goes s run s.finalClose := by
  have hw := winds_beginClosing h.sound
  unfold finalClose
  generalize s.beginClosing = r at hw
  obtain ⟨t, target⟩ := r
  cases target with
  | none => exact ⟨hw, .inl rfl, fun hl _ i n hb => hno hl i n (hw.beats i n hb), fun _ _ => trivial⟩
  | some m => exact ⟨hw, .inl rfl, fun hl _ i n hb => hno hl i n (hw.beats i n hb), fun _ _ => trivial⟩

/-- The supervisor leaves its loop, and no sender is running. -/
theorem Kept.goes_shutdown (h : s.Kept) : Goes s run s.shutdownActiveResources := by
  have hw := winds_stopHeartbeatSender h.slotted
  have hno := not_beats_stopHeartbeatSender h.slotted
  unfold shutdownActiveResources
  dsimp only
  split
  · exact ⟨hw, .inl rfl, fun _ _ => hno, fun _ _ => trivial⟩
  · exact ((h.winds hw).goes_finalClose fun _ => hno).after hw

theorem Kept.goes_teardownClose (h : s.Kept) (hlast : run + 1 = s.supervisors.length) (hno : ∀ i n, ¬ s.Beats i n)
    (hheld : s.lifecycle = .running → s.Settled run) : Goes s run s.teardownClose := by
  have hw := winds_beginClosing h.sound
  unfold teardownClose
  generalize s.beginClosing = r at hw
  obtain ⟨t, target⟩ := r
  have hno' : ∀ i n, ¬ t.Beats i n := fun i n hb => hno i n (hw.beats i n hb)
  cases target with
  | none => exact ⟨hw, .inr hlast, fun _ _ => hno', fun hrun _ => hw.settled (hheld hrun)⟩
  | some m => exact ⟨hw, .inr hlast, fun _ _ => hno', fun hrun _ => hw.settled (hheld hrun)⟩

theorem Kept.goes_teardownAfterFailure (h : s.Kept) (hlast : run + 1 = s.supervisors.length)
    (hheld : s.lifecycle = .running → s.Settled run) : Goes s run s.teardownAfterFailure := by
  have hw := winds_stopHeartbeatSender h.slotted
  have hno := not_beats_stopHeartbeatSender h.slotted
  have hheld' : s.stopHeartbeatSender.1.lifecycle = .running → s.stopHeartbeatSender.1.Settled run := fun hrun =>
    hw.settled (hheld (hw.lifecycle ▸ hrun))
  unfold teardownAfterFailure
  dsimp only
  split
  · exact ⟨hw, .inr hlast, fun _ _ => hno, fun hrun _ => hw.settled (hheld hrun)⟩
  · exact ((h.winds hw).goes_teardownClose (hw.supervisors ▸ hlast) hno hheld').after hw

theorem Kept.goes_attemptSucceeded (h : s.Kept) (hlast : run + 1 = s.supervisors.length)
    (hheld : s.lifecycle = .running → s.Held run .parked) : Goes s run s.attemptSucceeded := by
  unfold attemptSucceeded
  split
  · exact goes_parked hlast hheld
  · exact h.goes_shutdown

/-- The supervisor wakes: it goes on when the current connection is gone, and then no sender is running. -/
theorem Kept.goes_connectionTerminated (h : s.Kept) (hlast : run + 1 = s.supervisors.length)
    (hheld : s.lifecycle = .running → s.Held run .parked) : Goes s run s.connectionTerminated := by
  unfold connectionTerminated
  split
  · split
    · next hgone =>
      have hclosed : ∀ n, s.connection = some n → (s.connections n).spent = true := fun n hn => by
        rw [hn] at hgone
        exact (h.sound n).spent_of_closed (of_decide_eq_true hgone)
      refine ⟨.refl s, .inr hlast, fun _ _ i n hb => ?_, fun hrun _ m hm hmrun => ?_⟩
      · have ha := h.attached i n hb
        cases ha.2.symm.trans (hclosed n ha.1)
      · exact (hheld hrun m hm hmrun).elim id (hclosed m)
    · exact goes_parked hlast hheld
  · exact h.goes_shutdown

/-- After an opening the supervisor parks; a connection that is neither attached nor `CLOSED` is not wanted any more. -/
theorem Kept.goes_connectOnce (h : s.Kept) {v : Supervision} (hv : s.supervisors[run]? = some v) (hpc : v.pc ≠ .parked)
    (hlast : run + 1 = s.supervisors.length) (hheld : s.lifecycle = .running → s.Held run (.opening n))
    (hno : ¬ (s.connection = some n ∧ s.lifecycle = .running ∧ (s.connections n).state = .connected)) :
    Goes s run (s.connectOnce settings n) := by
  have hparked : s.lifecycle = .running → s.Held run .parked := fun hrun m hm hmrun => by
    obtain ⟨-, -, hn, hbut⟩ := hheld hrun
    by_cases hmn : m = n
    · subst hmn
      rcases hn with ha | hclosed
      · exact .inr ha.1
      · exact .inl ((h.sound m).spent_of_closed hclosed)
    · exact .inl (hbut m hm hmrun hmn)
  unfold connectOnce
  split
  · next hcur =>
    split
    · next hconnected => exact absurd ⟨hcur, hconnected⟩ hno
    · exact h.goes_attemptSucceeded hlast hparked
  · next hcur =>
    split
    · next hunwanted =>
      split
      · exact h.goes_attemptSucceeded hlast hparked
      · next hopen =>
        refine h.goes_of_winds hv hlast hpc (winds_requestClose s n) fun hrun => ?_
        exact hunwanted.elim (absurd hrun) fun hclosed => absurd hclosed hopen
    · next hwanted =>
      rw [not_or, not_not] at hwanted
      exact absurd ((hheld hwanted.1).2.2.1.resolve_right hwanted.2).1 hcur

/-! ## The start of a sender, and an opening -/

theorem startHeartbeatSender_frame (settings : TcpClientSettings) (s : ClientHeartbeats) (n : Nat) :
    ∃ heartbeatSender senders, s.startHeartbeatSender settings n = { s with heartbeatSender, senders } := by
  unfold startHeartbeatSender
  split
  · exact ⟨_, _, rfl⟩
  · exact ⟨none, s.senders, rfl⟩

theorem beats_startHeartbeatSender (hb : (s.startHeartbeatSender settings n).Beats i m) :
    s.Beats i m ∨ m = n ∧ (s.startHeartbeatSender settings n).heartbeatSender = some i := by
  unfold startHeartbeatSender at hb ⊢
  split at hb
  · next henabled =>
    rw [if_pos henabled]
    have hb' : (s.senders ++ [⟨n, true⟩])[i]? = some ⟨m, true⟩ := hb
    rcases Nat.lt_trichotomy i s.senders.length with hi | rfl | hi
    · exact .inl ((List.getElem?_append_left hi).symm.trans hb')
    · rw [List.getElem?_concat_length] at hb'
      cases hb'
      exact .inr ⟨rfl, rfl⟩
    · rw [List.getElem?_eq_none (by simp only [List.length_append, List.length_singleton]; omega)] at hb'
      cases hb'
  · exact .inl hb

/-- A sender is started for the current connection, when no other one is running and no other callback is still to come. -/
theorem Kept.startHeartbeatSender (settings : TcpClientSettings) (h : s.Kept) (hlife : s.lifecycle = .running)
    (ha : s.Attached n) (hn : n < s.nextConnection) (hsession : s.InSession (s.connections n).run) (hno : ∀ i m, ¬ s.Beats i m)
    (hothers : ∀ m < s.nextConnection, m ≠ n → (s.connections m).spent = true) :
    (s.startHeartbeatSender settings n).Kept := by
  have hbeats : ∀ i m, (s.startHeartbeatSender settings n).Beats i m →
      m = n ∧ (s.startHeartbeatSender settings n).heartbeatSender = some i := fun i m hb =>
    (beats_startHeartbeatSender hb).resolve_left (hno i m)
  obtain ⟨slot, senders, heq⟩ := startHeartbeatSender_frame settings s n
  rw [heq] at hbeats ⊢
  exact
    { slotted := fun i m hb => (hbeats i m hb).2
      attached := fun i m hb => by
        obtain ⟨rfl, -⟩ := hbeats i m hb
        exact ha
      session := fun i m hb => by
        obtain ⟨rfl, -⟩ := hbeats i m hb
        exact ⟨hn, hsession, hothers⟩
      sound := h.sound
      runs := h.runs
      older := h.older
      held := fun hrun k v hv hk => (h.held hrun k v hv hk).of_eq rfl rfl rfl
      planned := h.planned
      stopped := fun p hp _ i m hb => by
        obtain ⟨rfl, -⟩ := hbeats i m hb
        have hplan := (h.planned p hp).2 hlife
        have hrun := hsession.1
        show p.runs ≤ (s.connections m).run
        omega
      stoppedBy := h.stoppedBy }

theorem Kept.connectOnce (h : s.Kept) {v : Supervision} (hv : s.supervisors[run]? = some v) (hpc : v.pc = .opening n)
    (hlast : run + 1 = s.supervisors.length) (hcur : s.connection = some n) (hlife : s.lifecycle = .running)
    (hconnected : (s.connections n).state = .connected)
    (hearlier : ∀ m < s.nextConnection, (s.connections m).run < run → (s.connections m).spent = true) :
    Kept
      { (s.connectOnce settings n).1 with
        supervisors := (s.connectOnce settings n).1.supervisors.set run { pc := (s.connectOnce settings n).2 } } := by
  have hheld := h.held hlife run v hv hlast
  rw [hpc] at hheld
  obtain ⟨hn, hrun, hopen, hbut⟩ := hheld
  have ha : s.Attached n := hopen.resolve_right (by simp [hconnected])
  have hothers : ∀ m < s.nextConnection, m ≠ n → (s.connections m).spent = true := fun m hm hne => by
    have hlt := h.runs m hm
    rcases Nat.lt_or_ge (s.connections m).run run with hlt' | hge
    · exact hearlier m hm hlt'
    · exact hbut m hm (by omega) hne
  have hno : ∀ i m, ¬ s.Beats i m := h.quiet hv hlast (by simp [hpc])
  have hparked : Kept { s with supervisors := s.supervisors.set run { pc := .parked } } :=
    h.setSupervisor hv (.inr hlast) (fun _ hne => absurd rfl hne) fun _ _ m hm hmrun => by
      by_cases hmn : m = n
      · exact .inr (hmn ▸ hcur)
      · exact .inl (hothers m hm hmn)
  have hsession : InSession { s with supervisors := s.supervisors.set run { pc := .parked } } (s.connections n).run := by
    rw [hrun]
    exact ⟨hlast.trans List.length_set.symm, _, List.getElem?_set_self (List.getElem?_eq_some_iff.mp hv).1, rfl⟩
  have hkept := hparked.startHeartbeatSender settings hlife ha hn hsession hno hothers
  have hturn : s.connectOnce settings n = (s.startHeartbeatSender settings n, .parked) := by
    obtain ⟨slot, senders, heq⟩ := startHeartbeatSender_frame settings s n
    unfold ClientHeartbeats.connectOnce attemptSucceeded
    rw [if_pos hcur, if_pos ⟨hlife, hconnected⟩, heq, if_pos (by rw [running, hlife]; rfl)]
  rw [hturn]
  unfold ClientHeartbeats.startHeartbeatSender at hkept ⊢
  split at hkept
  · next henabled =>
    rw [if_pos henabled]
    exact hkept
  · next henabled =>
    rw [if_neg henabled]
    exact hkept

theorem openConnection_eq (s : ClientHeartbeats) (run : Nat) :
    s.openConnection run =
      ({ s.setConnection s.nextConnection { run, state := .connected } with
          nextConnection := s.nextConnection + 1
          connection := if s.lifecycle = .running then some s.nextConnection else s.connection },
        .opening s.nextConnection) := by
  by_cases hlife : s.lifecycle = .running
  · simp only [openConnection, setConnection, hlife, if_true]
  · simp only [openConnection, setConnection, hlife, if_false]

theorem Kept.openConnection (h : s.Kept) {v : Supervision} (hv : s.supervisors[run]? = some v) (hpc : v.pc = .connecting)
    (hlast : run + 1 = s.supervisors.length) :
    Kept
      { (s.openConnection run).1 with
        supervisors := (s.openConnection run).1.supervisors.set run { pc := (s.openConnection run).2 } } := by
  have hno : ∀ i m, ¬ s.Beats i m := h.quiet hv hlast (by simp [hpc])
  let x : ClientConnection := { run, state := .connected }
  have hself : (s.setConnection s.nextConnection x).connections s.nextConnection = x := setConnection_self ..
  have hother : ∀ {m}, m ≠ s.nextConnection → (s.setConnection s.nextConnection x).connections m = s.connections m := fun hm =>
    setConnection_of_ne hm s x
  have hlen : (s.supervisors.set run { pc := .opening s.nextConnection }).length = s.supervisors.length := List.length_set
  have hsound : ∀ m, ((s.setConnection s.nextConnection x).connections m).Sound := fun m => by
    by_cases hm : m = s.nextConnection
    · rw [hm, hself]
      exact .opened rfl rfl (by simp [x]) (by simp [x])
    · rw [hother hm]
      exact h.sound m
  rw [openConnection_eq]
  refine ⟨fun i m hb => absurd hb (hno i m), fun i m hb => absurd hb (hno i m), fun i m hb => absurd hb (hno i m), hsound,
    fun m hm => ?_, fun k w hw hk => ?_, fun hlife k w hw hk => ?_, fun p hp => ?_, fun p _ _ i m hb => absurd hb (hno i m),
    h.stoppedBy⟩
  · show ((s.setConnection s.nextConnection x).connections m).run < (s.supervisors.set run _).length
    rw [hlen]
    by_cases hm' : m = s.nextConnection
    · rw [hm', hself]
      show run < _
      omega
    · rw [hother hm']
      have hm'' : m < s.nextConnection + 1 := hm
      exact h.runs m (by omega)
  · have hk' : k + 1 < s.supervisors.length := lt_of_lt_of_eq hk hlen
    exact h.older k w ((List.getElem?_set_ne (by omega)).symm.trans hw) hk'
  · have hk' : k + 1 = s.supervisors.length := hk.trans hlen
    obtain rfl : k = run := by omega
    have hset := List.getElem?_set_self (a := ({ pc := .opening s.nextConnection } : Supervision))
      (List.getElem?_eq_some_iff.mp hv).1
    obtain rfl := Option.some.inj (hset.symm.trans hw)
    have hlife' : s.lifecycle = .running := hlife
    have hheld := h.held hlife' k v hv hlast
    rw [hpc] at hheld
    refine ⟨Nat.lt_succ_self _, congrArg ClientConnection.run hself, .inl ⟨if_pos hlife', ?_⟩, fun m hm hmrun hne => ?_⟩
    · show ((s.setConnection s.nextConnection x).connections s.nextConnection).spent = false
      rw [hself]
      rfl
    · have hm' : m < s.nextConnection + 1 := hm
      have hmrun' : ((s.setConnection s.nextConnection x).connections m).run = k := hmrun
      show ((s.setConnection s.nextConnection x).connections m).spent = true
      rw [hother hne] at hmrun' ⊢
      exact hheld m (by omega) hmrun'
  · show p.runs ≤ (s.supervisors.set run _).length ∧ (_ → p.runs < (s.supervisors.set run _).length)
    rw [hlen]
    exact h.planned p hp

/-! ## The steps -/

theorem Kept.of_goes (h : s.Kept) {v : Supervision} (hv : s.supervisors[run]? = some v)
    {r : ClientHeartbeats × SupervisionPc} (hr : Goes s run r) :
    Kept { r.1 with supervisors := r.1.supervisors.set run { pc := r.2 } } := by
  have hw := hr.winds
  have hsup : r.1.supervisors = s.supervisors := hw.supervisors
  exact (h.winds hw).setSupervisor (hsup ▸ hv) (hsup ▸ hr.left) (hsup ▸ hr.quiet) fun hlife => hsup ▸ hr.held (hw.lifecycle ▸ hlife)

/-- A supervisor of an earlier run is out of its loop, or leaves it. -/
theorem Kept.goes_earlier (h : s.Kept) {v : Supervision} (hearlier : run + 1 < s.supervisors.length)
    (hleft : v.pc.left = true ∨ v.doomed = true) (hmove : ¬ (v.doomed && move != .leave) = true)
    {r : ClientHeartbeats × SupervisionPc} (hr : s.supervisionTurn settings run v.pc move = some r) : Goes s run r := by
  have hended : ∀ {t}, Winds s t → Goes s run (t, .ended) := fun hw =>
    ⟨hw, .inl rfl, fun hl => by omega, fun _ hl => by omega⟩
  rcases hleft with hleft | hdoomed
  · generalize v.pc = pc at hleft hr
    cases pc with
    | finalHeartbeat =>
      cases move with
      | goOn => cases hr; exact h.goes_finalClose fun hl => by omega
      | leave | fail => cases hr; exact hended (.refl s)
    | finalClosing n =>
      cases move with
      | goOn | fail =>
        simp only [supervisionTurn] at hr
        split at hr
        · next hran => cases hr; exact hended (winds_detach hran)
        · cases hr
      | leave => cases hr
    | ended => cases move <;> cases hr
    | _ => cases hleft
  · have hwaits : v.pc.waits = true := (Bool.and_eq_true_iff.mp hdoomed).2
    obtain rfl : move = .leave := by
      by_contra hne
      exact hmove (by simp [hdoomed, hne])
    generalize v.pc = pc at hwaits hr
    cases pc with
    | created => cases hr; exact hended (.refl s)
    | parked => cases hr; exact h.goes_shutdown
    | _ => cases hwaits

/-- The last supervisor, apart from an opening and the start of a sender. -/
theorem Kept.goes_last (h : s.Kept) {v : Supervision} (hv : s.supervisors[run]? = some v) (hlast : run + 1 = s.supervisors.length)
    (hopen : ¬ (v.pc = .connecting ∧ move = .goOn))
    (hstart : ∀ n, v.pc = .opening n → move = .goOn →
      ¬ (s.connection = some n ∧ s.lifecycle = .running ∧ (s.connections n).state = .connected))
    {r : ClientHeartbeats × SupervisionPc} (hr : s.supervisionTurn settings run v.pc move = some r) : Goes s run r := by
  have hheld := fun hlife => h.held hlife run v hv hlast
  have hshutdown : Goes s run s.shutdownActiveResources := h.goes_shutdown
  cases hpc : v.pc with
  | created =>
    rw [hpc] at hr hheld
    cases move with
    | goOn =>
      cases hr
      split
      · exact h.goes_self hv hlast (by simp [hpc]) hheld
      · exact hshutdown
    | leave => cases hr; exact h.goes_self hv hlast (by simp [hpc]) fun _ => trivial
    | fail => cases hr
  | away =>
    rw [hpc] at hr hheld
    cases move with
    | goOn =>
      cases hr
      split
      · exact h.goes_self hv hlast (by simp [hpc]) hheld
      · exact hshutdown
    | leave => cases hr; exact hshutdown
    | fail => cases hr; exact h.goes_teardownAfterFailure hlast hheld
  | connecting =>
    rw [hpc] at hr hheld
    cases move with
    | goOn => exact absurd ⟨hpc, rfl⟩ hopen
    | leave => cases hr; exact hshutdown
    | fail => cases hr; exact h.goes_self hv hlast (by simp [hpc]) hheld
  | opening n =>
    rw [hpc] at hr hheld
    have hw := winds_requestClose s n
    have habandon : ∀ cause, Goes s run (s.requestClose n, .abandoning n cause) := fun cause =>
      h.goes_of_winds hv hlast (by simp [hpc]) hw fun hlife => hw.settledBut (hheld hlife).2.2.2
    cases move with
    | goOn =>
      cases hr
      exact h.goes_connectOnce hv (by simp [hpc]) hlast hheld (hstart n hpc rfl)
    | leave => cases hr; exact habandon .leave
    | fail => cases hr; exact habandon .fail
  | abandoning n cause =>
    rw [hpc] at hr hheld
    cases move with
    | goOn | fail =>
      simp only [supervisionTurn] at hr
      split at hr
      · next hran =>
        cases hr
        split
        · exact h.goes_self hv hlast (by simp [hpc]) fun hlife => SettledBut.settled (hheld hlife) hran
        · exact hshutdown
      · cases hr
    | leave => cases hr
  | discarding n =>
    rw [hpc] at hr hheld
    cases move with
    | goOn | fail =>
      simp only [supervisionTurn] at hr
      split at hr
      · next hran =>
        cases hr
        exact h.goes_attemptSucceeded hlast fun hlife m hm hmrun => .inl (SettledBut.settled (hheld hlife) hran m hm hmrun)
      · cases hr
    | leave => cases hr
  | parked =>
    rw [hpc] at hr hheld
    cases move with
    | goOn => cases hr; exact h.goes_connectionTerminated hlast hheld
    | leave => cases hr; exact hshutdown
    | fail => cases hr
  | tearingHeartbeat =>
    rw [hpc] at hr hheld
    cases move with
    | goOn => cases hr; exact h.goes_teardownClose hlast (h.quiet hv hlast (by simp [hpc])) hheld
    | leave | fail => cases hr; exact hshutdown
  | tearingDown n =>
    rw [hpc] at hr hheld
    cases move with
    | goOn =>
      simp only [supervisionTurn] at hr
      split at hr
      · next hran =>
        have hw := winds_detach hran
        cases hr
        exact h.goes_of_winds hv hlast (by simp [hpc]) hw fun hlife => hw.settled (hheld hlife)
      · cases hr
    | leave | fail =>
      simp only [supervisionTurn] at hr
      split at hr
      · next hran =>
        have hw := winds_detach hran
        cases hr
        exact (h.winds hw).goes_shutdown.after hw
      · cases hr
  | finalHeartbeat =>
    rw [hpc] at hr
    cases move with
    | goOn => cases hr; exact h.goes_finalClose fun _ => h.quiet hv hlast (by simp [hpc])
    | leave | fail => cases hr; exact h.goes_self hv hlast (by simp [hpc]) fun _ => trivial
  | finalClosing n =>
    rw [hpc] at hr
    cases move with
    | goOn | fail =>
      simp only [supervisionTurn] at hr
      split at hr
      · next hran =>
        have hw := winds_detach hran
        cases hr
        exact h.goes_of_winds hv hlast (by simp [hpc]) hw fun _ => trivial
      · cases hr
    | leave => cases hr
  | ended =>
    rw [hpc] at hr
    cases move <;> cases hr

theorem Kept.resume (h : s.Kept) (hok : s.WoundUp (.resume run move)) (hs : s.resume settings run move = some t) : t.Kept := by
  unfold ClientHeartbeats.resume at hs
  split at hs
  · cases hs
  · next v hv =>
    split at hs
    · cases hs
    · next hmove =>
      obtain ⟨r, hr, rfl⟩ := Option.map_eq_some_iff.mp hs
      have hlt := (List.getElem?_eq_some_iff.mp hv).1
      rcases Nat.lt_or_ge (run + 1) s.supervisors.length with hearlier | hge
      · exact h.of_goes hv (h.goes_earlier hearlier (h.older run v hv hearlier) hmove hr)
      · have hlast : run + 1 = s.supervisors.length := by omega
        by_cases hopen : v.pc = .connecting ∧ move = .goOn
        · obtain ⟨hpc, rfl⟩ := hopen
          rw [hpc] at hr
          cases hr
          exact h.openConnection hv hpc hlast
        · by_cases hstart : ∃ n, v.pc = .opening n ∧ move = .goOn ∧
              s.connection = some n ∧ s.lifecycle = .running ∧ (s.connections n).state = .connected
          · obtain ⟨n, hpc, rfl, hcur, hlife, hconnected⟩ := hstart
            have hopened : s.opened run = true := by
              obtain ⟨pc, cancelRequested⟩ := v
              obtain rfl : pc = .opening n := hpc
              simp [opened, hv, hlife, hconnected]
            rw [hpc] at hr
            cases hr
            exact h.connectOnce hv hpc hlast hcur hlife hconnected (hok hopened)
          · exact h.of_goes hv (h.goes_last hv hlast hopen (fun n hpc hgo hc => hstart ⟨n, hpc, hgo, hc⟩) hr)

theorem lifecycle_of_stopped (s : ClientHeartbeats) {l : ComponentLifecycleState} (hl : l ≠ .running) :
    (if s.running then l else s.lifecycle) ≠ .running := by
  split
  · exact hl
  · next hr =>
    intro hrun
    exact hr (by rw [running, hrun]; rfl)

theorem Kept.setLifecycle (h : s.Kept) {lifecycle : ComponentLifecycleState} (hl : lifecycle ≠ .running) :
    Kept { s with lifecycle } :=
  { h with
    held := fun hrun => absurd hrun hl
    planned := fun p hp => ⟨(h.planned p hp).1, fun hrun => absurd hrun hl⟩ }

/-- A teardown is planned; one that has nothing to do finds no sender running. -/
theorem Kept.plan (h : s.Kept) (hl : s.lifecycle ≠ .running) (pc : StopTeardownPc)
    (hdone : pc ≠ .waiting → ∀ i n, ¬ s.Beats i n) :
    Kept { s with teardowns := s.teardowns ++ [⟨s.supervisors.length, pc⟩] } :=
  { h with
    planned := fun p hp => by
      rcases List.mem_append.mp hp with hp | hp
      · exact h.planned p hp
      · obtain rfl := List.mem_singleton.mp hp
        exact ⟨Nat.le_refl _, fun hrun => absurd hrun hl⟩
    stopped := fun p hp hpc i n hb => by
      rcases List.mem_append.mp hp with hp | hp
      · exact h.stopped p hp hpc i n hb
      · obtain rfl := List.mem_singleton.mp hp
        exact absurd hb (hdone hpc i n) }

theorem Kept.stop (h : s.Kept) {fullyStopped : Bool} (hs : s.stop fullyStopped = some t) : t.Kept := by
  unfold ClientHeartbeats.stop at hs
  split at hs
  · split at hs
    · next hstopped =>
      cases hs
      refine h.plan (by simp [hstopped.1]) .done fun _ i n hb => ?_
      cases hstopped.2.1.symm.trans (h.slotted i n hb)
    · cases hs
  · cases hs
    have hl := s.lifecycle_of_stopped (l := .stopping) nofun
    exact (h.setLifecycle hl).plan hl .waiting fun hpc => absurd rfl hpc

theorem Kept.rollback (h : s.Kept) : s.rollback.Kept := by
  have hl := s.lifecycle_of_stopped (l := .stopped) nofun
  exact (h.setLifecycle hl).plan hl .waiting fun hpc => absurd rfl hpc

/-- A teardown gets on; it has stopped the sender when it leaves its first place. -/
theorem Kept.setTeardown (h : s.Kept) {p : StopTeardown} (hp : s.teardowns[i]? = some p) (pc : StopTeardownPc)
    (hdone : p.pc = .waiting → ∀ i n, ¬ s.Beats i n) : (s.setTeardown i p pc).Kept := by
  have hmem : p ∈ s.teardowns := List.mem_of_getElem? hp
  exact
    { h with
      planned := fun q hq => by
        rcases List.mem_or_eq_of_mem_set hq with hq | rfl
        · exact h.planned q hq
        · exact h.planned p hmem
      stopped := fun q hq hpc j n hb => by
        rcases List.mem_or_eq_of_mem_set hq with hq | rfl
        · exact h.stopped q hq hpc j n hb
        · by_cases hwait : p.pc = .waiting
          · exact absurd hb (hdone hwait j n)
          · exact h.stopped p hmem hwait j n hb }

theorem Kept.stopClose (h : s.Kept) {p : StopTeardown} (hp : s.teardowns[i]? = some p)
    (hdone : p.pc = .waiting → ∀ i n, ¬ s.Beats i n) : (s.stopClose i p).Kept := by
  have hw := winds_beginClosing h.sound
  unfold ClientHeartbeats.stopClose
  generalize s.beginClosing = r at hw
  obtain ⟨t, target⟩ := r
  have hp' : t.teardowns[i]? = some p := hw.teardowns ▸ hp
  have hdone' : p.pc = .waiting → ∀ i n, ¬ t.Beats i n := fun hwait i n hb => hdone hwait i n (hw.beats i n hb)
  cases target with
  | none => exact (h.winds hw).setTeardown hp' .done hdone'
  | some m => exact (h.winds hw).setTeardown hp' (.closing m) hdone'

theorem Kept.teardownTurn (h : s.Kept) (hs : s.teardownTurn i = some t) : t.Kept := by
  unfold ClientHeartbeats.teardownTurn at hs
  split at hs
  · cases hs
  · next p hp =>
    split at hs
    · next hpc =>
      have hw := winds_stopHeartbeatSender h.slotted
      have hno := not_beats_stopHeartbeatSender h.slotted
      have hp' : s.stopHeartbeatSender.1.teardowns[i]? = some p := hw.teardowns ▸ hp
      generalize s.stopHeartbeatSender = r at hs hw hno hp'
      obtain ⟨u, suspended⟩ := r
      cases hs
      split
      · exact (h.winds hw).setTeardown hp' .stoppingHeartbeat fun _ => hno
      · exact (h.winds hw).stopClose hp' fun _ => hno
    · next hpc =>
      cases hs
      exact h.stopClose hp fun hwait => by cases hpc.symm.trans hwait
    · next n hpc =>
      split at hs
      · next hran =>
        have hw := winds_detach hran
        cases hs
        exact (h.winds hw).setTeardown (hw.teardowns ▸ hp) .done fun hwait => by cases hpc.symm.trans hwait
      · cases hs
    · cases hs

/-- The close task of a connection: while a sender is running, the only callback still to come is that of its connection. -/
theorem Kept.closeTurn (h : s.Kept) {outcome : Outcome} (hok : s.WoundUp (.closeTurn n outcome))
    (hs : s.closeTurn n outcome = some t) : t.Kept := by
  unfold ClientHeartbeats.closeTurn at hs
  split at hs
  · cases hs
  · next hn =>
    split at hs
    · next ht =>
      cases hs
      refine h.winds (winds_runClosedCallback h.slotted ((h.sound n).pending ht.1).2 fun i m hb => ?_).1
      by_contra hne
      have hspent := (h.session i m hb).2.2 n (by omega) (Ne.symm hne)
      cases (ClientConnection.spent_of_teardown ht.1).symm.trans hspent
    · next ht =>
      obtain ⟨x, hx, rfl⟩ := Option.map_eq_some_iff.mp hs
      obtain ⟨hw, hspent, hspent'⟩ := ClientConnection.winds_closeTurn (h.sound n) hx
      refine h.winds (winds_setConnection hw fun hcurrent => hspent.trans (hspent' fun hteardown => ?_).symm)
      exact ht ⟨hteardown, hok hcurrent hteardown⟩

/-- A run begins: no sender is running, and no supervisor before it goes on with its loop. -/
theorem Kept.supervise (h : s.Kept) (hok : s.WoundUp .supervise) (hs : s.supervise = some t) : t.Kept := by
  have hno : ∀ i n, ¬ s.Beats i n := fun i n hb => by
    obtain ⟨-, ⟨-, v, hv, hpark⟩, -⟩ := h.session i n hb
    rcases hok v (List.mem_of_getElem? hv) with hleft | ⟨-, hquiet⟩
    · rw [hpark] at hleft
      cases hleft
    · cases hquiet _ (List.mem_of_getElem? hb)
  unfold ClientHeartbeats.supervise at hs
  split at hs
  · cases hs
    let new : Supervision := {}
    have hlen : (s.supervisors ++ [new]).length = s.supervisors.length + 1 := List.length_append
    exact
      { slotted := fun i n hb => absurd hb (hno i n)
        attached := fun i n hb => absurd hb (hno i n)
        session := fun i n hb => absurd hb (hno i n)
        sound := h.sound
        runs := fun n hn => by
          have hlt := h.runs n hn
          show (s.connections n).run < (s.supervisors ++ [new]).length
          omega
        older := fun k v hv hk => by
          have hk' : k + 1 < (s.supervisors ++ [new]).length := hk
          have hv' : (s.supervisors ++ [new])[k]? = some v := hv
          rw [List.getElem?_append_left (by omega)] at hv'
          exact (hok v (List.mem_of_getElem? hv')).imp_right And.left
        held := fun _ k v hv hk => by
          have hk' : k + 1 = (s.supervisors ++ [new]).length := hk
          have hv' : (s.supervisors ++ [new])[k]? = some v := hv
          obtain rfl : k = s.supervisors.length := by omega
          rw [List.getElem?_concat_length] at hv'
          cases hv'
          intro m hm hmrun
          have hlt := h.runs m hm
          exact absurd hmrun (by show (s.connections m).run ≠ _; omega)
        planned := fun p hp => by
          have hle := (h.planned p hp).1
          show p.runs ≤ (s.supervisors ++ [new]).length ∧ (_ → p.runs < (s.supervisors ++ [new]).length)
          exact ⟨by omega, fun _ => by omega⟩
        stopped := fun p _ _ i n hb => absurd hb (hno i n)
        stoppedBy := h.stoppedBy }
  · cases hs

theorem Kept.cancel (h : s.Kept) (run : Nat) :
    Kept { s with supervisors := s.supervisors.modify run fun v => { v with cancelRequested := true } } := by
  have hlen : (s.supervisors.modify run fun v => { v with cancelRequested := true }).length = s.supervisors.length :=
    List.length_modify ..
  have hget : ∀ {k : Nat} {w : Supervision}, (s.supervisors.modify run fun v => { v with cancelRequested := true })[k]? = some w →
      ∃ v : Supervision, s.supervisors[k]? = some v ∧ w.pc = v.pc ∧ (v.doomed = true → w.doomed = true) := fun {k w} hw => by
    rw [List.getElem?_modify] at hw
    obtain ⟨v, hv, rfl⟩ := Option.map_eq_some_iff.mp hw
    refine ⟨v, hv, ?_⟩
    split
    · exact ⟨rfl, fun hdoomed => (Bool.and_eq_true_iff.mp hdoomed).2⟩
    · exact ⟨rfl, id⟩
  exact
    { slotted := h.slotted
      attached := h.attached
      session := fun i n hb => by
        obtain ⟨hn, ⟨hlast, v, hv, hpark⟩, hothers⟩ := h.session i n hb
        refine ⟨hn, ⟨hlast.trans hlen.symm, ?_⟩, hothers⟩
        have hlt := (List.getElem?_eq_some_iff.mp hv).1
        obtain ⟨w, hw⟩ : ∃ w, (s.supervisors.modify run fun v => { v with cancelRequested := true })[(s.connections n).run]? =
            some w := ⟨_, List.getElem?_eq_getElem (by omega)⟩
        obtain ⟨v', hv', hpc, -⟩ := hget hw
        obtain rfl := Option.some.inj (hv.symm.trans hv')
        exact ⟨w, hw, hpc.trans hpark⟩
      sound := h.sound
      runs := fun n hn => lt_of_lt_of_eq (h.runs n hn) hlen.symm
      older := fun k w hw hk => by
        obtain ⟨v, hv, hpc, hdoomed⟩ := hget hw
        exact (h.older k v hv (lt_of_lt_of_eq hk hlen)).imp (fun hleft => hpc ▸ hleft) hdoomed
      held := fun hrun k w hw hk => by
        obtain ⟨v, hv, hpc, -⟩ := hget hw
        rw [hpc]
        exact (h.held hrun k v hv (hk.trans hlen)).of_eq rfl rfl rfl
      planned := fun p hp => by
        show p.runs ≤ (s.supervisors.modify run _).length ∧ (_ → p.runs < (s.supervisors.modify run _).length)
        rw [hlen]
        exact h.planned p hp
      stopped := h.stopped
      stoppedBy := h.stoppedBy }

theorem Kept.step {a : HeartbeatsAct} (h : s.Kept) (hok : s.WoundUp a) (hs : s.step settings a = some t) : t.Kept := by
  cases a with
  | start =>
    simp only [ClientHeartbeats.step] at hs
    split at hs <;> cases hs
    exact h.setLifecycle (by simp)
  | supervise => exact h.supervise hok hs
  | stop fullyStopped => exact h.stop hs
  | rollback => cases hs; exact h.rollback
  | applyStopped | terminate run =>
    simp only [ClientHeartbeats.step] at hs
    split at hs <;> cases hs
    exact h.setLifecycle (by simp)
  | cancel run => cases hs; exact h.cancel run
  | teardownTurn i => exact h.teardownTurn hs
  | close n =>
    simp only [ClientHeartbeats.step] at hs
    split at hs <;> cases hs
    exact h.winds (winds_requestClose s n)
  | closeTurn n outcome => exact h.closeTurn hok hs
  | senderEnds i => cases hs; exact h.winds (winds_haltSender s i)
  | resume run move => exact h.resume hok hs

theorem kept_init : Kept {} where
  slotted _ _ hb := by cases hb
  attached _ _ hb := by cases hb
  session _ _ hb := by cases hb
  sound _ := .opened rfl rfl (by simp) (by simp)
  runs _ hn := absurd hn (Nat.not_lt_zero _)
  older _ _ hv := by cases hv
  held hrun := by cases hrun
  planned _ hp := by cases hp
  stopped _ hp := by cases hp
  stoppedBy _ hp := by cases hp

/-- In every run in which the client is wound up before it starts again, whatever its connections, handlers, stops and
cancellations do: one sender is running at most, it is that of the current connection, no close or stop leaves one behind, and
the close of an old connection does not stop that of a newer one. -/
theorem owned_of_reachable (h : (heartbeatsMachine settings).Reachable WoundUp s) : s.Owned := by
  have hkept : s.Kept := by
    refine h.invariant (I := Kept) ?_ fun _ _ _ hk hok hs => hk.step hok hs
    rintro _ rfl
    exact kept_init
  exact hkept.owned

end ClientHeartbeats

/-! ## Runs -/

instance (s : ClientHeartbeats) (a : HeartbeatsAct) : Decidable (s.WoundUp a) := by
  unfold ClientHeartbeats.WoundUp
  split <;> infer_instance

def heartbeatSettings : TcpClientSettings where
  heartbeatEnabled := true

/-- Two sessions, the first of which the peer ends; a stop in the second, and a second run. -/
def threeSessions : List HeartbeatsAct :=
  [.start, .supervise, .resume 0 .goOn, .resume 0 .goOn, .resume 0 .goOn, .resume 0 .goOn, .close 0, .closeTurn 0 .returned,
    .closeTurn 0 .returned, .resume 0 .goOn, .resume 0 .goOn, .resume 0 .goOn, .resume 0 .goOn, .stop false, .teardownTurn 0,
    .teardownTurn 0, .closeTurn 1 .returned, .teardownTurn 0, .cancel 0, .resume 0 .leave, .applyStopped, .start, .supervise,
    .resume 1 .goOn, .resume 1 .goOn, .resume 1 .goOn, .resume 1 .goOn]

/-- Three sessions in two runs: the sender of the third one is running. -/
theorem owned_of_threeSessions : ∃ s : ClientHeartbeats,
    (s.senders = [⟨0, false⟩, ⟨1, false⟩, ⟨2, true⟩] ∧ s.connection = some 2) ∧ s.Owned := by
  have hrun : ∃ s : ClientHeartbeats, (heartbeatsMachine heartbeatSettings).Reachable ClientHeartbeats.WoundUp s ∧
      decide (s.senders = [⟨0, false⟩, ⟨1, false⟩, ⟨2, true⟩] ∧ s.connection = some 2) :=
    Machine.Reachable.exists_of_execOk rfl threeSessions _ (by decide)
  obtain ⟨s, hs, hp⟩ := hrun
  exact ⟨s, of_decide_eq_true hp, ClientHeartbeats.owned_of_reachable hs⟩

/-- The handler of the opened event stops the client and starts it again; the supervisor of the first run goes on, and both
connect. -/
def restartedInHandler : List HeartbeatsAct :=
  [.start, .supervise, .resume 0 .goOn, .resume 0 .goOn, .resume 0 .goOn, .stop false, .teardownTurn 0, .closeTurn 0 .returned,
    .teardownTurn 0, .applyStopped, .start, .supervise, .resume 0 .goOn, .resume 0 .goOn, .resume 0 .goOn, .resume 0 .goOn,
    .resume 0 .goOn, .resume 1 .goOn, .resume 1 .goOn, .resume 1 .goOn, .resume 1 .goOn]

/-- Then two senders are running, and one of them is bound to a connection that is not the current one. -/
theorem not_owned_of_restartedInHandler :
    ¬ ∀ s : ClientHeartbeats, (heartbeatsMachine heartbeatSettings).Reachable Machine.Any s → s.Owned := by
  have hrun : ∃ s : ClientHeartbeats, (heartbeatsMachine heartbeatSettings).Reachable Machine.Any s ∧
      decide (s.senders = [⟨1, true⟩, ⟨2, true⟩]) :=
    Machine.Reachable.exists_of_exec rfl restartedInHandler _ (by decide)
  obtain ⟨s, hs, hp⟩ := hrun
  have hsenders := of_decide_eq_true hp
  intro hall
  have hone := (hall s hs).one 0 1 1 2 (by rw [ClientHeartbeats.Beats, hsenders]; rfl)
    (by rw [ClientHeartbeats.Beats, hsenders]; rfl)
  exact absurd hone (by decide)

end Aionetx
