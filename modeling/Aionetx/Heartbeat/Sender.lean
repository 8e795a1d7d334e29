import Aionetx.Runs.Machine
import Mathlib.Logic.Function.Basic

/-!
# The heartbeat sender

`start` and `stop` of a sender, and the tasks of its loop. The lock of the sender is held for no await: a section under it is
one action.

* `AsyncioHeartbeatSender` : `_running`, `_task`, the loop tasks in the order of their creation, and the calls of `stop`;
* `AsyncioHeartbeatSender.start`, `stop`, `wake` : the calls, and a loop task from one await to the next;
* `AsyncioHeartbeatSender.Linearizes` : one loop goes on at a time, `is_running` follows the calls, and no finalizer clears the state
  of a newer loop;
* `AsyncioHeartbeatSender.Exclusive` : a loop is created when no other one that has begun is left;
* `linearizes_of_reachable` : so it linearizes in every run that is exclusive.
-/

namespace Aionetx

open Runs

inductive HeartbeatPc
  /-- it has not begun -/
  | created
  /-- it awaits `asyncio.sleep` -/
  | sleeping
  /-- it awaits `create_heartbeat` -/
  | providing
  /-- it awaits `send` -/
  | sending
  /-- it awaits `_safe_emit_error` -/
  | emitting
  | ended
  deriving DecidableEq, Repr

/-- A task of `_run`, and whether a cancellation waits for its next step. -/
structure HeartbeatLoop where
  pc : HeartbeatPc
  cancelRequested : Bool
  deriving DecidableEq, Repr

/-- A sender. The last three fields are the record: the awaiting calls of `stop`, the loop that the last effective call has
created (none, if that was a `stop`), and whether a finalizer has cleared the state of a newer loop. -/
structure AsyncioHeartbeatSender where
  running : Bool := false
  task : Option Nat := none
  created : Nat := 0
  loops : Nat → HeartbeatLoop := fun _ => ⟨.ended, false⟩
  stops : List Nat := []
  effective : Option Nat := none
  clobbered : Bool := false

inductive HeartbeatOutcome
  /-- the awaited code has handled what it got, and awaits something else -/
  | suspends
  | cancelled
  /-- an exception, or a result or payload of a wrong type -/
  | raises
  /-- `should_send` is false, or the send has returned -/
  | returns
  /-- `should_send` is true -/
  | sends
  deriving DecidableEq, Repr

inductive HeartbeatAct
  | start
  | stop
  /-- `stop` returns after the end of the loop it awaits -/
  | stopReturns (i : Nat)
  /-- somebody else cancels the task of a loop -/
  | cancelTask (i : Nat)
  /-- a loop goes on; `connected` is what it reads from its connection -/
  | wake (i : Nat) (connected : Bool) (outcome : HeartbeatOutcome)

namespace AsyncioHeartbeatSender

variable (s : AsyncioHeartbeatSender)

def setLoop (i : Nat) (loop : HeartbeatLoop) : AsyncioHeartbeatSender := { s with loops := Function.update s.loops i loop }

/-- A loop goes on with its next await: a cancellation has been delivered. -/
def goTo (i : Nat) (pc : HeartbeatPc) : AsyncioHeartbeatSender := s.setLoop i ⟨pc, false⟩

/-- The `finally` block, and the end of the task. -/
def finalize (i : Nat) : AsyncioHeartbeatSender :=
  { s.goTo i .ended with
    running := false
    task := none
    clobbered := s.clobbered || s.task.any (· ≠ i) }

/-- `while self._running`. -/
def loopHead (i : Nat) : AsyncioHeartbeatSender := if s.running then s.goTo i .sleeping else s.finalize i

def start : AsyncioHeartbeatSender :=
  if s.running then s
  else
    { s.setLoop s.created ⟨.created, false⟩ with
      running := true
      task := some s.created
      created := s.created + 1
      effective := some s.created }

def stop : AsyncioHeartbeatSender :=
  if s.running then
    let t := { s with running := false, task := none, effective := none }
    match s.task with
    | none => t
    | some i => { t.setLoop i { s.loops i with cancelRequested := true } with stops := s.stops ++ [i] }
  else s

/-- A task of `_run`, from one await to the next. One that is cancelled before it has begun does not get to its `finally`
block. -/
def wake (i : Nat) (connected : Bool) (outcome : HeartbeatOutcome) : Option AsyncioHeartbeatSender :=
  match (s.loops i).pc with
  | .created => some (if (s.loops i).cancelRequested then s.goTo i .ended else s.loopHead i)
  | .sleeping =>
    some (if (s.loops i).cancelRequested || !s.running || !connected then s.finalize i else s.goTo i .providing)
  | .providing =>
    match outcome with
    | .suspends => some (s.goTo i .providing)
    | .cancelled => some (s.finalize i)
    | .raises => some (s.goTo i .emitting)
    | .returns => some (s.loopHead i)
    | .sends => some (s.goTo i .sending)
  | .sending =>
    match outcome with
    | .suspends => some (s.goTo i .sending)
    | .cancelled => some (s.finalize i)
    | .raises => some (s.goTo i .emitting)
    | .returns => some (s.loopHead i)
    | .sends => none
  | .emitting =>
    match outcome with
    | .suspends => some (s.goTo i .emitting)
    | .cancelled | .raises | .returns => some (s.finalize i)
    | .sends => none
  | .ended => none

def step : HeartbeatAct → Option AsyncioHeartbeatSender
  | .start => some s.start
  | .stop => some s.stop
  | .stopReturns i => if i ∈ s.stops ∧ (s.loops i).pc = .ended then some { s with stops := s.stops.erase i } else none
  | .cancelTask i =>
    if (s.loops i).pc = .ended then none else some (s.setLoop i { s.loops i with cancelRequested := true })
  | .wake i connected outcome => s.wake i connected outcome

end AsyncioHeartbeatSender

def heartbeatMachine : Machine AsyncioHeartbeatSender HeartbeatAct where
  init s := s = {}
  step := AsyncioHeartbeatSender.step

namespace AsyncioHeartbeatSender

/-! ## What a sender promises -/

/-- The loop may send again: it is in its `while` statement, no cancellation waits for it, and `_running` is set. -/
def MaySend (s : AsyncioHeartbeatSender) (i : Nat) : Prop :=
  s.running = true ∧ (s.loops i).cancelRequested = false ∧ (s.loops i).pc ≠ .emitting ∧ (s.loops i).pc ≠ .ended

structure Linearizes (s : AsyncioHeartbeatSender) : Prop where
  one : ∀ i j, s.MaySend i → s.MaySend j → i = j
  running_iff : s.stops = [] → (s.running = true ↔ ∃ i, s.effective = some i ∧ (s.loops i).pc ≠ .ended)
  kept : s.clobbered = false

/-- The task ends without the body of the loop: it has not begun, and is cancelled. -/
def Dead (s : AsyncioHeartbeatSender) (i : Nat) : Prop := (s.loops i).pc = .created ∧ (s.loops i).cancelRequested = true

/-- The loop has not ended, and its `finally` block will run. -/
def Live (s : AsyncioHeartbeatSender) (i : Nat) : Prop := (s.loops i).pc ≠ .ended ∧ ¬ s.Dead i

/-- `start` creates a loop when no other one is live, and nobody but `stop` cancels a loop that has not begun. -/
def Exclusive (s : AsyncioHeartbeatSender) : HeartbeatAct → Prop
  | .start => s.running = false → ∀ i < s.created, ¬ s.Live i
  | .cancelTask i => (s.loops i).pc = .created → (s.loops i).cancelRequested = true
  | .stop | .stopReturns _ | .wake _ _ _ => True

/-! ## The invariant -/

/-- At most one loop is live: the one in the slot while `_running` is set. -/
structure Inv (s : AsyncioHeartbeatSender) : Prop where
  fresh : ∀ i, s.created ≤ i → (s.loops i).pc = .ended
  slot : s.running = true → ∃ i, s.task = some i ∧ s.effective = some i ∧ s.Live i
  idle : s.running = false → s.task = none ∧ ∀ i, s.effective = some i → (s.loops i).pc = .ended
  one : ∀ i j, s.Live i → s.Live j → i = j
  kept : s.clobbered = false

variable {s t : AsyncioHeartbeatSender} {i j : Nat}

theorem Live.maySend (h : s.MaySend i) : s.Live i := by
  refine ⟨h.2.2.2, fun hdead => ?_⟩
  cases h.2.1.symm.trans hdead.2

theorem Inv.linearizes (h : s.Inv) : s.Linearizes := by
  refine ⟨fun i j hi hj => h.one i j (.maySend hi) (.maySend hj), fun _ => ⟨fun hrunning => ?_, fun ⟨i, hi, hne⟩ => ?_⟩, h.kept⟩
  · obtain ⟨i, -, hi, hlive⟩ := h.slot hrunning
    exact ⟨i, hi, hlive.1⟩
  · by_contra hnot
    exact hne ((h.idle (Bool.eq_false_iff.mpr hnot)).2 i hi)

theorem live_setLoop_of_ne {loop : HeartbeatLoop} (hne : j ≠ i) : (s.setLoop i loop).Live j ↔ s.Live j := by
  unfold Live Dead AsyncioHeartbeatSender.setLoop
  simp only [Function.update_of_ne hne]

theorem live_setLoop_self {loop : HeartbeatLoop} :
    (s.setLoop i loop).Live i ↔ loop.pc ≠ .ended ∧ ¬ (loop.pc = .created ∧ loop.cancelRequested = true) := by
  unfold Live Dead AsyncioHeartbeatSender.setLoop
  simp only [Function.update_self]

theorem pc_setLoop_of_ne {loop : HeartbeatLoop} (hne : j ≠ i) : ((s.setLoop i loop).loops j).pc = (s.loops j).pc := by
  unfold AsyncioHeartbeatSender.setLoop
  simp only [Function.update_of_ne hne]

theorem Inv.lt_created (h : s.Inv) (hi : s.Live i) : i < s.created := by
  by_contra hge
  exact hi.1 (h.fresh i (Nat.le_of_not_lt hge))

theorem Inv.ne_of_created_le (h : s.Inv) (hi : s.Live i) (hj : s.created ≤ j) : j ≠ i := by
  rintro rfl
  exact Nat.not_lt.mpr hj (h.lt_created hi)

/-- The live loop is the one that the last effective call has created, if `_running` is set. -/
theorem Inv.slot_eq (h : s.Inv) (hrunning : s.running = true) (hi : s.Live i) : s.task = some i ∧ s.effective = some i := by
  obtain ⟨k, htask, heffective, hk⟩ := h.slot hrunning
  obtain rfl := h.one i k hi hk
  exact ⟨htask, heffective⟩

/-- A live loop goes on, or gets a cancellation: nothing changes for the sender. -/
theorem Inv.setLoop (h : s.Inv) (hi : s.Live i) {loop : HeartbeatLoop} (hpc : loop.pc ≠ .ended)
    (hbegun : loop.pc = .created → loop.cancelRequested = false) : (s.setLoop i loop).Inv := by
  have hlive : ∀ j, (s.setLoop i loop).Live j ↔ s.Live j := by
    intro j
    by_cases hj : j = i
    · subst hj
      refine live_setLoop_self.trans ⟨fun _ => hi, fun _ => ⟨hpc, fun hdead => ?_⟩⟩
      cases (hbegun hdead.1).symm.trans hdead.2
    · exact live_setLoop_of_ne hj
  refine ⟨fun j hj => ?_, fun hrunning => ?_, fun hidle => ⟨(h.idle hidle).1, fun j hj => ?_⟩, fun j k hj hk => ?_, h.kept⟩
  · rw [pc_setLoop_of_ne (h.ne_of_created_le hi hj)]
    exact h.fresh j hj
  · obtain ⟨j, htask, heffective, hj⟩ := h.slot hrunning
    exact ⟨j, htask, heffective, (hlive j).mpr hj⟩
  · have hended := (h.idle hidle).2 j hj
    have hne : j ≠ i := fun hji => hi.1 (hji ▸ hended)
    rw [pc_setLoop_of_ne hne]
    exact hended
  · exact h.one j k ((hlive j).mp hj) ((hlive k).mp hk)

/-- A loop that has not begun when it is cancelled ends: nothing changes for the sender. -/
theorem Inv.endDead (h : s.Inv) (hi : s.Dead i) : (s.goTo i .ended).Inv := by
  have hnot : ¬ s.Live i := fun hlive => hlive.2 hi
  have hlive : ∀ j, (s.goTo i .ended).Live j ↔ s.Live j := by
    intro j
    by_cases hj : j = i
    · subst hj
      exact live_setLoop_self.trans ⟨fun hend => absurd rfl hend.1, fun hlive => absurd hlive hnot⟩
    · exact live_setLoop_of_ne hj
  have hended : ∀ j, (s.loops j).pc = .ended → ((s.goTo i .ended).loops j).pc = .ended := by
    intro j hj
    by_cases hji : j = i
    · subst hji
      simp only [goTo, AsyncioHeartbeatSender.setLoop, Function.update_self]
    · exact (pc_setLoop_of_ne hji).trans hj
  refine ⟨fun j hj => hended j (h.fresh j hj), fun hrunning => ?_, fun hidle => ⟨(h.idle hidle).1, fun j hj => ?_⟩,
    fun j k hj hk => h.one j k ((hlive j).mp hj) ((hlive k).mp hk), h.kept⟩
  · obtain ⟨j, htask, heffective, hj⟩ := h.slot hrunning
    exact ⟨j, htask, heffective, (hlive j).mpr hj⟩
  · exact hended j ((h.idle hidle).2 j hj)

/-- The live loop ends: it is the one in the slot, or the slot is empty. -/
theorem Inv.finalize (h : s.Inv) (hi : s.Live i) : (s.finalize i).Inv := by
  have hself : ((s.finalize i).loops i).pc = .ended := by
    simp only [AsyncioHeartbeatSender.finalize, goTo, AsyncioHeartbeatSender.setLoop, Function.update_self]
  have hother : ∀ j, j ≠ i → ((s.finalize i).loops j).pc = (s.loops j).pc := fun j hj => pc_setLoop_of_ne hj
  have hnone : ∀ j, ¬ (s.finalize i).Live j := by
    intro j hj
    by_cases hji : j = i
    · exact hj.1 (hji ▸ hself)
    · exact hji (h.one j i ((live_setLoop_of_ne hji).mp hj) hi)
  refine ⟨fun j hj => ?_, nofun, fun _ => ⟨rfl, fun j hj => ?_⟩, fun j k hj => absurd hj (hnone j), ?_⟩
  · exact (hother j (h.ne_of_created_le hi hj)).trans (h.fresh j hj)
  · by_cases hji : j = i
    · exact hji ▸ hself
    · refine (hother j hji).trans ?_
      cases hrunning : s.running with
      | false => exact (h.idle hrunning).2 j hj
      | true => exact absurd (Option.some.inj (hj.symm.trans (h.slot_eq hrunning hi).2)) hji
  · have htask : s.task.any (· ≠ i) = false := by
      cases hrunning : s.running with
      | false => rw [(h.idle hrunning).1]; rfl
      | true => rw [(h.slot_eq hrunning hi).1]; simp
    show (s.clobbered || s.task.any (· ≠ i)) = false
    rw [h.kept, htask]
    rfl

theorem Inv.loopHead (h : s.Inv) (hi : s.Live i) : (s.loopHead i).Inv := by
  unfold AsyncioHeartbeatSender.loopHead
  split
  · exact h.setLoop hi nofun nofun
  · exact h.finalize hi

theorem Inv.start (h : s.Inv) (hok : s.Exclusive .start) : s.start.Inv := by
  unfold AsyncioHeartbeatSender.start
  split
  · exact h
  · next hrunning =>
    have hnone : ∀ j, ¬ s.Live j := fun j hj => hok (Bool.eq_false_iff.mpr hrunning) j (h.lt_created hj) hj
    have hnew : (s.setLoop s.created ⟨.created, false⟩).Live s.created := live_setLoop_self.mpr ⟨nofun, nofun⟩
    have honly : ∀ j, (s.setLoop s.created ⟨.created, false⟩).Live j → j = s.created := by
      intro j hj
      by_contra hne
      exact hnone j ((live_setLoop_of_ne hne).mp hj)
    refine ⟨fun j hj => ?_, fun _ => ⟨s.created, rfl, rfl, hnew⟩, nofun, fun j k hj hk => ?_, h.kept⟩
    · exact (pc_setLoop_of_ne (Nat.ne_of_gt hj)).trans (h.fresh j (Nat.le_of_succ_le hj))
    · exact (honly j hj).trans (honly k hk).symm

/-- `stop` leaves the slot empty; the loop that was in it is still live if it has begun. -/
theorem Inv.stop (h : s.Inv) : s.stop.Inv := by
  unfold AsyncioHeartbeatSender.stop
  split
  · next hrunning =>
    obtain ⟨i, htask, -, hi⟩ := h.slot hrunning
    simp only [htask]
    have hlive : ∀ j, (s.setLoop i { s.loops i with cancelRequested := true }).Live j → s.Live j := by
      intro j hj
      by_cases hji : j = i
      · exact hji ▸ hi
      · exact (live_setLoop_of_ne hji).mp hj
    refine ⟨fun j hj => ?_, nofun, fun _ => ⟨rfl, nofun⟩, fun j k hj hk => h.one j k (hlive j hj) (hlive k hk), h.kept⟩
    exact (pc_setLoop_of_ne (h.ne_of_created_le hi hj)).trans (h.fresh j hj)
  · exact h

theorem Inv.cancelTask (h : s.Inv) (hok : s.Exclusive (.cancelTask i)) (hpc : (s.loops i).pc ≠ .ended) :
    (s.setLoop i { s.loops i with cancelRequested := true }).Inv := by
  by_cases hcreated : (s.loops i).pc = .created
  · have hsame : ({ s.loops i with cancelRequested := true } : HeartbeatLoop) = s.loops i := by
      rw [← hok hcreated]
    rw [hsame, AsyncioHeartbeatSender.setLoop, Function.update_eq_self]
    exact h
  · exact h.setLoop ⟨hpc, fun hdead => hcreated hdead.1⟩ hpc fun hpc' => absurd hpc' hcreated

theorem live_of_pc {pc : HeartbeatPc} (hpc : (s.loops i).pc = pc) (hcreated : pc ≠ .created) (hended : pc ≠ .ended) :
    s.Live i :=
  ⟨fun h => hended (hpc.symm.trans h), fun h => hcreated (hpc.symm.trans h.1)⟩

theorem Inv.wake (h : s.Inv) {connected : Bool} {outcome : HeartbeatOutcome} (hstep : s.wake i connected outcome = some t) :
    t.Inv := by
  cases hpc : (s.loops i).pc with
  | created =>
    simp only [AsyncioHeartbeatSender.wake, hpc] at hstep
    cases hstep
    split
    · next hcancel => exact h.endDead ⟨hpc, hcancel⟩
    · next hcancel => exact h.loopHead ⟨by rw [hpc]; nofun, fun hdead => hcancel hdead.2⟩
  | sleeping =>
    have hi : s.Live i := live_of_pc hpc nofun nofun
    simp only [AsyncioHeartbeatSender.wake, hpc] at hstep
    cases hstep
    split
    · exact h.finalize hi
    · exact h.setLoop hi nofun nofun
  | providing =>
    have hi : s.Live i := live_of_pc hpc nofun nofun
    simp only [AsyncioHeartbeatSender.wake, hpc] at hstep
    cases outcome with
    | suspends | raises | sends => cases hstep; exact h.setLoop hi nofun nofun
    | cancelled => cases hstep; exact h.finalize hi
    | returns => cases hstep; exact h.loopHead hi
  | sending =>
    have hi : s.Live i := live_of_pc hpc nofun nofun
    simp only [AsyncioHeartbeatSender.wake, hpc] at hstep
    cases outcome with
    | suspends | raises => cases hstep; exact h.setLoop hi nofun nofun
    | cancelled => cases hstep; exact h.finalize hi
    | returns => cases hstep; exact h.loopHead hi
    | sends => cases hstep
  | emitting =>
    have hi : s.Live i := live_of_pc hpc nofun nofun
    simp only [AsyncioHeartbeatSender.wake, hpc] at hstep
    cases outcome with
    | suspends => cases hstep; exact h.setLoop hi nofun nofun
    | cancelled | raises | returns => cases hstep; exact h.finalize hi
    | sends => cases hstep
  | ended =>
    simp only [AsyncioHeartbeatSender.wake, hpc] at hstep
    cases hstep

theorem Inv.step {a : HeartbeatAct} (h : s.Inv) (hok : s.Exclusive a) (hstep : s.step a = some t) : t.Inv := by
  cases a with
  | start =>
    cases hstep
    exact h.start hok
  | stop =>
    cases hstep
    exact h.stop
  | stopReturns i =>
    simp only [AsyncioHeartbeatSender.step] at hstep
    split at hstep
    · cases hstep
      exact ⟨h.fresh, h.slot, h.idle, h.one, h.kept⟩
    · cases hstep
  | cancelTask i =>
    simp only [AsyncioHeartbeatSender.step] at hstep
    split at hstep
    · cases hstep
    · next hpc =>
      cases hstep
      exact h.cancelTask hok hpc
  | wake i connected outcome => exact h.wake hstep

/-- For every interleaving of the calls with the steps of the loops: a sender whose loops are created one after the other
linearizes. -/
theorem linearizes_of_reachable (h : heartbeatMachine.Reachable (fun s a => s.Exclusive a) s) : s.Linearizes := by
  refine (h.invariant (I := Inv) ?_ fun s a t hi hok hstep => hi.step hok hstep).linearizes
  rintro _ rfl
  exact ⟨fun _ _ => rfl, nofun, fun _ => ⟨rfl, nofun⟩, fun i _ hi => absurd rfl hi.1, rfl⟩

instance (s : AsyncioHeartbeatSender) (i : Nat) : Decidable (s.Live i) :=
  inferInstanceAs (Decidable (_ ∧ ¬ (_ ∧ _)))

instance (s : AsyncioHeartbeatSender) : (a : HeartbeatAct) → Decidable (s.Exclusive a)
  | .start => inferInstanceAs (Decidable (s.running = false → ∀ i < s.created, ¬ s.Live i))
  | .cancelTask i => inferInstanceAs (Decidable ((s.loops i).pc = .created → (s.loops i).cancelRequested = true))
  | .stop | .stopReturns _ | .wake _ _ _ => isTrue trivial

end AsyncioHeartbeatSender

/-- The first loop fails, and the sender is started again when it has ended. -/
theorem linearizes_of_restarted : ∃ s : AsyncioHeartbeatSender,
    (s.running = true ∧ s.created = 2 ∧ (s.loops 1).pc = .sending) ∧ s.Linearizes := by
  have hrun : ∃ s : AsyncioHeartbeatSender, heartbeatMachine.Reachable (fun s a => s.Exclusive a) s ∧
      decide (s.running = true ∧ s.created = 2 ∧ (s.loops 1).pc = .sending) :=
    Machine.Reachable.exists_of_execOk rfl
      [.start, .wake 0 true .returns, .wake 0 true .returns, .wake 0 true .raises, .start, .wake 0 true .returns, .start,
        .wake 1 true .returns, .wake 1 true .returns, .wake 1 true .sends] _ (by decide)
  obtain ⟨s, hs, hp⟩ := hrun
  exact ⟨s, of_decide_eq_true hp, AsyncioHeartbeatSender.linearizes_of_reachable hs⟩

/-- The sender is started again while `stop` waits for the first loop, whose provider cleans up after its cancellation: the finalizer
of the first loop stops the second one, which is at its sleep. -/
theorem not_linearizes_of_startDuringStop :
    ¬ ∀ s : AsyncioHeartbeatSender, heartbeatMachine.Reachable Machine.Any s → s.Linearizes := by
  have hrun : ∃ s : AsyncioHeartbeatSender, heartbeatMachine.Reachable Machine.Any s ∧
      decide (s.stops = [] ∧ s.running = false ∧ s.effective = some 1 ∧ (s.loops 1).pc = .sleeping) :=
    Machine.Reachable.exists_of_exec rfl
      [.start, .wake 0 true .returns, .wake 0 true .returns, .stop, .wake 0 true .suspends, .start, .wake 1 true .returns,
        .wake 0 true .cancelled, .stopReturns 0] _ (by decide)
  obtain ⟨s, hs, hp⟩ := hrun
  obtain ⟨hstops, hrunning, heffective, hpc⟩ := of_decide_eq_true hp
  intro hall
  have hset := ((hall s hs).running_iff hstops).mpr ⟨1, heffective, by rw [hpc]; nofun⟩
  cases hrunning.symm.trans hset

end Aionetx
