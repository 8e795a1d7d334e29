import Aionetx.Runs.Machine
import Mathlib.Data.List.Nodup

/-!
# `broadcast`

A broadcast sends to every connection of a snapshot under a semaphore, gathers the errors, reports them one by one, and
closes the connections whose send has failed, for whatever reason.

* `BroadcastCall` : the registry, the argument and the settings; `BroadcastCall.live` : the snapshot;
* `Broadcast` : a call in progress; `Broadcast.step`;
* `Broadcast.ClosesOnlyFailed` : one send each, within the limit, one report per failed send, and only the connections
  whose own transport failed or timed out are closed;
* `closesOnlyFailed_of_reachable` : so it is for a bytes-like argument while no connection is lost before its send and the
  argument is not released.
-/

namespace Aionetx

open Runs

universe u v

inductive SendError (ε : Type v)
  /-- `ConnectionClosedError` -/
  | connectionClosed
  /-- `TypeError` -/
  | notBytesLike
  /-- `bytes(data)` raises: `ValueError` for a memoryview that has been released -/
  | notCopied
  /-- the error of the stream -/
  | transport (error : ε)
  /-- `asyncio.TimeoutError`, of the connection or of the broadcast -/
  | timeout
  deriving DecidableEq, Repr

/-- The transport of the connection itself failed or timed out. -/
def SendError.own {ε : Type v} : SendError ε → Bool
  | .transport _ | .timeout => true
  | .connectionClosed | .notBytesLike | .notCopied => false

inductive SendPc (ε : Type v)
  /-- it waits for the semaphore -/
  | waiting
  /-- it holds the semaphore, and `send` has not begun -/
  | acquired
  /-- it awaits `drain()` -/
  | draining
  | done (error : Option (SendError ε))
  deriving DecidableEq, Repr

namespace SendPc
variable {ε : Type v}

def holding : SendPc ε → Bool
  | .acquired | .draining => true
  | .waiting | .done _ => false

def begun : SendPc ε → Bool
  | .draining | .done _ => true
  | .waiting | .acquired => false

def error : SendPc ε → Option (SendError ε)
  | .done e => e
  | _ => none

def isDone : SendPc ε → Bool
  | .done _ => true
  | _ => false

end SendPc

/-- A call of `broadcast`: the registry with the connections that are `CONNECTED`, whether the argument is bytes-like and can
be copied, and the settings. -/
structure BroadcastCall (κ : Type u) where
  connections : List κ
  nodup : connections.Nodup
  connected : κ → Bool
  bytesLike : Bool
  copyable : Bool := true
  concurrencyLimit : Nat
  /-- `broadcast_send_timeout_seconds` or the send timeout of the connections is set -/
  sendTimeout : Bool

def BroadcastCall.live {κ : Type u} (call : BroadcastCall κ) : List κ :=
  call.connections.filter call.connected

inductive BroadcastPhase (κ : Type u) (ε : Type v)
  | sending
  /-- the failed sends that are still to be reported -/
  | reporting (left : List (κ × SendError ε))
  /-- the closes in progress, and the errors of those that have ended -/
  | closing (pending : List κ) (errors : List ε)
  /-- the errors of the closes that are still to be reported -/
  | teardown (errors : List ε)
  | returned
  deriving DecidableEq

/-- A `NetworkErrorEvent` of the server. -/
inductive BroadcastError (ε : Type v)
  | send (error : SendError ε)
  | close (error : ε)
  deriving DecidableEq, Repr

/-- A broadcast in progress: which connections are `CONNECTED`, whether the argument can be copied, the semaphore, the sends
begun so far, `failed_connections`, the events, and the calls of `close()`. -/
structure Broadcast (κ : Type u) (ε : Type v) where
  connected : κ → Bool
  copyable : Bool
  permits : Nat
  phase : BroadcastPhase κ ε
  sends : κ → SendPc ε := fun _ => .waiting
  begun : List κ := []
  failed : List (κ × SendError ε) := []
  events : List (BroadcastError ε) := []
  closes : List κ := []
  raised : Option (SendError ε) := none

/-- The tasks of the broadcast, a connection that is lost or closed by somebody else, and a task that releases the argument. -/
inductive BroadcastAct (κ : Type u) (ε : Type v)
  | disconnect (k : κ)
  | setCopyable (copyable : Bool)
  | acquire (k : κ)
  | beginSend (k : κ)
  | endSend (k : κ) (error : Option (SendError ε))
  | gathered
  | report
  | closeReturned (k : κ) (error : Option ε)

namespace Broadcast

variable {κ : Type u} {ε : Type v} [DecidableEq κ]

/-- The semaphore is released with the result of the send. -/
def finish (s : Broadcast κ ε) (k : κ) (error : Option (SendError ε)) : Broadcast κ ε :=
  { s with sends := Function.update s.sends k (.done error), permits := s.permits + 1 }

def beginSend (call : BroadcastCall κ) (s : Broadcast κ ε) (k : κ) : Broadcast κ ε :=
  let s := { s with begun := s.begun ++ [k] }
  if !s.connected k then s.finish k (some .connectionClosed)
  else if !call.bytesLike then s.finish k (some .notBytesLike)
  else if !s.copyable then s.finish k (some .notCopied)
  else { s with sends := Function.update s.sends k .draining }

/-- The results of the sends that are errors, in the order of the snapshot. -/
def failures (call : BroadcastCall κ) (s : Broadcast κ ε) : List (κ × SendError ε) :=
  call.live.filterMap fun k => (s.sends k).error.map fun e => (k, e)

/-- An await of `drain()` can end so. -/
def ends (call : BroadcastCall κ) : Option (SendError ε) → Bool
  | none | some (.transport _) => true
  | some .timeout => call.sendTimeout
  | some .connectionClosed | some .notBytesLike | some .notCopied => false

/-- One step after the sends. -/
def report (s : Broadcast κ ε) : Option (Broadcast κ ε) :=
  match s.phase with
  | .reporting ((k, e) :: left) =>
    some { s with phase := .reporting left, failed := s.failed ++ [(k, e)], events := s.events ++ [.send e] }
  | .reporting [] =>
    let failedConnections := s.failed.map Prod.fst
    if failedConnections = [] then some { s with phase := .returned }
    else some { s with
      phase := .closing failedConnections []
      closes := failedConnections
      connected := fun k => s.connected k && k ∉ failedConnections }
  | .closing [] errors => some { s with phase := .teardown errors }
  | .teardown (e :: errors) => some { s with phase := .teardown errors, events := s.events ++ [.close e] }
  | .teardown [] => some { s with phase := .returned }
  | _ => none

def step (call : BroadcastCall κ) (s : Broadcast κ ε) : BroadcastAct κ ε → Option (Broadcast κ ε)
  | .disconnect k => some { s with connected := Function.update s.connected k false }
  | .setCopyable copyable => some { s with copyable }
  | .acquire k =>
    match s.sends k with
    | .waiting =>
      if k ∈ call.live ∧ 0 < s.permits then
        some { s with sends := Function.update s.sends k .acquired, permits := s.permits - 1 }
      else none
    | _ => none
  | .beginSend k =>
    match s.sends k with
    | .acquired => some (s.beginSend call k)
    | _ => none
  | .endSend k error =>
    match s.sends k with
    | .draining => if ends call error then some (s.finish k error) else none
    | _ => none
  | .gathered =>
    match s.phase with
    | .sending =>
      if call.live.all fun k => (s.sends k).isDone then some { s with phase := .reporting (s.failures call) } else none
    | _ => none
  | .report => s.report
  | .closeReturned k error =>
    match s.phase with
    | .closing pending errors =>
      if k ∈ pending then some { s with phase := .closing (pending.erase k) (errors ++ error.toList) } else none
    | _ => none

end Broadcast

/-- The snapshot is taken; without a live connection the broadcast has returned. -/
def BroadcastCall.snapshot {κ : Type u} {ε : Type v} (call : BroadcastCall κ) : Broadcast κ ε :=
  { connected := call.connected
    copyable := call.copyable
    permits := call.concurrencyLimit
    phase := if call.live = [] then .returned else .sending }

def broadcastMachine {κ : Type u} {ε : Type v} [DecidableEq κ] (call : BroadcastCall κ) :
    Machine (Broadcast κ ε) (BroadcastAct κ ε) where
  init s := s = call.snapshot
  step := Broadcast.step call

/-! ## What broadcast promises -/

namespace Broadcast

variable {κ : Type u} {ε : Type v} [DecidableEq κ]

def sendEvents (s : Broadcast κ ε) : List (SendError ε) :=
  s.events.filterMap fun
    | .send e => some e
    | .close _ => none

/-- One send to each connection of the snapshot, within the limit; one event per failed send; `close()` for exactly the
connections whose own transport failed or timed out; a `TypeError` for an argument that is not bytes-like. -/
structure ClosesOnlyFailed (call : BroadcastCall κ) (s : Broadcast κ ε) : Prop where
  once : s.begun.Nodup ∧ ∀ k ∈ s.begun, k ∈ call.live
  all : s.phase = .returned → ∀ k ∈ call.live, k ∈ s.begun
  limited : call.live.countP (fun k => (s.sends k).holding) ≤ call.concurrencyLimit
  reported : s.phase = .returned → s.sendEvents = (s.failures call).map Prod.snd
  closesOnly : ∀ k ∈ s.closes, ∃ e, s.sends k = .done (some e) ∧ e.own
  closesAll : s.phase = .returned → ∀ k ∈ call.live, ∀ e, s.sends k = .done (some e) → e.own → k ∈ s.closes
  raises : call.bytesLike = false → s.phase = .returned → s.raised = some .notBytesLike ∧ s.closes = []

structure Sending (call : BroadcastCall κ) (s : Broadcast κ ε) : Prop where
  live : ∀ k, s.sends k ≠ .waiting → k ∈ call.live
  begun : ∀ k, k ∈ s.begun ↔ (s.sends k).begun
  nodup : s.begun.Nodup
  permits : s.permits + call.live.countP (fun k => (s.sends k).holding) = call.concurrencyLimit

def Reporting (call : BroadcastCall κ) (s : Broadcast κ ε) : Prop :=
  s.sendEvents = s.failed.map Prod.snd ∧
  match s.phase with
  | .sending => s.failed = [] ∧ s.closes = []
  | .reporting left => s.failed ++ left = s.failures call ∧ s.closes = [] ∧ call.live.all fun k => (s.sends k).isDone
  | .closing _ _ | .teardown _ | .returned =>
    s.failed = s.failures call ∧ s.closes = (s.failures call).map Prod.fst ∧ call.live.all fun k => (s.sends k).isDone

end Broadcast

theorem BroadcastCall.nodup_live {κ : Type u} (call : BroadcastCall κ) : call.live.Nodup :=
  call.nodup.filter _

/-- Updating one connection of a list without duplicates changes a count by that connection. -/
theorem countP_update {κ : Type u} {β : Type v} [DecidableEq κ] (p : β → Bool) (f : κ → β) {k : κ} {l : List κ}
    (hl : l.Nodup) (hk : k ∈ l) (b : β) :
    (l.countP fun x => p (Function.update f k b x)) + (if p (f k) then 1 else 0) =
      (l.countP fun x => p (f x)) + if p b then 1 else 0 := by
  induction l with
  | nil => cases hk
  | cons x l ih =>
    rw [List.nodup_cons] at hl
    rw [List.countP_cons, List.countP_cons]
    by_cases hx : k = x
    · subst hx
      have hrest : (l.countP fun x => p (Function.update f k b x)) = l.countP fun x => p (f x) := by
        refine List.countP_congr fun y hy => ?_
        rw [Function.update_of_ne]
        rintro rfl
        exact hl.1 hy
      rw [hrest, Function.update_self]
      omega
    · have hk' : k ∈ l := (List.mem_cons.1 hk).resolve_left hx
      have hrest := ih hl.2 hk'
      rw [Function.update_of_ne (Ne.symm hx)]
      omega

namespace Broadcast

variable {κ : Type u} {ε : Type v} {call : BroadcastCall κ} {s s' : Broadcast κ ε}

theorem Sending.frame (h : s.Sending call) (hsends : s'.sends = s.sends) (hbegun : s'.begun = s.begun)
    (hpermits : s'.permits = s.permits) : s'.Sending call := by
  refine ⟨fun k hk => h.live k (hsends ▸ hk), fun k => ?_, hbegun ▸ h.nodup, ?_⟩
  · rw [hbegun, hsends]
    exact h.begun k
  · rw [hpermits, hsends]
    exact h.permits

variable [DecidableEq κ]

/-- One send goes on: it keeps the semaphore or hands it back, and it begins at most once. -/
theorem Sending.update (h : s.Sending call) {k : κ} (hk : k ∈ call.live) {pc : SendPc ε}
    (hsends : s'.sends = Function.update s.sends k pc)
    (hpermits : s'.permits + (if pc.holding then 1 else 0) = s.permits + if (s.sends k).holding then 1 else 0)
    (hbegun : s'.begun = s.begun ∧ pc.begun = (s.sends k).begun ∨
      s'.begun = s.begun ++ [k] ∧ pc.begun = true ∧ (s.sends k).begun = false) : s'.Sending call := by
  refine ⟨fun k' hk' => ?_, fun k' => ?_, ?_, ?_⟩
  · by_cases hkk : k' = k
    · exact hkk ▸ hk
    · rw [hsends, Function.update_of_ne hkk] at hk'
      exact h.live k' hk'
  · rw [hsends]
    by_cases hkk : k' = k
    · subst hkk
      rw [Function.update_self]
      rcases hbegun with ⟨hbegun, hpc⟩ | ⟨hbegun, hpc, -⟩
      · rw [hbegun, hpc]
        exact h.begun k'
      · rw [hbegun, hpc]
        simp
    · rw [Function.update_of_ne hkk]
      rcases hbegun with ⟨hbegun, -⟩ | ⟨hbegun, -⟩
      · rw [hbegun]
        exact h.begun k'
      · rw [hbegun, List.mem_append, List.mem_singleton, or_iff_left hkk]
        exact h.begun k'
  · rcases hbegun with ⟨hbegun, -⟩ | ⟨hbegun, -, hnot⟩
    · exact hbegun ▸ h.nodup
    · rw [hbegun]
      refine h.nodup.append (List.nodup_singleton k) fun x hx hxk => ?_
      rw [List.mem_singleton] at hxk
      subst hxk
      have hb := (h.begun x).1 hx
      rw [hnot] at hb
      cases hb
  · have hcount := countP_update SendPc.holding s.sends call.nodup_live hk pc
    have hp := h.permits
    rw [hsends]
    omega

theorem Sending.finish (h : s.Sending call) {k : κ} (hk : (s.sends k).holding = true) {begun : List κ}
    (hbegun : begun = s.begun ∧ (s.sends k).begun = true ∨ begun = s.begun ++ [k] ∧ (s.sends k).begun = false)
    (error : Option (SendError ε)) : ({ s with begun } : Broadcast κ ε).finish k error |>.Sending call := by
  have hlive : k ∈ call.live := by
    refine h.live k fun hw => ?_
    rw [hw] at hk
    cases hk
  refine h.update hlive rfl ?_ (hbegun.imp (fun hb => ⟨hb.1, hb.2.symm⟩) fun hb => ⟨hb.1, rfl, hb.2⟩)
  rw [hk]
  rfl

theorem Sending.step {a : BroadcastAct κ ε} (h : s.Sending call) (hstep : s.step call a = some s') : s'.Sending call := by
  cases a with
  | disconnect | setCopyable =>
    cases hstep
    exact h.frame rfl rfl rfl
  | acquire k =>
    simp only [Broadcast.step] at hstep
    split at hstep
    · next hk =>
      split_ifs at hstep with hlive
      cases hstep
      refine h.update hlive.1 rfl ?_ (.inl ⟨rfl, by rw [hk]; rfl⟩)
      rw [hk]
      exact Nat.sub_add_cancel hlive.2
    · cases hstep
  | beginSend k =>
    simp only [Broadcast.step] at hstep
    split at hstep
    · next hk =>
      cases hstep
      have hholding : (s.sends k).holding = true := by rw [hk]; rfl
      have hbegun : (s.sends k).begun = false := by rw [hk]; rfl
      unfold Broadcast.beginSend
      dsimp only
      split_ifs
      · exact h.finish hholding (.inr ⟨rfl, hbegun⟩) _
      · exact h.finish hholding (.inr ⟨rfl, hbegun⟩) _
      · exact h.finish hholding (.inr ⟨rfl, hbegun⟩) _
      · refine h.update (h.live k fun hw => by cases hk.symm.trans hw) rfl ?_ (.inr ⟨rfl, rfl, hbegun⟩)
        rw [hk]
        rfl
    · cases hstep
  | endSend k error =>
    simp only [Broadcast.step] at hstep
    split at hstep
    · next hk =>
      split_ifs at hstep
      cases hstep
      exact h.finish (by rw [hk]; rfl) (.inl ⟨rfl, by rw [hk]; rfl⟩) error
    · cases hstep
  | gathered =>
    simp only [Broadcast.step] at hstep
    split at hstep
    · split_ifs at hstep
      cases hstep
      exact h.frame rfl rfl rfl
    · cases hstep
  | report =>
    simp only [Broadcast.step, Broadcast.report] at hstep
    split at hstep
    · cases hstep; exact h.frame rfl rfl rfl
    · split_ifs at hstep <;> cases hstep <;> exact h.frame rfl rfl rfl
    · cases hstep; exact h.frame rfl rfl rfl
    · cases hstep; exact h.frame rfl rfl rfl
    · cases hstep; exact h.frame rfl rfl rfl
    · cases hstep
  | closeReturned k error =>
    simp only [Broadcast.step] at hstep
    split at hstep
    · split_ifs at hstep
      cases hstep
      exact h.frame rfl rfl rfl
    · cases hstep

omit [DecidableEq κ] in
theorem Reporting.sending (h : s.Reporting call) {k : κ} (hk : k ∈ call.live) (hdone : (s.sends k).isDone = false) :
    s.phase = .sending := by
  have hnot : call.live.all (fun k => (s.sends k).isDone) = false := by
    rw [List.all_eq_false]
    exact ⟨k, hk, by simp [hdone]⟩
  have hphase := h.2
  rcases hp : s.phase with _ | left | ⟨pending, errors⟩ | errors | _
  · rfl
  all_goals
    rw [hp] at hphase
    have hall := hphase.2.2
    rw [hnot] at hall
    cases hall

omit [DecidableEq κ] in
theorem Reporting.of_sending (h : s.Reporting call) (hs : s.phase = .sending) (hphase : s'.phase = s.phase)
    (hfailed : s'.failed = s.failed) (hevents : s'.events = s.events) (hcloses : s'.closes = s.closes) :
    s'.Reporting call := by
  have hold := h.2
  rw [hs] at hold
  refine ⟨?_, ?_⟩
  · unfold sendEvents
    rw [hevents, hfailed]
    exact h.1
  · rw [hphase, hs]
    exact ⟨hfailed.trans hold.1, hcloses.trans hold.2⟩

theorem Reporting.report (h : s.Reporting call) (hstep : s.report = some s') : s'.Reporting call := by
  obtain ⟨hevents, hphase⟩ := h
  unfold Broadcast.report at hstep
  split at hstep
  · next k e left hp =>
    cases hstep
    rw [hp] at hphase
    refine ⟨?_, ?_, hphase.2⟩
    · unfold sendEvents at hevents ⊢
      rw [List.filterMap_append, hevents, List.map_append]
      rfl
    · rw [List.append_assoc]
      exact hphase.1
  · next hp =>
    rw [hp] at hphase
    obtain ⟨hfailed, hcloses, hall⟩ := hphase
    rw [List.append_nil] at hfailed
    dsimp only at hstep
    split_ifs at hstep with hnone <;> cases hstep
    · refine ⟨hevents, hfailed, ?_, hall⟩
      rw [hcloses]
      exact (hfailed ▸ hnone).symm
    · exact ⟨hevents, hfailed, congrArg (List.map Prod.fst) hfailed, hall⟩
  · next errors hp =>
    cases hstep
    rw [hp] at hphase
    exact ⟨hevents, hphase⟩
  · next e errors hp =>
    cases hstep
    rw [hp] at hphase
    refine ⟨?_, hphase⟩
    unfold sendEvents at hevents ⊢
    rw [List.filterMap_append, hevents]
    exact List.append_nil _
  · next hp =>
    cases hstep
    rw [hp] at hphase
    exact ⟨hevents, hphase⟩
  · cases hstep

theorem Reporting.step {a : BroadcastAct κ ε} (h : s.Reporting call) (hs : s.Sending call)
    (hstep : s.step call a = some s') : s'.Reporting call := by
  -- a send can only go on while the phase is `sending`
  have hgo : ∀ {k pc}, s.sends k = pc → pc ≠ .waiting → pc.isDone = false → s.phase = .sending := fun hk hne hdone =>
    h.sending (hs.live _ (hk ▸ hne)) (hk ▸ hdone)
  cases a with
  | disconnect | setCopyable =>
    cases hstep
    exact h
  | acquire k =>
    simp only [Broadcast.step] at hstep
    split at hstep
    · next hk =>
      split_ifs at hstep with hlive
      cases hstep
      exact h.of_sending (h.sending hlive.1 (by rw [hk]; rfl)) rfl rfl rfl rfl
    · cases hstep
  | beginSend k =>
    simp only [Broadcast.step] at hstep
    split at hstep
    · next hk =>
      cases hstep
      have hphase := hgo hk (fun hw => by cases hw) rfl
      unfold Broadcast.beginSend
      dsimp only
      split_ifs
      · exact h.of_sending hphase rfl rfl rfl rfl
      · exact h.of_sending hphase rfl rfl rfl rfl
      · exact h.of_sending hphase rfl rfl rfl rfl
      · exact h.of_sending hphase rfl rfl rfl rfl
    · cases hstep
  | endSend k error =>
    simp only [Broadcast.step] at hstep
    split at hstep
    · next hk =>
      split_ifs at hstep
      cases hstep
      exact h.of_sending (hgo hk (fun hw => by cases hw) rfl) rfl rfl rfl rfl
    · cases hstep
  | gathered =>
    simp only [Broadcast.step] at hstep
    split at hstep
    · next hp =>
      split_ifs at hstep with hall
      cases hstep
      obtain ⟨hevents, hphase⟩ := h
      rw [hp] at hphase
      refine ⟨hevents, ?_, hphase.2, hall⟩
      rw [hphase.1]
      rfl
    · cases hstep
  | report => exact h.report hstep
  | closeReturned k error =>
    simp only [Broadcast.step] at hstep
    split at hstep
    · next hp =>
      split_ifs at hstep
      cases hstep
      obtain ⟨hevents, hphase⟩ := h
      rw [hp] at hphase
      exact ⟨hevents, hphase⟩
    · cases hstep

/-! ## Runs -/

/-- When a send begins its connection is still connected, and the argument can be copied. -/
def Sendable (s : Broadcast κ ε) : BroadcastAct κ ε → Prop
  | .beginSend k => s.connected k = true ∧ s.copyable = true
  | _ => True

/-- Every failed send is a failure of its own transport, or a timeout. -/
def OwnFailures (s : Broadcast κ ε) : Prop :=
  ∀ k e, s.sends k = .done (some e) → e.own

omit [DecidableEq κ] in
theorem OwnFailures.frame (h : s.OwnFailures) (hsends : s'.sends = s.sends) : s'.OwnFailures := by
  unfold OwnFailures
  rw [hsends]
  exact h

theorem OwnFailures.update (h : s.OwnFailures) {k : κ} {pc : SendPc ε} (hsends : s'.sends = Function.update s.sends k pc)
    (hpc : ∀ e, pc = .done (some e) → e.own) : s'.OwnFailures := by
  intro k' e he
  rw [hsends] at he
  by_cases hkk : k' = k
  · rw [hkk, Function.update_self] at he
    exact hpc e he
  · rw [Function.update_of_ne hkk] at he
    exact h k' e he

theorem OwnFailures.step {a : BroadcastAct κ ε} (h : s.OwnFailures) (hb : call.bytesLike = true)
    (hok : s.Sendable a) (hstep : s.step call a = some s') : s'.OwnFailures := by
  cases a with
  | disconnect | setCopyable =>
    cases hstep
    exact h
  | acquire k =>
    simp only [Broadcast.step] at hstep
    split at hstep
    · split_ifs at hstep
      cases hstep
      exact h.update rfl fun e he => by cases he
    · cases hstep
  | beginSend k =>
    simp only [Broadcast.step] at hstep
    split at hstep
    · cases hstep
      obtain ⟨hconnected, hcopyable⟩ := hok
      simp only [Broadcast.beginSend, hconnected, hb, hcopyable, Bool.not_true, Bool.false_eq_true, if_false]
      exact h.update rfl fun e he => by cases he
    · cases hstep
  | endSend k error =>
    simp only [Broadcast.step] at hstep
    split at hstep
    · split_ifs at hstep with hends
      cases hstep
      refine h.update rfl fun e he => ?_
      cases he
      unfold ends at hends
      cases e with
      | transport | timeout => rfl
      | connectionClosed | notBytesLike | notCopied => cases hends
    · cases hstep
  | gathered =>
    simp only [Broadcast.step] at hstep
    split at hstep
    · split_ifs at hstep
      cases hstep
      exact h.frame rfl
    · cases hstep
  | report =>
    simp only [Broadcast.step, Broadcast.report] at hstep
    split at hstep
    · cases hstep; exact h.frame rfl
    · split_ifs at hstep <;> cases hstep <;> exact h.frame rfl
    · cases hstep; exact h.frame rfl
    · cases hstep; exact h.frame rfl
    · cases hstep; exact h.frame rfl
    · cases hstep
  | closeReturned k error =>
    simp only [Broadcast.step] at hstep
    split at hstep
    · split_ifs at hstep
      cases hstep
      exact h.frame rfl
    · cases hstep

omit [DecidableEq κ] in
theorem mem_failures {k : κ} {e : SendError ε} : (k, e) ∈ s.failures call ↔ k ∈ call.live ∧ s.sends k = .done (some e) := by
  unfold failures
  simp only [List.mem_filterMap, Option.map_eq_some_iff, Prod.mk.injEq]
  constructor
  · rintro ⟨x, hx, e', he', rfl, rfl⟩
    refine ⟨hx, ?_⟩
    cases hpc : s.sends x with
    | done o => rw [hpc] at he'; exact congrArg SendPc.done he'
    | waiting | acquired | draining => rw [hpc] at he'; cases he'
  · rintro ⟨hk, he⟩
    exact ⟨k, hk, e, by rw [he]; rfl, rfl, rfl⟩

variable {ok : Broadcast κ ε → BroadcastAct κ ε → Prop}

theorem sending_of_reachable (h : (broadcastMachine call).Reachable ok s) : s.Sending call := by
  refine h.invariant (I := fun s => s.Sending call) ?_ fun s a t hi _ hstep => hi.step hstep
  rintro _ rfl
  refine ⟨fun k hk => absurd rfl hk, fun k => ?_, List.nodup_nil, ?_⟩
  · exact ⟨fun h => (by cases h), fun h => (by cases h)⟩
  · refine Nat.add_eq_left.2 (List.countP_eq_zero.2 fun k _ => ?_)
    exact Bool.false_ne_true

theorem reporting_of_reachable (h : (broadcastMachine call).Reachable ok s) : s.Reporting call := by
  refine h.invariant_of (I := fun s => s.Reporting call) (J := fun s => s.Sending call) sending_of_reachable ?_
    fun s a t hs hi _ hstep => hi.step hs hstep
  rintro _ rfl
  unfold BroadcastCall.snapshot Reporting
  split_ifs with hlive
  · simp [sendEvents, failures, hlive]
  · exact ⟨rfl, rfl, rfl⟩

/-- Whatever is broadcast to whatever connections: each gets one send, within the limit, each failed send is reported once,
and `close()` is called for exactly the connections whose send has failed. -/
theorem closes_eq_of_reachable (h : (broadcastMachine call).Reachable ok s) (hp : s.phase = .returned) :
    s.sendEvents = (s.failures call).map Prod.snd ∧ s.closes = (s.failures call).map Prod.fst ∧
      ∀ k ∈ call.live, (s.sends k).isDone := by
  obtain ⟨hevents, hphase⟩ := reporting_of_reachable h
  rw [hp] at hphase
  obtain ⟨hfailed, hcloses, hall⟩ := hphase
  exact ⟨hfailed ▸ hevents, hcloses, List.all_eq_true.1 hall⟩

theorem ownFailures_of_reachable (hb : call.bytesLike = true)
    (h : (broadcastMachine call).Reachable (fun s a => s.Sendable a) s) : s.OwnFailures := by
  refine h.invariant (I := OwnFailures) ?_ fun s a t hi hok hstep => hi.step hb hok hstep
  rintro _ rfl k e he
  cases he

/-- For every registry, limit and pattern of outcomes, a broadcast of bytes-like data closes only what failed, provided that
at the beginning of each send its connection is still connected and the data can be copied. -/
theorem closesOnlyFailed_of_reachable (hb : call.bytesLike = true)
    (h : (broadcastMachine call).Reachable (fun s a => s.Sendable a) s) : s.ClosesOnlyFailed call := by
  have hsending := sending_of_reachable h
  have hown := ownFailures_of_reachable hb h
  have hbegun : ∀ k ∈ s.begun, k ∈ call.live := by
    intro k hk
    refine hsending.live k fun hw => ?_
    have hb := (hsending.begun k).1 hk
    rw [hw] at hb
    cases hb
  refine ⟨⟨hsending.nodup, hbegun⟩, fun hp k hk => ?_, ?_, fun hp => (closes_eq_of_reachable h hp).1, fun k hk => ?_,
    fun hp k hk e he hownE => ?_, fun hno => ?_⟩
  · refine (hsending.begun k).2 ?_
    have hdone := (closes_eq_of_reachable h hp).2.2 k hk
    cases hpc : s.sends k with
    | done e => rfl
    | waiting | acquired | draining => rw [hpc] at hdone; cases hdone
  · have hpermits := hsending.permits
    omega
  · have hfailure : k ∈ (s.failures call).map Prod.fst := by
      obtain ⟨-, hphase⟩ := reporting_of_reachable h
      rcases hp : s.phase with _ | left | ⟨pending, errors⟩ | errors | _
      all_goals rw [hp] at hphase
      · rw [hphase.2] at hk
        cases hk
      · rw [hphase.2.1] at hk
        cases hk
      · exact hphase.2.1 ▸ hk
      · exact hphase.2.1 ▸ hk
      · exact hphase.2.1 ▸ hk
    obtain ⟨⟨k', e⟩, hmem, rfl⟩ := List.mem_map.1 hfailure
    obtain ⟨-, he⟩ := mem_failures.1 hmem
    exact ⟨e, he, hown _ e he⟩
  · rw [(closes_eq_of_reachable h hp).2.1]
    exact List.mem_map.2 ⟨(k, e), mem_failures.2 ⟨hk, he⟩, rfl⟩
  · rw [hb] at hno
    cases hno

instance (s : Broadcast κ ε) : (a : BroadcastAct κ ε) → Decidable (s.Sendable a)
  | .beginSend k => inferInstanceAs (Decidable (s.connected k = true ∧ s.copyable = true))
  | .disconnect _ | .setCopyable _ | .acquire _ | .endSend _ _ | .gathered | .report | .closeReturned _ _ => isTrue trivial

end Broadcast

def twoClients (bytesLike : Bool) : BroadcastCall Bool where
  connections := [false, true]
  nodup := by decide
  connected _ := true
  bytesLike := bytesLike
  concurrencyLimit := 1
  sendTimeout := true

def secondTimesOut : List (BroadcastAct Bool String) :=
  [.acquire false, .beginSend false, .endSend false none, .acquire true, .beginSend true, .endSend true (some .timeout),
    .gathered, .report, .report, .closeReturned true none, .report, .report]

theorem closesOnlyFailed_of_secondTimesOut : ∃ s : Broadcast Bool String,
    (s.phase = .returned ∧ s.closes = [true]) ∧ s.ClosesOnlyFailed (twoClients true) := by
  have hrun : ∃ s : Broadcast Bool String, (broadcastMachine (twoClients true)).Reachable (fun s a => s.Sendable a) s ∧
      decide (s.phase = .returned ∧ s.closes = [true]) :=
    Machine.Reachable.exists_of_execOk rfl secondTimesOut _ (by decide)
  obtain ⟨s, hs, hp⟩ := hrun
  exact ⟨s, of_decide_eq_true hp, Broadcast.closesOnlyFailed_of_reachable rfl hs⟩

/-- The argument is a string: every send raises `TypeError`. -/
def everySendRaises : List (BroadcastAct Bool String) :=
  [.acquire false, .beginSend false, .acquire true, .beginSend true, .gathered, .report, .report, .report,
    .closeReturned false none, .closeReturned true none, .report, .report]

/-- The broadcast returns, and both clients have been closed. -/
theorem not_closesOnlyFailed_of_everySendRaises :
    ¬ ∀ s : Broadcast Bool String, (broadcastMachine (twoClients false)).Reachable Machine.Any s →
      s.ClosesOnlyFailed (twoClients false) := by
  have hrun : ∃ s : Broadcast Bool String, (broadcastMachine (twoClients false)).Reachable Machine.Any s ∧
      decide (s.phase = .returned ∧ s.closes = [false, true]) :=
    Machine.Reachable.exists_of_exec rfl everySendRaises _ (by decide)
  obtain ⟨s, hs, hp⟩ := hrun
  obtain ⟨hreturned, hcloses⟩ := of_decide_eq_true hp
  intro hall
  have hnone := ((hall s hs).raises rfl hreturned).2
  rw [hcloses] at hnone
  cases hnone

end Aionetx
