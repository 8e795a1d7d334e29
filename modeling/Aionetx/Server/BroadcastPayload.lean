import Aionetx.Server.Broadcast

/-!
# The payload of a broadcast

`broadcast` hands the caller's object to every send, and `send` copies it when the send begins.

* `BroadcastPayload` : a call of `broadcast` with the caller's buffer, which other tasks may change, and what was written;
* `BroadcastPayload.AtomicPayload` : every connection that was written to got the value of the call;
* `BroadcastPayload.Quiet` : the buffer is left alone while a send that will write has not begun;
* `atomicPayload_of_reachable` : so it is in every run that is quiet.
-/

namespace Aionetx

open Runs

universe u v w

/-- A call of `broadcast` with its argument: the bytes at the time of the call, and whether they can change (a `bytearray` or
a `memoryview`) or not (`bytes`). -/
structure PayloadCall (κ : Type u) (β : Type w) extends BroadcastCall κ where
  data : β
  mutable : Bool

/-- The broadcast, the present value of the argument, what `writer.write` got for each connection, and whether the caller was
cancelled. -/
structure BroadcastPayload (κ : Type u) (ε : Type v) (β : Type w) where
  broadcast : Broadcast κ ε
  buffer : β
  written : List (κ × β) := []
  cancelled : Bool := false

/-- The tasks of the broadcast, a cancellation of its caller, and another task that writes to the buffer. -/
inductive PayloadAct (κ : Type u) (ε : Type v) (β : Type w)
  | broadcast (a : BroadcastAct κ ε)
  | cancel
  | mutate (value : β)

namespace BroadcastPayload

variable {κ : Type u} {ε : Type v} {β : Type w} [DecidableEq κ]

def writes (call : BroadcastCall κ) (s : Broadcast κ ε) : BroadcastAct κ ε → List κ
  | .beginSend k => if s.connected k && (call.bytesLike && s.copyable) then [k] else []
  | _ => []

/-- One action. `gather` passes a cancellation on to the sends: those that have not begun never do. -/
def step (call : PayloadCall κ β) (s : BroadcastPayload κ ε β) : PayloadAct κ ε β → Option (BroadcastPayload κ ε β)
  | .broadcast a =>
    if s.cancelled then none
    else (s.broadcast.step call.toBroadcastCall a).map fun b =>
      { s with
        broadcast := b
        written := s.written ++ (writes call.toBroadcastCall s.broadcast a).map fun k => (k, s.buffer) }
  | .cancel => some { s with cancelled := true }
  | .mutate value => if call.mutable then some { s with buffer := value } else none

end BroadcastPayload

def payloadMachine {κ : Type u} {ε : Type v} {β : Type w} [DecidableEq κ] (call : PayloadCall κ β) :
    Machine (BroadcastPayload κ ε β) (PayloadAct κ ε β) where
  init s := s = { broadcast := call.snapshot, buffer := call.data }
  step := BroadcastPayload.step call

namespace BroadcastPayload

variable {κ : Type u} {ε : Type v} {β : Type w}

/-- Every connection that is written to gets the value that the argument had at the call, once. -/
structure AtomicPayload (call : PayloadCall κ β) (s : BroadcastPayload κ ε β) : Prop where
  atomic : ∀ k value, (k, value) ∈ s.written → value = call.data
  once : (s.written.map Prod.fst).Nodup

/-- A connection of the snapshot is still connected, and its send has not begun. -/
def Pending (call : PayloadCall κ β) (s : BroadcastPayload κ ε β) : Prop :=
  call.bytesLike = true ∧ s.cancelled = false ∧
    ∃ k ∈ call.live, s.broadcast.connected k = true ∧ (s.broadcast.sends k).begun = false

/-- No other value is written to the buffer while a send is pending. -/
def Quiet (call : PayloadCall κ β) (s : BroadcastPayload κ ε β) : PayloadAct κ ε β → Prop
  | .mutate value => value = s.buffer ∨ ¬ s.Pending call
  | .broadcast _ | .cancel => True

end BroadcastPayload

/-! ## One step of the broadcast -/

namespace Broadcast

variable {κ : Type u} {ε : Type v} [DecidableEq κ] {call : BroadcastCall κ} {s t : Broadcast κ ε} {a : BroadcastAct κ ε}

def begins : BroadcastAct κ ε → List κ
  | .beginSend k => [k]
  | _ => []

/-- What a step does to the connections and to the sends that have begun: none becomes `CONNECTED` again, and at most one
begins. -/
theorem connected_and_begun_of_step (hstep : s.step call a = some t) :
    (∀ k, t.connected k = true → s.connected k = true) ∧ t.begun = s.begun ++ begins a := by
  have hnil : s.begun = s.begun ++ [] := (List.append_nil _).symm
  cases a with
  | setCopyable =>
    cases hstep
    exact ⟨fun _ => id, hnil⟩
  | disconnect j =>
    cases hstep
    refine ⟨fun k h => ?_, hnil⟩
    by_cases hkj : k = j
    · simp [hkj] at h
    · simpa [Function.update_of_ne hkj] using h
  | acquire j =>
    simp only [step] at hstep
    split at hstep
    · split_ifs at hstep
      cases hstep
      exact ⟨fun _ => id, hnil⟩
    · cases hstep
  | beginSend j =>
    simp only [step] at hstep
    split at hstep
    · cases hstep
      unfold beginSend finish
      dsimp only
      split_ifs
      · exact ⟨fun _ => id, rfl⟩
      · exact ⟨fun _ => id, rfl⟩
      · exact ⟨fun _ => id, rfl⟩
      · exact ⟨fun _ => id, rfl⟩
    · cases hstep
  | endSend j error =>
    simp only [step] at hstep
    split at hstep
    · split_ifs at hstep
      cases hstep
      exact ⟨fun _ => id, hnil⟩
    · cases hstep
  | gathered =>
    simp only [step] at hstep
    split at hstep
    · split_ifs at hstep
      cases hstep
      exact ⟨fun _ => id, hnil⟩
    · cases hstep
  | report =>
    simp only [step, report] at hstep
    split at hstep
    · cases hstep; exact ⟨fun _ => id, hnil⟩
    · split_ifs at hstep
      · cases hstep; exact ⟨fun _ => id, hnil⟩
      · cases hstep; exact ⟨fun _ h => ((Bool.and_eq_true _ _).mp h).1, hnil⟩
    · cases hstep; exact ⟨fun _ => id, hnil⟩
    · cases hstep; exact ⟨fun _ => id, hnil⟩
    · cases hstep; exact ⟨fun _ => id, hnil⟩
    · cases hstep
  | closeReturned j error =>
    simp only [step] at hstep
    split at hstep
    · split_ifs at hstep
      cases hstep
      exact ⟨fun _ => id, hnil⟩
    · cases hstep

/-- What is written to has not been written to before: its send begins at this step. -/
theorem of_mem_writes (h : s.Sending call) (hstep : s.step call a = some t) {k : κ} (hk : k ∈ BroadcastPayload.writes call s a) :
    k ∈ call.live ∧ s.connected k = true ∧ (s.sends k).begun = false ∧ call.bytesLike = true := by
  cases a with
  | beginSend j =>
    simp only [BroadcastPayload.writes] at hk
    split_ifs at hk with hwrite
    · obtain rfl := List.mem_singleton.mp hk
      obtain ⟨hconnected, hdata⟩ := (Bool.and_eq_true _ _).mp hwrite
      have hbytes : call.bytesLike = true := ((Bool.and_eq_true _ _).mp hdata).1
      simp only [step] at hstep
      split at hstep
      · next hpc =>
        refine ⟨h.live k fun hw => ?_, hconnected, by rw [hpc]; rfl, hbytes⟩
        cases hpc.symm.trans hw
      · cases hstep
    · cases hk
  | disconnect | setCopyable | acquire | endSend | gathered | report | closeReturned => cases hk

omit [DecidableEq κ] in
theorem not_begun_iff (h : s.Sending call) (k : κ) : (s.sends k).begun = false ↔ k ∉ s.begun := by
  rw [h.begun, Bool.not_eq_true]

end Broadcast

/-! ## Runs -/

namespace BroadcastPayload

variable {κ : Type u} {ε : Type v} {β : Type w} {call : PayloadCall κ β} {s t : BroadcastPayload κ ε β}

/-- While a send is pending the buffer holds the value of the call, and so does everything written. -/
structure Inv (call : PayloadCall κ β) (s : BroadcastPayload κ ε β) : Prop where
  sending : s.broadcast.Sending call.toBroadcastCall
  begun : ∀ k ∈ s.written.map Prod.fst, k ∈ s.broadcast.begun
  kept : s.Pending call → s.buffer = call.data
  atomic : s.AtomicPayload call

variable [DecidableEq κ]

theorem pending_of_step {a : BroadcastAct κ ε} {b : Broadcast κ ε} (h : s.Inv call) (hcancelled : s.cancelled = false)
    (hstep : s.broadcast.step call.toBroadcastCall a = some b)
    (hpending : ({ s with broadcast := b } : BroadcastPayload κ ε β).Pending call) : s.Pending call := by
  obtain ⟨hbytes, -, k, hk, hconnected, hnot⟩ := hpending
  obtain ⟨hstill, hbegun⟩ := Broadcast.connected_and_begun_of_step hstep
  refine ⟨hbytes, hcancelled, k, hk, hstill k hconnected, (Broadcast.not_begun_iff h.sending k).mpr fun hmem => ?_⟩
  refine (Broadcast.not_begun_iff (h.sending.step hstep) k).mp hnot ?_
  rw [hbegun]
  exact List.mem_append_left _ hmem

omit [DecidableEq κ] in
theorem writes_sublist_begins (call : BroadcastCall κ) (b : Broadcast κ ε) (a : BroadcastAct κ ε) :
    (writes call b a).Sublist (Broadcast.begins a) := by
  cases a with
  | beginSend k =>
    simp only [writes, Broadcast.begins]
    split_ifs
    · exact List.Sublist.refl _
    · exact List.nil_sublist _
  | disconnect | setCopyable | acquire | endSend | gathered | report | closeReturned => exact List.nil_sublist _

omit [DecidableEq κ] in
theorem nodup_writes (call : BroadcastCall κ) (b : Broadcast κ ε) (a : BroadcastAct κ ε) : (writes call b a).Nodup := by
  refine (writes_sublist_begins call b a).nodup ?_
  cases a with
  | beginSend k => exact List.nodup_singleton k
  | disconnect | setCopyable | acquire | endSend | gathered | report | closeReturned => exact List.nodup_nil

theorem pending_of_mem_writes {a : BroadcastAct κ ε} {b : Broadcast κ ε} (h : s.Inv call) (hcancelled : s.cancelled = false)
    (hstep : s.broadcast.step call.toBroadcastCall a = some b) {k : κ}
    (hk : k ∈ writes call.toBroadcastCall s.broadcast a) : s.Pending call ∧ k ∉ s.broadcast.begun := by
  obtain ⟨hlive, hconnected, hnot, hbytes⟩ := Broadcast.of_mem_writes h.sending hstep hk
  exact ⟨⟨hbytes, hcancelled, k, hlive, hconnected, hnot⟩, (Broadcast.not_begun_iff h.sending k).mp hnot⟩

/-- An action of the broadcast writes the value of the call, to a connection that had none. -/
theorem Inv.broadcast {a : BroadcastAct κ ε} {b : Broadcast κ ε} (h : s.Inv call) (hcancelled : s.cancelled = false)
    (hstep : s.broadcast.step call.toBroadcastCall a = some b) :
    ({ s with
        broadcast := b
        written := s.written ++ (writes call.toBroadcastCall s.broadcast a).map fun k => (k, s.buffer) } :
      BroadcastPayload κ ε β).Inv call := by
  have hbegun := (Broadcast.connected_and_begun_of_step hstep).2
  have hfst : ((writes call.toBroadcastCall s.broadcast a).map fun k => (k, s.buffer)).map Prod.fst =
      writes call.toBroadcastCall s.broadcast a := by
    rw [List.map_map]
    exact List.map_id _
  refine ⟨h.sending.step hstep, fun k hk => ?_, fun hpending => ?_, fun k value hmem => ?_, ?_⟩
  · rw [List.map_append, hfst] at hk
    rw [hbegun]
    rcases List.mem_append.mp hk with hk | hk
    · exact List.mem_append_left _ (h.begun k hk)
    · exact List.mem_append_right _ ((writes_sublist_begins _ _ a).mem hk)
  · exact h.kept (pending_of_step h hcancelled hstep hpending)
  · rcases List.mem_append.mp hmem with hmem | hmem
    · exact h.atomic.atomic k value hmem
    · obtain ⟨j, hj, heq⟩ := List.mem_map.mp hmem
      obtain ⟨rfl, rfl⟩ := Prod.mk.inj heq
      exact h.kept (pending_of_mem_writes h hcancelled hstep hj).1
  · rw [List.map_append, hfst]
    refine h.atomic.once.append (nodup_writes _ _ a) fun k hk hk' => ?_
    exact (pending_of_mem_writes h hcancelled hstep hk').2 (h.begun k hk)

theorem Inv.step {a : PayloadAct κ ε β} (h : s.Inv call) (hok : s.Quiet call a) (hstep : s.step call a = some t) :
    t.Inv call := by
  cases a with
  | broadcast a =>
    simp only [BroadcastPayload.step] at hstep
    split at hstep
    · cases hstep
    · next hcancelled =>
      obtain ⟨b, hb, rfl⟩ := Option.map_eq_some_iff.mp hstep
      exact h.broadcast (Bool.eq_false_iff.mpr hcancelled) hb
  | cancel =>
    cases hstep
    exact ⟨h.sending, h.begun, fun hpending => (by cases hpending.2.1), h.atomic.atomic, h.atomic.once⟩
  | mutate value =>
    simp only [BroadcastPayload.step] at hstep
    split at hstep
    · cases hstep
      refine ⟨h.sending, h.begun, fun hpending => ?_, h.atomic.atomic, h.atomic.once⟩
      rcases hok with hsame | hnot
      · exact hsame.trans (h.kept hpending)
      · exact absurd hpending hnot
    · cases hstep

/-- For every number of connections and limit, and every interleaving: if the buffer is left alone while a send is pending,
every connection that is written to gets the bytes of the call. -/
theorem atomicPayload_of_reachable (h : (payloadMachine call).Reachable (fun s a => s.Quiet call a) s) :
    s.AtomicPayload call := by
  refine (h.invariant (I := Inv call) ?_ fun s a t hi hok hstep => hi.step hok hstep).atomic
  rintro _ rfl
  have hinit : (broadcastMachine (ε := ε) call.toBroadcastCall).Reachable Machine.Any call.snapshot := .init rfl
  exact ⟨Broadcast.sending_of_reachable hinit, nofun, fun _ => rfl, nofun, List.nodup_nil⟩

instance (call : PayloadCall κ β) (s : BroadcastPayload κ ε β) : Decidable (s.Pending call) :=
  inferInstanceAs (Decidable (_ ∧ _ ∧ _))

instance [DecidableEq β] (call : PayloadCall κ β) (s : BroadcastPayload κ ε β) :
    (a : PayloadAct κ ε β) → Decidable (s.Quiet call a)
  | .mutate value => inferInstanceAs (Decidable (value = s.buffer ∨ ¬ s.Pending call))
  | .broadcast _ | .cancel => isTrue trivial

end BroadcastPayload

/-- `bytearray(b"\x01")` for two connected clients, one send at a time. -/
def oneByteForTwo : PayloadCall Bool (List UInt8) where
  toBroadcastCall := twoClients true
  data := [1]
  mutable := true

/-- The buffer is used again when the second send has begun. -/
theorem atomicPayload_of_reused : ∃ s : BroadcastPayload Bool String (List UInt8),
    (s.broadcast.phase = .returned ∧ s.written.length = 2 ∧ s.buffer = [2]) ∧ s.AtomicPayload oneByteForTwo := by
  have hrun : ∃ s : BroadcastPayload Bool String (List UInt8),
      (payloadMachine oneByteForTwo).Reachable (fun s a => s.Quiet oneByteForTwo a) s ∧
        decide (s.broadcast.phase = .returned ∧ s.written.length = 2 ∧ s.buffer = [2]) :=
    Machine.Reachable.exists_of_execOk rfl
      [.broadcast (.acquire false), .broadcast (.beginSend false), .broadcast (.endSend false none),
        .broadcast (.acquire true), .broadcast (.beginSend true), .mutate [2], .broadcast (.endSend true none),
        .broadcast .gathered, .broadcast .report] _ (by decide)
  obtain ⟨s, hs, hp⟩ := hrun
  exact ⟨s, of_decide_eq_true hp, BroadcastPayload.atomicPayload_of_reachable hs⟩

/-- The buffer is used again while the second client waits for the slow first one: they get different bytes. -/
theorem not_atomicPayload_of_slowFirst :
    ¬ ∀ s : BroadcastPayload Bool String (List UInt8), (payloadMachine oneByteForTwo).Reachable Machine.Any s →
      s.AtomicPayload oneByteForTwo := by
  have hrun : ∃ s : BroadcastPayload Bool String (List UInt8), (payloadMachine oneByteForTwo).Reachable Machine.Any s ∧
      decide (s.written = [(false, [1]), (true, [2])]) :=
    Machine.Reachable.exists_of_exec rfl
      [.broadcast (.acquire false), .broadcast (.beginSend false), .mutate [2], .broadcast (.endSend false none),
        .broadcast (.acquire true), .broadcast (.beginSend true)] _ (by decide)
  obtain ⟨s, hs, hp⟩ := hrun
  have hwritten := of_decide_eq_true hp
  intro hall
  have hnew := (hall s hs).atomic true [2] (by rw [hwritten]; decide)
  exact absurd hnew (by decide)

end Aionetx
