import Mathlib.Algebra.Order.Field.Basic
import Mathlib.Data.List.Range
import Mathlib.Tactic.Linarith
import Aionetx.Runs.Machine
import Aionetx.Settings.Validation

/-!
# The UDP sender

`AsyncioUdpSender`, whose calls of `send` suspend wherever the loop or the fallback waits for room in the socket's buffer.

* `UdpSenderSettings.Fields.checkSend`, `UdpSend.Aims` : what a call is checked for, and what it is aimed at;
* `UdpSender`, `UdpSender.step`, `udpSenderMachine` : the sender, with the sockets it created and its journal;
* `UdpSender.Tidy` : what becomes of the sockets.
-/

namespace Aionetx

open Runs

/-! ## The checks of a call -/

structure UdpTarget where
  host : PyValue
  port : Int
  deriving DecidableEq

/-- The arguments of `send`: the bytes-like object, which its owner may change at any time, or `none` for anything else. -/
structure UdpSend where
  data : Option Nat
  host : PyValue := .none
  port : PyValue := .none
  deriving DecidableEq

/-- `value if value is not None else default`. -/
def PyValue.orDefault (value default : PyValue) : PyValue := if value = .none then default else value

namespace UdpSenderSettings.Fields
variable (settings : Fields)

def resolveTarget (request : UdpSend) : Except PyError UdpTarget :=
  let host := request.host.orDefault settings.defaultHost
  let port := request.port.orDefault settings.defaultPort
  host.requireNonEmptyStr "UDP target host" .udpInvalidTargetError >>= fun _ =>
    if port = .none then .error ⟨.udpInvalidTargetError, "UDP target port must be between 1 and 65535."⟩
    else (port.requireIntRange "UDP target port" 1 65535 .udpInvalidTargetError).map fun n => ⟨host, n⟩

/-- `send` up to `_ensure_socket`: the object to send and its target. -/
def checkSend (closed : Bool) (request : UdpSend) : Except PyError (Nat × UdpTarget) :=
  if closed then .error ⟨.udpSenderStoppedError, "UDP sender is stopped."⟩
  else
    match request.data with
    | none => .error ⟨.typeError, "send expects bytes-like data."⟩
    | some buffer => (settings.resolveTarget request).map fun target => (buffer, target)

end UdpSenderSettings.Fields

/-- The target is the one given, each part by itself, or else the default. -/
structure UdpSend.Aims (settings : UdpSenderSettings.Fields) (request : UdpSend) (target : UdpTarget) : Prop where
  host : target.host = request.host.orDefault settings.defaultHost
  nonBlank : target.host.NonBlank
  port : .int target.port = request.port.orDefault settings.defaultPort
  range : 1 ≤ target.port ∧ target.port ≤ 65535

variable {settings : UdpSenderSettings.Fields}

theorem resolveTarget_eq_ok_iff {request : UdpSend} {target : UdpTarget} :
    settings.resolveTarget request = .ok target ↔ request.Aims settings target := by
  unfold UdpSenderSettings.Fields.resolveTarget
  rw [bind_eq_ok_iff]
  constructor
  · rintro ⟨_, hhost, h⟩
    split at h
    · cases h
    · cases hport : (request.port.orDefault settings.defaultPort).requireIntRange "UDP target port" 1 65535
          .udpInvalidTargetError with
      | error e =>
        rw [hport] at h
        cases h
      | ok n =>
        rw [hport] at h
        obtain ⟨hn, hrange⟩ := PyValue.requireIntRange_eq_ok_iff.mp hport
        rw [← Except.ok.inj h]
        exact ⟨rfl, PyValue.requireNonEmptyStr_eq_ok_iff.mp hhost, hn.symm, hrange⟩
  · intro h
    have hhost := h.nonBlank
    rw [h.host] at hhost
    refine ⟨(), PyValue.requireNonEmptyStr_eq_ok_iff.mpr hhost, ?_⟩
    have hport : (request.port.orDefault settings.defaultPort).requireIntRange "UDP target port" 1 65535
        .udpInvalidTargetError = .ok target.port := PyValue.requireIntRange_eq_ok_iff.mpr ⟨h.port.symm, h.range⟩
    rw [if_neg (by rw [← h.port]; simp), hport, ← h.host]
    rfl

theorem checkSend_eq_ok_iff {closed : Bool} {request : UdpSend} {buffer : Nat} {target : UdpTarget} :
    settings.checkSend closed request = .ok (buffer, target) ↔
      closed = false ∧ request.data = some buffer ∧ request.Aims settings target := by
  unfold UdpSenderSettings.Fields.checkSend
  rw [← resolveTarget_eq_ok_iff]
  split
  · next h => simp [h]
  · next h =>
    rw [Bool.not_eq_true] at h
    cases request.data with
    | none => simp
    | some b => cases settings.resolveTarget request <;> simp [Except.map, h, eq_comm]

/-! ## The sender -/

structure UdpDatagram where
  source : Nat
  payload : Bytes
  target : UdpTarget
  deriving DecidableEq

/-- The journal of a run: buffers change, calls begin, the fallback sleeps, datagrams leave and the sender is stopped. -/
inductive UdpEntry
  | wrote (buffer : Nat) (contents : Bytes)
  | called (call : Nat) (request : UdpSend)
  | slept (call : Nat) (delaySeconds : ℚ)
  | sent (call : Nat) (datagram : UdpDatagram)
  | stopped
  deriving DecidableEq

/-- What became of a socket: bound, and cached since; closed by `stop`; closed after its setup raised an `OSError`; left to the
garbage collector, after its setup raised anything else. -/
inductive SocketStatus
  | bound
  | released
  | discarded
  | dropped (e : PyError)
  deriving DecidableEq

/-- The setup in `_ensure_socket`: `socket.socket` raises, or what comes after it does, or the socket is bound. -/
inductive SocketSetup
  | unavailable (e : PyError)
  | raises (e : PyError)
  | bound

/-- The outcome of one `sendto`; in the first turn of a call `raises` is also a copy `bytes(data)` that raises. -/
inductive SendAttempt
  | sent
  | wouldBlock
  | raises (e : PyError)
  deriving DecidableEq

structure SendFrame where
  payload : Bytes
  target : UdpTarget
  socket : Nat
  backoffDelaySeconds : ℚ := 1 / 2000
  deriving DecidableEq

def SendFrame.datagram (frame : SendFrame) : UdpDatagram := ⟨frame.socket, frame.payload, frame.target⟩

/-- What a call awaits: the future of `sock_sendto`, pending, with a result or with an exception, or the sleep of the fallback. -/
inductive SendAwait
  | pending
  | resolved
  | failed (e : PyError)
  | sleeping
  deriving DecidableEq

inductive UdpSendPc
  | suspended (frame : SendFrame) (await : SendAwait)
  | returned
  | raised (e : PyError)
  | cancelled
  deriving DecidableEq

/-- The sender, the sockets it created, the buffers of its callers and the calls of `send`. -/
structure UdpSender where
  socket : Option Nat := none
  closed : Bool := false
  sockets : List SocketStatus := []
  buffers : Nat → Bytes := fun _ => []
  calls : List UdpSendPc := []
  journal : List UdpEntry := []

namespace UdpSender

def ensureSocket (s : UdpSender) (setup : SocketSetup) : UdpSender × Except PyError Nat :=
  match s.socket with
  | some socket => (s, .ok socket)
  | none =>
    match setup with
    | .unavailable e => (s, .error e)
    | .raises e =>
      ({ s with sockets := s.sockets ++ [if e.type = .osError then .discarded else .dropped e] }, .error e)
    | .bound => ({ s with sockets := s.sockets ++ [.bound], socket := some s.sockets.length }, .ok s.sockets.length)

/-- One round of `_send_nonblocking`, to its end or to its next `await`; `native` if the loop has `sock_sendto`. -/
def sendNonblocking (native : Bool) (call : Nat) (frame : SendFrame) : SendAttempt → Option UdpEntry × UdpSendPc
  | .sent => (some (.sent call frame.datagram), .returned)
  | .raises e => (none, .raised e)
  | .wouldBlock =>
    if native then (none, .suspended frame .pending)
    else (some (.slept call frame.backoffDelaySeconds),
      .suspended { frame with backoffDelaySeconds := min (1 / 50) (frame.backoffDelaySeconds * 2) } .sleeping)

/-- A closed socket only raises. -/
def mayEnd (s : UdpSender) (socket : Nat) : SendAttempt → Bool
  | .raises _ => true
  | _ => s.sockets[socket]? = some .bound

/-- A call takes its first turn. -/
def begin (s : UdpSender) (entry : Option UdpEntry) (pc : UdpSendPc) : UdpSender :=
  { s with calls := s.calls ++ [pc], journal := s.journal ++ entry.toList }

def goOn (s : UdpSender) (call : Nat) (entry : Option UdpEntry) (pc : UdpSendPc) : UdpSender :=
  { s with calls := s.calls.set call pc, journal := s.journal ++ entry.toList }

def send (settings : UdpSenderSettings.Fields) (native : Bool) (s : UdpSender) (request : UdpSend) (setup : SocketSetup)
    (attempt : SendAttempt) : Option UdpSender :=
  let call := s.calls.length
  let s : UdpSender := { s with journal := s.journal ++ [.called call request] }
  match settings.checkSend s.closed request with
  | .error e => some (s.begin none (.raised e))
  | .ok (buffer, target) =>
    match s.ensureSocket setup with
    | (s, .error e) => some (s.begin none (.raised e))
    | (s, .ok socket) =>
      let round := sendNonblocking native call { payload := s.buffers buffer, target, socket } attempt
      if s.mayEnd socket attempt then some (s.begin round.1 round.2) else none

def stop (s : UdpSender) : UdpSender :=
  if s.closed then s
  else
    { s with
      closed := true
      socket := none
      sockets := s.socket.elim s.sockets fun socket => s.sockets.set socket .released
      journal := s.journal ++ [.stopped] }

/-- The loop finds the socket writable for a call that awaits `sock_sendto`. -/
def writable (s : UdpSender) (call : Nat) (attempt : SendAttempt) : Option UdpSender :=
  match s.calls[call]? with
  | some (.suspended frame .pending) =>
    if s.mayEnd frame.socket attempt then
      match attempt with
      | .sent => some (s.goOn call (some (.sent call frame.datagram)) (.suspended frame .resolved))
      | .wouldBlock => some s
      | .raises e => some (s.goOn call none (.suspended frame (.failed e)))
    else none
  | _ => none

/-- The task of a call takes its next turn. -/
def resume (s : UdpSender) (call : Nat) (attempt : SendAttempt) : Option UdpSender :=
  match s.calls[call]? with
  | some (.suspended frame .sleeping) =>
    let round := sendNonblocking false call frame attempt
    if s.mayEnd frame.socket attempt then some (s.goOn call round.1 round.2) else none
  | some (.suspended _ .resolved) => some (s.goOn call none .returned)
  | some (.suspended _ (.failed e)) => some (s.goOn call none (.raised e))
  | _ => none

def cancel (s : UdpSender) (call : Nat) : Option UdpSender :=
  match s.calls[call]? with
  | some (.suspended _ _) => some (s.goOn call none .cancelled)
  | _ => none

end UdpSender

inductive UdpSenderAction
  | write (buffer : Nat) (contents : Bytes)
  | send (request : UdpSend) (setup : SocketSetup) (attempt : SendAttempt)
  | writable (call : Nat) (attempt : SendAttempt)
  | resume (call : Nat) (attempt : SendAttempt)
  | cancel (call : Nat)
  | stop

def UdpSender.step (settings : UdpSenderSettings.Fields) (native : Bool) (s : UdpSender) : UdpSenderAction → Option UdpSender
  | .write buffer contents =>
    some { s with buffers := Function.update s.buffers buffer contents, journal := s.journal ++ [.wrote buffer contents] }
  | .send request setup attempt => s.send settings native request setup attempt
  | .writable call attempt => s.writable call attempt
  | .resume call attempt => s.resume call attempt
  | .cancel call => s.cancel call
  | .stop => some s.stop

/-- The sender on a loop with or without `sock_sendto`. -/
def udpSenderMachine (settings : UdpSenderSettings.Fields) (native : Bool) : Machine UdpSender UdpSenderAction where
  init s := s = {}
  step := UdpSender.step settings native

/-! ## The sockets -/

namespace UdpSender
variable {s t : UdpSender}

/-- A socket that datagrams may have left from. -/
def Used (s : UdpSender) (socket : Nat) : Prop :=
  s.sockets[socket]? = some .bound ∨ s.sockets[socket]? = some .released

/-- At most one socket is ever used. It is open as long as it is cached; every other one was closed, but for those that a setup
left behind which did not fail with an `OSError`. -/
structure Tidy (s : UdpSender) : Prop where
  cached : ∀ k : Nat, s.sockets[k]? = some .bound ↔ s.socket = some k
  stopped : s.closed = true → s.socket = none
  released : ∀ k : Nat, s.sockets[k]? = some .released → s.closed = true
  single : ∀ k l, s.Used k → s.Used l → k = l
  dropped : ∀ (k : Nat) e, s.sockets[k]? = some (.dropped e) → e.type ≠ .osError

theorem Tidy.of_eq (h : s.Tidy) (hsockets : t.sockets = s.sockets) (hsocket : t.socket = s.socket) (hclosed : t.closed = s.closed) :
    t.Tidy := by
  obtain ⟨hcached, hstopped, hreleased, hsingle, hdropped⟩ := h
  unfold Used at hsingle
  rw [← hsockets] at hcached hreleased hsingle hdropped
  rw [← hsocket] at hcached hstopped
  rw [← hclosed] at hstopped hreleased
  exact ⟨hcached, hstopped, hreleased, hsingle, hdropped⟩

theorem getElem?_concat_eq_some {α : Type} {l : List α} {x y : α} {k : Nat} (h : (l ++ [x])[k]? = some y) :
    l[k]? = some y ∨ k = l.length ∧ x = y := by
  rcases Nat.lt_trichotomy k l.length with hk | hk | hk
  · rw [List.getElem?_append_left hk] at h
    exact .inl h
  · rw [hk, List.getElem?_concat_length] at h
    exact .inr ⟨hk, Option.some.inj h⟩
  · rw [List.getElem?_eq_none (by simp; omega)] at h
    cases h

/-- As long as nothing is cached and the sender is not stopped, no socket was used. -/
theorem Tidy.not_used (h : s.Tidy) (hsocket : s.socket = none) (hclosed : s.closed = false) (k : Nat) : ¬ s.Used k := by
  rintro (hk | hk)
  · have hcached := (h.cached k).mp hk
    rw [hsocket] at hcached
    cases hcached
  · have hstopped := h.released k hk
    rw [hclosed] at hstopped
    cases hstopped

/-- A setup that fails adds a socket that is not used. -/
theorem Tidy.concat (h : s.Tidy) {x : SocketStatus} (hbound : x ≠ .bound) (hreleased : x ≠ .released)
    (hdropped : ∀ e, x = .dropped e → e.type ≠ .osError) : ({ s with sockets := s.sockets ++ [x] } : UdpSender).Tidy := by
  have hkeep : ∀ (k : Nat) y, y = .bound ∨ y = .released → ((s.sockets ++ [x])[k]? = some y ↔ s.sockets[k]? = some y) := by
    intro k y hy
    constructor
    · intro hk
      rcases getElem?_concat_eq_some hk with hk | ⟨-, rfl⟩
      · exact hk
      · rcases hy with hy | hy <;> contradiction
    · intro hk
      rw [List.getElem?_append_left (List.getElem?_eq_some_iff.mp hk).1]
      exact hk
  refine ⟨fun k => (hkeep k _ (.inl rfl)).trans (h.cached k), h.stopped, fun k hk => ?_, fun k l hk hl => ?_, fun k e hk => ?_⟩
  · exact h.released k ((hkeep k _ (.inr rfl)).mp hk)
  · unfold Used at hk hl
    rw [hkeep _ _ (.inl rfl), hkeep _ _ (.inr rfl)] at hk hl
    exact h.single k l hk hl
  · rcases getElem?_concat_eq_some hk with hk | ⟨-, hx⟩
    · exact h.dropped k e hk
    · exact hdropped e hx

theorem Tidy.ensureSocket (h : s.Tidy) (hclosed : s.closed = false) (setup : SocketSetup) : (s.ensureSocket setup).1.Tidy := by
  unfold UdpSender.ensureSocket
  split
  · exact h
  · next hsocket =>
    cases setup with
    | unavailable e => exact h
    | raises e =>
      refine h.concat ?_ ?_ ?_
      all_goals split
      · simp
      · simp
      · simp
      · simp
      · intro e' he'
        cases he'
      · next hne =>
        intro e' he'
        rw [← SocketStatus.dropped.inj he']
        exact hne
    | bound =>
      have hnone : ∀ k : Nat, ¬ s.Used k := h.not_used hsocket hclosed
      have hused : ∀ k : Nat, (s.sockets ++ [.bound])[k]? = some .bound ∨ (s.sockets ++ [.bound])[k]? = some .released →
          k = s.sockets.length := by
        rintro k (hk | hk) <;> rcases getElem?_concat_eq_some hk with hk | ⟨hk, -⟩
        · exact absurd (.inl hk) (hnone k)
        · exact hk
        · exact absurd (.inr hk) (hnone k)
        · exact hk
      refine ⟨fun k => ⟨fun hk => ?_, fun hk => ?_⟩, fun hc => ?_, fun k hk => ?_, fun k l hk hl => ?_, fun k e hk => ?_⟩
      · show some s.sockets.length = some k
        rw [hused k (.inl hk)]
      · rw [← Option.some.inj hk]
        exact List.getElem?_concat_length
      · exact absurd hc (by simp [hclosed])
      · rcases getElem?_concat_eq_some hk with hk | ⟨-, hk⟩
        · exact h.released k hk
        · cases hk
      · rw [hused k hk, hused l hl]
      · rcases getElem?_concat_eq_some hk with hk | ⟨-, hk⟩
        · exact h.dropped k e hk
        · cases hk

theorem Tidy.ensureSocket_bound (h : s.Tidy) {setup : SocketSetup} {socket : Nat} (hs : (s.ensureSocket setup).2 = .ok socket) :
    (s.ensureSocket setup).1.sockets[socket]? = some .bound := by
  unfold UdpSender.ensureSocket at hs ⊢
  cases hsocket : s.socket with
  | some k =>
    rw [hsocket] at hs
    rw [← Except.ok.inj hs]
    exact (h.cached k).mpr hsocket
  | none =>
    rw [hsocket] at hs
    cases setup with
    | unavailable e => cases hs
    | raises e => cases hs
    | bound =>
      rw [← Except.ok.inj hs]
      exact List.getElem?_concat_length

theorem Tidy.stop (h : s.Tidy) : s.stop.Tidy := by
  unfold UdpSender.stop
  split
  · exact h
  · next hopen =>
    rw [Bool.not_eq_true] at hopen
    cases hsocket : s.socket with
    | none =>
      refine ⟨fun k => ?_, fun _ => rfl, fun _ _ => rfl, h.single, h.dropped⟩
      show s.sockets[k]? = some .bound ↔ none = some k
      rw [h.cached k, hsocket]
    | some socket =>
      have hlt : socket < s.sockets.length := (List.getElem?_eq_some_iff.mp ((h.cached socket).mpr hsocket)).1
      have hself : (s.sockets.set socket .released)[socket]? = some .released := by
        rw [List.getElem?_set_self hlt]
      have hne : ∀ k : Nat, k ≠ socket → (s.sockets.set socket .released)[k]? = s.sockets[k]? := fun k hk =>
        List.getElem?_set_ne (Ne.symm hk)
      have hnone : ∀ k : Nat, k ≠ socket → ¬ s.Used k := fun k hk hused =>
        hk (h.single k socket hused (.inl ((h.cached socket).mpr hsocket)))
      refine ⟨fun k => ⟨fun hk => ?_, fun hk => by cases hk⟩, fun _ => rfl, fun _ _ => rfl, fun k l hk hl => ?_, fun k e hk => ?_⟩
      · replace hk : (s.sockets.set socket .released)[k]? = some .bound := hk
        by_cases hks : k = socket
        · rw [hks, hself] at hk
          cases hk
        · rw [hne k hks] at hk
          exact absurd (.inl hk) (hnone k hks)
      · have hused : ∀ k : Nat, (s.sockets.set socket .released)[k]? = some .bound ∨
            (s.sockets.set socket .released)[k]? = some .released → k = socket := by
          intro k hk
          by_contra hks
          rw [hne k hks] at hk
          exact hnone k hks hk
        rw [hused k hk, hused l hl]
      · replace hk : (s.sockets.set socket .released)[k]? = some (.dropped e) := hk
        by_cases hks : k = socket
        · rw [hks, hself] at hk
          cases hk
        · rw [hne k hks] at hk
          exact h.dropped k e hk

end UdpSender

end Aionetx
