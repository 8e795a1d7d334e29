import Aionetx.Runs.Trace
import Aionetx.Udp.Sender

/-!
# The datagrams of a sender

* `contentsOf`, `sentBy`, `sleepsOf` : what a journal says about a buffer and about a call;
* `UdpSender.Served` : what one call may do; `UdpSender.Inv.step` : the invariant;
* `UdpSender.Lawful`, `lawful_of_reachable` : all calls of a sender, its datagrams and its sockets.
-/

namespace Aionetx

open Runs

/-! ## Readings of the journal -/

/-- The buffers as the journal leaves them. -/
def contentsOf (journal : List UdpEntry) : Nat → Bytes :=
  journal.foldl (fun buffers e =>
    match e with
    | .wrote buffer contents => Function.update buffers buffer contents
    | _ => buffers) fun _ => []

def UdpEntry.sentBy? (call : Nat) : UdpEntry → Option UdpDatagram
  | .sent call' d => if call' = call then some d else none
  | _ => none

def UdpEntry.sleepOf? (call : Nat) : UdpEntry → Option ℚ
  | .slept call' delaySeconds => if call' = call then some delaySeconds else none
  | _ => none

def sentBy (call : Nat) (journal : List UdpEntry) : List UdpDatagram := journal.filterMap (UdpEntry.sentBy? call)

def sleepsOf (call : Nat) (journal : List UdpEntry) : List ℚ := journal.filterMap (UdpEntry.sleepOf? call)

/-- The entry does not concern the call once it has begun. -/
def UdpEntry.Spares (e : UdpEntry) (call : Nat) : Prop := e.sentBy? call = none ∧ e.sleepOf? call = none

def fallbackDelay (k : Nat) : ℚ := min (1 / 50) (1 / 2000 * 2 ^ k)

section Readings
variable {journal journal' : List UdpEntry} {call : Nat} {e : UdpEntry}

@[simp] theorem sentBy_append : sentBy call (journal ++ journal') = sentBy call journal ++ sentBy call journal' :=
  List.filterMap_append

@[simp] theorem sleepsOf_append : sleepsOf call (journal ++ journal') = sleepsOf call journal ++ sleepsOf call journal' :=
  List.filterMap_append

theorem UdpEntry.Spares.sentBy (h : e.Spares call) : Aionetx.sentBy call [e] = [] := by
  show List.filterMap _ [e] = []
  rw [List.filterMap_cons, h.1, List.filterMap_nil]

theorem UdpEntry.Spares.sleepsOf (h : e.Spares call) : Aionetx.sleepsOf call [e] = [] := by
  show List.filterMap _ [e] = []
  rw [List.filterMap_cons, h.2, List.filterMap_nil]

@[simp] theorem sentBy_sent {d : UdpDatagram} : sentBy call [.sent call d] = [d] := by
  simp [sentBy, UdpEntry.sentBy?]

@[simp] theorem sleepsOf_sent {d : UdpDatagram} : sleepsOf call [.sent call d] = [] := rfl

@[simp] theorem sentBy_slept {delaySeconds : ℚ} : sentBy call [.slept call delaySeconds] = [] := rfl

@[simp] theorem sleepsOf_slept {delaySeconds : ℚ} : sleepsOf call [.slept call delaySeconds] = [delaySeconds] := by
  simp [sleepsOf, UdpEntry.sleepOf?]

@[simp] theorem sentBy_nil : sentBy call [] = [] := rfl

@[simp] theorem sleepsOf_nil : sleepsOf call [] = [] := rfl

theorem mem_sentBy {d : UdpDatagram} : d ∈ sentBy call journal ↔ .sent call d ∈ journal := by
  unfold sentBy
  rw [List.mem_filterMap]
  constructor
  · rintro ⟨e, he, hd⟩
    cases e with
    | sent call' d' =>
      by_cases hcall : call' = call
      · rw [UdpEntry.sentBy?, if_pos hcall] at hd
        rw [← hcall, ← Option.some.inj hd]
        exact he
      · rw [UdpEntry.sentBy?, if_neg hcall] at hd
        cases hd
    | _ => cases hd
  · intro h
    exact ⟨_, h, if_pos rfl⟩

/-- Only a change of the buffers changes what they hold. -/
theorem contentsOf_concat (h : ∀ buffer contents, e ≠ .wrote buffer contents) : contentsOf (journal ++ [e]) = contentsOf journal := by
  unfold contentsOf
  rw [List.foldl_append]
  cases e with
  | wrote buffer contents => exact absurd rfl (h buffer contents)
  | _ => rfl

theorem contentsOf_wrote {buffer : Nat} {contents : Bytes} :
    contentsOf (journal ++ [.wrote buffer contents]) = Function.update (contentsOf journal) buffer contents := by
  unfold contentsOf
  rw [List.foldl_append]
  rfl

/-- The recurrence of the fallback: the clamp comes after the doubling, and a clamped delay stays where it is. -/
theorem fallbackDelay_succ (k : Nat) : fallbackDelay (k + 1) = min (1 / 50) (fallbackDelay k * 2) := by
  unfold fallbackDelay
  rw [pow_succ, ← mul_assoc]
  generalize (1 / 2000 : ℚ) * 2 ^ k = x
  rcases le_total x (1 / 50) with hx | hx
  · rw [min_eq_right hx]
  · rw [min_eq_left hx, min_eq_left (by linarith), min_eq_left (by norm_num)]

end Readings

/-! ## One call -/

/-- The datagram is the one that the call meant: the contents of its buffer when it was made, for the target it was aimed at. -/
def Meant (settings : UdpSenderSettings.Fields) (before : List UdpEntry) (request : UdpSend) (d : UdpDatagram) : Prop :=
  ∃ buffer, request.data = some buffer ∧ d.payload = contentsOf before buffer ∧ request.Aims settings d.target

/-- How many datagrams a call has sent by where it is. -/
def UdpSendPc.Sends : UdpSendPc → List UdpDatagram → Prop
  | .returned, sent => ∃ d, sent = [d]
  | .suspended _ .resolved, sent => ∃ d, sent = [d]
  | .cancelled, sent => sent.length ≤ 1
  | _, sent => sent = []

/-- The law of a call made after `before`. -/
structure Served (settings : UdpSenderSettings.Fields) (before : List UdpEntry) (request : UdpSend) (journal : List UdpEntry)
    (call : Nat) (pc : UdpSendPc) : Prop where
  refused : ∀ e, settings.checkSend (.stopped ∈ before) request = .error e → pc = .raised e
  meant : ∀ d ∈ sentBy call journal, Meant settings before request d
  once : pc.Sends (sentBy call journal)
  delays : sleepsOf call journal = (List.range (sleepsOf call journal).length).map fallbackDelay
  suspended : ∀ frame await, pc = .suspended frame await →
    Meant settings before request frame.datagram ∧ frame.backoffDelaySeconds = fallbackDelay (sleepsOf call journal).length

namespace Served
variable {settings : UdpSenderSettings.Fields} {before journal : List UdpEntry} {request : UdpSend} {call : Nat} {pc : UdpSendPc}

theorem concat (h : Served settings before request journal call pc) {e : UdpEntry} (he : e.Spares call) :
    Served settings before request (journal ++ [e]) call pc := by
  have hsent : sentBy call (journal ++ [e]) = sentBy call journal := by
    rw [sentBy_append, he.sentBy, List.append_nil]
  have hsleeps : sleepsOf call (journal ++ [e]) = sleepsOf call journal := by
    rw [sleepsOf_append, he.sleepsOf, List.append_nil]
  refine ⟨h.refused, ?_, ?_, ?_, ?_⟩
  · rw [hsent]
    exact h.meant
  · rw [hsent]
    exact h.once
  · rw [hsleeps]
    exact h.delays
  · rw [hsleeps]
    exact h.suspended

/-- A call that has ended, or whose end is settled, without another datagram. -/
theorem settle (h : Served settings before request journal call pc) {frame : SendFrame} {await : SendAwait}
    (hpc : pc = .suspended frame await) {pc' : UdpSendPc} (honce : pc'.Sends (sentBy call journal))
    (hframe : ∀ frame' await', pc' = .suspended frame' await' → frame' = frame) :
    Served settings before request journal call pc' := by
  refine ⟨fun e he => ?_, h.meant, honce, h.delays, fun frame' await' hpc' => ?_⟩
  · rw [h.refused e he] at hpc
    cases hpc
  · rw [hframe frame' await' hpc']
    exact h.suspended frame await hpc

theorem round {frame : SendFrame} (hnot : ∀ e, settings.checkSend (.stopped ∈ before) request ≠ .error e)
    (hsent : sentBy call journal = []) (hdelays : sleepsOf call journal = (List.range (sleepsOf call journal).length).map fallbackDelay)
    (hmeant : Meant settings before request frame.datagram)
    (hbackoff : frame.backoffDelaySeconds = fallbackDelay (sleepsOf call journal).length) (native : Bool) (attempt : SendAttempt) :
    Served settings before request (journal ++ (UdpSender.sendNonblocking native call frame attempt).1.toList) call
      (UdpSender.sendNonblocking native call frame attempt).2 := by
  have hrefused : ∀ pc' : UdpSendPc, ∀ e, settings.checkSend (.stopped ∈ before) request = .error e → pc' = .raised e :=
    fun _ e he => absurd he (hnot e)
  have hnone : ∀ d ∈ sentBy call journal, Meant settings before request d := by
    intro d hd
    rw [hsent] at hd
    cases hd
  cases attempt with
  | sent =>
    show Served settings before request (journal ++ [.sent call frame.datagram]) call .returned
    refine ⟨hrefused _, ?_, ?_, ?_, fun _ _ hpc => by cases hpc⟩
    · intro d hd
      rw [sentBy_append, hsent, sentBy_sent, List.nil_append, List.mem_singleton] at hd
      rw [hd]
      exact hmeant
    · rw [sentBy_append, hsent, sentBy_sent]
      exact ⟨_, rfl⟩
    · rw [sleepsOf_append, sleepsOf_sent, List.append_nil]
      exact hdelays
  | wouldBlock =>
    unfold UdpSender.sendNonblocking
    cases native with
    | true =>
      show Served settings before request (journal ++ []) call (.suspended frame .pending)
      rw [List.append_nil]
      refine ⟨hrefused _, hnone, hsent, hdelays, fun frame' await hpc => ?_⟩
      cases hpc
      exact ⟨hmeant, hbackoff⟩
    | false =>
      show Served settings before request (journal ++ [.slept call frame.backoffDelaySeconds]) call
        (.suspended { frame with backoffDelaySeconds := min (1 / 50) (frame.backoffDelaySeconds * 2) } .sleeping)
      refine ⟨hrefused _, ?_, ?_, ?_, fun frame' await hpc => ?_⟩
      · rw [sentBy_append, sentBy_slept, List.append_nil]
        exact hnone
      · rw [sentBy_append, sentBy_slept, List.append_nil]
        exact hsent
      · rw [sleepsOf_append, sleepsOf_slept, List.length_append, List.length_singleton, List.range_succ, List.map_append,
          ← hdelays, List.map_singleton, hbackoff]
      · cases hpc
        refine ⟨hmeant, ?_⟩
        rw [sleepsOf_append, sleepsOf_slept, List.length_append, List.length_singleton, fallbackDelay_succ, ← hbackoff]
  | raises e =>
    show Served settings before request (journal ++ []) call (.raised e)
    rw [List.append_nil]
    exact ⟨hrefused _, hnone, hsent, hdelays, fun _ _ hpc => by cases hpc⟩

end Served

/-! ## The sender -/

namespace UdpSender
variable {settings : UdpSenderSettings.Fields} {native : Bool} {s t : UdpSender}

/-- The call was made at some point of the journal, and is served as it was meant there. -/
def Keeps (settings : UdpSenderSettings.Fields) (s : UdpSender) (call : Nat) (pc : UdpSendPc) : Prop :=
  ∃ before request after, s.journal = before ++ .called call request :: after ∧
    Served settings before request s.journal call pc

structure Inv (settings : UdpSenderSettings.Fields) (s : UdpSender) : Prop where
  tidy : s.Tidy
  buffers : s.buffers = contentsOf s.journal
  closed : s.closed = true ↔ .stopped ∈ s.journal
  calls : ∀ (call : Nat) pc, s.calls[call]? = some pc → s.Keeps settings call pc
  fresh : ∀ call, s.calls.length ≤ call → sentBy call s.journal = [] ∧ sleepsOf call s.journal = []
  source : ∀ call d, .sent call d ∈ s.journal → s.Used d.source
  frames : ∀ (call : Nat) frame await, s.calls[call]? = some (.suspended frame await) → s.Used frame.socket
  quiet : Everywhere (fun before e _ => (∃ call d, e = .sent call d) → .stopped ∉ before) s.journal

/-- Everything that a run of the sender promises: each call is served as it was meant, all datagrams leave from one socket, none
once the sender is stopped, and every socket is accounted for. -/
structure Lawful (settings : UdpSenderSettings.Fields) (s : UdpSender) : Prop where
  calls : ∀ (call : Nat) pc, s.calls[call]? = some pc → s.Keeps settings call pc
  known : ∀ call d, .sent call d ∈ s.journal → call < s.calls.length
  source : ∀ call call' d d', .sent call d ∈ s.journal → .sent call' d' ∈ s.journal → d.source = d'.source
  quiet : ∀ before after, s.journal = before ++ .stopped :: after → ∀ call d, .sent call d ∉ after
  /-- a call that is refused raises, and does nothing else -/
  refused : ∀ native request setup attempt e, settings.checkSend s.closed request = .error e →
    s.step settings native (.send request setup attempt) =
      some { s with calls := s.calls ++ [.raised e], journal := s.journal ++ [.called s.calls.length request] }
  tidy : s.Tidy

theorem Keeps.concat {call : Nat} {pc : UdpSendPc} (h : s.Keeps settings call pc) {e : UdpEntry} (he : e.Spares call)
    (ht : t.journal = s.journal ++ [e]) : t.Keeps settings call pc := by
  obtain ⟨before, request, after, hsplit, hserved⟩ := h
  refine ⟨before, request, after ++ [e], ?_, ?_⟩
  · rw [ht, hsplit, List.append_assoc, List.cons_append]
  · rw [ht]
    exact hserved.concat he

theorem Tidy.open_of_mayEnd (h : s.Tidy) {socket : Nat} {attempt : SendAttempt} (hmay : s.mayEnd socket attempt = true)
    (hattempt : ∀ e, attempt ≠ .raises e) : s.closed = false ∧ s.Used socket := by
  have hbound : s.sockets[socket]? = some .bound := by
    cases attempt with
    | raises e => exact absurd rfl (hattempt e)
    | _ => exact of_decide_eq_true hmay
  refine ⟨?_, .inl hbound⟩
  by_contra hclosed
  rw [Bool.not_eq_false] at hclosed
  have hcached := (h.cached socket).mp hbound
  rw [h.stopped hclosed] at hcached
  cases hcached

theorem Inv.note (h : s.Inv settings) {e : UdpEntry} (he : ∀ call, e.Spares call) (hstopped : e ≠ .stopped)
    (hbuffers : t.buffers = contentsOf t.journal) (hjournal : t.journal = s.journal ++ [e]) (hcalls : t.calls = s.calls)
    (hsockets : t.sockets = s.sockets) (hsocket : t.socket = s.socket) (hclosed : t.closed = s.closed) : t.Inv settings := by
  have hsent : ∀ call d, .sent call d ∈ t.journal → .sent call d ∈ s.journal := by
    intro call d hd
    rw [hjournal, List.mem_append, List.mem_singleton] at hd
    rcases hd with hd | rfl
    · exact hd
    · have hnone := (he call).1
      rw [UdpEntry.sentBy?, if_pos rfl] at hnone
      cases hnone
  have hused : ∀ k, s.Used k → t.Used k := by
    unfold Used
    rw [hsockets]
    exact fun _ hk => hk
  refine ⟨h.tidy.of_eq hsockets hsocket hclosed, hbuffers, ?_, ?_, ?_, ?_, ?_, ?_⟩
  · rw [hclosed, h.closed, hjournal, List.mem_append, List.mem_singleton]
    exact ⟨.inl, fun hmem => hmem.resolve_right hstopped.symm⟩
  · intro call pc hpc
    rw [hcalls] at hpc
    exact (h.calls call pc hpc).concat (he call) hjournal
  · intro call hcall
    rw [hcalls] at hcall
    rw [hjournal, sentBy_append, sleepsOf_append, (he call).sentBy, (he call).sleepsOf, List.append_nil, List.append_nil]
    exact h.fresh call hcall
  · exact fun call d hd => hused _ (h.source call d (hsent call d hd))
  · intro call frame await hframe
    rw [hcalls] at hframe
    exact hused _ (h.frames call frame await hframe)
  · rw [hjournal]
    refine h.quiet.concat ?_ fun _ _ _ _ hx => hx
    rintro ⟨call, d, rfl⟩
    have hnone := (he call).1
    rw [UdpEntry.sentBy?, if_pos rfl] at hnone
    cases hnone

theorem Inv.write (h : s.Inv settings) (buffer : Nat) (contents : Bytes) :
    ({ s with buffers := Function.update s.buffers buffer contents, journal := s.journal ++ [.wrote buffer contents] } :
      UdpSender).Inv settings := by
  refine h.note (fun _ => ⟨rfl, rfl⟩) (by simp) ?_ rfl rfl rfl rfl rfl
  show Function.update s.buffers buffer contents = _
  rw [contentsOf_wrote, h.buffers]

theorem Inv.called (h : s.Inv settings) (call : Nat) (request : UdpSend) :
    ({ s with journal := s.journal ++ [.called call request] } : UdpSender).Inv settings := by
  refine h.note (fun _ => ⟨rfl, rfl⟩) (by simp) ?_ rfl rfl rfl rfl rfl
  show s.buffers = _
  rw [contentsOf_concat (by simp), h.buffers]

theorem used_ensureSocket {setup : SocketSetup} {k : Nat} (h : s.Used k) : (s.ensureSocket setup).1.Used k := by
  have hlt : k < s.sockets.length := by
    rcases h with hk | hk <;> exact (List.getElem?_eq_some_iff.mp hk).1
  have hkeep : ∀ x : SocketStatus, (s.sockets ++ [x])[k]? = s.sockets[k]? := fun _ => List.getElem?_append_left hlt
  unfold ensureSocket
  split
  · exact h
  · cases setup with
    | unavailable e => exact h
    | raises e =>
      show (s.sockets ++ [_])[k]? = some .bound ∨ (s.sockets ++ [_])[k]? = some .released
      rw [hkeep]
      exact h
    | bound =>
      show (s.sockets ++ [_])[k]? = some .bound ∨ (s.sockets ++ [_])[k]? = some .released
      rw [hkeep]
      exact h

theorem ensureSocket_frame (setup : SocketSetup) : (s.ensureSocket setup).1.closed = s.closed ∧
    (s.ensureSocket setup).1.buffers = s.buffers ∧ (s.ensureSocket setup).1.calls = s.calls ∧
    (s.ensureSocket setup).1.journal = s.journal := by
  unfold ensureSocket
  split
  · exact ⟨rfl, rfl, rfl, rfl⟩
  · cases setup <;> exact ⟨rfl, rfl, rfl, rfl⟩

theorem Inv.ensureSocket (h : s.Inv settings) (hclosed : s.closed = false) (setup : SocketSetup) :
    (s.ensureSocket setup).1.Inv settings := by
  obtain ⟨hc, hb, hcalls, hj⟩ := s.ensureSocket_frame setup
  refine ⟨h.tidy.ensureSocket hclosed setup, ?_, ?_, ?_, ?_, ?_, ?_, ?_⟩
  · rw [hb, hj, h.buffers]
  · rw [hc, hj, h.closed]
  · unfold Keeps
    rw [hcalls, hj]
    exact h.calls
  · rw [hcalls, hj]
    exact h.fresh
  · rw [hj]
    exact fun call d hd => used_ensureSocket (h.source call d hd)
  · rw [hcalls]
    exact fun call frame await hframe => used_ensureSocket (h.frames call frame await hframe)
  · rw [hj]
    exact h.quiet

/-- A call takes a turn in which it does what `entry` says and gets to `pc`. -/
theorem Inv.put (h : s.Inv settings) {call : Nat} {pc : UdpSendPc} {entry : Option UdpEntry} {calls : List UdpSendPc}
    (hself : calls[call]? = some pc) (hother : ∀ other : Nat, other ≠ call → calls[other]? = s.calls[other]?)
    (hentry : ∀ e ∈ entry, (∃ d, e = .sent call d ∧ s.closed = false ∧ s.Used d.source) ∨ ∃ δ, e = .slept call δ)
    (hkeeps : ({ s with calls, journal := s.journal ++ entry.toList } : UdpSender).Keeps settings call pc)
    (hframe : ∀ frame await, pc = .suspended frame await → s.Used frame.socket) :
    ({ s with calls, journal := s.journal ++ entry.toList } : UdpSender).Inv settings := by
  have hframes : ∀ (other : Nat) frame await, calls[other]? = some (.suspended frame await) → s.Used frame.socket := by
    intro other frame await hcall
    by_cases hoc : other = call
    · rw [hoc, hself] at hcall
      exact hframe frame await (Option.some.inj hcall)
    · rw [hother other hoc] at hcall
      exact h.frames other frame await hcall
  have hlength : ∀ other : Nat, calls.length ≤ other → other ≠ call ∧ s.calls.length ≤ other := by
    intro other hle
    have hne : other ≠ call := by
      rintro rfl
      rw [List.getElem?_eq_none hle] at hself
      cases hself
    refine ⟨hne, ?_⟩
    rw [← List.getElem?_eq_none_iff, ← hother other hne]
    exact List.getElem?_eq_none hle
  cases entry with
  | none =>
    have hnil : ({ s with calls, journal := s.journal ++ Option.toList none } : UdpSender) = { s with calls } := by
      show UdpSender.mk _ _ _ _ _ _ = _
      rw [Option.toList_none, List.append_nil]
    rw [hnil] at hkeeps ⊢
    refine ⟨h.tidy.of_eq rfl rfl rfl, h.buffers, h.closed, ?_, ?_, h.source, hframes, h.quiet⟩
    · intro other pc' hpc'
      by_cases hoc : other = call
      · rw [hoc, hself] at hpc'
        rw [hoc, ← Option.some.inj hpc']
        exact hkeeps
      · rw [hother other hoc] at hpc'
        exact h.calls other pc' hpc'
    · exact fun other hle => h.fresh other (hlength other hle).2
  | some e =>
    replace hentry := hentry e rfl
    have hspares : ∀ other, other ≠ call → e.Spares other := by
      intro other hne
      rcases hentry with ⟨d, rfl, -⟩ | ⟨δ, rfl⟩
      · exact ⟨if_neg hne.symm, rfl⟩
      · exact ⟨rfl, if_neg hne.symm⟩
    have hwrote : ∀ buffer contents, e ≠ .wrote buffer contents := by
      rcases hentry with ⟨d, rfl, -⟩ | ⟨δ, rfl⟩ <;> simp
    have hstopped : e ≠ .stopped := by
      rcases hentry with ⟨d, rfl, -⟩ | ⟨δ, rfl⟩ <;> simp
    refine ⟨h.tidy.of_eq rfl rfl rfl, ?_, ?_, ?_, ?_, ?_, hframes, ?_⟩
    · show s.buffers = contentsOf (s.journal ++ [e])
      rw [contentsOf_concat hwrote, h.buffers]
    · show s.closed = true ↔ .stopped ∈ s.journal ++ [e]
      rw [h.closed, List.mem_append, List.mem_singleton]
      exact ⟨.inl, fun hmem => hmem.resolve_right hstopped.symm⟩
    · intro other pc' hpc'
      by_cases hoc : other = call
      · rw [hoc] at hpc' ⊢
        replace hpc' : calls[call]? = some pc' := hpc'
        rw [hself] at hpc'
        rw [← Option.some.inj hpc']
        exact hkeeps
      · replace hpc' : calls[other]? = some pc' := hpc'
        rw [hother other hoc] at hpc'
        exact (h.calls other pc' hpc').concat (hspares other hoc) rfl
    · intro other hle
      obtain ⟨hne, hle⟩ := hlength other hle
      show sentBy other (s.journal ++ [e]) = [] ∧ sleepsOf other (s.journal ++ [e]) = []
      rw [sentBy_append, sleepsOf_append, (hspares other hne).sentBy, (hspares other hne).sleepsOf, List.append_nil,
        List.append_nil]
      exact h.fresh other hle
    · intro other d hd
      rcases List.mem_append.mp hd with hd | hd
      · exact h.source other d hd
      · rw [Option.toList_some, List.mem_singleton] at hd
        rcases hentry with ⟨d', rfl, -, hused⟩ | ⟨δ, rfl⟩
        · cases hd
          exact hused
        · cases hd
    · refine h.quiet.concat ?_ fun _ _ _ _ hx => hx
      rintro ⟨other, d, rfl⟩
      rcases hentry with ⟨d', -, hopen, -⟩ | ⟨δ, hδ⟩
      · rw [← h.closed, hopen]
        exact Bool.false_ne_true
      · cases hδ

theorem Inv.round (h : s.Inv settings) {call : Nat} {frame : SendFrame} {attempt : SendAttempt} {calls : List UdpSendPc}
    (hself : calls[call]? = some (sendNonblocking native call frame attempt).2)
    (hother : ∀ other : Nat, other ≠ call → calls[other]? = s.calls[other]?) (hmay : s.mayEnd frame.socket attempt = true)
    (hused : s.Used frame.socket)
    (hkeeps : ∃ before request after, s.journal = before ++ .called call request :: after ∧
      Served settings before request (s.journal ++ (sendNonblocking native call frame attempt).1.toList) call
        (sendNonblocking native call frame attempt).2) :
    ({ s with calls, journal := s.journal ++ (sendNonblocking native call frame attempt).1.toList } : UdpSender).Inv settings := by
  refine h.put hself hother ?_ ?_ ?_
  · intro e he
    cases attempt with
    | sent =>
      obtain ⟨hopen, -⟩ := h.tidy.open_of_mayEnd hmay (by simp)
      cases he
      exact .inl ⟨_, rfl, hopen, hused⟩
    | wouldBlock =>
      cases native <;> cases he
      exact .inr ⟨_, rfl⟩
    | raises e' => cases he
  · obtain ⟨before, request, after, hsplit, hserved⟩ := hkeeps
    refine ⟨before, request, after ++ (sendNonblocking native call frame attempt).1.toList, ?_, hserved⟩
    show s.journal ++ _ = _
    rw [hsplit, List.append_assoc, List.cons_append]
  · intro frame' await hpc
    cases attempt with
    | wouldBlock => cases native <;> cases hpc <;> exact hused
    | _ => cases hpc

theorem getElem?_concat_of_ne {calls : List UdpSendPc} {pc : UdpSendPc} {other : Nat} (h : other ≠ calls.length) :
    (calls ++ [pc])[other]? = calls[other]? := by
  rcases Nat.lt_or_gt_of_ne h with hlt | hgt
  · exact List.getElem?_append_left hlt
  · rw [List.getElem?_eq_none (by simp; omega), List.getElem?_eq_none (by omega)]

theorem Inv.refuse (h : s.Inv settings) {before : List UdpEntry} {request : UdpSend} {e : PyError}
    (hjournal : s.journal = before ++ [.called s.calls.length request])
    (hcheck : ∀ e', settings.checkSend (.stopped ∈ before) request = .error e' → e' = e) :
    (s.begin none (.raised e)).Inv settings := by
  obtain ⟨hsent, hslept⟩ := h.fresh s.calls.length le_rfl
  refine h.put List.getElem?_concat_length (fun other hne => getElem?_concat_of_ne hne) (fun e he => by cases he) ?_
    fun _ _ hpc => by cases hpc
  refine ⟨before, request, [], ?_, ?_⟩
  · show s.journal ++ [] = _
    rw [List.append_nil, hjournal]
  · show Served settings before request (s.journal ++ []) s.calls.length (.raised e)
    rw [List.append_nil]
    refine ⟨fun e' he' => ?_, ?_, hsent, ?_, fun _ _ hpc => by cases hpc⟩
    · rw [hcheck e' he']
    · rw [hsent]
      exact fun d hd => by cases hd
    · rw [hslept]
      rfl

theorem Inv.send (h : s.Inv settings) {request : UdpSend} {setup : SocketSetup} {attempt : SendAttempt}
    (ht : s.send settings native request setup attempt = some t) : t.Inv settings := by
  have hclosed : s.closed = decide (.stopped ∈ s.journal) := by
    rw [Bool.eq_iff_iff, decide_eq_true_iff]
    exact h.closed
  unfold UdpSender.send at ht
  dsimp only at ht
  have hcalled := h.called s.calls.length request
  split at ht
  · next e hcheck =>
    rw [← Option.some.inj ht]
    refine hcalled.refuse rfl fun e' he' => ?_
    rw [← hclosed, hcheck] at he'
    exact (Except.error.inj he').symm
  · next buffer target hcheck =>
    have haccepted : ∀ e, settings.checkSend (.stopped ∈ s.journal) request ≠ .error e := by
      intro e he
      rw [← hclosed, hcheck] at he
      cases he
    obtain ⟨hopen, hdata, haims⟩ := checkSend_eq_ok_iff.mp hcheck
    have hensured := hcalled.ensureSocket hopen setup
    have hbound := fun socket => @Tidy.ensureSocket_bound _ hcalled.tidy setup socket
    obtain ⟨-, hbuffers, hcalls, hjournal⟩ :=
      ensureSocket_frame (s := { s with journal := s.journal ++ [.called s.calls.length request] }) setup
    revert ht hensured hbound hbuffers hcalls hjournal
    generalize ({ s with journal := s.journal ++ [.called s.calls.length request] } : UdpSender).ensureSocket setup = ensured
    obtain ⟨u, result⟩ := ensured
    intro ht hensured hbound hbuffers hcalls hjournal
    cases result with
    | error e =>
      rw [← Option.some.inj ht]
      rw [← hcalls] at hjournal
      exact hensured.refuse hjournal fun e' he' => absurd he' (haccepted e')
    | ok socket =>
      dsimp only at ht hensured hbound hbuffers hcalls hjournal
      split at ht
      · next hmay =>
        rw [← Option.some.inj ht]
        obtain ⟨hsent, hslept⟩ := hensured.fresh u.calls.length le_rfl
        rw [← hcalls]
        have hmeant : Meant settings s.journal request
            (SendFrame.datagram { payload := u.buffers buffer, target, socket }) := by
          refine ⟨buffer, hdata, ?_, haims⟩
          show u.buffers buffer = _
          rw [hbuffers, h.buffers]
        refine hensured.round List.getElem?_concat_length (fun other hne => getElem?_concat_of_ne hne) hmay
          (.inl (hbound socket rfl)) ⟨s.journal, request, [], ?_, ?_⟩
        · rw [hjournal, hcalls]
        · refine Served.round haccepted hsent ?_ hmeant ?_ native attempt
          · rw [hslept]
            rfl
          · rw [hslept]
            show (1 / 2000 : ℚ) = fallbackDelay 0
            unfold fallbackDelay
            norm_num
      · cases ht

/-- The task of a suspended call goes on, or is cancelled, without a datagram or a sleep. -/
theorem Inv.settle (h : s.Inv settings) {call : Nat} {frame : SendFrame} {await : SendAwait} {pc : UdpSendPc}
    (hcall : s.calls[call]? = some (.suspended frame await))
    (honce : (UdpSendPc.suspended frame await).Sends (sentBy call s.journal) → pc.Sends (sentBy call s.journal))
    (hframe : ∀ frame' await', pc = .suspended frame' await' → frame' = frame) : (s.goOn call none pc).Inv settings := by
  obtain ⟨before, request, after, hsplit, hserved⟩ := h.calls call _ hcall
  have hlt : call < s.calls.length := (List.getElem?_eq_some_iff.mp hcall).1
  have hself : (s.calls.set call pc)[call]? = some pc := List.getElem?_set_self hlt
  refine h.put hself (fun other hne => List.getElem?_set_ne (Ne.symm hne)) (fun e he => by cases he) ?_ ?_
  · refine ⟨before, request, after, ?_, ?_⟩
    · show s.journal ++ [] = _
      rw [List.append_nil, hsplit]
    · show Served settings before request (s.journal ++ []) call pc
      rw [List.append_nil]
      exact hserved.settle rfl (honce hserved.once) hframe
  · intro frame' await' hpc
    rw [hframe frame' await' hpc]
    exact h.frames call frame await hcall

theorem Inv.resolve (h : s.Inv settings) {call : Nat} {frame : SendFrame} (hcall : s.calls[call]? = some (.suspended frame .pending))
    (hmay : s.mayEnd frame.socket .sent = true) :
    (s.goOn call (some (.sent call frame.datagram)) (.suspended frame .resolved)).Inv settings := by
  obtain ⟨before, request, after, hsplit, hserved⟩ := h.calls call _ hcall
  have hlt : call < s.calls.length := (List.getElem?_eq_some_iff.mp hcall).1
  obtain ⟨hopen, hused⟩ := h.tidy.open_of_mayEnd hmay (by simp)
  have hsent : sentBy call s.journal = [] := hserved.once
  obtain ⟨hmeant, hbackoff⟩ := hserved.suspended _ _ rfl
  have hself : (s.calls.set call (.suspended frame .resolved))[call]? = some (.suspended frame .resolved) :=
    List.getElem?_set_self hlt
  refine h.put hself (fun other hne => List.getElem?_set_ne (Ne.symm hne)) ?_ ?_ ?_
  · intro e he
    cases he
    exact .inl ⟨_, rfl, hopen, hused⟩
  · refine ⟨before, request, after ++ [.sent call frame.datagram], ?_, ?_⟩
    · show s.journal ++ [_] = _
      rw [hsplit, List.append_assoc, List.cons_append]
    · show Served settings before request (s.journal ++ [.sent call frame.datagram]) call (.suspended frame .resolved)
      have hnone : sentBy call (s.journal ++ [.sent call frame.datagram]) = [frame.datagram] := by
        rw [sentBy_append, hsent, sentBy_sent, List.nil_append]
      refine ⟨fun e he => ?_, ?_, ?_, ?_, fun frame' await' hpc => ?_⟩
      · have hraised := hserved.refused e he
        cases hraised
      · intro d hd
        rw [hnone, List.mem_singleton] at hd
        rw [hd]
        exact hmeant
      · rw [hnone]
        exact ⟨_, rfl⟩
      · rw [sleepsOf_append, sleepsOf_sent, List.append_nil]
        exact hserved.delays
      · cases hpc
        rw [sleepsOf_append, sleepsOf_sent, List.append_nil]
        exact ⟨hmeant, hbackoff⟩
  · intro frame' await' hpc
    cases hpc
    exact hused

theorem used_stop {k : Nat} (h : s.Used k) : s.stop.Used k := by
  unfold UdpSender.stop
  split
  · exact h
  · show (s.socket.elim s.sockets _)[k]? = _ ∨ (s.socket.elim s.sockets _)[k]? = _
    cases s.socket with
    | none => exact h
    | some socket =>
      show (s.sockets.set socket .released)[k]? = _ ∨ (s.sockets.set socket .released)[k]? = _
      by_cases hk : k = socket
      · have hlt : k < s.sockets.length := by
          rcases h with hk | hk <;> exact (List.getElem?_eq_some_iff.mp hk).1
        rw [← hk, List.getElem?_set_self hlt]
        exact .inr rfl
      · rw [List.getElem?_set_ne (Ne.symm hk)]
        exact h

theorem Inv.stop (h : s.Inv settings) : s.stop.Inv settings := by
  have htidy := h.tidy.stop
  have hused := fun k (hk : s.Used k) => used_stop hk
  unfold UdpSender.stop at htidy hused ⊢
  split
  · exact h
  · next hopen =>
    rw [if_neg hopen] at htidy hused
    have hspares : ∀ call, UdpEntry.stopped.Spares call := fun _ => ⟨rfl, rfl⟩
    refine ⟨htidy, ?_, ?_, ?_, ?_, ?_, ?_, ?_⟩
    · show s.buffers = contentsOf (s.journal ++ [.stopped])
      rw [contentsOf_concat (by simp), h.buffers]
    · show true = true ↔ .stopped ∈ s.journal ++ [.stopped]
      simp
    · exact fun call pc hpc => (h.calls call pc hpc).concat (hspares call) rfl
    · intro call hcall
      show sentBy call (s.journal ++ [.stopped]) = [] ∧ sleepsOf call (s.journal ++ [.stopped]) = []
      rw [sentBy_append, sleepsOf_append, (hspares call).sentBy, (hspares call).sleepsOf, List.append_nil, List.append_nil]
      exact h.fresh call hcall
    · intro call d hd
      rcases List.mem_append.mp hd with hd | hd
      · exact hused _ (h.source call d hd)
      · rw [List.mem_singleton] at hd
        cases hd
    · exact fun call frame await hframe => hused _ (h.frames call frame await hframe)
    · refine h.quiet.concat ?_ fun _ _ _ _ hx => hx
      rintro ⟨call, d, he⟩
      cases he

theorem Inv.writable (h : s.Inv settings) {call : Nat} {attempt : SendAttempt} (ht : s.writable call attempt = some t) :
    t.Inv settings := by
  unfold UdpSender.writable at ht
  split at ht
  · next frame hcall =>
    split at ht
    · next hmay =>
      cases attempt with
      | sent =>
        rw [← Option.some.inj ht]
        exact h.resolve hcall hmay
      | wouldBlock =>
        rw [← Option.some.inj ht]
        exact h
      | raises e =>
        rw [← Option.some.inj ht]
        refine h.settle hcall id fun frame' await' hpc => ?_
        cases hpc
        rfl
    · cases ht
  · cases ht

theorem Inv.resume (h : s.Inv settings) {call : Nat} {attempt : SendAttempt} (ht : s.resume call attempt = some t) :
    t.Inv settings := by
  unfold UdpSender.resume at ht
  split at ht
  · next frame hcall =>
    dsimp only at ht
    split at ht
    · next hmay =>
      rw [← Option.some.inj ht]
      obtain ⟨before, request, after, hsplit, hserved⟩ := h.calls call _ hcall
      obtain ⟨hmeant, hbackoff⟩ := hserved.suspended _ _ rfl
      have hnot : ∀ e, settings.checkSend (.stopped ∈ before) request ≠ .error e := by
        intro e he
        have hraised := hserved.refused e he
        cases hraised
      have hlt : call < s.calls.length := (List.getElem?_eq_some_iff.mp hcall).1
      exact h.round (List.getElem?_set_self hlt) (fun other hne => List.getElem?_set_ne (Ne.symm hne)) hmay
        (h.frames call frame _ hcall)
        ⟨before, request, after, hsplit, Served.round hnot hserved.once hserved.delays hmeant hbackoff false attempt⟩
    · cases ht
  · next frame hcall =>
    rw [← Option.some.inj ht]
    exact h.settle hcall id fun _ _ hpc => by cases hpc
  · next frame e hcall =>
    rw [← Option.some.inj ht]
    exact h.settle hcall id fun _ _ hpc => by cases hpc
  · cases ht

theorem Inv.cancel (h : s.Inv settings) {call : Nat} (ht : s.cancel call = some t) : t.Inv settings := by
  unfold UdpSender.cancel at ht
  split at ht
  · next frame await hcall =>
    rw [← Option.some.inj ht]
    refine h.settle hcall (fun hsends => ?_) fun _ _ hpc => by cases hpc
    show (sentBy call s.journal).length ≤ 1
    cases await with
    | resolved =>
      -- the datagram has left, and the task has not taken its turn yet
      obtain ⟨d, hd⟩ := hsends
      rw [hd, List.length_singleton]
    | _ =>
      replace hsends : sentBy call s.journal = [] := hsends
      rw [hsends]
      exact Nat.zero_le 1
  · cases ht

theorem Inv.step (h : s.Inv settings) {a : UdpSenderAction} (ht : s.step settings native a = some t) : t.Inv settings := by
  cases a with
  | write buffer contents =>
    rw [← Option.some.inj ht]
    exact h.write buffer contents
  | send request setup attempt => exact h.send ht
  | writable call attempt => exact h.writable ht
  | resume call attempt => exact h.resume ht
  | cancel call => exact h.cancel ht
  | stop =>
    rw [← Option.some.inj ht]
    exact h.stop

theorem inv_of_reachable (h : (udpSenderMachine settings native).Reachable Machine.Any s) : s.Inv settings := by
  refine h.invariant ?_ fun _ _ _ hs _ ht => hs.step ht
  rintro _ rfl
  refine ⟨⟨fun k => ?_, fun _ => rfl, fun k hk => ?_, fun k l hk => ?_, fun k e hk => ?_⟩, rfl, ?_, ?_, ?_, ?_, ?_, .nil⟩
  · simp
  · simp at hk
  · unfold Used at hk
    simp at hk
  · simp at hk
  · simp
  · intro call pc hpc
    simp at hpc
  · exact fun call _ => ⟨rfl, rfl⟩
  · exact fun call d hd => by cases hd
  · intro call frame await hframe
    simp at hframe

/-- The checks come before everything else that a call does. -/
theorem step_send_of_refused {request : UdpSend} {e : PyError} (hcheck : settings.checkSend s.closed request = .error e)
    (setup : SocketSetup) (attempt : SendAttempt) : s.step settings native (.send request setup attempt) =
      some { s with calls := s.calls ++ [.raised e], journal := s.journal ++ [.called s.calls.length request] } := by
  show s.send settings native request setup attempt = _
  unfold UdpSender.send
  dsimp only
  rw [hcheck]
  show some (UdpSender.mk _ _ _ _ _ (_ ++ [])) = _
  rw [List.append_nil]

/-- Every run of a sender is lawful. -/
theorem lawful_of_reachable (h : (udpSenderMachine settings native).Reachable Machine.Any s) : s.Lawful settings := by
  have hinv := inv_of_reachable h
  refine ⟨hinv.calls, fun call d hd => ?_, fun call call' d d' hd hd' => ?_, fun before after hsplit call d hd => ?_,
    fun native request setup attempt e hcheck => step_send_of_refused hcheck setup attempt, hinv.tidy⟩
  · by_contra hle
    have hnone := (hinv.fresh call (not_lt.mp hle)).1
    rw [← mem_sentBy, hnone] at hd
    cases hd
  · exact hinv.tidy.single _ _ (hinv.source call d hd) (hinv.source call' d' hd')
  · obtain ⟨l, r, rfl⟩ := List.append_of_mem hd
    refine hinv.quiet (before ++ .stopped :: l) (.sent call d) r ?_ ⟨call, d, rfl⟩ ?_
    · rw [hsplit, List.append_assoc, List.cons_append]
    · exact List.mem_append_right _ List.mem_cons_self

end UdpSender

def loopbackSender : UdpSenderSettings.Fields where
  defaultHost := .str "127.0.0.1".toList
  defaultPort := .int 9000

/-- The first call finds the socket's buffer full; its own buffer is reused for the second call, which overtakes it. The third
call comes after `stop`. -/
def overtakenSend : List UdpSenderAction :=
  [.write 0 [1, 2], .send { data := some 0 } .bound .wouldBlock, .write 0 [3],
    .send { data := some 0, port := .int 9001 } .bound .sent, .resume 0 .wouldBlock, .resume 0 .sent, .stop,
    .send { data := some 0 } .bound .sent]

theorem lawful_of_overtakenSend :
    ∃ s : UdpSender, (sentBy 0 s.journal = [⟨0, [1, 2], .str "127.0.0.1".toList, 9000⟩] ∧
      sentBy 1 s.journal = [⟨0, [3], .str "127.0.0.1".toList, 9001⟩] ∧ s.sockets = [.released]) ∧ s.Lawful loopbackSender := by
  have hrun : ∃ s : UdpSender, (udpSenderMachine loopbackSender false).Reachable Machine.Any s ∧
      decide (sentBy 0 s.journal = [⟨0, [1, 2], .str "127.0.0.1".toList, 9000⟩] ∧
        sentBy 1 s.journal = [⟨0, [3], .str "127.0.0.1".toList, 9001⟩] ∧ s.sockets = [.released]) :=
    Machine.Reachable.exists_of_exec rfl overtakenSend _ (by decide +kernel)
  obtain ⟨s, hs, hp⟩ := hrun
  exact ⟨s, of_decide_eq_true hp, UdpSender.lawful_of_reachable hs⟩

end Aionetx
