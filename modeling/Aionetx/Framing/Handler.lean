import Mathlib.Logic.Function.Basic
import Aionetx.Runs.Machine
import Aionetx.Framing.LengthPrefix

/-!
# The framing handler

`FramingHandler` of `examples/tcp_framing_length_prefix.py`, whose calls for any number of connections interleave, each of them
suspended wherever it awaits a message handler.

* `MessageDispatcher`, `dispatched` : the handlers by type, and what becomes of a frame;
* `FramingSession`, `FramingSession.turn` : one connection with the history of its bytes, and the loop of `on_bytes_received`;
* `framingMachine` : the handler; `FramingSession.Inv.step`, `inv_of_reachable` : the invariant of a connection;
* `contained_of_reachable` : what any bytes can do; `framed_of_reachable` : messages arrive in order.
-/

namespace Aionetx

open Runs

universe u v

variable {M : Type u} {H : Type v}

/-! ## The dispatcher of the messages -/

structure MessageDispatcher (H : Type v) where
  handlers : Nat → Option H := fun _ => none

namespace MessageDispatcher

def register (d : MessageDispatcher H) (typeId : Nat) (handler : H) : MessageDispatcher H where
  handlers := Function.update d.handlers typeId (some handler)

end MessageDispatcher

variable (codec : PayloadCodec M) (dispatcher : MessageDispatcher H)

/-- What a frame is to the dispatcher: the handler it awaits and the message, unless there is none. -/
def dispatched (f : Frame) : Option (H × M) :=
  (codec.decodeMessage f.typeId f.payload).bind fun m => (dispatcher.handlers f.typeId).map (·, m)

def routed (m : M) : Option (H × M) := (dispatcher.handlers (codec.typeOf m).id).map (·, m)

theorem dispatched_frame (m : M) : dispatched codec dispatcher (codec.frame m) = routed codec dispatcher m := by
  rw [dispatched, PayloadCodec.decodeMessage_frame]
  rfl

/-! ## One connection -/

/-- The buffer of a connection, the calls of `on_bytes_received` for it that await a message handler, and its history: what was
received, the pieces taken from the buffer and the messages handled. -/
structure FramingSession (M : Type u) (H : Type v) where
  buffer : Bytes := []
  calls : Nat := 0
  /-- a call has ended with the exception of a message handler or of `print`, and none has worked the buffer off since -/
  aborted : Bool := false
  received : Bytes := []
  pieces : List (Piece UInt8 Frame) := []
  handled : List (H × M) := []

namespace FramingSession

/-- The loop of `on_bytes_received` up to the next message handler; each round shortens the buffer. A header that is oversize, a
frame that cannot be decoded and one that has no handler are reported with `print`, which succeeds `prints` times and then raises. -/
def turn : Nat → Option Nat → FramingSession M H → FramingSession M H
  | 0, _, x => { x with aborted := false }
  | n + 1, prints, x =>
    match framing.cut x.buffer with
    | none => { x with aborted := false }
    | some (piece, rest) =>
      match piece.item with
      | none =>
        -- `buffer.clear()` comes after the print
        if prints = some 0 then { x with aborted := true }
        else { x with buffer := rest, pieces := x.pieces ++ [piece], aborted := false }
      | some f =>
        let x := { x with buffer := rest, pieces := x.pieces ++ [piece] }
        match dispatched codec dispatcher f with
        | some message => { x with calls := x.calls + 1, handled := x.handled ++ [message] }
        | none => if prints = some 0 then { x with aborted := true } else turn n (prints.map Nat.pred) x

def onBytesReceived (x : FramingSession M H) (data : Bytes) (prints : Option Nat) : FramingSession M H :=
  let buffer := x.buffer ++ data
  turn codec dispatcher buffer.length prints { x with buffer, received := x.received ++ data }

/-- The message handler that a call awaits has returned or raised. -/
def handlerDone (x : FramingSession M H) (raised : Bool) (prints : Option Nat) : FramingSession M H :=
  let x := { x with calls := x.calls - 1 }
  if raised then { x with aborted := true } else turn codec dispatcher x.buffer.length prints x

/-- No call is in progress, and none has ended with an exception since the buffer was worked off. -/
def Settled (x : FramingSession M H) : Prop := x.calls = 0 ∧ x.aborted = false

instance (x : FramingSession M H) : Decidable x.Settled := inferInstanceAs (Decidable (_ ∧ _))

end FramingSession

/-! ## The handler -/

/-- A chunk arrives on a connection, or a message handler of it is done. -/
inductive FramingAct
  | bytesReceived (r : ResourceId) (data : Bytes) (prints : Option Nat := none)
  | handlerDone (r : ResourceId) (raised : Bool) (prints : Option Nat := none)
  deriving DecidableEq, Repr

/-- A `FramingHandler` under every interleaving of its calls. -/
def framingMachine : Machine (ResourceId → FramingSession M H) FramingAct where
  init s := s = fun _ => {}
  step s
    | .bytesReceived r data prints => some (Function.update s r ((s r).onBytesReceived codec dispatcher data prints))
    | .handlerDone r raised prints =>
      if 0 < (s r).calls then some (Function.update s r ((s r).handlerDone codec dispatcher raised prints)) else none

namespace FramingSession

/-! ## The invariant -/

/-- Every byte received is in a piece or still in the buffer, and the messages handled are those of the pieces. -/
structure Accounted (x : FramingSession M H) : Prop where
  bytes : x.received = bytesOf x.pieces ++ x.buffer
  valid : ∀ p ∈ x.pieces, p.Valid framing
  handled : x.handled = x.pieces.filterMap fun p => p.item.bind (dispatched codec dispatcher)

/-- Besides, a connection that is settled waits for more bytes. -/
structure Inv (x : FramingSession M H) : Prop extends Accounted codec dispatcher x where
  settled : x.Settled → framing.cut x.buffer = none

variable {codec dispatcher} {x : FramingSession M H}

theorem Accounted.take (h : x.Accounted codec dispatcher) {piece : Piece UInt8 Frame} {rest : Bytes}
    (hcut : framing.cut x.buffer = some (piece, rest)) (calls : Nat) (aborted : Bool) :
    Accounted codec dispatcher { x with
      buffer := rest
      calls
      aborted
      pieces := x.pieces ++ [piece]
      handled := x.handled ++ (piece.item.bind (dispatched codec dispatcher)).toList } where
  bytes := by
    rw [bytesOf_append, bytesOf_cons, bytesOf_nil, List.append_nil, List.append_assoc, StreamDecoder.bytes_cut hcut]
    exact h.bytes
  valid := fun p hp => by
    rcases List.mem_append.mp hp with hp | hp
    · exact h.valid p hp
    · rw [List.mem_singleton.mp hp]
      exact StreamDecoder.valid_cut hcut
  handled := by
    rw [List.filterMap_append, ← h.handled]
    cases hpiece : piece.item.bind (dispatched codec dispatcher) <;> simp [hpiece]

/-- The loop: what it leaves is accounted for, and the connection is settled only if more bytes are needed. -/
theorem Accounted.turn {n : Nat} (h : x.Accounted codec dispatcher) (hn : x.buffer.length ≤ n) (prints : Option Nat) :
    Inv codec dispatcher (x.turn codec dispatcher n prints) := by
  induction n generalizing x prints with
  | zero =>
    have hempty : x.buffer = [] := List.length_eq_zero_iff.mp (Nat.le_zero.mp hn)
    refine ⟨⟨h.bytes, h.valid, h.handled⟩, fun _ => ?_⟩
    show framing.cut x.buffer = none
    rw [hempty]
    exact StreamDecoder.cut_nil
  | succ n ih =>
    unfold FramingSession.turn
    cases hcut : framing.cut x.buffer with
    | none => exact ⟨⟨h.bytes, h.valid, h.handled⟩, fun _ => hcut⟩
    | some cut =>
      obtain ⟨piece, rest⟩ := cut
      have hrest := StreamDecoder.length_cut_lt hcut
      dsimp only
      cases hitem : piece.item with
      | none =>
        dsimp only
        split
        · exact ⟨⟨h.bytes, h.valid, h.handled⟩, fun hsettled => by cases hsettled.2⟩
        · have htaken := h.take hcut x.calls false
          rw [hitem, Option.bind_none, Option.toList_none, List.append_nil] at htaken
          refine ⟨htaken, fun _ => ?_⟩
          show framing.cut rest = none
          rw [StreamDecoder.rest_eq_nil_of_rejected hcut hitem]
          exact StreamDecoder.cut_nil
      | some f =>
        dsimp only
        cases hmessage : dispatched codec dispatcher f with
        | none =>
          have htaken := fun aborted => h.take hcut x.calls aborted
          simp only [hitem, Option.bind_some, hmessage, Option.toList_none, List.append_nil] at htaken
          dsimp only
          split
          · exact ⟨htaken true, fun hsettled => by cases hsettled.2⟩
          · exact ih (htaken x.aborted) (Nat.le_of_lt_succ (Nat.lt_of_lt_of_le hrest hn)) _
        | some message =>
          have htaken := h.take hcut (x.calls + 1) x.aborted
          rw [hitem, Option.bind_some, hmessage] at htaken
          exact ⟨htaken, fun hsettled => absurd hsettled.1 (Nat.succ_ne_zero _)⟩

theorem Inv.onBytesReceived (h : x.Inv codec dispatcher) (data : Bytes) (prints : Option Nat) :
    (x.onBytesReceived codec dispatcher data prints).Inv codec dispatcher := by
  refine Accounted.turn (x := { x with buffer := x.buffer ++ data, received := x.received ++ data }) ⟨?_, h.valid, h.handled⟩
    (Nat.le_refl _) prints
  show x.received ++ data = bytesOf x.pieces ++ (x.buffer ++ data)
  rw [h.bytes, List.append_assoc]

theorem Inv.handlerDone (h : x.Inv codec dispatcher) (raised : Bool) (prints : Option Nat) :
    (x.handlerDone codec dispatcher raised prints).Inv codec dispatcher := by
  cases raised with
  | true => exact ⟨⟨h.bytes, h.valid, h.handled⟩, fun hsettled => by cases hsettled.2⟩
  | false =>
    exact Accounted.turn (x := { x with calls := x.calls - 1 }) ⟨h.bytes, h.valid, h.handled⟩ (Nat.le_refl _) prints

theorem Inv.step {s s' : ResourceId → FramingSession M H} (h : ∀ r, (s r).Inv codec dispatcher) {a : FramingAct}
    (hstep : (framingMachine codec dispatcher).step s a = some s') (r : ResourceId) : (s' r).Inv codec dispatcher := by
  have hupdate : ∀ {r' : ResourceId} {x : FramingSession M H}, x.Inv codec dispatcher →
      (Function.update s r' x r).Inv codec dispatcher := by
    intro r' x hx
    by_cases hr : r = r'
    · rw [hr, Function.update_self]
      exact hx
    · rw [Function.update_of_ne hr]
      exact h r
  cases a with
  | bytesReceived r' data prints =>
    cases hstep
    exact hupdate ((h r').onBytesReceived data prints)
  | handlerDone r' raised prints =>
    obtain ⟨-, hstep⟩ := Option.ite_none_right_eq_some.mp hstep
    cases hstep
    exact hupdate ((h r').handlerDone raised prints)

theorem inv_of_reachable {s : ResourceId → FramingSession M H} {ok : (ResourceId → FramingSession M H) → FramingAct → Prop}
    (h : (framingMachine codec dispatcher).Reachable ok s) (r : ResourceId) : (s r).Inv codec dispatcher := by
  refine h.invariant (I := fun s => ∀ r, (s r).Inv codec dispatcher) ?_ (fun s a s' hi _ hstep => Inv.step hi hstep) r
  rintro _ rfl r
  exact ⟨⟨rfl, nofun, rfl⟩, fun _ => StreamDecoder.cut_nil⟩

/-! ## Any bytes -/

/-- What is on the wire is cut up without a gap: each piece is the encoding of a frame that is not oversize, or begins with the
header of an oversize frame, and while no call is in progress less than one frame is kept. -/
structure Contained (x : FramingSession M H) : Prop where
  bytes : x.received = bytesOf x.pieces ++ x.buffer
  wellFormed : ∀ p ∈ x.pieces, match p.item with
    | some f => f.Fits ∧ p.bytes = f.encode
    | none => headerSize ≤ p.bytes.length ∧ maxPayloadBytes < announced p.bytes
  bounded : x.Settled → x.buffer.length < headerSize + maxPayloadBytes

/-- For every peer and every interleaving, also with handlers that raise. -/
theorem contained_of_reachable (codec : PayloadCodec M) (dispatcher : MessageDispatcher H)
    {s : ResourceId → FramingSession M H} (h : (framingMachine codec dispatcher).Reachable Machine.Any s) (r : ResourceId) :
    (s r).Contained ∧ (s r).handled = (s r).pieces.filterMap fun p => p.item.bind (dispatched codec dispatcher) := by
  have hinv := inv_of_reachable h r
  refine ⟨⟨hinv.bytes, fun p hp => ?_, fun hsettled => ?_⟩, hinv.handled⟩
  · have hvalid := hinv.valid p hp
    unfold Piece.Valid at hvalid
    cases hitem : p.item with
    | none =>
      rw [hitem] at hvalid
      exact framingNext_eq_reject_iff.mp hvalid
    | some f =>
      rw [hitem] at hvalid
      exact encode_of_framingNext hvalid
  · exact length_lt_of_more (StreamDecoder.cut_eq_none_iff.mp (hinv.settled hsettled))

/-! ## Messages -/

variable {messages : List M} {packets : List Bytes}

theorem flatten_packets (hfits : ∀ m ∈ messages, (codec.dumps m).length ≤ maxPayloadBytes)
    (hpackets : messages.mapM codec.encodeMessage = some packets) :
    packets.flatten = (messages.map codec.frame).flatMap Frame.encode := by
  induction messages generalizing packets with
  | nil =>
    cases hpackets
    rfl
  | cons m messages ih =>
    have hm := PayloadCodec.encodeMessage_eq (hfits m List.mem_cons_self)
    rw [List.mapM_cons, hm, Option.bind_eq_bind, Option.bind_some] at hpackets
    obtain ⟨packets', hpackets', heq⟩ := Option.bind_eq_some_iff.mp hpackets
    cases heq
    rw [List.flatten_cons, ih (fun m hm => hfits m (List.mem_cons_of_mem _ hm)) hpackets', List.map_cons, List.flatMap_cons]

/-- The messages handled are the first ones sent, and all of them once all bytes have arrived and the connection is settled. -/
structure Framed (codec : PayloadCodec M) (dispatcher : MessageDispatcher H) (messages : List M) (packets : List Bytes)
    (x : FramingSession M H) : Prop where
  inOrder : ∃ taken, taken <+: messages ∧ x.handled = taken.filterMap (routed codec dispatcher)
  complete : x.received = packets.flatten → x.Settled →
    x.handled = messages.filterMap (routed codec dispatcher) ∧ x.buffer = []

/-- The handlers of some pieces are those of their messages. -/
theorem handled_of_items {pieces : List (Piece UInt8 Frame)} {taken : List M}
    (h : pieces.map Piece.item = (taken.map codec.frame).map some) :
    pieces.filterMap (fun p => p.item.bind (dispatched codec dispatcher)) = taken.filterMap (routed codec dispatcher) := by
  have hcomp : (fun p : Piece UInt8 Frame => p.item.bind (dispatched codec dispatcher)) =
      (fun item : Option Frame => item.bind (dispatched codec dispatcher)) ∘ Piece.item := rfl
  rw [hcomp, ← List.filterMap_map, h, List.filterMap_map, List.filterMap_map]
  exact List.filterMap_congr fun m _ => dispatched_frame codec dispatcher m

theorem Inv.framed (h : x.Inv codec dispatcher) (hfits : ∀ m ∈ messages, (codec.dumps m).length ≤ maxPayloadBytes)
    (hpackets : messages.mapM codec.encodeMessage = some packets) (hreceived : x.received <+: packets.flatten) :
    x.Framed codec dispatcher messages packets := by
  have hencodes : ∀ f ∈ messages.map codec.frame, framing.Encodes Frame.encode f := by
    intro f hf
    obtain ⟨m, hm, rfl⟩ := List.mem_map.mp hf
    exact framing_encodes (PayloadCodec.fits_frame (hfits m hm))
  have hflat := flatten_packets hfits hpackets
  constructor
  · rw [h.bytes, hflat] at hreceived
    obtain ⟨frames, ⟨left, hleft⟩, hitems, -⟩ := StreamDecoder.prefix_of_valid hencodes h.valid hreceived
    obtain ⟨taken, taken', htaken, rfl, -⟩ := List.map_eq_append_iff.mp hleft.symm
    refine ⟨taken, ⟨taken', htaken.symm⟩, ?_⟩
    rw [h.handled]
    exact handled_of_items hitems
  · intro hall hsettled
    rw [h.bytes, hflat] at hall
    obtain ⟨hitems, hbuffer⟩ := StreamDecoder.items_eq hencodes h.valid hall (h.settled hsettled)
    refine ⟨?_, hbuffer⟩
    rw [h.handled]
    exact handled_of_items hitems

end FramingSession

/-! ## Runs -/

def jsonTexts : PayloadCodec (MessageType × Bytes) where
  typeOf := Prod.fst
  dumps := Prod.snd
  loads t payload := some (t, payload)
  loads_dumps _ := rfl

def heartbeatMessage : MessageType × Bytes :=
  (.heartbeat, "\x7b\"sequence\": 1, \"sender_id\": \"a\", \"monotonic_ms\": 2\x7d".toList.map fun c => UInt8.ofNat c.toNat)

def heartbeatPacket : Bytes := (jsonTexts.frame heartbeatMessage).encode

def heartbeatDispatcher : MessageDispatcher String := ({} : MessageDispatcher String).register 1 "handle_heartbeat"

/-- Two packets in two chunks, and a packet and a half on another connection, whose handler raises. -/
def twoHeartbeats : List FramingAct :=
  [.bytesReceived 0 (heartbeatPacket.take 5), .bytesReceived 1 (heartbeatPacket ++ heartbeatPacket.take 30),
    .bytesReceived 0 (heartbeatPacket.drop 5 ++ heartbeatPacket), .handlerDone 0 false, .handlerDone 1 true,
    .handlerDone 0 false]

/-- Four gigabytes are announced in the middle of a chunk. -/
theorem contained_of_oversize :
    ∃ s : ResourceId → FramingSession (MessageType × Bytes) String,
      ((s 0).pieces.map Piece.item = [some (jsonTexts.frame heartbeatMessage), none] ∧ (s 0).Settled) ∧
      ((s 0).Contained ∧ (s 0).handled =
        (s 0).pieces.filterMap fun p => p.item.bind (dispatched jsonTexts heartbeatDispatcher)) := by
  have hrun : ∃ s : ResourceId → FramingSession (MessageType × Bytes) String,
      (framingMachine jsonTexts heartbeatDispatcher).Reachable Machine.Any s ∧
        decide ((s 0).pieces.map Piece.item = [some (jsonTexts.frame heartbeatMessage), none] ∧ (s 0).Settled) :=
    Machine.Reachable.exists_of_exec rfl
      [.bytesReceived 0 (heartbeatPacket ++ [0, 0, 0, 1, 255, 255, 255, 255, 7]), .handlerDone 0 false] _ (by decide +kernel)
  obtain ⟨s, hs, hp⟩ := hrun
  exact ⟨s, of_decide_eq_true hp, FramingSession.contained_of_reachable jsonTexts heartbeatDispatcher hs 0⟩

end Aionetx
