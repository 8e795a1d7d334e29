import Mathlib.Algebra.Group.Nat.Defs
import Mathlib.Tactic.Common
import Aionetx.Model.Api
import Aionetx.Runs.StreamDecoder

/-!
# Length-prefixed frames

The wire format of `examples/tcp_framing_length_prefix.py`: an 8-byte header with the type and the length of the payload, and
the payload.

* `CommonMessageHeader`, `Frame`, `framingNext` : the header, a frame, and what the receiver makes of its buffer;
* `framing` : it is a decoder, `framing_encodes` : of the frames that are not oversize;
* `MessageType`, `PayloadCodec`, `encodeMessage`, `decodeMessage` : the typed messages.
-/

namespace Aionetx

open Runs

/-! ## The header -/

def headerSize : Nat := 8

def maxPayloadBytes : Nat := 2 ^ 20

/-- An `I` of `struct` in network byte order. -/
def packU32 (n : Nat) : Bytes :=
  [UInt8.ofNat (n / 2 ^ 24), UInt8.ofNat (n / 2 ^ 16), UInt8.ofNat (n / 2 ^ 8), UInt8.ofNat n]

def unpackU32 (bytes : Bytes) : Nat := bytes.foldl (fun n b => 256 * n + b.toNat) 0

@[simp] theorem length_packU32 (n : Nat) : (packU32 n).length = 4 := rfl

theorem unpackU32_packU32 {n : Nat} (h : n < 2 ^ 32) : unpackU32 (packU32 n) = n := by
  simp only [unpackU32, packU32, List.foldl_cons, List.foldl_nil, UInt8.toNat_ofNat']
  omega

/-- The big-endian value of a list of bytes is below the power of its length. -/
theorem unpackU32_lt (bytes : Bytes) : unpackU32 bytes < 256 ^ bytes.length := by
  induction bytes using List.reverseRecOn with
  | nil => decide
  | append_singleton bytes b ih =>
    have hb := b.toNat_lt
    rw [unpackU32, List.foldl_append, List.length_append, List.length_singleton, Nat.pow_succ]
    show 256 * unpackU32 bytes + b.toNat < _
    omega

theorem packU32_unpackU32 {bytes : Bytes} (h : bytes.length = 4) : packU32 (unpackU32 bytes) = bytes := by
  obtain ⟨a, b, c, d, rfl⟩ : ∃ a b c d, bytes = [a, b, c, d] := by
    match bytes, h with
    | [a, b, c, d], _ => exact ⟨a, b, c, d, rfl⟩
  have ha := a.toNat_lt
  have hb := b.toNat_lt
  have hc := c.toNat_lt
  have hd := d.toNat_lt
  simp only [unpackU32, packU32, List.foldl_cons, List.foldl_nil, List.cons.injEq, and_true]
  refine ⟨?_, ?_, ?_, ?_⟩ <;>
    · apply UInt8.toNat.inj
      rw [UInt8.toNat_ofNat']
      omega

structure CommonMessageHeader where
  typeId : Nat
  payloadLength : Nat
  deriving DecidableEq, Repr

namespace CommonMessageHeader

/-- `pack`; `struct.error` for a field that is no `u32`. -/
def pack (header : CommonMessageHeader) : Option Bytes :=
  if header.typeId < 2 ^ 32 ∧ header.payloadLength < 2 ^ 32 then some (packU32 header.typeId ++ packU32 header.payloadLength)
  else none

def unpack (buffer : Bytes) : CommonMessageHeader where
  typeId := unpackU32 (buffer.take 4)
  payloadLength := unpackU32 (buffer.drop 4)

end CommonMessageHeader

/-! ## Frames -/

structure Frame where
  typeId : Nat
  payload : Bytes
  deriving DecidableEq, Repr

namespace Frame

def encode (f : Frame) : Bytes := packU32 f.typeId ++ packU32 f.payload.length ++ f.payload

/-- The type is a `u32`, and the receiver does not reject the length. -/
structure Fits (f : Frame) : Prop where
  typeId : f.typeId < 2 ^ 32
  payload : f.payload.length ≤ maxPayloadBytes

theorem length_encode (f : Frame) : f.encode.length = headerSize + f.payload.length := by
  rw [encode, List.length_append, List.length_append, length_packU32, length_packU32]
  rfl

end Frame

/-- What `on_bytes_received` makes of its buffer at the head of the loop. -/
def framingNext (buffer : Bytes) : Verdict Frame :=
  if buffer.length < headerSize then .more
  else
    let header := CommonMessageHeader.unpack (buffer.take headerSize)
    if maxPayloadBytes < header.payloadLength then .reject
    else
      let frameEnd := headerSize + header.payloadLength
      if buffer.length < frameEnd then .more
      else .item ⟨header.typeId, (buffer.take frameEnd).drop headerSize⟩ frameEnd

def announced (buffer : Bytes) : Nat := (CommonMessageHeader.unpack (buffer.take headerSize)).payloadLength

variable {buffer rest : Bytes} {f : Frame} {n : Nat}

theorem framingNext_eq_reject_iff :
    framingNext buffer = .reject ↔ headerSize ≤ buffer.length ∧ maxPayloadBytes < announced buffer := by
  unfold framingNext announced
  split
  · next h => exact ⟨nofun, fun hh => absurd hh.1 (by omega)⟩
  · next h =>
    dsimp only
    split
    · next hover => exact ⟨fun _ => ⟨by omega, hover⟩, fun _ => rfl⟩
    · next hover =>
      refine ⟨?_, fun hh => absurd hh.2 hover⟩
      split <;> nofun

theorem framingNext_eq_item_iff :
    framingNext buffer = .item f n ↔ headerSize ≤ buffer.length ∧ announced buffer ≤ maxPayloadBytes ∧ n ≤ buffer.length ∧
      n = headerSize + announced buffer ∧
      f = ⟨(CommonMessageHeader.unpack (buffer.take headerSize)).typeId, (buffer.take n).drop headerSize⟩ := by
  unfold framingNext announced
  split
  · next h => exact ⟨nofun, fun hh => absurd hh.1 (by omega)⟩
  · next h =>
    dsimp only
    split
    · next hover => exact ⟨nofun, fun hh => absurd hh.2.1 (by omega)⟩
    · next hover =>
      split
      · next hshort => exact ⟨nofun, fun hh => absurd hh.2.2.1 (by omega)⟩
      · next hlong =>
        constructor
        · intro heq
          cases heq
          exact ⟨by omega, by omega, by omega, rfl, rfl⟩
        · rintro ⟨-, -, -, rfl, rfl⟩
          rfl

theorem take_headerSize_append (h : headerSize ≤ buffer.length) (rest : Bytes) :
    (buffer ++ rest).take headerSize = buffer.take headerSize := List.take_append_of_le_length h

theorem announced_append (h : headerSize ≤ buffer.length) (rest : Bytes) : announced (buffer ++ rest) = announced buffer := by
  rw [announced, take_headerSize_append h, announced]

def framing : StreamDecoder UInt8 Frame where
  next := framingNext
  next_nil := rfl
  size_pos := fun h => by
    obtain ⟨-, -, -, rfl, -⟩ := framingNext_eq_item_iff.mp h
    exact Nat.add_pos_left (by decide) _
  size_le := fun h => (framingNext_eq_item_iff.mp h).2.2.1
  next_take := @fun buffer e n h => by
    obtain ⟨hheader, hle, hn, rfl, rfl⟩ := framingNext_eq_item_iff.mp h
    have htake : (buffer.take (headerSize + announced buffer)).take headerSize = buffer.take headerSize := by
      rw [List.take_take, Nat.min_eq_left (Nat.le_add_right _ _)]
    have hannounced : announced (buffer.take (headerSize + announced buffer)) = announced buffer := by
      rw [announced, htake, announced]
    refine framingNext_eq_item_iff.mpr ⟨?_, ?_, ?_, ?_, ?_⟩
    · rw [List.length_take]
      omega
    · rwa [hannounced]
    · rw [List.length_take]
      omega
    · rw [hannounced]
    · rw [htake, List.take_take, Nat.min_self]
  next_append := @fun buffer rest h => by
    cases hnext : framingNext buffer with
    | more => exact absurd hnext h
    | reject =>
      obtain ⟨hheader, hover⟩ := framingNext_eq_reject_iff.mp hnext
      refine framingNext_eq_reject_iff.mpr ⟨?_, ?_⟩
      · rw [List.length_append]
        omega
      · rwa [announced_append hheader]
    | item e n =>
      obtain ⟨hheader, hle, hn, rfl, rfl⟩ := framingNext_eq_item_iff.mp hnext
      refine framingNext_eq_item_iff.mpr ⟨?_, ?_, ?_, ?_, ?_⟩
      · rw [List.length_append]
        omega
      · rwa [announced_append hheader]
      · rw [List.length_append]
        omega
      · rw [announced_append hheader]
      · rw [take_headerSize_append hheader, List.take_append_of_le_length hn]

/-- The receiver finds a frame that fits at the front of its bytes. -/
theorem framing_encodes (h : f.Fits) : framing.Encodes Frame.encode f := by
  have hfront : f.encode.take headerSize = packU32 f.typeId ++ packU32 f.payload.length := by
    rw [Frame.encode]
    exact List.take_left' rfl
  have hlength : f.payload.length < 2 ^ 32 := Nat.lt_of_le_of_lt h.payload (by decide)
  have htype : (CommonMessageHeader.unpack (f.encode.take headerSize)).typeId = f.typeId := by
    rw [hfront]
    exact unpackU32_packU32 h.typeId
  have hannounced : announced f.encode = f.payload.length := by
    rw [announced, hfront]
    exact unpackU32_packU32 hlength
  have hlen := f.length_encode
  show framingNext f.encode = .item f f.encode.length
  refine framingNext_eq_item_iff.mpr ⟨by omega, by rw [hannounced]; exact h.payload, Nat.le_refl _, by omega, ?_⟩
  have hpayload : f.encode.drop headerSize = f.payload := by
    rw [Frame.encode]
    exact List.drop_left' rfl
  rw [htype, List.take_length, hpayload]

/-- What it takes for a frame is the encoding of a frame that fits. -/
theorem encode_of_framingNext (h : framingNext buffer = .item f buffer.length) : f.Fits ∧ buffer = f.encode := by
  obtain ⟨hheader, hle, -, hlen, rfl⟩ := framingNext_eq_item_iff.mp h
  have htake4 : (buffer.take headerSize).take 4 = buffer.take 4 := by
    rw [List.take_take]
    rfl
  have hsplit : buffer = buffer.take 4 ++ (buffer.take headerSize).drop 4 ++ buffer.drop headerSize := by
    rw [← htake4, List.take_append_drop, List.take_append_drop]
  have hlength4 : (buffer.take 4).length = 4 := by
    rw [List.length_take]
    unfold headerSize at hheader
    omega
  have hdrop4 : ((buffer.take headerSize).drop 4).length = 4 := by
    rw [List.length_drop, List.length_take]
    unfold headerSize at hheader ⊢
    omega
  have hpayload : (buffer.drop headerSize).length = unpackU32 ((buffer.take headerSize).drop 4) := by
    rw [List.length_drop, hlen]
    exact Nat.add_sub_cancel_left _ _
  rw [List.take_length]
  refine ⟨⟨?_, ?_⟩, ?_⟩
  · show unpackU32 ((buffer.take headerSize).take 4) < _
    have hlt := unpackU32_lt (buffer.take 4)
    rwa [htake4, hlength4] at *
  · show (buffer.drop headerSize).length ≤ _
    rw [hpayload]
    exact hle
  · show buffer = packU32 (unpackU32 ((buffer.take headerSize).take 4)) ++ packU32 (buffer.drop headerSize).length ++
      buffer.drop headerSize
    rw [htake4, hpayload, packU32_unpackU32 hlength4, packU32_unpackU32 hdrop4]
    exact hsplit

/-- It never keeps more than an incomplete frame. -/
theorem length_lt_of_more (h : framingNext buffer = .more) : buffer.length < headerSize + maxPayloadBytes := by
  unfold framingNext at h
  split at h
  · omega
  · dsimp only at h
    split at h
    · cases h
    · split at h
      · omega
      · cases h

/-! ## Typed messages -/

inductive MessageType
  | heartbeat | telemetryUpdate | commandRequest | commandAck | eventNotification
  deriving DecidableEq, Repr

namespace MessageType

def id : MessageType → Nat
  | heartbeat => 1
  | telemetryUpdate => 2
  | commandRequest => 3
  | commandAck => 4
  | eventNotification => 5

/-- `MESSAGE_TYPE_TO_CLASS[type_id]`. -/
def ofId? : Nat → Option MessageType
  | 1 => some heartbeat
  | 2 => some telemetryUpdate
  | 3 => some commandRequest
  | 4 => some commandAck
  | 5 => some eventNotification
  | _ => none

@[simp] theorem ofId?_id (t : MessageType) : ofId? t.id = some t := by cases t <;> rfl

theorem id_lt (t : MessageType) : t.id < 2 ^ 32 := by cases t <;> decide

end MessageType

universe u

/-- The JSON payloads of the messages, which `json.loads` reads back. -/
structure PayloadCodec (M : Type u) where
  typeOf : M → MessageType
  dumps : M → Bytes
  loads : MessageType → Bytes → Option M
  loads_dumps : ∀ m, loads (typeOf m) (dumps m) = some m

variable {M : Type u}

namespace PayloadCodec
variable (codec : PayloadCodec M)

def frame (m : M) : Frame := ⟨(codec.typeOf m).id, codec.dumps m⟩

def encodeMessage (m : M) : Option Bytes :=
  (CommonMessageHeader.pack ⟨(codec.typeOf m).id, (codec.dumps m).length⟩).map (· ++ codec.dumps m)

def decodeMessage (typeId : Nat) (payload : Bytes) : Option M :=
  (MessageType.ofId? typeId).bind fun t => codec.loads t payload

@[simp] theorem decodeMessage_frame (m : M) : codec.decodeMessage (codec.frame m).typeId (codec.frame m).payload = some m := by
  rw [decodeMessage, frame, MessageType.ofId?_id]
  exact codec.loads_dumps m

variable {codec} {m : M}

theorem fits_frame (h : (codec.dumps m).length ≤ maxPayloadBytes) : (codec.frame m).Fits := ⟨(codec.typeOf m).id_lt, h⟩

theorem encodeMessage_eq (h : (codec.dumps m).length ≤ maxPayloadBytes) :
    codec.encodeMessage m = some (codec.frame m).encode := by
  have hpack : (codec.dumps m).length < 2 ^ 32 := Nat.lt_of_le_of_lt h (by decide)
  rw [encodeMessage, CommonMessageHeader.pack, if_pos ⟨(codec.typeOf m).id_lt, hpack⟩]
  rfl

end PayloadCodec

end Aionetx
