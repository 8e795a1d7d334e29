import Mathlib.Data.List.Basic
import Mathlib.Data.List.Infix

/-!
# Decoders of byte streams

A decoder looks at what is buffered and asks for more, cuts an item off its front, or rejects all of it. What it has decided
about a buffer is not changed by what arrives later.

* `Verdict`, `StreamDecoder` : what a decoder answers, with the laws of its answers;
* `Piece`, `Piece.Valid` : what one step takes from the buffer; `StreamDecoder.cut` : one step;
* `StreamDecoder.Encodes` : an encoder of the decoder, `prefix_of_valid`, `items_eq` : what it finds in a stream of encoded items.
-/

namespace Runs

universe u v

variable {β : Type u} {ε : Type v}

/-- What a decoder makes of a buffer: it needs more, it has an item of some size at the front, or it rejects. -/
inductive Verdict (ε : Type v)
  | more
  | item (e : ε) (size : Nat)
  | reject
  deriving DecidableEq, Repr

/-- A decoder. An item is decided by its own bytes. -/
structure StreamDecoder (β : Type u) (ε : Type v) where
  next : List β → Verdict ε
  next_nil : next [] = .more
  size_pos : ∀ {buffer e n}, next buffer = .item e n → 0 < n
  size_le : ∀ {buffer e n}, next buffer = .item e n → n ≤ buffer.length
  next_take : ∀ {buffer e n}, next buffer = .item e n → next (buffer.take n) = .item e n
  next_append : ∀ {buffer} rest, next buffer ≠ .more → next (buffer ++ rest) = next buffer

/-- What one step takes from the buffer: an item, or all of it. -/
structure Piece (β : Type u) (ε : Type v) where
  bytes : List β
  item : Option ε
  deriving DecidableEq, Repr

/-- What the decoder makes of the piece alone. -/
def Piece.Valid (d : StreamDecoder β ε) (p : Piece β ε) : Prop :=
  match p.item with
  | some e => d.next p.bytes = .item e p.bytes.length
  | none => d.next p.bytes = .reject

def bytesOf (pieces : List (Piece β ε)) : List β := pieces.flatMap Piece.bytes

@[simp] theorem bytesOf_nil : bytesOf ([] : List (Piece β ε)) = [] := rfl

@[simp] theorem bytesOf_cons (p : Piece β ε) (pieces : List (Piece β ε)) :
    bytesOf (p :: pieces) = p.bytes ++ bytesOf pieces := rfl

@[simp] theorem bytesOf_append (pieces pieces' : List (Piece β ε)) :
    bytesOf (pieces ++ pieces') = bytesOf pieces ++ bytesOf pieces' := List.flatMap_append

namespace StreamDecoder
variable (d : StreamDecoder β ε)

/-! ## One step -/

/-- One step of the decoder: the piece it takes, and what is left. -/
def cut (buffer : List β) : Option (Piece β ε × List β) :=
  match d.next buffer with
  | .more => none
  | .item e n => some (⟨buffer.take n, some e⟩, buffer.drop n)
  | .reject => some (⟨buffer, none⟩, [])

variable {d} {buffer rest : List β} {p : Piece β ε} {e : ε}

theorem cut_eq_none_iff : d.cut buffer = none ↔ d.next buffer = .more := by
  unfold cut
  cases d.next buffer <;> simp

theorem cut_nil : d.cut [] = none := cut_eq_none_iff.mpr d.next_nil

theorem bytes_cut (h : d.cut buffer = some (p, rest)) : p.bytes ++ rest = buffer := by
  unfold cut at h
  split at h
  · cases h
  · cases h
    exact List.take_append_drop _ _
  · cases h
    exact List.append_nil _

theorem length_cut_lt (h : d.cut buffer = some (p, rest)) : rest.length < buffer.length := by
  have hne : buffer ≠ [] := by
    rintro rfl
    rw [cut_nil] at h
    cases h
  have hlen := List.length_pos_iff.mpr hne
  unfold cut at h
  split at h
  · cases h
  · next e n hnext =>
    cases h
    have hpos := d.size_pos hnext
    rw [List.length_drop]
    omega
  · cases h
    exact hlen

theorem valid_cut (h : d.cut buffer = some (p, rest)) : p.Valid d := by
  unfold cut at h
  split at h
  · cases h
  · next e n hnext =>
    cases h
    show d.next (buffer.take n) = .item e (buffer.take n).length
    rw [List.length_take, Nat.min_eq_left (d.size_le hnext)]
    exact d.next_take hnext
  · next hnext =>
    cases h
    exact hnext

theorem rest_eq_nil_of_rejected (h : d.cut buffer = some (p, rest)) (hp : p.item = none) : rest = [] := by
  unfold cut at h
  split at h
  · cases h
  · cases h
    cases hp
  · cases h
    rfl

/-! ## Encoders -/

/-- The decoder finds the item at the front of its own bytes. -/
def Encodes (d : StreamDecoder β ε) (encode : ε → List β) (e : ε) : Prop := d.next (encode e) = .item e (encode e).length

variable {encode : ε → List β} {items : List ε}

theorem cut_encode (h : d.Encodes encode e) (rest : List β) : d.cut (encode e ++ rest) = some (⟨encode e, some e⟩, rest) := by
  have hnext : d.next (encode e ++ rest) = .item e (encode e).length := by
    rw [d.next_append rest (by rw [h]; nofun), h]
  unfold cut
  rw [hnext]
  simp

/-- A valid piece at the front of an encoded item is that item. -/
theorem eq_of_valid (h : d.Encodes encode e) (hp : p.Valid d) {rest' : List β} (heq : p.bytes ++ rest' = encode e ++ rest) :
    p.item = some e ∧ p.bytes = encode e := by
  have hstream : d.next (p.bytes ++ rest') = .item e (encode e).length := by
    rw [heq, d.next_append rest (by rw [h]; nofun), h]
  unfold Piece.Valid at hp
  split at hp
  · next e' hitem =>
    rw [d.next_append rest' (by rw [hp]; nofun), hp] at hstream
    injection hstream with he hlen
    refine ⟨by rw [hitem, he], ?_⟩
    have htake := congrArg (List.take p.bytes.length) heq
    rwa [List.take_left, hlen, List.take_left] at htake
  · rw [d.next_append rest' (by rw [hp]; nofun), hp] at hstream
    cases hstream

theorem Piece.length_pos_of_valid (hp : p.Valid d) : 0 < p.bytes.length := by
  unfold Piece.Valid at hp
  split at hp
  · exact d.size_pos hp
  · refine List.length_pos_iff.mpr fun hnil => ?_
    rw [hnil, d.next_nil] at hp
    cases hp

/-- The pieces of the beginning of a stream of encoded items are those items. -/
theorem prefix_of_valid (hitems : ∀ e ∈ items, d.Encodes encode e) {pieces : List (Piece β ε)} (hpieces : ∀ p ∈ pieces, p.Valid d)
    (hstart : bytesOf pieces ++ buffer <+: items.flatMap encode) :
    ∃ taken, taken <+: items ∧ pieces.map Piece.item = taken.map some ∧ bytesOf pieces = taken.flatMap encode := by
  induction pieces generalizing items with
  | nil => exact ⟨[], List.nil_prefix, rfl, rfl⟩
  | cons p pieces ih =>
    have hp := hpieces p List.mem_cons_self
    obtain ⟨tail, htail⟩ := hstart
    rw [bytesOf_cons] at htail
    cases items with
    | nil =>
      have hlen := congrArg List.length htail
      have hpos := Piece.length_pos_of_valid hp
      simp only [List.length_append, List.flatMap_nil, List.length_nil] at hlen
      omega
    | cons e items =>
      rw [List.flatMap_cons, List.append_assoc, List.append_assoc] at htail
      obtain ⟨hitem, hbytes⟩ := eq_of_valid (hitems e List.mem_cons_self) hp htail
      rw [hbytes] at htail
      have hrest := List.append_cancel_left htail
      obtain ⟨taken, htaken, hmap, hflat⟩ := ih (fun e he => hitems e (List.mem_cons_of_mem _ he))
        (fun p hp => hpieces p (List.mem_cons_of_mem _ hp)) ⟨tail, by rw [← hrest, List.append_assoc]⟩
      refine ⟨e :: taken, List.cons_prefix_cons.mpr ⟨rfl, htaken⟩, ?_, ?_⟩
      · rw [List.map_cons, hitem, hmap, List.map_cons]
      · rw [bytesOf_cons, hbytes, hflat, List.flatMap_cons]

/-- Once more is needed, the whole stream was taken. -/
theorem items_eq (hitems : ∀ e ∈ items, d.Encodes encode e) {pieces : List (Piece β ε)} (hpieces : ∀ p ∈ pieces, p.Valid d)
    (heq : bytesOf pieces ++ buffer = items.flatMap encode) (hmore : d.cut buffer = none) :
    pieces.map Piece.item = items.map some ∧ buffer = [] := by
  obtain ⟨taken, ⟨left, rfl⟩, hmap, hbytes⟩ := prefix_of_valid hitems hpieces ⟨[], by rw [heq, List.append_nil]⟩
  rw [hbytes, List.flatMap_append] at heq
  have hbuffer := List.append_cancel_left heq
  cases left with
  | nil => exact ⟨by rw [hmap, List.append_nil], hbuffer⟩
  | cons e left =>
    rw [List.flatMap_cons] at hbuffer
    rw [hbuffer, cut_encode (hitems e (by simp))] at hmore
    cases hmore

end StreamDecoder

end Runs
