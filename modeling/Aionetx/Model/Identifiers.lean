import Mathlib

/-!
# Identifiers

* `PeerName` : what `get_extra_info("peername")` returns, rendered;
* `tcpServerConnectionId`, `tcpServerConnectionId_injective` : the sequence number alone makes it unique.
-/

namespace Aionetx

/-- The first two elements of a peer tuple as the identifiers print them; `none` for anything else. -/
abbrev PeerName := Option (String × String)

def tcpServerConnectionId (peerInfo : PeerName) (sequence : Nat) : String :=
  match peerInfo with
  | some (host, port) => "tcp/server/" ++ host ++ "/" ++ port ++ "/connection/" ++ sequence.repr
  | none => "tcp/server/unknown/unknown/connection/" ++ sequence.repr

/-- Two lists that agree agree behind their last separator. -/
theorem eq_of_append_cons_eq {α : Type*} {x : α} {l l' d d' : List α} (hd : x ∉ d) (hd' : x ∉ d')
    (h : l ++ x :: d = l' ++ x :: d') : d = d' := by
  rcases List.append_eq_append_iff.1 h with ⟨m, -, hm⟩ | ⟨m, -, hm⟩
  · cases m with
    | nil => exact (List.cons.inj hm).2
    | cons y m =>
      obtain ⟨-, hrest⟩ := List.cons.inj hm
      exact absurd (hrest ▸ List.mem_append_right m List.mem_cons_self) hd
  · cases m with
    | nil => exact (List.cons.inj hm).2.symm
    | cons y m =>
      obtain ⟨-, hrest⟩ := List.cons.inj hm
      exact absurd (hrest ▸ List.mem_append_right m List.mem_cons_self) hd'

theorem slash_not_mem_repr (n : Nat) : '/' ∉ n.repr.toList := by
  intro h
  rw [Nat.toList_repr] at h
  have hdigit := Nat.isDigit_of_mem_toDigits (by decide) (by decide) h
  revert hdigit
  decide

/-- The identifier ends in a slash and the sequence number. -/
theorem toList_tcpServerConnectionId (peerInfo : PeerName) (n : Nat) :
    ∃ l, (tcpServerConnectionId peerInfo n).toList = l ++ '/' :: n.repr.toList := by
  unfold tcpServerConnectionId
  split
  · next host port =>
    refine ⟨("tcp/server/" ++ host ++ "/" ++ port ++ "/connection").toList, ?_⟩
    simp [String.toList_append]
  · exact ⟨"tcp/server/unknown/unknown/connection".toList, by simp [String.toList_append]⟩

/-- Connections with different sequence numbers have different identifiers, whatever their peers are called. -/
theorem tcpServerConnectionId_injective {p q : PeerName} {m n : Nat}
    (h : tcpServerConnectionId p m = tcpServerConnectionId q n) : m = n := by
  obtain ⟨l, hl⟩ := toList_tcpServerConnectionId p m
  obtain ⟨l', hl'⟩ := toList_tcpServerConnectionId q n
  refine Nat.repr_injective (String.toList_injective ?_)
  exact eq_of_append_cons_eq (slash_not_mem_repr m) (slash_not_mem_repr n) (hl.symm.trans ((congrArg _ h).trans hl'))

end Aionetx
