import Mathlib.Data.List.TakeWhile
import Aionetx.Runs.Decimal
import Aionetx.ReleaseGate.LinkHeader

/-!
# IPv4 addresses

`ipaddress.IPv4Address` of a string, as `_validate_ipv4_address` uses it.

* `IPv4Address`, `IPv4Address.text` : an address and its text; `parseOctet`, `parseIPv4` : the constructor;
* `parseIPv4_eq_some_iff` : it accepts the texts of the addresses and nothing else.
-/

namespace Aionetx

open Runs

structure IPv4Address where
  octets : List Nat
  length_octets : octets.length = 4
  octet_le : ∀ n ∈ octets, n ≤ 255
  deriving DecidableEq

def IPv4Address.text (a : IPv4Address) : PyStr := ['.'].intercalate (a.octets.map fun n => Nat.toDigits 10 n)

/-- `is_multicast`: the network `224.0.0.0/4`. -/
def IPv4Address.isMulticast (a : IPv4Address) : Bool := a.octets.head?.any fun n => n / 16 = 14

def parseOctet (s : PyStr) : Option Nat :=
  if s = [] then none
  else if !s.all Char.isDigit then none
  else if 3 < s.length then none
  else if s ≠ ['0'] ∧ s.head? = some '0' then none
  else
    let n := Nat.ofDigitChars 10 s 0
    if 255 < n then none else some n

/-- `IPv4Address(s)`; the bounds of the octets are what `parseOctet` has checked. -/
def parseIPv4 (s : PyStr) : Option IPv4Address :=
  if '/' ∈ s ∨ s = [] then none
  else
    let octets := s.splitOn '.'
    if octets.length ≠ 4 then none
    else (octets.mapM parseOctet).bind fun ns =>
      if h : ns.length = 4 ∧ ∀ n ∈ ns, n ≤ 255 then some ⟨ns, h.1, h.2⟩ else none

theorem parseOctet_eq_some_iff {s : PyStr} {n : Nat} : parseOctet s = some n ↔ n ≤ 255 ∧ s = Nat.toDigits 10 n := by
  constructor
  · intro h
    unfold parseOctet at h
    dsimp only at h
    split_ifs at h with hnil hdigit hlen hzero hlarge
    cases h
    rw [Bool.not_eq_true, Bool.not_eq_false', List.all_eq_true] at hdigit
    have hleading : s = ['0'] ∨ s.head? ≠ some '0' := by
      by_cases hs : s = ['0']
      · exact .inl hs
      · exact .inr fun hhead => hzero ⟨hs, hhead⟩
    exact ⟨by omega, (Canonical.toDigits_ofDigitChars ⟨hdigit, hnil, hleading⟩).symm⟩
  · rintro ⟨hn, rfl⟩
    have hcanonical := canonical_toDigits n
    have hlen : (Nat.toDigits 10 n).length ≤ 3 := (Nat.length_toDigits_le_iff (by omega) (by omega)).mpr (by omega)
    have hdigit : (Nat.toDigits 10 n).all Char.isDigit = true := List.all_eq_true.mpr hcanonical.digits
    unfold parseOctet
    rw [if_neg hcanonical.ne_nil, hdigit, Bool.not_true, if_neg Bool.false_ne_true, if_neg (by omega),
      if_neg fun h => h.2 |> hcanonical.leading.resolve_left h.1]
    dsimp only
    rw [Nat.ofDigitChars_ten_toDigits, if_neg (by omega)]

theorem mapM_parseOctet_eq_some_iff {parts : List PyStr} {ns : List Nat} :
    parts.mapM parseOctet = some ns ↔ (∀ n ∈ ns, n ≤ 255) ∧ parts = ns.map fun n => Nat.toDigits 10 n := by
  induction parts generalizing ns with
  | nil =>
    constructor
    · intro h
      cases h
      exact ⟨fun n hn => (by cases hn), rfl⟩
    · rintro ⟨-, h⟩
      rw [List.map_eq_nil_iff.mp h.symm]
      rfl
  | cons part parts ih =>
    rw [List.mapM_cons]
    constructor
    · intro h
      obtain ⟨n, hn, h⟩ := Option.bind_eq_some_iff.mp h
      obtain ⟨ns', hns, h⟩ := Option.bind_eq_some_iff.mp h
      cases h
      obtain ⟨hle, rfl⟩ := parseOctet_eq_some_iff.mp hn
      obtain ⟨hall, rfl⟩ := ih.mp hns
      exact ⟨List.forall_mem_cons.mpr ⟨hle, hall⟩, rfl⟩
    · rintro ⟨hall, h⟩
      obtain ⟨n, ns', rfl, rfl, rfl⟩ := List.map_eq_cons_iff.mp h.symm
      obtain ⟨hle, hall⟩ := List.forall_mem_cons.mp hall
      rw [parseOctet_eq_some_iff.mpr ⟨hle, rfl⟩, ih.mpr ⟨hall, rfl⟩]
      rfl

theorem not_mem_toDigits {c : Char} (hc : c.isDigit = false) (n : Nat) : c ∉ Nat.toDigits 10 n := by
  intro hmem
  rw [(canonical_toDigits n).digits c hmem] at hc
  cases hc

theorem not_mem_intercalate {c x : Char} (hc : c ≠ x) {parts : List PyStr} (hparts : ∀ part ∈ parts, c ∉ part) :
    c ∉ [x].intercalate parts := by
  induction parts with
  | nil =>
    intro h
    cases h
  | cons part parts ih =>
    obtain ⟨hpart, hparts⟩ := List.forall_mem_cons.mp hparts
    cases parts with
    | nil =>
      rw [List.intercalate_singleton]
      exact hpart
    | cons part' parts =>
      rw [List.intercalate_cons_cons, List.mem_append, List.mem_append, List.mem_singleton]
      rintro ((h | h) | h)
      · exact hpart h
      · exact hc h
      · exact ih hparts h

namespace IPv4Address
variable (a : IPv4Address)

theorem octets_ne_nil : a.octets ≠ [] := by
  intro h
  have := a.length_octets
  rw [h] at this
  cases this

theorem splitOn_text : a.text.splitOn '.' = a.octets.map fun n => Nat.toDigits 10 n := by
  unfold text
  refine List.splitOn_intercalate '.' (fun part hpart => ?_) fun h => a.octets_ne_nil (List.map_eq_nil_iff.mp h)
  obtain ⟨n, -, rfl⟩ := List.mem_map.mp hpart
  exact not_mem_toDigits (by decide) n

theorem slash_not_mem_text : '/' ∉ a.text := by
  refine not_mem_intercalate (by decide) fun part hpart => ?_
  obtain ⟨n, -, rfl⟩ := List.mem_map.mp hpart
  exact not_mem_toDigits (by decide) n

theorem text_ne_nil : a.text ≠ [] := by
  intro h
  have := a.splitOn_text
  rw [h, List.splitOn_nil] at this
  have hlen := congrArg List.length this
  rw [List.length_map, a.length_octets] at hlen
  cases hlen

theorem exists_digit : ∃ c ∈ a.text, c.isDigit = true := by
  obtain ⟨n, hn⟩ := List.exists_mem_of_ne_nil _ a.octets_ne_nil
  obtain ⟨c, hc⟩ := List.exists_mem_of_ne_nil _ (canonical_toDigits n).ne_nil
  have hpart : Nat.toDigits 10 n ∈ a.text.splitOn '.' := by
    rw [a.splitOn_text]
    exact List.mem_map_of_mem hn
  exact ⟨c, (infix_of_mem_splitOn hpart).sublist.mem hc, (canonical_toDigits n).digits c hc⟩

end IPv4Address

/-! ## Blanks -/

theorem isSpace_of_isDigit {c : Char} (h : c.isDigit = true) : isSpace c = false := by
  rw [Char.isDigit_iff_toNat] at h
  change 48 ≤ c.toNat ∧ c.toNat ≤ 57 at h
  unfold isSpace
  simp only [Bool.or_eq_false_iff, Bool.and_eq_false_iff, decide_eq_false_iff_not]
  omega

/-- `dropWhile` keeps what does not pass the test. -/
theorem mem_dropWhile {α : Type} {p : α → Bool} {l : List α} {x : α} (hx : x ∈ l) (hp : p x = false) : x ∈ l.dropWhile p := by
  rw [← List.takeWhile_append_dropWhile (p := p) (l := l)] at hx
  rcases List.mem_append.mp hx with h | h
  · rw [List.mem_takeWhile_imp h] at hp
    cases hp
  · exact h

theorem strip_ne_nil {s : PyStr} {c : Char} (hc : c ∈ s) (h : isSpace c = false) : strip s ≠ [] := by
  have hfront := mem_dropWhile hc h
  have hback := mem_dropWhile (List.mem_reverse.mpr hfront) h
  exact List.ne_nil_of_mem (List.mem_reverse.mpr hback)

/-- The constructor accepts the text of an address, without leading zeros or blanks, and nothing else. -/
theorem parseIPv4_eq_some_iff {s : PyStr} {a : IPv4Address} : parseIPv4 s = some a ↔ s = a.text := by
  constructor
  · intro h
    unfold parseIPv4 at h
    dsimp only at h
    split_ifs at h with hbad hlen
    obtain ⟨ns, hns, h⟩ := Option.bind_eq_some_iff.mp h
    split_ifs at h with hbounds
    cases h
    obtain ⟨-, hparts⟩ := mapM_parseOctet_eq_some_iff.mp hns
    show s = ['.'].intercalate _
    rw [← hparts, List.intercalate_splitOn]
  · rintro rfl
    have hbad : ¬ ('/' ∈ a.text ∨ a.text = []) := not_or.mpr ⟨a.slash_not_mem_text, a.text_ne_nil⟩
    have hmap : (a.octets.map fun n => Nat.toDigits 10 n).mapM parseOctet = some a.octets :=
      mapM_parseOctet_eq_some_iff.mpr ⟨a.octet_le, rfl⟩
    unfold parseIPv4
    dsimp only
    rw [if_neg hbad, a.splitOn_text, List.length_map, a.length_octets, if_neg (by omega), hmap, Option.bind_some,
      dif_pos ⟨a.length_octets, a.octet_le⟩]

end Aionetx
