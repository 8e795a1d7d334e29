import Mathlib.Data.List.Induction

/-!
# Decimal numbers without leading zeros

* `Canonical` : the text of a number as `Nat.toDigits 10` writes it;
* `toDigits_ofDigitChars`, `canonical_toDigits` : the two directions of the round trip.
-/

namespace Runs

/-- Digits, at least one, and no zero in front of another digit. -/
structure Canonical (s : List Char) : Prop where
  digits : ∀ c ∈ s, c.isDigit = true
  ne_nil : s ≠ []
  leading : s = ['0'] ∨ s.head? ≠ some '0'

theorem digitChar_of_isDigit {c : Char} (h : c.isDigit = true) : ∃ d < 10, c = Nat.digitChar d := by
  rw [Char.isDigit_iff_toNat] at h
  change 48 ≤ c.toNat ∧ c.toNat ≤ 57 at h
  refine ⟨c.toNat - 48, by omega, ?_⟩
  apply Char.toNat_inj.mp
  rw [Nat.toNat_digitChar_of_lt_ten (by omega)]
  omega

theorem head?_append_of_ne_nil {s : List Char} (hs : s ≠ []) (t : List Char) : (s ++ t).head? = s.head? := by
  cases s with
  | nil => exact absurd rfl hs
  | cons c s => rfl

theorem ofDigitChars_concat {d : Nat} (hd : d < 10) (s : List Char) :
    Nat.ofDigitChars 10 (s ++ [Nat.digitChar d]) 0 = 10 * Nat.ofDigitChars 10 s 0 + d := by
  rw [Nat.ofDigitChars_append, Nat.ofDigitChars_cons_digitChar_of_lt_ten hd, Nat.ofDigitChars_nil]

theorem Canonical.toDigits_ofDigitChars {s : List Char} (h : Canonical s) : Nat.toDigits 10 (Nat.ofDigitChars 10 s 0) = s := by
  induction s using List.reverseRecOn with
  | nil => exact absurd rfl h.ne_nil
  | append_singleton s c ih =>
    obtain ⟨d, hd, rfl⟩ := digitChar_of_isDigit (h.digits c (by simp))
    rw [ofDigitChars_concat hd]
    by_cases hs : s = []
    · subst hs
      show Nat.toDigits 10 (10 * 0 + d) = [Nat.digitChar d]
      rw [Nat.mul_zero, Nat.zero_add, Nat.toDigits_of_lt_base hd]
    · -- a zero in front would be in front of another digit
      have hhead : s.head? ≠ some '0' := by
        rcases h.leading with hz | hz
        · have hlen := congrArg List.length hz
          rw [List.length_append] at hlen
          have hpos := List.length_pos_iff.mpr hs
          simp only [List.length_singleton] at hlen
          omega
        · rwa [head?_append_of_ne_nil hs] at hz
      have hcanonical : Canonical s :=
        ⟨fun c hc => h.digits c (List.mem_append_left _ hc), hs, .inr hhead⟩
      have hpos : 0 < Nat.ofDigitChars 10 s 0 := by
        refine Nat.pos_of_ne_zero fun hzero => hhead ?_
        have := ih hcanonical
        rw [hzero, Nat.toDigits_zero] at this
        rw [← this]
        rfl
      rw [← Nat.toDigits_append_toDigits (by omega) hpos hd, ih hcanonical, Nat.toDigits_of_lt_base hd]

theorem canonical_toDigits (n : Nat) : Canonical (Nat.toDigits 10 n) := by
  refine ⟨fun c hc => Nat.isDigit_of_mem_toDigits (by omega) (by omega) hc, Nat.toDigits_ne_nil, ?_⟩
  induction n using Nat.strongRecOn with
  | ind n ih =>
    rw [Nat.toDigits_eq_if (by omega)]
    split
    · next hn =>
      by_cases hz : n = 0
      · subst hz
        exact .inl rfl
      · refine .inr fun hhead => hz ?_
        exact Nat.digitChar_eq_zero.mp (Option.some.inj hhead)
    · next hn =>
      refine .inr ?_
      rw [head?_append_of_ne_nil Nat.toDigits_ne_nil]
      rcases ih (n / 10) (by omega) with hz | hz
      · intro _
        have := congrArg (fun s => Nat.ofDigitChars 10 s 0) hz
        rw [Nat.ofDigitChars_ten_toDigits] at this
        have hzero : n / 10 = 0 := this
        omega
      · exact hz

end Runs
