import Mathlib.Data.List.Nodup
import Mathlib.Logic.Function.Basic

/-!
# Dictionaries that remember the order of insertion

* `OrderedDict K V` : the entries, oldest insertion first, with distinct keys;
* `get?`, `set`, `popFirst` : an update of a key that is present leaves the order alone, a new key goes to the end;
* `get?_set`, `get?_popFirst` : what a lookup sees after them; `entries_set_of_mem`, `entries_set_of_not_mem` : the order.
-/

namespace Runs

universe u v

/-- A dictionary in insertion order. -/
structure OrderedDict (K : Type u) (V : Type v) where
  entries : List (K × V) := []
  nodup : (entries.map Prod.fst).Nodup := by simp

namespace OrderedDict
variable {K : Type u} {V : Type v} (d : OrderedDict K V)

/-- The keys, oldest insertion first. -/
def keys : List K := d.entries.map Prod.fst

def popFirst : OrderedDict K V where
  entries := d.entries.tail
  nodup := by
    rw [List.map_tail]
    exact d.nodup.sublist (List.tail_sublist _)

variable [DecidableEq K]

def get? (k : K) : Option V := (d.entries.find? fun e => e.1 = k).map Prod.snd

omit d in
/-- An entry that is overwritten keeps its key. -/
theorem map_fst_overwrite (entries : List (K × V)) (k : K) (v : V) :
    (entries.map fun e => if e.1 = k then (k, v) else e).map Prod.fst = entries.map Prod.fst := by
  rw [List.map_map]
  refine List.map_congr_left fun e _ => ?_
  by_cases he : e.1 = k
  · simp [he]
  · simp [he]

/-- `d[k] = v`. -/
def set (k : K) (v : V) : OrderedDict K V :=
  if h : k ∈ d.keys then
    { entries := d.entries.map fun e => if e.1 = k then (k, v) else e
      nodup := by
        rw [map_fst_overwrite]
        exact d.nodup }
  else
    { entries := d.entries ++ [(k, v)]
      nodup := by
        rw [List.map_append]
        refine d.nodup.append (List.nodup_singleton k) fun x hx hxk => h ?_
        rwa [List.mem_singleton.mp hxk] at hx }

variable {d} {k : K} {v : V}

theorem entries_set_of_mem (h : k ∈ d.keys) (v : V) :
    (d.set k v).entries = d.entries.map fun e => if e.1 = k then (k, v) else e := by
  rw [set, dif_pos h]

theorem entries_set_of_not_mem (h : k ∉ d.keys) (v : V) : (d.set k v).entries = d.entries ++ [(k, v)] := by
  rw [set, dif_neg h]

/-- A lookup finds the entry, since the keys are distinct. -/
theorem get?_eq_some_iff : d.get? k = some v ↔ (k, v) ∈ d.entries := by
  unfold get?
  rw [Option.map_eq_some_iff]
  constructor
  · rintro ⟨⟨k', v'⟩, hfind, rfl⟩
    obtain rfl : k' = k := by simpa using List.find?_some hfind
    exact List.mem_of_find?_eq_some hfind
  · intro hmem
    obtain ⟨e, he⟩ : ∃ e, d.entries.find? (fun e => e.1 = k) = some e := by
      refine Option.isSome_iff_exists.mp (List.find?_isSome.mpr ⟨(k, v), hmem, ?_⟩)
      simp
    refine ⟨e, he, ?_⟩
    have hkey : e.1 = k := by simpa using List.find?_some he
    have hself : e = (k, v) := List.inj_on_of_nodup_map d.nodup (List.mem_of_find?_eq_some he) hmem hkey
    rw [hself]

theorem get?_isSome_iff : (d.get? k).isSome ↔ k ∈ d.keys := by
  rw [Option.isSome_iff_exists, keys, List.mem_map]
  constructor
  · rintro ⟨v, hv⟩
    exact ⟨(k, v), get?_eq_some_iff.mp hv, rfl⟩
  · rintro ⟨⟨k', v⟩, hmem, rfl⟩
    exact ⟨v, get?_eq_some_iff.mpr hmem⟩

theorem get?_eq_none_iff : d.get? k = none ↔ k ∉ d.keys := by
  rw [← get?_isSome_iff, Option.not_isSome_iff_eq_none]

/-- Two dictionaries agree on a key if they have the same entries for it. -/
theorem get?_congr {d' : OrderedDict K V} (h : ∀ v, (k, v) ∈ d.entries ↔ (k, v) ∈ d'.entries) : d.get? k = d'.get? k := by
  refine Option.ext fun v => ?_
  rw [get?_eq_some_iff, get?_eq_some_iff]
  exact h v

theorem get?_set (d : OrderedDict K V) (k : K) (v : V) : (d.set k v).get? = Function.update d.get? k (some v) := by
  funext k'
  by_cases hk : k ∈ d.keys
  · by_cases hkk : k' = k
    · subst hkk
      rw [Function.update_self, get?_eq_some_iff, entries_set_of_mem hk]
      obtain ⟨e, he, hek⟩ := List.mem_map.mp hk
      exact List.mem_map.mpr ⟨e, he, by rw [if_pos hek]⟩
    · rw [Function.update_of_ne hkk]
      refine get?_congr fun v' => ?_
      rw [entries_set_of_mem hk, List.mem_map]
      constructor
      · rintro ⟨e, he, heq⟩
        split at heq
        · cases heq
          exact absurd rfl hkk
        · exact heq ▸ he
      · intro hmem
        exact ⟨(k', v'), hmem, if_neg hkk⟩
  · by_cases hkk : k' = k
    · subst hkk
      rw [Function.update_self, get?_eq_some_iff, entries_set_of_not_mem hk]
      exact List.mem_append_right _ (List.mem_singleton_self _)
    · rw [Function.update_of_ne hkk]
      refine get?_congr fun v' => ?_
      rw [entries_set_of_not_mem hk, List.mem_append, List.mem_singleton]
      exact or_iff_left fun h => hkk (Prod.mk.inj h).1

theorem get?_popFirst {k₀ : K} {v₀ : V} {rest : List (K × V)} (h : d.entries = (k₀, v₀) :: rest) :
    d.popFirst.get? = Function.update d.get? k₀ none := by
  have hrest : d.popFirst.entries = rest := congrArg List.tail h
  have hnodup := d.nodup
  rw [h, List.map_cons, List.nodup_cons] at hnodup
  funext k
  by_cases hk : k = k₀
  · rw [hk, Function.update_self, get?_eq_none_iff, keys, hrest]
    exact hnodup.1
  · rw [Function.update_of_ne hk]
    refine get?_congr fun v => ?_
    rw [hrest, h, List.mem_cons]
    exact (or_iff_right fun he => hk (Prod.mk.inj he).1).symm

theorem length_set_of_mem (h : k ∈ d.keys) (v : V) : (d.set k v).entries.length = d.entries.length := by
  rw [entries_set_of_mem h, List.length_map]

theorem keys_set_of_mem (h : k ∈ d.keys) (v : V) : (d.set k v).keys = d.keys := by
  rw [keys, entries_set_of_mem h, map_fst_overwrite]
  rfl

theorem keys_set_of_not_mem (h : k ∉ d.keys) (v : V) : (d.set k v).keys = d.keys ++ [k] := by
  rw [keys, entries_set_of_not_mem h, List.map_append]
  rfl

end OrderedDict

end Runs
