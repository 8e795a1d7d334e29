import Mathlib.Algebra.Order.Group.Int
import Mathlib.Algebra.Order.Group.Unbundled.Basic
import Aionetx.Runs.Machine
import Aionetx.Runs.OrderedDict
import Aionetx.Runs.Trace

/-!
# The rate limiter of the warnings

A key that is logged again keeps its place in the dictionary, and the entry that is evicted is the first one.

* `WarningRateLimiter`, `WarningRateLimiter.shouldLog` : the limiter;
* `LimiterEntry`, `Tracking`, `tracked` : what a limiter has done, and what this makes of a key;
* `LimiterRun`, `limiterMachine` : calls at the times of a clock that does not go back;
* `LimiterRun.Fair` : the promise, `LimiterRun.Unrefreshed` : the condition, `LimiterRun.fair_of_reachable`.
-/

namespace Aionetx

open Runs

universe u v

variable {K : Type u} {T : Type v} [AddCommGroup T] [LinearOrder T]

/-! ## The limiter -/

structure WarningRateLimiter (K : Type u) (T : Type v) [AddCommGroup T] [LinearOrder T] where
  intervalSeconds : T
  maxKeys : Nat
  interval_pos : 0 < intervalSeconds
  maxKeys_pos : 1 ≤ maxKeys
  lastLoggedAt : OrderedDict K T := {}

namespace WarningRateLimiter
variable [DecidableEq K] (l : WarningRateLimiter K T)

/-- The key was not logged, or long enough ago. -/
def due (key : K) (now : T) : Bool :=
  match l.lastLoggedAt.get? key with
  | none => true
  | some previous => l.intervalSeconds ≤ now - previous

/-- The limiter is full and the key is new. -/
def evicts (key : K) : Bool := key ∉ l.lastLoggedAt.keys && l.maxKeys ≤ l.lastLoggedAt.entries.length

def shouldLog (key : K) (now : T) : Bool × WarningRateLimiter K T :=
  if l.due key now then
    let lastLoggedAt := if l.evicts key then l.lastLoggedAt.popFirst else l.lastLoggedAt
    (true, { l with lastLoggedAt := lastLoggedAt.set key now })
  else (false, l)

end WarningRateLimiter

/-! ## What a limiter has done -/

inductive LimiterEntry (K : Type u) (T : Type v)
  | logged (key : K) (at' : T)
  | evicted (key : K)
  deriving DecidableEq, Repr

/-- A tracked key: when it was inserted, and when it was last logged. -/
structure Tracking (T : Type v) where
  insertedAt : T
  lastLogged : T
  deriving DecidableEq, Repr

/-- A key is logged: its time of insertion is kept. -/
def Tracking.logged (now : T) : Option (Tracking T) → Tracking T
  | none => { insertedAt := now, lastLogged := now }
  | some x => { x with lastLogged := now }

variable [DecidableEq K]

/-- An entry of the log changes what is known of a key. -/
def LimiterEntry.track (known : K → Option (Tracking T)) : LimiterEntry K T → K → Option (Tracking T)
  | .logged key now => Function.update known key (some (.logged now (known key)))
  | .evicted key => Function.update known key none

/-- The tracked keys: logged, and not evicted since. -/
def tracked (log : List (LimiterEntry K T)) : K → Option (Tracking T) :=
  log.foldl LimiterEntry.track fun _ => none

omit [AddCommGroup T] [LinearOrder T] in
@[simp] theorem tracked_concat (log : List (LimiterEntry K T)) (e : LimiterEntry K T) :
    tracked (log ++ [e]) = e.track (tracked log) := by
  rw [tracked, List.foldl_append]
  rfl

/-- The law of the log: a tracked key is logged again after the interval, and the key that is evicted is tracked, and no
tracked key was logged longer ago. -/
def LimiterEntry.Law (intervalSeconds : T) (before : List (LimiterEntry K T)) (e : LimiterEntry K T)
    (_ : List (LimiterEntry K T)) : Prop :=
  match e with
  | .logged key now => ∀ x, tracked before key = some x → x.lastLogged + intervalSeconds ≤ now
  | .evicted key =>
    ∃ x, tracked before key = some x ∧ ∀ other y, tracked before other = some y → x.lastLogged ≤ y.lastLogged

/-! ## The machine -/

/-- A limiter, the last reading of the clock, and the log. -/
structure LimiterRun (K : Type u) (T : Type v) [AddCommGroup T] [LinearOrder T] where
  limiter : WarningRateLimiter K T
  clock : Option T := none
  log : List (LimiterEntry K T) := []

structure LimiterCall (K : Type u) (T : Type v) where
  key : K
  now : T
  deriving DecidableEq, Repr

def WarningRateLimiter.entriesOf (l : WarningRateLimiter K T) (call : LimiterCall K T) : List (LimiterEntry K T) :=
  if l.due call.key call.now then
    (if l.evicts call.key then l.lastLoggedAt.keys.head?.toList.map .evicted else []) ++ [.logged call.key call.now]
  else []

/-- Calls at times that do not decrease. -/
def limiterMachine (l : WarningRateLimiter K T) : Machine (LimiterRun K T) (LimiterCall K T) where
  init r := r = { limiter := { l with lastLoggedAt := {} } }
  step r call :=
    if ∀ t ∈ r.clock, t ≤ call.now then
      some {
        limiter := (r.limiter.shouldLog call.key call.now).2
        clock := some call.now
        log := r.log ++ r.limiter.entriesOf call }
    else none

namespace LimiterRun

/-- At most `max_keys` keys are tracked, and the law of the log. -/
structure Fair (r : LimiterRun K T) : Prop where
  bounded : r.limiter.lastLoggedAt.entries.length ≤ r.limiter.maxKeys
  tracks : ∀ key, r.limiter.lastLoggedAt.get? key = (tracked r.log key).map Tracking.lastLogged
  lawful : Everywhere (LimiterEntry.Law r.limiter.intervalSeconds) r.log

/-- When a call evicts, the key that was inserted first has not been logged since its insertion, or every tracked key has
been logged since. -/
def Unrefreshed (r : LimiterRun K T) (call : LimiterCall K T) : Prop :=
  r.limiter.due call.key call.now → r.limiter.evicts call.key → ∀ first ∈ r.limiter.lastLoggedAt.entries.head?,
    (tracked r.log first.1).map Tracking.insertedAt = some first.2 ∨
      ∀ e ∈ r.limiter.lastLoggedAt.entries, first.2 ≤ e.2

instance (r : LimiterRun K T) (call : LimiterCall K T) : Decidable (r.Unrefreshed call) :=
  inferInstanceAs (Decidable (r.limiter.due call.key call.now → r.limiter.evicts call.key →
    ∀ first ∈ r.limiter.lastLoggedAt.entries.head?,
      (tracked r.log first.1).map Tracking.insertedAt = some first.2 ∨
        ∀ e ∈ r.limiter.lastLoggedAt.entries, first.2 ≤ e.2))

/-! ## The invariant -/

/-- The dictionary holds the tracked keys in the order of their insertion, and the clock has passed all the times. -/
structure Inv (r : LimiterRun K T) : Prop where
  tracks : ∀ key, r.limiter.lastLoggedAt.get? key = (tracked r.log key).map Tracking.lastLogged
  ordered : r.limiter.lastLoggedAt.keys.Pairwise fun a b =>
    ∀ x y, tracked r.log a = some x → tracked r.log b = some y → x.insertedAt ≤ y.insertedAt
  times : ∀ key x, tracked r.log key = some x → x.insertedAt ≤ x.lastLogged ∧ ∃ t ∈ r.clock, x.lastLogged ≤ t
  bounded : r.limiter.lastLoggedAt.entries.length ≤ r.limiter.maxKeys

def evict (r : LimiterRun K T) (first : K) : LimiterRun K T :=
  { r with
    limiter := { r.limiter with lastLoggedAt := r.limiter.lastLoggedAt.popFirst }
    log := r.log ++ [.evicted first] }

def logKey (r : LimiterRun K T) (key : K) (now : T) : LimiterRun K T where
  limiter := { r.limiter with lastLoggedAt := r.limiter.lastLoggedAt.set key now }
  clock := some now
  log := r.log ++ [.logged key now]

variable {r r' : LimiterRun K T} {call : LimiterCall K T} {key : K} {x : Tracking T}

theorem tracked_evict (r : LimiterRun K T) (first : K) :
    tracked (r.evict first).log = Function.update (tracked r.log) first none := tracked_concat _ _

theorem tracked_logKey (r : LimiterRun K T) (key : K) (now : T) :
    tracked (r.logKey key now).log = Function.update (tracked r.log) key (some (.logged now (tracked r.log key))) :=
  tracked_concat _ _

theorem Inv.mem_keys (h : r.Inv) : key ∈ r.limiter.lastLoggedAt.keys ↔ ∃ x, tracked r.log key = some x := by
  rw [← OrderedDict.get?_isSome_iff, h.tracks, Option.isSome_map, Option.isSome_iff_exists]

theorem Inv.mem_entries (h : r.Inv) (hx : tracked r.log key = some x) :
    (key, x.lastLogged) ∈ r.limiter.lastLoggedAt.entries := by
  rw [← OrderedDict.get?_eq_some_iff, h.tracks, hx]
  rfl

theorem Inv.of_mem_entries (h : r.Inv) {e : K × T} (he : e ∈ r.limiter.lastLoggedAt.entries) :
    ∃ x, tracked r.log e.1 = some x ∧ x.lastLogged = e.2 := by
  have hget := OrderedDict.get?_eq_some_iff.mpr he
  rw [h.tracks] at hget
  exact Option.map_eq_some_iff.mp hget

/-- The key that was inserted first is the one logged longest ago, unless it was logged again later than another. -/
theorem Inv.evictsStalest_iff (h : r.Inv) {first : K × T} (hfirst : r.limiter.lastLoggedAt.entries.head? = some first) :
    LimiterEntry.Law r.limiter.intervalSeconds r.log (.evicted first.1) [] ↔
      ((tracked r.log first.1).map Tracking.insertedAt = some first.2 ∨
        ∀ e ∈ r.limiter.lastLoggedAt.entries, first.2 ≤ e.2) := by
  obtain ⟨rest, hentries⟩ := List.head?_eq_some_iff.mp hfirst
  obtain ⟨x, hx, hlast⟩ := h.of_mem_entries (hentries ▸ List.mem_cons_self)
  constructor
  · rintro ⟨x', hx', hstalest⟩
    obtain rfl : x = x' := Option.some.inj (hx.symm.trans hx')
    refine .inr fun e he => ?_
    obtain ⟨y, hy, hylast⟩ := h.of_mem_entries he
    rw [← hlast, ← hylast]
    exact hstalest e.1 y hy
  · intro hcond
    refine ⟨x, hx, fun other y hy => ?_⟩
    rcases hcond with hinserted | hrest
    · rw [hx] at hinserted
      have hfresh : x.insertedAt = x.lastLogged := (Option.some.inj hinserted).trans hlast.symm
      have hother : other ∈ r.limiter.lastLoggedAt.keys := h.mem_keys.mpr ⟨y, hy⟩
      have hordered := h.ordered
      rw [OrderedDict.keys, hentries, List.map_cons] at hother hordered
      -- the first key was inserted before any other
      have hfirst : x.insertedAt ≤ y.insertedAt := by
        rcases List.mem_cons.mp hother with rfl | hother
        · exact (Option.some.inj (hx.symm.trans hy)) ▸ le_rfl
        · exact (List.pairwise_cons.mp hordered).1 other hother x y hx hy
      exact (hfresh ▸ hfirst).trans (h.times other y hy).1
    · rw [hlast]
      exact hrest _ (h.mem_entries hy)

theorem Inv.evict (h : r.Inv) {first : K × T} (hfirst : r.limiter.lastLoggedAt.entries.head? = some first) :
    (r.evict first.1).Inv := by
  obtain ⟨rest, hentries⟩ := List.head?_eq_some_iff.mp hfirst
  have hkeep : ∀ {key x}, tracked (r.evict first.1).log key = some x → tracked r.log key = some x := by
    intro key x hx
    rw [tracked_evict] at hx
    by_cases hkey : key = first.1
    · rw [hkey, Function.update_self] at hx
      cases hx
    · rwa [Function.update_of_ne hkey] at hx
  refine ⟨fun key => ?_, ?_, fun key x hx => h.times key x (hkeep hx), ?_⟩
  · change r.limiter.lastLoggedAt.popFirst.get? key = _
    rw [OrderedDict.get?_popFirst hentries, tracked_evict]
    by_cases hkey : key = first.1
    · rw [hkey, Function.update_self, Function.update_self]
      rfl
    · rw [Function.update_of_ne hkey, Function.update_of_ne hkey]
      exact h.tracks key
  · have hkeys : r.limiter.lastLoggedAt.popFirst.keys = r.limiter.lastLoggedAt.keys.tail := List.map_tail
    change r.limiter.lastLoggedAt.popFirst.keys.Pairwise _
    rw [hkeys]
    exact (h.ordered.sublist (List.tail_sublist _)).imp fun hab x y hx hy => hab x y (hkeep hx) (hkeep hy)
  · refine le_trans ?_ h.bounded
    change r.limiter.lastLoggedAt.entries.tail.length ≤ _
    rw [List.length_tail]
    exact Nat.sub_le _ _

theorem Inv.logKey (h : r.Inv) {now : T} (hclock : ∀ t ∈ r.clock, t ≤ now)
    (hroom : key ∈ r.limiter.lastLoggedAt.keys ∨ r.limiter.lastLoggedAt.entries.length < r.limiter.maxKeys) :
    (r.logKey key now).Inv := by
  have hpassed : ∀ {key x}, tracked r.log key = some x → x.insertedAt ≤ now ∧ x.lastLogged ≤ now := by
    intro key x hx
    obtain ⟨hle, t, ht, hlast⟩ := h.times key x hx
    exact ⟨hle.trans (hlast.trans (hclock t ht)), hlast.trans (hclock t ht)⟩
  refine ⟨fun key' => ?_, ?_, fun key' x hx => ?_, ?_⟩
  · change (r.limiter.lastLoggedAt.set key now).get? key' = _
    rw [OrderedDict.get?_set, tracked_logKey]
    by_cases hkey : key' = key
    · rw [hkey, Function.update_self, Function.update_self]
      cases tracked r.log key <;> rfl
    · rw [Function.update_of_ne hkey, Function.update_of_ne hkey]
      exact h.tracks key'
  · change (r.limiter.lastLoggedAt.set key now).keys.Pairwise _
    rw [tracked_logKey]
    by_cases hmem : key ∈ r.limiter.lastLoggedAt.keys
    · -- the key keeps its place and its time of insertion
      obtain ⟨z, hz⟩ := h.mem_keys.mp hmem
      have hinserted : ∀ {a x}, Function.update (tracked r.log) key (some (.logged now (tracked r.log key))) a = some x →
          ∃ x₀, tracked r.log a = some x₀ ∧ x₀.insertedAt = x.insertedAt := by
        intro a x hx
        by_cases ha : a = key
        · rw [ha, Function.update_self, hz] at hx
          cases hx
          exact ⟨z, ha ▸ hz, rfl⟩
        · rw [Function.update_of_ne ha] at hx
          exact ⟨x, hx, rfl⟩
      rw [OrderedDict.keys_set_of_mem hmem]
      refine h.ordered.imp fun hab x y hx hy => ?_
      obtain ⟨x₀, hx₀, hxi⟩ := hinserted hx
      obtain ⟨y₀, hy₀, hyi⟩ := hinserted hy
      rw [← hxi, ← hyi]
      exact hab x₀ y₀ hx₀ hy₀
    · have hnone : tracked r.log key = none := by
        rw [Option.eq_none_iff_forall_ne_some]
        exact fun x hx => hmem (h.mem_keys.mpr ⟨x, hx⟩)
      have hother : ∀ {a x}, a ∈ r.limiter.lastLoggedAt.keys →
          Function.update (tracked r.log) key (some (.logged now (tracked r.log key))) a = some x →
          tracked r.log a = some x := by
        intro a x ha hx
        rwa [Function.update_of_ne (ne_of_mem_of_not_mem ha hmem)] at hx
      rw [OrderedDict.keys_set_of_not_mem hmem, List.pairwise_append]
      refine ⟨h.ordered.imp_of_mem fun ha hb hab x y hx hy => hab x y (hother ha hx) (hother hb hy),
        List.pairwise_singleton _ _, fun a ha b hb x y hx hy => ?_⟩
      rw [List.mem_singleton] at hb
      rw [hb, Function.update_self, hnone] at hy
      cases hy
      exact (hpassed (hother ha hx)).1
  · have hle : x.insertedAt ≤ x.lastLogged ∧ x.lastLogged ≤ now := by
      rw [tracked_logKey] at hx
      by_cases hkey : key' = key
      · rw [hkey, Function.update_self] at hx
        cases hx
        cases hold : tracked r.log key with
        | none => exact ⟨le_rfl, le_rfl⟩
        | some z => exact ⟨(hpassed hold).1, le_rfl⟩
      · rw [Function.update_of_ne hkey] at hx
        exact ⟨(h.times key' x hx).1, (hpassed hx).2⟩
    exact ⟨hle.1, now, rfl, hle.2⟩
  · change (r.limiter.lastLoggedAt.set key now).entries.length ≤ r.limiter.maxKeys
    by_cases hmem : key ∈ r.limiter.lastLoggedAt.keys
    · rw [OrderedDict.length_set_of_mem hmem]
      exact h.bounded
    · rw [OrderedDict.entries_set_of_not_mem hmem, List.length_append]
      exact hroom.resolve_left hmem

/-! ## Runs -/

omit [DecidableEq K] in
theorem evicts_iff [DecidableEq K] {l : WarningRateLimiter K T} :
    l.evicts key = true ↔ key ∉ l.lastLoggedAt.keys ∧ l.maxKeys ≤ l.lastLoggedAt.entries.length := by
  simp [WarningRateLimiter.evicts]

/-- What a call does: nothing but to read the clock, or it logs the key, after an eviction if the limiter is full. -/
theorem step_cases {l : WarningRateLimiter K T} (hstep : (limiterMachine l).step r call = some r') :
    (∀ t ∈ r.clock, t ≤ call.now) ∧
      (r' = { r with clock := some call.now } ∨
        r.limiter.due call.key call.now = true ∧
          (r.limiter.evicts call.key = false ∧ r' = r.logKey call.key call.now ∨
            r.limiter.evicts call.key = true ∧ ∃ first, r.limiter.lastLoggedAt.entries.head? = some first ∧
              r' = (r.evict first.1).logKey call.key call.now)) := by
  simp only [limiterMachine] at hstep
  split at hstep
  · next hclock =>
    cases hstep
    refine ⟨hclock, ?_⟩
    unfold WarningRateLimiter.shouldLog WarningRateLimiter.entriesOf
    cases hdue : r.limiter.due call.key call.now with
    | false => exact .inl (by simp)
    | true =>
      refine .inr ⟨rfl, ?_⟩
      cases hevicts : r.limiter.evicts call.key with
      | false => exact .inl ⟨rfl, rfl⟩
      | true =>
        obtain ⟨-, hfull⟩ := evicts_iff.mp hevicts
        have hpos : 0 < r.limiter.lastLoggedAt.entries.length := r.limiter.maxKeys_pos.trans hfull
        obtain ⟨first, rest, hentries⟩ := List.exists_cons_of_length_pos hpos
        have hfirst : r.limiter.lastLoggedAt.entries.head? = some first := by rw [hentries]; rfl
        refine .inr ⟨rfl, first, hfirst, ?_⟩
        have hkeys : r.limiter.lastLoggedAt.keys.head? = some first.1 := by rw [OrderedDict.keys, hentries]; rfl
        simp [logKey, evict, hkeys]
  · cases hstep

/-- The dictionary has room after an eviction, and the new key is still new. -/
theorem Inv.room_of_evict (h : r.Inv) (hevicts : r.limiter.evicts call.key = true) {first : K × T}
    (hfirst : r.limiter.lastLoggedAt.entries.head? = some first) :
    call.key ∉ (r.evict first.1).limiter.lastLoggedAt.keys ∧
      (r.evict first.1).limiter.lastLoggedAt.entries.length < (r.evict first.1).limiter.maxKeys := by
  obtain ⟨rest, hentries⟩ := List.head?_eq_some_iff.mp hfirst
  obtain ⟨hnew, hfull⟩ := evicts_iff.mp hevicts
  have hbounded := h.bounded
  refine ⟨fun hmem => hnew ?_, ?_⟩
  · have hsub : List.Sublist (r.evict first.1).limiter.lastLoggedAt.keys r.limiter.lastLoggedAt.keys :=
      (List.tail_sublist _).map Prod.fst
    exact hsub.mem hmem
  · change r.limiter.lastLoggedAt.entries.tail.length < r.limiter.maxKeys
    rw [hentries] at hbounded hfull ⊢
    exact hbounded

theorem Inv.step {l : WarningRateLimiter K T} (h : r.Inv) (hstep : (limiterMachine l).step r call = some r') :
    r'.Inv := by
  obtain ⟨hclock, rfl | ⟨-, ⟨hevicts, rfl⟩ | ⟨hevicts, first, hfirst, rfl⟩⟩⟩ := step_cases hstep
  · refine ⟨h.tracks, h.ordered, fun key x hx => ?_, h.bounded⟩
    obtain ⟨hle, t, ht, hlast⟩ := h.times key x hx
    exact ⟨hle, call.now, rfl, hlast.trans (hclock t ht)⟩
  · refine h.logKey hclock ?_
    by_cases hmem : call.key ∈ r.limiter.lastLoggedAt.keys
    · exact .inl hmem
    · refine .inr (not_le.mp fun hfull => ?_)
      rw [evicts_iff.mpr ⟨hmem, hfull⟩] at hevicts
      cases hevicts
  · exact (h.evict hfirst).logKey hclock (.inr (h.room_of_evict hevicts hfirst).2)

theorem inv_of_reachable {l : WarningRateLimiter K T} {ok : LimiterRun K T → LimiterCall K T → Prop}
    (h : (limiterMachine l).Reachable ok r) : r.Inv := by
  refine h.invariant (I := Inv) ?_ fun r call r' hi _ hstep => hi.step hstep
  rintro _ rfl
  exact ⟨fun _ => rfl, .nil, nofun, Nat.zero_le _⟩

variable [IsOrderedAddMonoid T]

/-- A key that is due was not logged within the interval. -/
theorem Inv.law_of_due (h : r.Inv) (hdue : r.limiter.due call.key call.now = true) :
    LimiterEntry.Law r.limiter.intervalSeconds r.log (.logged call.key call.now) [] := by
  intro x hx
  unfold WarningRateLimiter.due at hdue
  rw [h.tracks, hx] at hdue
  have hinterval : r.limiter.intervalSeconds ≤ call.now - x.lastLogged := of_decide_eq_true hdue
  exact le_sub_iff_add_le'.mp hinterval

theorem lawful_step {l : WarningRateLimiter K T} (h : r.Inv)
    (hlawful : Everywhere (LimiterEntry.Law r.limiter.intervalSeconds) r.log) (hok : r.Unrefreshed call)
    (hstep : (limiterMachine l).step r call = some r') :
    Everywhere (LimiterEntry.Law r'.limiter.intervalSeconds) r'.log := by
  obtain ⟨-, rfl | ⟨hdue, ⟨-, rfl⟩ | ⟨hevicts, first, hfirst, rfl⟩⟩⟩ := step_cases hstep
  · exact hlawful
  · exact hlawful.concat (h.law_of_due hdue) fun _ _ _ _ hx => hx
  · have hevicted : Everywhere (LimiterEntry.Law r.limiter.intervalSeconds) (r.evict first.1).log :=
      hlawful.concat ((h.evictsStalest_iff hfirst).mpr (hok hdue hevicts first hfirst)) fun _ _ _ _ hx => hx
    refine hevicted.concat (fun x hx => ?_) fun _ _ _ _ hx => hx
    exact absurd ((h.evict hfirst).mem_keys.mpr ⟨x, hx⟩) (h.room_of_evict hevicts hfirst).1

/-- For every interval and bound, and every sequence of calls at times that do not decrease, the limiter is fair if no call
evicts a key that was logged again later than another tracked key. -/
theorem fair_of_reachable (l : WarningRateLimiter K T) (h : (limiterMachine l).Reachable Unrefreshed r) : r.Fair := by
  have hinv : r.Inv := inv_of_reachable h
  refine ⟨hinv.bounded, hinv.tracks, ?_⟩
  refine h.invariant_of (J := Inv) (I := fun r => Everywhere (LimiterEntry.Law r.limiter.intervalSeconds) r.log)
    inv_of_reachable ?_ fun r call r' hi hlawful hok hstep => lawful_step hi hlawful hok hstep
  rintro _ rfl
  exact .nil

end LimiterRun

def twoKeys : WarningRateLimiter String Int where
  intervalSeconds := 10
  maxKeys := 2
  interval_pos := by decide
  maxKeys_pos := by decide

/-- `"a"` and `"b"` are both logged again before `"c"` comes. -/
theorem fair_of_bothRefreshed :
    ∃ r, (limiterMachine twoKeys).Reachable LimiterRun.Unrefreshed r ∧
      (r.log = [.logged "a" 0, .logged "b" 1, .logged "a" 20, .logged "b" 21, .evicted "a", .logged "c" 22] ∧ r.Fair) := by
  have hrun : ∃ r, (limiterMachine twoKeys).Reachable LimiterRun.Unrefreshed r ∧
      decide (r.log = [.logged "a" 0, .logged "b" 1, .logged "a" 20, .logged "b" 21, .evicted "a", .logged "c" 22]) :=
    Machine.Reachable.exists_of_execOk rfl
      [⟨"a", 0⟩, ⟨"b", 1⟩, ⟨"a", 5⟩, ⟨"a", 20⟩, ⟨"b", 21⟩, ⟨"c", 22⟩] _ (by decide)
  obtain ⟨r, hr, hlog⟩ := hrun
  exact ⟨r, hr, of_decide_eq_true hlog, LimiterRun.fair_of_reachable twoKeys hr⟩

/-- `"a"` is logged again, `"b"` is not, and `"c"` evicts `"a"`. -/
theorem not_fair_of_refreshed :
    ¬ ∀ r, (limiterMachine twoKeys).Reachable Machine.Any r → r.Fair := by
  have hrun : ∃ r, (limiterMachine twoKeys).Reachable Machine.Any r ∧
      decide (r.log = [.logged "a" 0, .logged "b" 1, .logged "a" 20, .evicted "a", .logged "c" 21]) :=
    Machine.Reachable.exists_of_exec rfl [⟨"a", 0⟩, ⟨"b", 1⟩, ⟨"a", 20⟩, ⟨"c", 21⟩] _ (by decide)
  obtain ⟨r, hr, hlog⟩ := hrun
  intro hall
  have hlaw := (hall r hr).lawful [.logged "a" 0, .logged "b" 1, .logged "a" 20] (.evicted "a") [.logged "c" 21]
    (of_decide_eq_true hlog)
  obtain ⟨x, hx, hstalest⟩ := hlaw
  have ha : tracked [.logged "a" 0, .logged "b" 1, .logged "a" (20 : Int)] "a" = some ⟨0, 20⟩ := by decide
  have hb : tracked [.logged "a" 0, .logged "b" 1, .logged "a" (20 : Int)] "b" = some ⟨1, 1⟩ := by decide
  cases ha.symm.trans hx
  have hle := hstalest "b" ⟨1, 1⟩ hb
  exact absurd hle (by decide)

end Aionetx
