import Aionetx.Runs.Machine

/-!
# Waiting for a status behind one event

Callers wait for something in a status that a program changes. They share a version number and one event: a caller that finds
nothing notes the version, clears the event and waits for it with a timeout; the program raises the version and sets the event.

* `Watch` : what the callers of a kind look for; `Waiter` : a caller, and where it is;
* `StatusBoard` : the status, the version, the event and the callers; `notify`, `listen`, `turn` : the parts of a step;
* `watching` : the machine of a program and its callers; `eager` tells whether the wait for the event begins in the turn of the
  caller or, as with a `wait_for` that wraps it in a task, later;
* `Prompt` : a caller for whom there is an answer gets it by its own next two turns, `prompt_of_reachable`;
* `Thrifty` : a caller waits again only after a notification or a timeout, `thrifty_of_reachable`.
-/

namespace Runs

universe u v w x

/-- The answer that a kind of caller finds in a status, and whether it looks again after a wait. -/
structure Watch (σ : Type u) (ρ : Type v) where
  poll : σ → Option ρ
  again : Bool := true

/-- A program with a status; a step tells whether it notifies. -/
structure Notifier (σ : Type u) (α : Type v) where
  init : σ → Prop
  step : σ → α → Option (σ × Bool)

variable {σ : Type u} {α : Type v} {κ : Type w} {ρ : Type x}

structure Notifier.Keeps (N : Notifier σ α) (inv : σ → Prop) : Prop where
  init : ∀ s, N.init s → inv s
  step : ∀ s a s' told, inv s → N.step s a = some (s', told) → inv s'

/-- Where the invariant holds, the program notifies whenever it makes an answer appear. -/
def Notifier.Announces (N : Notifier σ α) (inv : σ → Prop) (watch : Watch σ ρ) : Prop :=
  ∀ s a s', inv s → N.step s a = some (s', false) → watch.poll s = none → watch.poll s' = none

/-- `polling` : its next turn reads the status; `starting` : its wait for the event has not begun yet; `parked` : its future is
pending; `done` : it has left. -/
inductive WaiterPc (ρ : Type x)
  | polling
  | starting
  | parked
  | done (answer : Option ρ)
  deriving DecidableEq, Repr

/-- A caller; `joined` and `observed` are the versions at its call and at its last wait. -/
structure Waiter (κ : Type w) (ρ : Type x) where
  kind : κ
  pc : WaiterPc ρ := .polling
  joined : Nat
  observed : Nat
  waits : Nat := 0
  timeouts : Nat := 0
  deriving DecidableEq, Repr

/-- The future of a parked caller is resolved. -/
def Waiter.wake (x : Waiter κ ρ) : Waiter κ ρ :=
  match x.pc with
  | .parked => { x with pc := .polling }
  | _ => x

structure StatusBoard (σ : Type u) (κ : Type w) (ρ : Type x) where
  status : σ
  version : Nat := 0
  flag : Bool := false
  waiters : List (Waiter κ ρ) := []

inductive BoardAct (α : Type v) (κ : Type w)
  | change (a : α)
  | join (k : κ)
  | turn (i : Nat)
  | timeout (i : Nat)
  | cancel (i : Nat)
  deriving Repr

namespace StatusBoard
variable (b : StatusBoard σ κ ρ)

/-- `asyncio.Event.set`: an event that is set already wakes nobody. -/
def setFlag : StatusBoard σ κ ρ :=
  if b.flag then b else { b with flag := true, waiters := b.waiters.map Waiter.wake }

/-- The version, then the event. -/
def notify : StatusBoard σ κ ρ := { b with version := b.version + 1 }.setFlag

def change (s : σ) (told : Bool) : StatusBoard σ κ ρ :=
  if told then { b with status := s }.notify else { b with status := s }

def setWaiter (i : Nat) (x : Waiter κ ρ) : StatusBoard σ κ ρ := { b with waiters := b.waiters.set i x }

/-- The caller notes the version, clears the event and waits. -/
def listen (eager : Bool) (i : Nat) (x : Waiter κ ρ) : StatusBoard σ κ ρ :=
  { b.setWaiter i { x with
      pc := if eager then .parked else .starting
      observed := b.version
      waits := x.waits + 1 } with
    flag := false }

/-- A poll that finds nothing is followed by a wait. -/
def listens (watch : κ → Watch σ ρ) (x : Waiter κ ρ) : Bool :=
  ((watch x.kind).poll b.status).isNone && (x.waits == 0 || (watch x.kind).again)

def turn (watch : κ → Watch σ ρ) (eager : Bool) (i : Nat) (x : Waiter κ ρ) : Option (StatusBoard σ κ ρ) :=
  match x.pc with
  | .polling =>
    some (if b.listens watch x then b.listen eager i x
      else b.setWaiter i { x with pc := .done ((watch x.kind).poll b.status) })
  | .starting => some (b.setWaiter i { x with pc := if b.flag then .polling else .parked })
  | .parked | .done _ => none

def timeout (i : Nat) (x : Waiter κ ρ) : Option (StatusBoard σ κ ρ) :=
  match x.pc with
  | .starting | .parked => some (b.setWaiter i { x with pc := .polling, timeouts := x.timeouts + 1 })
  | .polling | .done _ => none

end StatusBoard

/-- The program, any number of callers, and the loop that gives them turns in any order. -/
def watching (N : Notifier σ α) (watch : κ → Watch σ ρ) (eager : Bool) : Machine (StatusBoard σ κ ρ) (BoardAct α κ) where
  init b := N.init b.status ∧ b.waiters = []
  step b
    | .change a => (N.step b.status a).map fun next => b.change next.1 next.2
    | .join k => some { b with waiters := b.waiters ++ [{ kind := k, joined := b.version, observed := b.version }] }
    | .turn i => b.waiters[i]?.bind (b.turn watch eager i)
    | .timeout i => b.waiters[i]?.bind (b.timeout i)
    | .cancel i => b.waiters[i]?.map fun x => b.setWaiter i { x with pc := .done none }

namespace StatusBoard

variable {N : Notifier σ α} {watch : κ → Watch σ ρ} {eager : Bool} {b b' : StatusBoard σ κ ρ}

theorem poll_of_listens {x : Waiter κ ρ} (h : b.listens watch x) : (watch x.kind).poll b.status = none := by
  rw [listens, Bool.and_eq_true, Option.isNone_iff_eq_none] at h
  exact h.1

/-! ## A property of the callers -/

/-- Every caller has a property that depends on the status, the version and the event. -/
def All (P : σ → Nat → Bool → Waiter κ ρ → Prop) (b : StatusBoard σ κ ρ) : Prop :=
  ∀ x ∈ b.waiters, P b.status b.version b.flag x

/-- What a property of the callers has to survive. -/
structure Lasting (N : Notifier σ α) (inv : σ → Prop) (watch : κ → Watch σ ρ) (eager : Bool)
    (ok : StatusBoard σ κ ρ → BoardAct α κ → Prop) (P : σ → Nat → Bool → Waiter κ ρ → Prop) : Prop where
  quiet : ∀ {s a s' v f x}, inv s → N.step s a = some (s', false) → P s v f x → P s' v f x
  told : ∀ {s a s' v f x}, N.step s a = some (s', true) → P s v f x → P s' (v + 1) true (if f then x else x.wake)
  join : ∀ {s v f k}, P s v f { kind := k, joined := v, observed := v }
  listen : ∀ {s v f x}, x.pc = .polling → P s v f x → (watch x.kind).poll s = none → P s v false { x with
      pc := if eager then .parked else .starting
      observed := v
      waits := x.waits + 1 }
  clear : ∀ {b : StatusBoard σ κ ρ} {i y x}, ok b (.turn i) → b.waiters[i]? = some y → y.pc = .polling →
    b.listens watch y → x ∈ b.waiters → P b.status b.version b.flag x → P b.status b.version false x
  leave : ∀ {s v f x answer}, P s v f x → P s v f { x with pc := .done answer }
  start : ∀ {s v f x}, x.pc = .starting → P s v f x → P s v f { x with pc := if f then .polling else .parked }
  timeout : ∀ {s v f x}, x.pc = .starting ∨ x.pc = .parked → P s v f x →
    P s v f { x with pc := .polling, timeouts := x.timeouts + 1 }

section
variable {inv : σ → Prop} {ok : StatusBoard σ κ ρ → BoardAct α κ → Prop} {P : σ → Nat → Bool → Waiter κ ρ → Prop}

theorem All.setWaiter {i : Nat} {x : Waiter κ ρ} (h : b.All P) (hx : P b.status b.version b.flag x) :
    (b.setWaiter i x).All P := by
  intro y hy
  rcases List.mem_or_eq_of_mem_set hy with hy | rfl
  · exact h y hy
  · exact hx

theorem All.change (hP : Lasting N inv watch eager ok P) (hinv : inv b.status) {a : α} {s : σ} {told : Bool}
    (hs : N.step b.status a = some (s, told)) (h : b.All P) : (b.change s told).All P := by
  cases told with
  | false =>
    intro x hx
    exact hP.quiet hinv hs (h x hx)
  | true =>
    have htold : ∀ x ∈ b.waiters, P s (b.version + 1) true (if b.flag then x else x.wake) := fun x hx => hP.told hs (h x hx)
    unfold StatusBoard.change notify setFlag
    rw [if_pos rfl]
    dsimp only
    cases hf : b.flag with
    | false =>
      intro y hy
      obtain ⟨x, hx, rfl⟩ := List.mem_map.mp hy
      have := htold x hx
      rwa [hf] at this
    | true =>
      intro x hx
      have := htold x hx
      rwa [hf] at this

theorem All.turn (hP : Lasting N inv watch eager ok P) {i : Nat} {x : Waiter κ ρ} (hok : ok b (.turn i)) (h : b.All P)
    (hx : b.waiters[i]? = some x) (ht : b.turn watch eager i x = some b') : b'.All P := by
  have hmem := List.mem_of_getElem? hx
  unfold StatusBoard.turn at ht
  split at ht
  · next hpc =>
    cases ht
    split
    · next hl =>
      have hnone : (watch x.kind).poll b.status = none := poll_of_listens hl
      intro y hy
      rcases List.mem_or_eq_of_mem_set hy with hy | rfl
      · have hy' : y ∈ b.waiters := hy
        have hclear : P b.status b.version false y := hP.clear hok hx hpc hl hy' (h y hy')
        exact hclear
      · exact hP.listen hpc (h x hmem) hnone
    · exact h.setWaiter (hP.leave (h x hmem))
  · next hpc =>
    cases ht
    exact h.setWaiter (hP.start hpc (h x hmem))
  · cases ht
  · cases ht

theorem All.timeout (hP : Lasting N inv watch eager ok P) {i : Nat} {x : Waiter κ ρ} (h : b.All P)
    (hx : b.waiters[i]? = some x) (ht : b.timeout i x = some b') : b'.All P := by
  have hmem := List.mem_of_getElem? hx
  unfold StatusBoard.timeout at ht
  split at ht
  · next hpc =>
    cases ht
    exact h.setWaiter (hP.timeout (.inl hpc) (h x hmem))
  · next hpc =>
    cases ht
    exact h.setWaiter (hP.timeout (.inr hpc) (h x hmem))
  · cases ht
  · cases ht

theorem status_change (s : σ) (told : Bool) : (b.change s told).status = s := by
  unfold StatusBoard.change notify setFlag
  cases told with
  | false => rfl
  | true =>
    rw [if_pos rfl]
    dsimp only
    split <;> rfl

theorem status_of_step (hN : N.Keeps inv) {a : BoardAct α κ} (h : inv b.status)
    (hs : (watching N watch eager).step b a = some b') : inv b'.status := by
  cases a with
  | change a =>
    obtain ⟨⟨s, told⟩, hstep, rfl⟩ := Option.map_eq_some_iff.mp hs
    rw [status_change]
    exact hN.step _ _ _ _ h hstep
  | join k =>
    cases hs
    exact h
  | turn i =>
    obtain ⟨x, -, ht⟩ := Option.bind_eq_some_iff.mp hs
    unfold StatusBoard.turn at ht
    split at ht
    · cases ht
      split <;> exact h
    · cases ht
      exact h
    · cases ht
    · cases ht
  | timeout i =>
    obtain ⟨x, -, ht⟩ := Option.bind_eq_some_iff.mp hs
    unfold StatusBoard.timeout at ht
    split at ht <;> cases ht <;> exact h
  | cancel i =>
    obtain ⟨x, -, rfl⟩ := Option.map_eq_some_iff.mp hs
    exact h

theorem All.of_reachable (hN : N.Keeps inv) (hP : Lasting N inv watch eager ok P)
    (h : (watching N watch eager).Reachable ok b) : b.All P := by
  have hinv : ∀ {b}, (watching N watch eager).Reachable ok b → inv b.status := by
    intro b h
    refine h.invariant (I := fun b => inv b.status) (fun b hb => ?_) fun _ _ _ hb _ hs => status_of_step hN hb hs
    exact hN.init _ hb.1
  refine h.invariant_of hinv (fun b hb x hx => ?_) fun b a b' hj hb hok hs => ?_
  · rw [hb.2] at hx
    cases hx
  · cases a with
    | change a =>
      obtain ⟨⟨s, told⟩, hstep, rfl⟩ := Option.map_eq_some_iff.mp hs
      exact hb.change hP hj hstep
    | join k =>
      cases hs
      intro x hx
      rcases List.mem_append.mp hx with hx | hx
      · exact hb x hx
      · rw [List.mem_singleton.mp hx]
        exact hP.join
    | turn i =>
      obtain ⟨x, hx, ht⟩ := Option.bind_eq_some_iff.mp hs
      exact hb.turn hP hok hx ht
    | timeout i =>
      obtain ⟨x, hx, ht⟩ := Option.bind_eq_some_iff.mp hs
      exact hb.timeout hP hx ht
    | cancel i =>
      obtain ⟨x, hx, rfl⟩ := Option.map_eq_some_iff.mp hs
      exact hb.setWaiter (hP.leave (hb x (List.mem_of_getElem? hx)))

end

/-! ## No busy waiting -/

end StatusBoard

namespace Waiter

def Waiting (x : Waiter κ ρ) : Prop := x.pc = .starting ∨ x.pc = .parked

/-- Every wait but the current one ended with a timeout or with a version above the one observed. -/
structure Charged (v : Nat) (f : Bool) (x : Waiter κ ρ) : Prop where
  joined : x.joined ≤ x.observed
  observed : x.observed ≤ v
  missed : x.Waiting → f = true → x.observed < v
  waiting : x.Waiting → x.waits + x.joined ≤ 1 + x.timeouts + x.observed
  polling : x.pc = .polling → x.waits + x.joined ≤ x.timeouts + v
  left : x.waits + x.joined ≤ 1 + x.timeouts + v

theorem Charged.wake {v : Nat} {f : Bool} {x : Waiter κ ρ} (h : x.Charged (v + 1) f)
    (hv : x.Waiting → x.observed ≤ v) : x.wake.Charged (v + 1) f := by
  unfold Waiter.wake
  split
  · next hpc =>
    have hw := h.waiting (.inr hpc)
    have ho := hv (.inr hpc)
    refine ⟨h.joined, h.observed, ?_, ?_, ?_, h.left⟩
    · rintro (hp | hp) <;> cases hp
    · rintro (hp | hp) <;> cases hp
    · intro _
      show x.waits + x.joined ≤ x.timeouts + (v + 1)
      omega
  · exact h

end Waiter

namespace StatusBoard

variable {N : Notifier σ α} {watch : κ → Watch σ ρ} {eager : Bool} {b b' : StatusBoard σ κ ρ}

theorem lasting_charged (ok : StatusBoard σ κ ρ → BoardAct α κ → Prop) :
    Lasting N (fun _ => True) watch eager ok fun _ v f x => Waiter.Charged v f x where
  quiet _ _ h := h
  told := by
    intro s a s' v f x _ h
    have hup : x.Charged (v + 1) true := by
      refine ⟨h.joined, Nat.le_succ_of_le h.observed, fun _ _ => Nat.lt_succ_of_le h.observed, h.waiting, fun hp => ?_, ?_⟩
      · have := h.polling hp
        omega
      · have := h.left
        omega
    cases f with
    | true => exact hup
    | false => exact hup.wake fun _ => h.observed
  join := by
    intro s v f k
    refine ⟨Nat.le_refl _, Nat.le_refl _, ?_, ?_, fun _ => ?_, ?_⟩
    · rintro (hp | hp) <;> cases hp
    · rintro (hp | hp) <;> cases hp
    · show 0 + v ≤ 0 + v
      omega
    · show 0 + v ≤ 1 + 0 + v
      omega
  listen := by
    intro s v f x hpc h _
    have hw := h.polling hpc
    have hnot : (if eager then WaiterPc.parked else WaiterPc.starting : WaiterPc ρ) ≠ .polling := by
      cases eager <;> exact fun hp => by cases hp
    refine ⟨Nat.le_trans h.joined h.observed, Nat.le_refl _, fun _ hf => (by cases hf), fun _ => ?_,
      fun hp => absurd hp hnot, ?_⟩
    · show x.waits + 1 + x.joined ≤ 1 + x.timeouts + v
      omega
    · show x.waits + 1 + x.joined ≤ 1 + x.timeouts + v
      omega
  clear _ _ _ _ _ h := ⟨h.joined, h.observed, fun _ hf => (by cases hf), h.waiting, h.polling, h.left⟩
  leave := by
    intro s v f x answer h
    refine ⟨h.joined, h.observed, ?_, ?_, fun hp => (by cases hp), h.left⟩
    · rintro (hp | hp) <;> cases hp
    · rintro (hp | hp) <;> cases hp
  start := by
    intro s v f x hpc h
    have hw := h.waiting (.inl hpc)
    cases f with
    | true =>
      have ho := h.missed (.inl hpc) rfl
      refine ⟨h.joined, h.observed, ?_, ?_, fun _ => ?_, h.left⟩
      · rintro (hp | hp) <;> cases hp
      · rintro (hp | hp) <;> cases hp
      · show x.waits + x.joined ≤ x.timeouts + v
        omega
    | false => exact ⟨h.joined, h.observed, fun _ hf => (by cases hf), fun _ => hw, fun hp => (by cases hp), h.left⟩
  timeout := by
    intro s v f x hpc h
    have hw := h.waiting hpc
    have ho := h.observed
    refine ⟨h.joined, h.observed, ?_, ?_, fun _ => ?_, ?_⟩
    · rintro (hp | hp) <;> cases hp
    · rintro (hp | hp) <;> cases hp
    · show x.waits + x.joined ≤ x.timeouts + 1 + v
      omega
    · show x.waits + x.joined ≤ 1 + (x.timeouts + 1) + v
      omega

/-- A caller begins at most one wait more than there were timeouts of its waits and notifications since its call. -/
def Thrifty (b : StatusBoard σ κ ρ) : Prop := ∀ x ∈ b.waiters, x.waits ≤ 1 + x.timeouts + (b.version - x.joined)

theorem thrifty_of_reachable {ok : StatusBoard σ κ ρ → BoardAct α κ → Prop} (h : (watching N watch eager).Reachable ok b) :
    b.Thrifty := by
  intro x hx
  have hkeeps : N.Keeps fun _ => True := ⟨fun _ _ => trivial, fun _ _ _ _ _ _ => trivial⟩
  have hcharged : x.Charged b.version b.flag := All.of_reachable hkeeps (lasting_charged ok) h x hx
  have := hcharged.left
  have := hcharged.joined
  have := hcharged.observed
  omega

/-! ## No missed notification -/

/-- A clearing turn finds no caller whose wait has not begun and for whom there is an answer. -/
def courteous (watch : κ → Watch σ ρ) (b : StatusBoard σ κ ρ) : BoardAct α κ → Bool
  | .turn i => b.waiters[i]?.all fun y =>
    match y.pc with
    | .polling => !b.listens watch y || b.waiters.all fun x =>
      match x.pc with
      | .starting => ((watch x.kind).poll b.status).isNone
      | _ => true
    | _ => true
  | _ => true

/-- A turn is courteous if a caller that finds nothing tells that there is nothing for anybody. -/
theorem courteous_of_listens {a : BoardAct α κ} (h : ∀ i y, a = .turn i → b.waiters[i]? = some y → y.pc = .polling →
    b.listens watch y → ∀ k, (watch k).poll b.status = none) : courteous watch b a := by
  cases a with
  | turn i =>
    simp only [courteous]
    cases hy : b.waiters[i]? with
    | none => rfl
    | some y =>
      rw [Option.all_some]
      split
      · next hpc =>
        rw [Bool.or_eq_true, Bool.not_eq_true']
        refine or_iff_not_imp_left.mpr fun hl => List.all_eq_true.mpr fun x _ => ?_
        rw [Bool.not_eq_false] at hl
        split
        · exact Option.isNone_iff_eq_none.mpr (h i y rfl hy hpc hl x.kind)
        · rfl
      · rfl
  | change | join | timeout | cancel => rfl

end StatusBoard

/-- A caller for whom there is an answer is not parked, and if its wait has not begun it will find the event set. -/
structure Waiter.Alert (watch : κ → Watch σ ρ) (eager : Bool) (s : σ) (f : Bool) (x : Waiter κ ρ) : Prop where
  starting : x.pc = .starting → eager = false ∧ (f = true ∨ (watch x.kind).poll s = none)
  parked : x.pc = .parked → f = false ∧ (watch x.kind).poll s = none

namespace StatusBoard

variable {N : Notifier σ α} {watch : κ → Watch σ ρ} {eager : Bool} {b b' : StatusBoard σ κ ρ}

theorem lasting_alert {inv : σ → Prop} (hN : ∀ k, N.Announces inv (watch k)) :
    Lasting N inv watch eager (fun b a => eager = true ∨ courteous watch b a) fun s _ f x => Waiter.Alert watch eager s f x where
  quiet := by
    intro s a s' v f x hi hs h
    refine ⟨fun hp => ?_, fun hp => ?_⟩
    · exact ⟨(h.starting hp).1, (h.starting hp).2.imp_right (hN _ s a s' hi hs)⟩
    · exact ⟨(h.parked hp).1, hN _ s a s' hi hs (h.parked hp).2⟩
  told := by
    intro s a s' v f x _ h
    cases f with
    | true =>
      refine ⟨fun hp => ⟨(h.starting hp).1, .inl rfl⟩, fun hp => ?_⟩
      -- nobody is parked behind an event that is set
      cases (h.parked hp).1
    | false =>
      show (Waiter.wake x).Alert watch eager s' true
      unfold Waiter.wake
      split
      · exact ⟨fun hp => (by cases hp), fun hp => (by cases hp)⟩
      · next hpc => exact ⟨fun hp => ⟨(h.starting hp).1, .inl rfl⟩, fun hp => absurd hp hpc⟩
  join := ⟨fun hp => (by cases hp), fun hp => (by cases hp)⟩
  listen := by
    intro s v f x _ _ hnone
    cases eager
    · exact ⟨fun _ => ⟨rfl, .inr hnone⟩, fun hp => (by cases hp)⟩
    · exact ⟨fun hp => (by cases hp), fun _ => ⟨rfl, hnone⟩⟩
  clear := by
    intro b i y x hok hy hpc hl hx h
    refine ⟨fun hp => ⟨(h.starting hp).1, .inr ?_⟩, fun hp => ⟨rfl, (h.parked hp).2⟩⟩
    rcases hok with hok | hok
    · rw [(h.starting hp).1] at hok
      cases hok
    · simp only [courteous, hy, Option.all_some, hpc, hl, Bool.not_true, Bool.false_or] at hok
      have := List.all_eq_true.mp hok x hx
      rw [hp] at this
      exact Option.isNone_iff_eq_none.mp this
  leave _ := ⟨fun hp => (by cases hp), fun hp => (by cases hp)⟩
  start := by
    intro s v f x hpc h
    cases f with
    | true => exact ⟨fun hp => (by cases hp), fun hp => (by cases hp)⟩
    | false =>
      refine ⟨fun hp => (by cases hp), fun _ => ⟨rfl, ?_⟩⟩
      exact (h.starting hpc).2.resolve_left fun hf => by cases hf
  timeout _ _ := ⟨fun hp => (by cases hp), fun hp => (by cases hp)⟩

/-- A caller for whom there is an answer leaves with it by its own next two turns, without any help. -/
def Prompt (N : Notifier σ α) (watch : κ → Watch σ ρ) (eager : Bool) (b : StatusBoard σ κ ρ) : Prop :=
  ∀ (i : Nat) (x : Waiter κ ρ) (r : ρ), b.waiters[i]? = some x → (watch x.kind).poll b.status = some r →
    (∃ answer, x.pc = .done answer) ∨ ∃ n ≤ 2, ∃ b' x', (watching N watch eager).exec b (List.replicate n (.turn i)) = some b' ∧
      b'.waiters[i]? = some x' ∧ x'.pc = .done (some r)

theorem turn_of_poll {i : Nat} {x : Waiter κ ρ} {r : ρ} (hpc : x.pc = .polling) (hr : (watch x.kind).poll b.status = some r) :
    b.turn watch eager i x = some (b.setWaiter i { x with pc := .done (some r) }) := by
  have hl : b.listens watch x = false := by rw [listens, hr]; rfl
  unfold StatusBoard.turn
  rw [hpc]
  dsimp only
  rw [hl, hr]
  rfl

theorem getElem?_setWaiter {i : Nat} {x y : Waiter κ ρ} (hx : b.waiters[i]? = some x) :
    (b.setWaiter i y).waiters[i]? = some y := by
  show (b.waiters.set i y)[i]? = some y
  rw [List.getElem?_set_self (List.getElem?_eq_some_iff.mp hx).choose]

theorem prompt_of_reachable {inv : σ → Prop} (hinv : N.Keeps inv) (hN : ∀ k, N.Announces inv (watch k))
    (h : (watching N watch eager).Reachable (fun b a => eager = true ∨ courteous watch b a) b) : b.Prompt N watch eager := by
  intro i x r hx hr
  have halert : x.Alert watch eager b.status b.flag := All.of_reachable hinv (lasting_alert hN) h x (List.mem_of_getElem? hx)
  cases hpc : x.pc with
  | done answer => exact .inl ⟨answer, rfl⟩
  | parked =>
    rw [(halert.parked hpc).2] at hr
    cases hr
  | polling =>
    refine .inr ⟨1, by omega, b.setWaiter i { x with pc := .done (some r) }, _, ?_, getElem?_setWaiter hx, rfl⟩
    show (b.waiters[i]?.bind (b.turn watch eager i)).bind some = _
    rw [hx, Option.bind_some, turn_of_poll hpc hr]
    rfl
  | starting =>
    have hflag : b.flag = true := (halert.starting hpc).2.resolve_right fun hnone => by rw [hnone] at hr; cases hr
    -- the wait finds the event set, and the caller looks again
    have hfirst : b.turn watch eager i x = some (b.setWaiter i { x with pc := .polling }) := by
      unfold StatusBoard.turn
      rw [hpc]
      dsimp only
      rw [hflag]
      rfl
    have hsecond : (b.setWaiter i { x with pc := .polling }).turn watch eager i { x with pc := .polling } =
        some ((b.setWaiter i { x with pc := .polling }).setWaiter i { x with pc := .done (some r) }) :=
      turn_of_poll rfl hr
    refine .inr ⟨2, by omega, (b.setWaiter i { x with pc := .polling }).setWaiter i { x with pc := .done (some r) }, _, ?_,
      getElem?_setWaiter (getElem?_setWaiter hx), rfl⟩
    show (b.waiters[i]?.bind (b.turn watch eager i)).bind (fun t => (t.waiters[i]?.bind (t.turn watch eager i)).bind some) = _
    rw [hx, Option.bind_some, hfirst, Option.bind_some, getElem?_setWaiter hx, Option.bind_some, hsecond]
    rfl

end StatusBoard

end Runs
