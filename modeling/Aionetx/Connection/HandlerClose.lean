import Aionetx.Runs.Waits
import Aionetx.Connection.Tasks

/-!
# Handlers that close connections

* `World.Waits` : a handler call is inside a `close()` that awaits a deferred waiter, which another one holds up;
* `World.Clear` : the condition on a `close()` call of a handler;
* `World.Untangled` : the invariant of the runs that meet `Clear`;
* `noWaitCycle_of_clear` : in those runs no handler waits for a handler that waits.
-/

namespace Aionetx

/-- The handler call waits for a `close()` call made in this context: it makes the call, or awaits the child task that
does. -/
def HandlerCall.Awaits (h : HandlerCall) (ctx : CloseContext) : Prop :=
  ctx.tokens.head? = some h.token ∧ (ctx.direct ∨ ctx.awaited)

/-- The handler call is for an event with the id of the connection. -/
def HandlerCall.On (s : Settings) (h : HandlerCall) (c : ConnId) : Prop :=
  World.resource? s h.event = some (s.resourceId c)

instance (h : HandlerCall) (ctx : CloseContext) : Decidable (h.Awaits ctx) := by
  unfold HandlerCall.Awaits
  infer_instance

instance (s : Settings) (h : HandlerCall) (c : ConnId) : Decidable (h.On s c) := by
  unfold HandlerCall.On
  infer_instance

namespace ClosePc

def awaitsWaiter : ClosePc → Bool
  | .awaitingWaiter _ => true
  | _ => false

/-- The close task has published the close event through the queue, or awaits its publication. -/
def publishing : ClosePc → Bool
  | .awaitingPublication | .finishing => true
  | _ => false

end ClosePc

/-- The close task does not wait for this handler call: it carries its context, or delivers inline. -/
def CloseTask.Light (t : CloseTask) (h : HandlerCall) : Prop := t.callerUsesInlineDelivery ∨ h.token ∈ t.tokens

instance (t : CloseTask) (h : HandlerCall) : Decidable (t.Light h) := by
  unfold CloseTask.Light
  infer_instance

/-- The same close task, later on. -/
structure CloseTask.Later (t t' : CloseTask) : Prop where
  tokens : t'.tokens = t.tokens
  inline : t'.callerUsesInlineDelivery = t.callerUsesInlineDelivery
  publishing : t.pc.publishing → t'.pc.publishing
  waiter : t'.pc.awaitsWaiter → t.pc.awaitsWaiter

theorem CloseTask.Later.refl (t : CloseTask) : t.Later t := ⟨rfl, rfl, id, id⟩

theorem CloseTask.Later.light {t t' : CloseTask} (h : t.Later t') {a : HandlerCall} : t'.Light a ↔ t.Light a := by
  simp [Light, h.tokens, h.inline]

/-- The same `close()` call, later on: only a call from outside any handler of its target comes to await a deferred
waiter. -/
structure CloseCall.Later (k k' : CloseCall) : Prop where
  ctx : k'.ctx = k.ctx
  target : k'.target = k.target
  origin : k'.handlerOrigin = k.handlerOrigin
  joining : k'.pc = .joining → k.pc = .joining
  waiting : ∀ waiter, k'.pc = .waitingDeferred waiter → k.pc = .waitingDeferred waiter ∨ k.handlerOrigin = false

theorem CloseCall.Later.refl (k : CloseCall) : k.Later k := ⟨rfl, rfl, rfl, id, fun _ => .inl⟩

namespace World

variable {s : Settings} {w w' : World} {c d : ConnId}

/-- The `close()` call awaits a deferred waiter, itself or through the close task. -/
def awaitsWaiter (w : World) (k : CloseCall) : Bool :=
  match k.pc with
  | .waitingDeferred _ => true
  | .joining => (w.conns k.target).closeTask.any fun t => t.pc.awaitsWaiter
  | .joined => false

/-- Handler call `h` waits, via a deferred waiter, for handler call `g` to unwind. -/
def Waits (s : Settings) (w : World) (h g : HandlerCall) : Prop :=
  h ∈ w.active ∧ g ∈ w.active ∧ ∃ k ∈ w.calls, h.Awaits k.ctx ∧ w.awaitsWaiter k ∧ g.On s k.target

/-- No handler waits for a handler that itself waits, so no cycle of them arises. -/
def NoWaitCycle (s : Settings) (w : World) : Prop :=
  (∀ h g g', w.Waits s h g → ¬ w.Waits s g g') ∧ Runs.DeadlockFree (w.Waits s)

/-- The handler call is inside a `close()` of another connection. -/
def ClosesOther (s : Settings) (w : World) (h : HandlerCall) : Prop :=
  ∃ k ∈ w.calls, h.Awaits k.ctx ∧ ¬ h.On s k.target

/-- A handler of another connection is inside a `close()` of the connection of the handler call. -/
def ClosedByOther (s : Settings) (w : World) (h : HandlerCall) : Prop :=
  ∃ k ∈ w.calls, h.On s k.target ∧ ∃ g ∈ w.active, g.Awaits k.ctx ∧ ¬ g.On s k.target

/-- A handler closes another connection only while no handler of that connection is inside a `close()` of a third one,
and no handler is inside a `close()` of its own connection; and it closes its own connection only while no close task is
under way there that will wait for it. -/
def Clear (s : Settings) (w : World) (a : WorldAct) : Prop :=
  ∀ p ∈ a.close?, ∀ h ∈ w.active, h.Awaits p.2 →
    if h.On s p.1 then
      (w.conns p.1).deferred ∨ ∀ t ∈ (w.conns p.1).closeTask, t.Light h ∨ t.pc.publishing
    else (∀ g ∈ w.active, g.On s p.1 → ¬ w.ClosesOther s g) ∧ ¬ w.ClosedByOther s h

/-- The invariant of the runs that meet `Clear`. -/
structure Untangled (s : Settings) (w : World) : Prop where
  callTokens : ∀ k ∈ w.calls, ∀ token ∈ k.ctx.tokens, token < w.nextToken
  taskTokens : ∀ c, ∀ t ∈ (w.conns c).closeTask, ∀ token ∈ t.tokens, token < w.nextToken
  waiting : ∀ c, ∀ t ∈ (w.conns c).closeTask, t.pc.awaitsWaiter →
    t.callerUsesInlineDelivery = false ∧ ∀ h ∈ w.active, h.On s c → h.token ∉ t.tokens
  own : ∀ k ∈ w.calls, ∀ h ∈ w.active, h.Awaits k.ctx → h.On s k.target → k.handlerOrigin ∧
    (k.pc = .joining → ∃ t ∈ (w.conns k.target).closeTask, t.Light h ∨ t.pc.publishing)
  origin : ∀ k ∈ w.calls, k.handlerOrigin → ∀ waiter, k.pc ≠ .waitingDeferred waiter
  other : ∀ h ∈ w.active, w.ClosesOther s h → ¬ w.ClosedByOther s h

namespace Untangled

theorem noWaitCycle (h : w.Untangled s) : w.NoWaitCycle s := by
  -- a handler that waits is inside a `close()` of another connection
  have hother : ∀ {a b}, w.Waits s a b → ∃ k ∈ w.calls, a.Awaits k.ctx ∧ ¬ a.On s k.target ∧ b.On s k.target := by
    rintro a b ⟨ha, _, k, hk, hak, hw, hb⟩
    refine ⟨k, hk, hak, fun hon => ?_, hb⟩
    obtain ⟨horigin, hjoin⟩ := h.own k hk a ha hak hon
    rcases hpc : k.pc with _ | _ | waiter <;> simp only [awaitsWaiter, hpc] at hw
    · obtain ⟨t, ht, hlight⟩ := hjoin hpc
      have hwait : t.pc.awaitsWaiter := by simpa [Option.mem_def.mp ht] using hw
      obtain ⟨hinline, htok⟩ := h.waiting _ t ht hwait
      rcases hlight with (hlight | hlight) | hpub
      · simp [hinline] at hlight
      · exact htok a ha hon hlight
      · cases hp : t.pc <;> simp_all [ClosePc.publishing, ClosePc.awaitsWaiter]
    · cases hw
    · exact h.origin k hk horigin waiter hpc
  have hpath : ∀ a b e, w.Waits s a b → ¬ w.Waits s b e := by
    intro a b e hab hbe
    obtain ⟨k, hk, hak, hne, hon⟩ := hother hab
    obtain ⟨k', hk', hbk', hne', _⟩ := hother hbe
    exact h.other b hab.2.1 ⟨k', hk', hbk', hne'⟩ ⟨k, hk, hon, a, hab.1, hak, hne⟩
  exact ⟨hpath, Runs.deadlockFree_of_depth_one hpath⟩

/-! ## What keeps the invariant -/

/-- Handler calls and `close()` calls end or go on, and close tasks go on. -/
theorem of_later (h : w.Untangled s) (ha : ∀ a ∈ w'.active, a ∈ w.active) (hn : w.nextToken ≤ w'.nextToken)
    (hc : ∀ k' ∈ w'.calls, ∃ k ∈ w.calls, k.Later k')
    (ht : ∀ c, ∀ t' ∈ (w'.conns c).closeTask, ∃ t ∈ (w.conns c).closeTask, t.Later t')
    (hj : ∀ k' ∈ w'.calls, k'.pc = .joining → (w.conns k'.target).closeTask.isSome →
      (w'.conns k'.target).closeTask.isSome) : w'.Untangled s where
  callTokens k' hk' token htok := by
    obtain ⟨k, hk, hl⟩ := hc k' hk'
    exact Nat.lt_of_lt_of_le (h.callTokens k hk token (hl.ctx ▸ htok)) hn
  taskTokens c t' ht' token htok := by
    obtain ⟨t, hmem, hl⟩ := ht c t' ht'
    exact Nat.lt_of_lt_of_le (h.taskTokens c t hmem token (hl.tokens ▸ htok)) hn
  waiting c t' ht' hw := by
    obtain ⟨t, hmem, hl⟩ := ht c t' ht'
    rw [hl.inline, hl.tokens]
    exact (h.waiting c t hmem (hl.waiter hw)).imp_right fun htok a hact => htok a (ha a hact)
  own k' hk' a hact haw hon := by
    obtain ⟨k, hk, hl⟩ := hc k' hk'
    obtain ⟨horigin, hjoin⟩ := h.own k hk a (ha a hact) (hl.ctx ▸ haw) (hl.target ▸ hon)
    refine ⟨hl.origin ▸ horigin, fun hpc => ?_⟩
    obtain ⟨t, hmem, hlight⟩ := hjoin (hl.joining hpc)
    obtain ⟨t', ht'⟩ := Option.isSome_iff_exists.mp (hj k' hk' hpc (by rw [hl.target]; exact Option.isSome_of_mem hmem))
    obtain ⟨t₁, hmem₁, hl₁⟩ := ht _ t' ht'
    rw [hl.target] at hmem₁
    obtain rfl := Option.mem_unique hmem hmem₁
    exact ⟨t', ht', hlight.imp (by rw [hl₁.light]; exact id) hl₁.publishing⟩
  origin k' hk' horigin waiter hpc := by
    obtain ⟨k, hk, hl⟩ := hc k' hk'
    have horigin : k.handlerOrigin := hl.origin ▸ horigin
    exact h.origin k hk horigin waiter ((hl.waiting waiter hpc).resolve_right (by simp [horigin]))
  other a hact hco hcb := by
    refine h.other a (ha a hact) ?_ ?_
    · obtain ⟨k', hk', haw, hne⟩ := hco
      obtain ⟨k, hk, hl⟩ := hc k' hk'
      exact ⟨k, hk, hl.ctx ▸ haw, hl.target ▸ hne⟩
    · obtain ⟨k', hk', hon, b, hb, haw, hne⟩ := hcb
      obtain ⟨k, hk, hl⟩ := hc k' hk'
      exact ⟨k, hk, hl.target ▸ hon, b, ha b hb, hl.ctx ▸ haw, hl.target ▸ hne⟩

theorem setConn (h : w.Untangled s) {conn : Conn}
    (ht : ∀ t' ∈ conn.closeTask, ∃ t ∈ (w.conns c).closeTask, t.Later t')
    (hs : (w.conns c).closeTask.isSome → conn.closeTask.isSome) : (w.setConn c conn).Untangled s := by
  refine h.of_later (fun _ => id) (Nat.le_refl _) (fun k hk => ⟨k, hk, .refl k⟩) (fun d t' ht' => ?_) fun k _ _ hsome => ?_
  · rcases eq_or_ne d c with rfl | hne
    · rw [setConn_self] at ht'; exact ht t' ht'
    · rw [setConn_of_ne hne] at ht'; exact ⟨t', ht', .refl t'⟩
  · rcases eq_or_ne k.target c with he | hne
    · rw [he, setConn_self]; exact hs (he ▸ hsome)
    · rw [setConn_of_ne hne]; exact hsome

/-- A connection changes, but for its close task. -/
theorem setConn_frame (h : w.Untangled s) {conn : Conn} (ht : conn.closeTask = (w.conns c).closeTask) :
    (w.setConn c conn).Untangled s :=
  h.setConn (fun t' ht' => ⟨t', ht ▸ ht', .refl t'⟩) (by rw [ht]; exact id)

theorem setPc (h : w.Untangled s) {t : CloseTask} (ht : (w.conns c).closeTask = some t) {conn : Conn} {pc : ClosePc}
    (hconn : conn.closeTask = some { t with pc }) (hp : t.pc.publishing → pc.publishing) (hw : pc.awaitsWaiter = false) :
    (w.setConn c conn).Untangled s := by
  refine h.setConn (fun t' ht' => ⟨t, ht, ?_⟩) (by simp [hconn])
  rw [hconn] at ht'
  obtain rfl := (Option.mem_some.mp ht').symm
  exact ⟨rfl, rfl, hp, by simp [hw]⟩

theorem append (h : w.Untangled s) (e : Event) : (w.append e).Untangled s := { h with }

theorem receive (h : w.Untangled s) (data : Bytes) : (w.receive c data).Untangled s := { h with }

theorem endCall (h : w.Untangled s) (k : HandlerCall) : (w.endCall k).Untangled s :=
  h.of_later (fun _ => List.mem_of_mem_filter) (Nat.le_refl _) (fun k hk => ⟨k, hk, .refl k⟩)
    (fun _ t ht => ⟨t, ht, .refl t⟩) fun _ _ _ hs => hs

/-- A handler call that starts waits for nothing, and no context holds its token. -/
theorem beginCall (h : w.Untangled s) (t : TaskId) (e : Event) : (w.beginCall t e).Untangled s := by
  have hfresh : ∀ k ∈ w.calls, ¬ HandlerCall.Awaits ⟨w.nextToken, t, e⟩ k.ctx := fun k hk haw =>
    Nat.lt_irrefl _ (h.callTokens k hk _ (List.mem_of_mem_head? haw.1))
  have hactive : ∀ a ∈ (w.beginCall t e).active, a ∈ w.active ∨ a = ⟨w.nextToken, t, e⟩ := fun a ha => by
    simpa using List.mem_append.mp ha
  exact
  { callTokens := fun k hk token htok => Nat.lt_succ_of_lt (h.callTokens k hk token htok)
    taskTokens := fun c t ht token htok => Nat.lt_succ_of_lt (h.taskTokens c t ht token htok)
    waiting := fun c t' ht' hw => (h.waiting c t' ht' hw).imp_right fun htok a hact hon => by
      rcases hactive a hact with hact | rfl
      · exact htok a hact hon
      · exact fun hmem => Nat.lt_irrefl _ (h.taskTokens c t' ht' _ hmem)
    own := fun k hk a hact haw hon => by
      rcases hactive a hact with hact | rfl
      · exact h.own k hk a hact haw hon
      · exact absurd haw (hfresh k hk)
    origin := h.origin
    other := fun a hact hco hcb => by
      rcases hactive a hact with hact | rfl
      · refine h.other a hact hco ?_
        obtain ⟨k, hk, hon, b, hb, haw, hne⟩ := hcb
        rcases hactive b hb with hb | rfl
        · exact ⟨k, hk, hon, b, hb, haw, hne⟩
        · exact absurd haw (hfresh k hk)
      · obtain ⟨k, hk, haw, _⟩ := hco
        exact hfresh k hk haw }

/-- A close task is created: no `close()` call of a handler on its own connection is joining one yet. -/
theorem newTask (h : w.Untangled s) (hnone : (w.conns c).closeTask = none) {conn : Conn} {t : CloseTask}
    (hconn : conn.closeTask = some t) (ht : ∀ token ∈ t.tokens, token < w.nextToken) (hpc : t.pc = .created) :
    (w.setConn c conn).Untangled s :=
  { h with
    taskTokens := fun d t' ht' => by
      rcases eq_or_ne d c with rfl | hne
      · rw [setConn_self, hconn, Option.mem_some] at ht'; exact ht' ▸ ht
      · rw [setConn_of_ne hne] at ht'; exact h.taskTokens d t' ht'
    waiting := fun d t' ht' hw => by
      rcases eq_or_ne d c with rfl | hne
      · rw [setConn_self, hconn, Option.mem_some] at ht'
        rw [← ht', hpc] at hw
        cases hw
      · rw [setConn_of_ne hne] at ht'; exact h.waiting d t' ht' hw
    own := fun k hk a hact haw hon => (h.own k hk a hact haw hon).imp_right fun hjoin hj => by
      obtain ⟨t', ht', hlight⟩ := hjoin hj
      rcases eq_or_ne k.target c with he | hne
      · rw [he, hnone] at ht'; cases ht'
      · exact ⟨t', by rwa [setConn_of_ne hne], hlight⟩ }

theorem requestClose (h : w.Untangled s) (ctx : CloseContext) (ht : ∀ token ∈ ctx.tokens, token < w.nextToken)
    {conn : Conn} (hconn : conn.closeTask = ((w.conns c).requestClose ctx).closeTask) : (w.setConn c conn).Untangled s := by
  unfold Conn.requestClose at hconn
  split at hconn
  · exact h.setConn_frame hconn
  · next hnone => exact h.newTask (by simpa using hnone) hconn ht rfl

theorem close (h : w.Untangled s) {ctx : CloseContext} (ht : ∀ token ∈ ctx.tokens, token < w.nextToken) :
    (w.close s ctx c).1.Untangled s := by
  rcases close_spec (s := s) (w := w) (c := c) ctx with he | ⟨he, _⟩
  · rw [he]; exact h
  · rw [he]; exact h.requestClose ctx ht rfl

/-- A `close()` call that awaits the close task has requested the close, and no deferral lets it return at once. -/
theorem close_awaits {ctx : CloseContext} (ha : (w.close s ctx c).2 = true) :
    (w.close s ctx c).1 = w.setConn c ((w.conns c).requestClose ctx) ∧
      ¬ ((w.conns c).deferred ∧ w.inheritsHandlerOriginContext s ctx.tokens c) := by
  unfold World.close at ha ⊢
  dsimp only at ha ⊢
  split_ifs at ha ⊢ with _ _ _ hd
  exact ⟨rfl, hd⟩

theorem inherits_of_awaits {a : HandlerCall} (ha : a ∈ w.active) {ctx : CloseContext} (haw : a.Awaits ctx)
    (hon : a.On s c) : w.inheritsHandlerOriginContext s ctx.tokens c :=
  List.any_eq_true.mpr ⟨a, ha, by
    rw [Bool.and_eq_true, List.contains_iff_mem, decide_eq_true_iff]
    exact ⟨List.mem_of_mem_head? haw.1, hon⟩⟩

/-- The calls of a handler that `Clear` lets through. -/
theorem addCall (h : w.Untangled s) {k : CloseCall} (ht : ∀ token ∈ k.ctx.tokens, token < w.nextToken)
    (hpc : k.pc = .joining)
    (hown : ∀ a ∈ w.active, a.Awaits k.ctx → a.On s k.target → k.handlerOrigin ∧
      ∃ t ∈ (w.conns k.target).closeTask, t.Light a ∨ t.pc.publishing)
    (hother : ∀ a ∈ w.active, a.Awaits k.ctx → ¬ a.On s k.target →
      (∀ g ∈ w.active, g.On s k.target → ¬ w.ClosesOther s g) ∧ ¬ w.ClosedByOther s a) :
    ({ w with calls := w.calls ++ [k] } : World).Untangled s := by
  have hcalls : ∀ k' ∈ w.calls ++ [k], k' ∈ w.calls ∨ k' = k := fun k' hk' => by simpa using List.mem_append.mp hk'
  exact
  { h with
    callTokens := fun k' hk' => by
      rcases hcalls k' hk' with hk' | rfl
      · exact h.callTokens k' hk'
      · exact ht
    own := fun k' hk' a ha haw hon => by
      rcases hcalls k' hk' with hk' | rfl
      · exact h.own k' hk' a ha haw hon
      · exact (hown a ha haw hon).imp_right fun hlight _ => hlight
    origin := fun k' hk' horigin => by
      rcases hcalls k' hk' with hk' | rfl
      · exact h.origin k' hk' horigin
      · simp [hpc]
    other := fun a ha hco hcb => by
      obtain ⟨k₁, hk₁, haw₁, hne₁⟩ := hco
      obtain ⟨k₂, hk₂, hon₂, b, hb, haw₂, hne₂⟩ := hcb
      rcases hcalls k₁ hk₁ with hmem₁ | rfl <;> rcases hcalls k₂ hk₂ with hmem₂ | rfl
      · exact h.other a ha ⟨k₁, hmem₁, haw₁, hne₁⟩ ⟨k₂, hmem₂, hon₂, b, hb, haw₂, hne₂⟩
      -- the new call closes the connection of a handler that closes another one
      · exact (hother b hb haw₂ hne₂).1 a ha hon₂ ⟨k₁, hmem₁, haw₁, hne₁⟩
      -- a handler that is closed by another one makes the new call
      · exact (hother a ha haw₁ hne₁).2 ⟨k₂, hmem₂, hon₂, b, hb, haw₂, hne₂⟩
      · exact hne₁ hon₂ }

theorem userClose (h : w.Untangled s) {ctx : CloseContext} (ht : ∀ token ∈ ctx.tokens, token < w.nextToken)
    (hok : Clear s w (.close c ctx)) : (w.userClose s ctx c).Untangled s := by
  unfold World.userClose
  dsimp only
  split
  · next hawaits =>
    obtain ⟨he, hdef⟩ := close_awaits hawaits
    rw [he]
    refine (h.requestClose ctx ht rfl).addCall ht rfl (fun a ha haw hon => ?_) fun a ha haw hne => ?_
    · have hinh := inherits_of_awaits ha haw hon
      refine ⟨hinh, ?_⟩
      have hclear := hok _ rfl a ha haw
      rw [if_pos hon] at hclear
      have htask := hclear.resolve_left fun hd => hdef ⟨hd, hinh⟩
      rw [setConn_self]
      unfold Conn.requestClose
      split
      · next hsome =>
        obtain ⟨t, htm⟩ := Option.isSome_iff_exists.mp hsome
        exact ⟨t, htm, htask t htm⟩
      · exact ⟨_, rfl, .inl (.inr (List.mem_of_mem_head? haw.1))⟩
    · have hclear := hok _ rfl a ha haw
      rwa [if_neg hne] at hclear
  · exact h.close ht

theorem resolveWaiter (h : w.Untangled s) (captured : Option Nat) : (w.resolveWaiter c captured).Untangled s := by
  have hconn : (w.setConn c ((w.conns c).resolveWaiter captured)).Untangled s := by
    unfold Conn.resolveWaiter
    split
    · split
      · refine h.setConn (fun t' ht' => ?_) (by simp)
        obtain ⟨t, ht, rfl⟩ := Option.mem_map.mp ht'
        refine ⟨t, ht, rfl, rfl, ?_, ?_⟩ <;> cases t.pc <;> simp [ClosePc.waiterDone, ClosePc.publishing, ClosePc.awaitsWaiter]
      · exact h.setConn_frame rfl
    · exact h.setConn_frame rfl
  exact hconn.of_later (fun _ => id) (Nat.le_refl _) (fun k hk => ⟨k, List.mem_of_mem_filter hk, .refl k⟩)
    (fun _ t ht => ⟨t, ht, .refl t⟩) fun _ _ _ hs => hs

theorem finishClose (h : w.Untangled s) : (w.finishClose c).Untangled s := by
  refine h.of_later (fun _ => id) (Nat.le_refl _) (fun k' hk' => ?_) (fun d t' ht' => ?_) fun k' hk' hpc hsome => ?_
  · obtain ⟨k, hk, rfl⟩ := List.mem_map.mp hk'
    refine ⟨k, hk, ?_⟩
    split
    · exact ⟨rfl, rfl, rfl, nofun, nofun⟩
    · exact .refl k
  · rcases eq_or_ne d c with rfl | hne
    · simp [World.finishClose] at ht'
    · exact ⟨t', by simpa [World.finishClose, setConn_of_ne hne] using ht', .refl t'⟩
  · obtain ⟨k, hk, rfl⟩ := List.mem_map.mp hk'
    split at hpc
    · cases hpc
    · next hj =>
      rw [if_neg hj] at hsome ⊢
      have hne : k.target ≠ c := fun he => hj ⟨he, hpc⟩
      simpa [World.finishClose, setConn_of_ne hne] using hsome

theorem dropQueuedEvents (h : w.Untangled s) : (w.dropQueuedEventsForResource s c).Untangled s := { h with }

/-! ## The stretches of code -/

theorem startClose (h : w.Untangled s) : (w.startClose s c).Untangled s :=
  close (h.setConn_frame (by rfl)) (by simp)

theorem startCall (h : w.Untangled s) : (w.startCall c).Untangled s := by
  unfold World.startCall
  dsimp only
  split <;> exact h.setConn_frame rfl

theorem startOpen (h : w.Untangled s) : (w.startOpen s c).Untangled s := by
  unfold World.startOpen
  dsimp only
  split
  · exact h.setConn_frame rfl
  · split
    · exact (h.setConn_frame (by rfl)).beginCall _ _
    · exact h.setConn_frame rfl

theorem startPublish (h : w.Untangled s) (opened : Bool) : (w.startPublish c opened).Untangled s := by
  unfold World.startPublish
  dsimp only
  split_ifs
  · exact h.setConn_frame rfl
  · exact (h.setConn_frame (by rfl)).resolveWaiter _
  · exact h.setConn_frame (Conn.finalizeClose_closeTask _ _)

theorem startSettle (h : w.Untangled s) (opened : Bool) (result : PublishResult) :
    (w.startSettle s c opened result).Untangled s := by
  unfold World.startSettle
  dsimp only
  split
  · exact h.setConn_frame rfl
  · split <;> exact h.setConn_frame rfl
  · exact h.startClose

theorem publisherRun (h : w.Untangled s) : (w.publisherRun c).Untangled s := by
  unfold World.publisherRun
  dsimp only
  split_ifs
  · exact h.setConn_frame rfl
  · exact (h.setConn_frame (by rfl)).resolveWaiter _
  · exact h.setConn_frame (Conn.finalizeClose_closeTask _ _)

theorem readFinally (h : w.Untangled s) : (w.readFinally s c).Untangled s := by
  rw [readFinally_eq]
  split
  · exact h.setConn_frame rfl
  · exact h.requestClose { task := .read c } (by simp) rfl

theorem readLoop (h : w.Untangled s) : (w.readLoop s c).Untangled s := by
  unfold World.readLoop
  dsimp only
  split
  · exact h.setConn_frame rfl
  · exact h.readFinally

theorem afterReadEmit (h : w.Untangled s) (e : ReadEvent) : (w.afterReadEmit s c e).Untangled s := by
  cases e
  · exact h.readLoop
  · exact h.readFinally

theorem readEmit (h : w.Untangled s) (e : ReadEvent) : (w.readEmit s c e).Untangled s := by
  unfold World.readEmit
  split
  · exact (h.setConn_frame (by rfl)).beginCall _ _
  · exact h.setConn_frame rfl

theorem finishPublication (h : w.Untangled s) (ok : Bool) : (w.setConn c ((w.conns c).finishPublication ok)).Untangled s := by
  refine h.setConn (fun t' ht' => ?_) (by simp [Conn.finishPublication])
  obtain ⟨t, ht, rfl⟩ := Option.mem_map.mp ht'
  refine ⟨t, ht, rfl, rfl, ?_, ?_⟩ <;> cases t.pc <;>
    simp [ClosePc.publicationDone, ClosePc.publishing, ClosePc.awaitsWaiter]

/-- The close task comes to await the deferred waiter: it carries no context of an active handler of the connection. -/
theorem awaitWaiter (h : w.Untangled s) {t : CloseTask} (ht : (w.conns c).closeTask = some t) {conn : Conn} {waiter : Nat}
    (hconn : conn.closeTask = some { t with pc := .awaitingWaiter waiter }) (hpc : t.pc.publishing = false)
    (hinline : t.callerUsesInlineDelivery = false) (hinh : w.inheritsHandlerOriginContext s t.tokens c = false) :
    (w.setConn c conn).Untangled s := by
  have htok : ∀ a ∈ w.active, a.On s c → a.token ∉ t.tokens := fun a ha hon hmem => by
    have := List.any_eq_false.mp hinh a ha
    rw [Bool.and_eq_true, List.contains_iff_mem, decide_eq_true_iff] at this
    exact this ⟨hmem, hon⟩
  exact
  { h with
    taskTokens := fun d t' ht' => by
      rcases eq_or_ne d c with rfl | hne
      · rw [setConn_self, hconn, Option.mem_some] at ht'; exact ht' ▸ h.taskTokens d t ht
      · rw [setConn_of_ne hne] at ht'; exact h.taskTokens d t' ht'
    waiting := fun d t' ht' hw => by
      rcases eq_or_ne d c with rfl | hne
      · rw [setConn_self, hconn, Option.mem_some] at ht'; exact ht' ▸ ⟨hinline, htok⟩
      · rw [setConn_of_ne hne] at ht'; exact h.waiting d t' ht' hw
    own := fun k hk a hact haw hon => (h.own k hk a hact haw hon).imp_right fun hjoin hj => by
      obtain ⟨t', ht', hlight⟩ := hjoin hj
      rcases eq_or_ne k.target c with he | hne
      · rw [he, ht, Option.mem_some] at ht'
        subst ht'
        rcases hlight with (hlight | hlight) | hpub
        · simp [hinline] at hlight
        · exact absurd hlight (htok a hact (he ▸ hon))
        · simp [hpc] at hpub
      · exact ⟨t', by rwa [setConn_of_ne hne], hlight⟩ }

theorem deferOrPublish (h : w.Untangled s) {t : CloseTask} (ht : (w.conns c).closeTask = some t)
    (hpc : t.pc.publishing = false) : (w.deferOrPublish s c t).Untangled s := by
  unfold World.deferOrPublish
  dsimp only
  split_ifs
  · exact (h.setConn_frame (by rfl)).dropQueuedEvents.finishClose
  · next hn =>
    simp only [Bool.not_eq_true, Bool.or_eq_false_iff] at hn
    exact (h.awaitWaiter ht (by rfl) hpc hn.1.2 hn.2).dropQueuedEvents
  · exact h.dropQueuedEvents.finishClose
  · exact h.dropQueuedEvents.setPc ht rfl (by simp [hpc]) rfl

theorem runClose (h : w.Untangled s) {t : CloseTask} (ht : (w.conns c).closeTask = some t) (hpc : t.pc = .created) :
    (w.runClose s c t).Untangled s := by
  have hp : t.pc.publishing = false := by rw [hpc]; rfl
  unfold World.runClose
  dsimp only
  split
  · have hw : ∃ w₁, (if w.hasActiveHandlerContext s c then w.dropQueuedEventsForResource s c else w) = w₁ ∧
        w₁.Untangled s ∧ w₁.conns = w.conns := by
      split
      · exact ⟨_, rfl, h.dropQueuedEvents, rfl⟩
      · exact ⟨_, rfl, h, rfl⟩
    obtain ⟨w₁, he, h₁, hconns⟩ := hw
    rw [he]
    split <;> exact h₁.setPc (by rwa [hconns]) rfl (by simp [hp]) rfl
  · exact h.deferOrPublish ht hp

theorem resume (h : w.Untangled s) (t : TaskId) (raised : Bool) : (w.resume s t raised).Untangled s := by
  have hw : ({ w with worker := none } : World).Untangled s := { h with }
  rcases t with _ | d | d | d | n
  · simp only [World.resume]
    split
    · split
      · exact hw.setConn_frame rfl
      · exact hw
    · exact hw
  · exact h.setConn_frame rfl
  · simp only [World.resume]
    split
    · split
      · split
        · exact h.readEmit _
        · exact h.readFinally
      · exact h.afterReadEmit _
    · exact h
  · exact h.finishPublication _
  · exact h

theorem handlerDone (h : w.Untangled s) {k : HandlerCall} {outcome : HandlerOutcome}
    (hs : w.handlerDone s k outcome = some w') : w'.Untangled s := by
  have hr : ∀ t raised, ((w.endCall k).resume s t raised).Untangled s := (h.endCall k).resume
  unfold World.handlerDone at hs
  dsimp only at hs
  split at hs
  · cases hs; exact hr _ _
  · split at hs
    · cases hs; exact hr _ _
    · cases hs; exact hr _ _
    · cases hs
  · split at hs
    · cases hs; exact hr _ _
    · cases hs; exact hr _ _
    · split at hs
      · cases hs; exact hr _ _
      · cases hs; exact (h.endCall k).beginCall _ _
    · cases hs

/-- Every action that meets `Clear` keeps the invariant. -/
theorem step (h : w.Untangled s) {a : WorldAct} (hok : Clear s w a) (hs : Step s w a w') : w'.Untangled s := by
  cases hs
  case start => exact h.startCall
  case readyReturned => exact h.startOpen
  case readyRaised => exact h.startClose
  case startEnqueueTurn => exact (h.append _).setConn_frame rfl
  case startCancelled => exact h.setConn_frame rfl
  case startHandled => exact h.setConn_frame rfl
  case startPublish => exact h.startPublish _
  case startPublished => exact (h.setConn_frame (by rfl)).resolveWaiter _
  case startSettled => exact h.startSettle _ _
  case readRun => exact h.readLoop
  case readReturned => exact (h.receive _).readEmit _
  case readEof => exact h.readFinally
  case readRaised => exact h.readEmit _
  case readEnqueueTurn => exact (h.append _).afterReadEmit _
  case close hc => exact h.userClose (validContext_tokens hc) hok
  case closeResumed hc =>
    refine h.of_later (fun _ => id) (Nat.le_refl _) (fun k' hk' => ?_) (fun _ t ht => ⟨t, ht, .refl t⟩)
      fun _ _ _ hsome => hsome
    rcases hc k' hk' with hk | ⟨k, hk, horigin, waiter, rfl⟩
    · exact ⟨k', hk, .refl k'⟩
    · exact ⟨k, hk, rfl, rfl, rfl, nofun, fun _ _ => .inr horigin⟩
  case closeRun ht hpc => exact h.runClose ht hpc
  case closeReadDone ht hpc _ => exact h.setPc ht rfl (by simp [hpc, ClosePc.publishing]) rfl
  case closeWriterDone ht hpc => exact h.setPc ht rfl (by simp [hpc, ClosePc.publishing]) rfl
  case closeCallbackReturned ht hpc => exact h.deferOrPublish ht (by rw [hpc]; rfl)
  case closeFinished => exact h.finishClose
  case publicationInline => exact (h.setConn_frame (by rfl)).beginCall _ _
  case publicationBackground => exact h.setConn_frame rfl
  case publicationEnqueueTurn => exact (h.append _).finishPublication _
  case publisherRun => exact h.publisherRun
  case publisherPublished => exact (h.setConn_frame (by rfl)).resolveWaiter _
  case workerTake e rest _ _ _ =>
    have hw : ({ w with worker := some e, queue := rest } : World).Untangled s := { h with }
    exact hw.beginCall _ _
  case emitInline => exact h.beginCall _ _
  case emitBackground => exact h.append _
  case handlerDone hf => exact h.handlerDone hf

end Untangled

instance (h g : HandlerCall) : Decidable (w.Waits s h g) := by
  unfold Waits
  infer_instance

instance (h : HandlerCall) : Decidable (w.ClosesOther s h) := by
  unfold ClosesOther
  infer_instance

instance (h : HandlerCall) : Decidable (w.ClosedByOther s h) := by
  unfold ClosedByOther
  infer_instance

instance (a : WorldAct) : Decidable (Clear s w a) := by
  unfold Clear
  infer_instance

end World

/-- Connections with ids of their own, in INLINE mode. -/
def inlineDelivery : Settings := { delivery := { dispatchMode := .inline }, resourceId := id }

/-- Connection `c` is opened and reads; `n` is the token of its opened handler. -/
def opened (c : ConnId) (n : Token) : List WorldAct :=
  [.start c, .readyReturned c, .handlerDone n .returned, .startPublish c, .startSettled c, .readRun c]

/-- The payload handlers of connections 0 and 1 run, and the first closes the connection of the second, which returns. -/
def closeFromHandler : List WorldAct :=
  opened 0 0 ++ opened 1 1 ++ [.readReturned 0 [1], .readReturned 1 [1],
    .close 1 { task := .read 0, tokens := [2], direct := true }, .closeRun 1, .closeWriterDone 1,
    .closeCallbackReturned 1, .closeResumed 0]

end Aionetx
