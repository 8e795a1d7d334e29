import Aionetx.Dispatcher.Origins

/-!
# Handler-origin provenance

The containers and `current_task_has_handler_origin_context()` are right in every run: tokens are never used again, and
the owner is compared by an `id()` that no other live task has. The dispatch mark is compared by two `id()` values that
the inherited context keeps after their objects are gone, and the pair of a dispatcher's `id()` and a token is taken
again by a later dispatcher at the same address.

* `Provenance.Kept` : what every run keeps, with `Kept.step`; `kept_of_reachable`;
* `Provenance.Fresh` : no context entry names the wrong object, with `Fresh.step` for the actions that meet `NoStale`;
* `Provenance.sound_of_noStale` : the runs whose steps all meet it are sound.
-/

namespace Aionetx

/-! ## Every run -/

/-- The contexts of a task are those of the calls it is in, on top of what it inherited. -/
def Nested (addr : Nat) (inherited : Finset (Nat × Nat)) :
    List HandlerFrame → Finset (Nat × Nat) → Finset (Nat × Nat) → Prop
  | [], dispatch, _ => dispatch = inherited
  | f :: rest, dispatch, origin =>
    dispatch = f.kind.dispatchContext f.addr addr f.savedDispatch ∧ origin = insert (f.addr, f.token) f.savedOrigin ∧
      Nested addr inherited rest f.savedDispatch f.savedOrigin

theorem CallKind.mem_dispatchContext {kind : CallKind} {a b : Nat} {saved : Finset (Nat × Nat)} {p : Nat × Nat}
    (h : p ∈ kind.dispatchContext a b saved) : p = (a, b) ∨ p ∈ saved := by
  cases kind with
  | handler => exact Finset.mem_insert.mp h
  | stopCallback => exact .inr h

theorem CallKind.subset_dispatchContext (kind : CallKind) (a b : Nat) (saved : Finset (Nat × Nat)) :
    saved ⊆ kind.dispatchContext a b saved := by
  cases kind with
  | handler => exact Finset.subset_insert _ _
  | stopCallback => exact Finset.Subset.refl _

/-- Every mark in the dispatch context is inherited or that of a call the task is in. -/
theorem Nested.mem {addr : Nat} {inherited dispatch origin : Finset (Nat × Nat)} {frames : List HandlerFrame}
    (h : Nested addr inherited frames dispatch origin) {p : Nat × Nat} (hp : p ∈ dispatch) :
    p ∈ inherited ∨ ∃ f ∈ frames, p = (f.addr, addr) := by
  induction frames generalizing dispatch origin with
  | nil => exact .inl (h ▸ hp)
  | cons f rest ih =>
    obtain ⟨rfl, -, hrest⟩ := h
    rcases CallKind.mem_dispatchContext hp with rfl | hp
    · exact .inr ⟨f, List.mem_cons_self, rfl⟩
    · exact (ih hrest hp).imp_right fun ⟨g, hg, he⟩ => ⟨g, List.mem_cons_of_mem _ hg, he⟩

theorem Nested.inherited_subset {addr : Nat} {inherited dispatch origin : Finset (Nat × Nat)}
    {frames : List HandlerFrame} (h : Nested addr inherited frames dispatch origin) : inherited ⊆ dispatch := by
  induction frames generalizing dispatch origin with
  | nil => exact h ▸ Finset.Subset.refl _
  | cons f rest ih =>
    obtain ⟨rfl, -, hrest⟩ := h
    exact (ih hrest).trans (f.kind.subset_dispatchContext ..)

/-- An entry of a table after one entry is written. -/
theorem eq_some_of_update_some {α : Type} {m : Nat → Option α} {i j : Nat} {x y : α}
    (h : Function.update m i (some x) j = some y) : (j = i ∧ y = x) ∨ (j ≠ i ∧ m j = some y) := by
  by_cases hj : j = i
  · subst hj
    rw [Function.update_self] at h
    exact .inl ⟨rfl, (Option.some.inj h).symm⟩
  · rw [Function.update_of_ne hj] at h
    exact .inr ⟨hj, h⟩

/-- An entry of a table after one entry is cleared. -/
theorem eq_some_of_update_none {α : Type} {m : Nat → Option α} {i j : Nat} {y : α}
    (h : Function.update m i none j = some y) : j ≠ i ∧ m j = some y := by
  by_cases hj : j = i
  · subst hj
    rw [Function.update_self] at h
    cases h
  · rw [Function.update_of_ne hj] at h
    exact ⟨hj, h⟩

namespace Provenance

/-- Live objects have numbers below the next ones, and no two of a kind have one `id()`. -/
structure Named (s : Provenance) : Prop where
  tasks_lt : ∀ t T, s.tasks t = some T → t < s.nextTask
  dispatchers_lt : ∀ d D, s.dispatchers d = some D → d < s.nextDispatcher
  tasks_addr : ∀ t T t' T', s.tasks t = some T → s.tasks t' = some T' → T.addr = T'.addr → t = t'
  dispatchers_addr : ∀ d D d' D', s.dispatchers d = some D → s.dispatchers d' = some D' → D.addr = D'.addr → d = d'

/-- What every run keeps, whatever `id()` is given out. -/
structure Kept (s : Provenance) : Prop extends Named s where
  live : ∀ t a f, s.InCall t a f →
    ∃ D, s.dispatchers f.dispatcher = some D ∧ D.addr = f.addr ∧ f.token ≤ D.nextHandlerOriginToken
  keys : ∀ t T, s.tasks t = some T → (T.frames.map HandlerFrame.key).Nodup
  owner : ∀ t a f t' a' f', s.InCall t a f → s.InCall t' a' f' → f.key = f'.key → t = t'
  nested : ∀ t T, s.tasks t = some T → Nested T.addr T.inherited T.frames T.handlerDispatchContext T.handlerOriginContext
  exact : ∀ d D, s.dispatchers d = some D → s.Exact d D

variable {s s' : Provenance}

/-- Objects that were there before, under their old `id()`, keep the names in order. -/
theorem Named.of_old (h : s.Named) (hnext : s'.nextTask = s.nextTask) (hnextD : s'.nextDispatcher = s.nextDispatcher)
    (ht : ∀ t T, s'.tasks t = some T → ∃ U, s.tasks t = some U ∧ U.addr = T.addr)
    (hd : ∀ d D, s'.dispatchers d = some D → ∃ E, s.dispatchers d = some E ∧ E.addr = D.addr) : s'.Named where
  tasks_lt t T hT := by
    obtain ⟨U, hU, -⟩ := ht t T hT
    exact hnext ▸ h.tasks_lt t U hU
  dispatchers_lt d D hD := by
    obtain ⟨E, hE, -⟩ := hd d D hD
    exact hnextD ▸ h.dispatchers_lt d E hE
  tasks_addr t T u U hT hU he := by
    obtain ⟨T', hT', htT⟩ := ht t T hT
    obtain ⟨U', hU', huU⟩ := ht u U hU
    exact h.tasks_addr t T' u U' hT' hU' (htT.trans (he.trans huU.symm))
  dispatchers_addr d D e E hD hE he := by
    obtain ⟨D', hD', hdD⟩ := hd d D hD
    obtain ⟨E', hE', heE⟩ := hd e E hE
    exact h.dispatchers_addr d D' e E' hD' hE' (hdD.trans (he.trans heE.symm))

/-- Updating one task changes the calls of that task alone. -/
theorem inCall_update {t : Nat} {T' : HandlerTask} (hs : s'.tasks = Function.update s.tasks t (some T')) {t' a : Nat}
    {f : HandlerFrame} :
    s'.InCall t' a f ↔ (t' = t ∧ T'.addr = a ∧ f ∈ T'.frames) ∨ (t' ≠ t ∧ s.InCall t' a f) := by
  unfold InCall
  rw [hs]
  by_cases ht : t' = t
  · subst ht
    simp
  · simp [ht]

theorem Exact.congr {d : Nat} {D : HandlerOrigins} (h : s.Exact d D)
    (he : ∀ t a f, s'.InCall t a f ↔ s.InCall t a f) : s'.Exact d D where
  tokens k := by simp only [he]; exact h.tokens k
  resources r k := by simp only [he]; exact h.resources r k
  owners o k := by simp only [he]; exact h.owners o k
  childProvenance k := by simp only [he]; exact h.childProvenance k

theorem Kept.createDispatcher {addr : Nat} (h : s.Kept)
    (hfree : ∀ d D, s.dispatchers d = some D → D.addr ≠ addr)
    (hs : s' = { s with
      dispatchers := Function.update s.dispatchers s.nextDispatcher (some { addr })
      nextDispatcher := s.nextDispatcher + 1 }) : s'.Kept := by
  subst hs
  have hnew : ∀ t a f, s.InCall t a f → f.dispatcher ≠ s.nextDispatcher := fun t a f hf he => by
    obtain ⟨D, hD, -⟩ := h.live t a f hf
    exact absurd (h.dispatchers_lt _ _ (he ▸ hD)) (Nat.lt_irrefl _)
  refine { h with dispatchers_lt := ?_, dispatchers_addr := ?_, live := ?_, exact := ?_ }
  · intro d D hD
    rcases eq_some_of_update_some hD with ⟨rfl, -⟩ | ⟨-, hD⟩
    · exact Nat.lt_succ_self _
    · exact Nat.lt_succ_of_lt (h.dispatchers_lt d D hD)
  · intro d D d' D' hD hD' he
    rcases eq_some_of_update_some hD with ⟨rfl, rfl⟩ | ⟨-, hD⟩ <;>
      rcases eq_some_of_update_some hD' with ⟨rfl, rfl⟩ | ⟨-, hD'⟩
    · rfl
    · exact absurd he.symm (hfree d' D' hD')
    · exact absurd he (hfree d D hD)
    · exact h.dispatchers_addr d D d' D' hD hD' he
  · intro t a f hf
    obtain ⟨D, hD, hlive⟩ := h.live t a f hf
    exact ⟨D, (Function.update_of_ne (hnew t a f hf) _ _).trans hD, hlive⟩
  · intro d D hD
    rcases eq_some_of_update_some hD with ⟨rfl, rfl⟩ | ⟨-, hD⟩
    · have hnone : ∀ (q : Nat → HandlerFrame → Prop) k, ¬ ∃ t a f, s.InCall t a f ∧ f.key = (s.nextDispatcher, k) ∧ q a f := by
        rintro q k ⟨t, a, f, hf, hk, -⟩
        exact hnew t a f hf (congrArg Prod.fst hk)
      exact
        { tokens := fun k => iff_of_false (Finset.notMem_empty k) (hnone _ k)
          resources := fun r k => iff_of_false nofun (hnone _ k)
          owners := fun o k => iff_of_false nofun (hnone _ k)
          childProvenance := fun k => iff_of_false (Finset.notMem_empty k) (hnone _ k) }
    · exact (h.exact d D hD).congr fun _ _ _ => Iff.rfl

theorem Kept.freeDispatcher {d : Nat} (h : s.Kept) (hidle : ∀ t a f, s.InCall t a f → f.dispatcher ≠ d)
    (hs : s' = { s with dispatchers := Function.update s.dispatchers d none }) : s'.Kept := by
  subst hs
  have hnamed : Named { s with dispatchers := Function.update s.dispatchers d none } :=
    h.toNamed.of_old rfl rfl (fun _ T hT => ⟨T, hT, rfl⟩) fun _ D hD => ⟨D, (eq_some_of_update_none hD).2, rfl⟩
  refine { h with toNamed := hnamed, live := ?_, exact := ?_ }
  · intro t a f hf
    obtain ⟨D, hD, hlive⟩ := h.live t a f hf
    exact ⟨D, (Function.update_of_ne (hidle t a f hf) _ _).trans hD, hlive⟩
  · exact fun e D hD => (h.exact e D (eq_some_of_update_none hD).2).congr fun _ _ _ => Iff.rfl

theorem Kept.inCall_createTask {T' : HandlerTask} (h : s.Kept) (hframes : T'.frames = [])
    (hs : s'.tasks = Function.update s.tasks s.nextTask (some T')) (t a : Nat) (f : HandlerFrame) :
    s'.InCall t a f ↔ s.InCall t a f := by
  rw [inCall_update hs, hframes]
  constructor
  · rintro (⟨-, -, hf⟩ | ⟨-, hf⟩)
    · cases hf
    · exact hf
  · rintro ⟨T, hT, hf⟩
    exact .inr ⟨Nat.ne_of_lt (h.tasks_lt t T hT), T, hT, hf⟩

theorem Kept.createTask {T' : HandlerTask} (h : s.Kept) (hfree : ∀ t T, s.tasks t = some T → T.addr ≠ T'.addr)
    (hframes : T'.frames = []) (hctx : T'.handlerDispatchContext = T'.inherited)
    (hs : s' = { s with tasks := Function.update s.tasks s.nextTask (some T'), nextTask := s.nextTask + 1 }) :
    s'.Kept := by
  have hcalls := h.inCall_createTask hframes (congrArg Provenance.tasks hs)
  subst hs
  refine { h with tasks_lt := ?_, tasks_addr := ?_, live := ?_, keys := ?_, owner := ?_, nested := ?_, exact := ?_ }
  · intro t T hT
    rcases eq_some_of_update_some hT with ⟨rfl, -⟩ | ⟨-, hT⟩
    · exact Nat.lt_succ_self _
    · exact Nat.lt_succ_of_lt (h.tasks_lt t T hT)
  · intro t T u U hT hU he
    rcases eq_some_of_update_some hT with ⟨rfl, rfl⟩ | ⟨-, hold⟩ <;>
      rcases eq_some_of_update_some hU with ⟨rfl, rfl⟩ | ⟨-, hold'⟩
    · rfl
    · exact absurd he.symm (hfree u U hold')
    · exact absurd he (hfree t T hold)
    · exact h.tasks_addr t T u U hold hold' he
  · exact fun t a f hf => h.live t a f ((hcalls t a f).mp hf)
  · intro t T hT
    rcases eq_some_of_update_some hT with ⟨-, rfl⟩ | ⟨-, hT⟩
    · rw [hframes]
      exact List.nodup_nil
    · exact h.keys t T hT
  · exact fun t a f u b g hf hg => h.owner t a f u b g ((hcalls t a f).mp hf) ((hcalls u b g).mp hg)
  · intro t T hT
    rcases eq_some_of_update_some hT with ⟨-, rfl⟩ | ⟨-, hT⟩
    · rw [hframes]
      exact hctx
    · exact h.nested t T hT
  · exact fun d D hD => (h.exact d D hD).congr hcalls

theorem inCall_endTask {t : Nat} (hidle : ∀ T, s.tasks t = some T → T.frames = [])
    (hs : s'.tasks = Function.update s.tasks t none) (u a : Nat) (f : HandlerFrame) :
    s'.InCall u a f ↔ s.InCall u a f := by
  unfold InCall
  rw [hs]
  constructor
  · rintro ⟨T, hT, hf⟩
    exact ⟨T, (eq_some_of_update_none hT).2, hf⟩
  · rintro ⟨T, hT, ha, hf⟩
    refine ⟨T, (Function.update_of_ne ?_ _ _).trans hT, ha, hf⟩
    rintro rfl
    rw [hidle T hT] at hf
    cases hf

theorem Kept.endTask {t : Nat} (h : s.Kept) (hidle : ∀ T, s.tasks t = some T → T.frames = [])
    (hs : s' = { s with tasks := Function.update s.tasks t none }) : s'.Kept := by
  have hcalls := inCall_endTask hidle (congrArg Provenance.tasks hs)
  subst hs
  have hnamed : Named { s with tasks := Function.update s.tasks t none } :=
    h.toNamed.of_old rfl rfl (fun _ T hT => ⟨T, (eq_some_of_update_none hT).2, rfl⟩) fun _ D hD => ⟨D, hD, rfl⟩
  refine { h with toNamed := hnamed, live := ?_, keys := ?_, owner := ?_, nested := ?_, exact := ?_ }
  · exact fun u a f hf => h.live u a f ((hcalls u a f).mp hf)
  · exact fun u T hT => h.keys u T (eq_some_of_update_none hT).2
  · exact fun u a f v b g hf hg => h.owner u a f v b g ((hcalls u a f).mp hf) ((hcalls v b g).mp hg)
  · exact fun u T hT => h.nested u T (eq_some_of_update_none hT).2
  · exact fun d D hD => (h.exact d D hD).congr hcalls

section Calls
variable {d e t a : Nat} {g : HandlerFrame} {P P' : Nat → Prop} {q : Nat → HandlerFrame → Prop}

/-- A call is entered, and its token is listed if it is of the kind. -/
theorem Lists.enter (h : s.Lists d P q)
    (hcalls : ∀ u b f, s'.InCall u b f ↔ s.InCall u b f ∨ (u = t ∧ b = a ∧ f = g))
    (hg : g.dispatcher = d) (hnew : ∀ u b f, s.InCall u b f → f.key ≠ g.key)
    (hP : ∀ k, P' k ↔ (k = g.token ∧ q a g) ∨ (k ≠ g.token ∧ P k)) : s'.Lists d P' q := by
  intro k
  rw [hP k, h k]
  constructor
  · rintro (⟨rfl, hq⟩ | ⟨-, u, b, f, hf, hk, hq⟩)
    · exact ⟨t, a, g, (hcalls _ _ _).mpr (.inr ⟨rfl, rfl, rfl⟩), by rw [HandlerFrame.key, hg], hq⟩
    · exact ⟨u, b, f, (hcalls _ _ _).mpr (.inl hf), hk, hq⟩
  · rintro ⟨u, b, f, hf, hk, hq⟩
    rcases (hcalls _ _ _).mp hf with hf | ⟨rfl, rfl, rfl⟩
    · refine .inr ⟨fun he => hnew u b f hf ?_, u, b, f, hf, hk, hq⟩
      rw [hk, he, HandlerFrame.key, hg]
    · exact .inl ⟨(congrArg Prod.snd hk).symm, hq⟩

theorem Lists.enter_of_ne (h : s.Lists e P q)
    (hcalls : ∀ u b f, s'.InCall u b f ↔ s.InCall u b f ∨ (u = t ∧ b = a ∧ f = g)) (hg : g.dispatcher ≠ e) :
    s'.Lists e P q := by
  intro k
  rw [h k]
  constructor
  · rintro ⟨u, b, f, hf, hk⟩
    exact ⟨u, b, f, (hcalls _ _ _).mpr (.inl hf), hk⟩
  · rintro ⟨u, b, f, hf, hk⟩
    rcases (hcalls _ _ _).mp hf with hf | ⟨-, -, rfl⟩
    · exact ⟨u, b, f, hf, hk⟩
    · exact absurd (congrArg Prod.fst hk.1) hg

theorem Lists.leave (h : s.Lists d P q) (hcalls : ∀ u b f, s'.InCall u b f ↔ s.InCall u b f ∧ f.key ≠ g.key)
    (hg : g.dispatcher = d) (hP : ∀ k, P' k ↔ k ≠ g.token ∧ P k) : s'.Lists d P' q := by
  intro k
  rw [hP k, h k]
  have hkey : ∀ f : HandlerFrame, f.key = (d, k) → (f.key ≠ g.key ↔ k ≠ g.token) := fun f hk => by
    rw [hk, HandlerFrame.key, hg]
    simp
  constructor
  · rintro ⟨hne, u, b, f, hf, hk, hq⟩
    exact ⟨u, b, f, (hcalls _ _ _).mpr ⟨hf, (hkey f hk).mpr hne⟩, hk, hq⟩
  · rintro ⟨u, b, f, hf, hk, hq⟩
    obtain ⟨hf, hne⟩ := (hcalls _ _ _).mp hf
    exact ⟨(hkey f hk).mp hne, u, b, f, hf, hk, hq⟩

theorem Lists.leave_of_ne (h : s.Lists e P q)
    (hcalls : ∀ u b f, s'.InCall u b f ↔ s.InCall u b f ∧ f.key ≠ g.key) (hg : g.dispatcher ≠ e) :
    s'.Lists e P q := by
  intro k
  rw [h k]
  constructor
  · rintro ⟨u, b, f, hf, hk, hq⟩
    refine ⟨u, b, f, (hcalls _ _ _).mpr ⟨hf, fun he => hg ?_⟩, hk, hq⟩
    exact (congrArg Prod.fst (he.symm.trans hk))
  · rintro ⟨u, b, f, hf, hk⟩
    exact ⟨u, b, f, ((hcalls _ _ _).mp hf).1, hk⟩

end Calls

/-- The calls after one is entered: no call had its key. -/
theorem Kept.inCall_enter {t d : Nat} {T : HandlerTask} {D : HandlerOrigins} {kind : CallKind}
    {resource : Option ResourceId} (h : s.Kept) (hT : s.tasks t = some T) (hD : s.dispatchers d = some D)
    (hs : s'.tasks = Function.update s.tasks t (some (T.enter d D kind resource s.nextCall))) :
    ∃ g, (T.enter d D kind resource s.nextCall).frames = g :: T.frames ∧ g.dispatcher = d ∧ g.addr = D.addr ∧
      g.token = D.nextHandlerOriginToken + 1 ∧ g.kind = kind ∧ g.resource = resource ∧
      (∀ u b f, s.InCall u b f → f.key ≠ g.key) ∧
      ∀ u b f, s'.InCall u b f ↔ s.InCall u b f ∨ (u = t ∧ b = T.addr ∧ f = g) := by
  refine ⟨_, rfl, rfl, rfl, rfl, rfl, rfl, fun u b f hf he => ?_, fun u b f => ?_⟩
  · obtain ⟨E, hE, -, hle⟩ := h.live u b f hf
    obtain ⟨hd, htok⟩ := Prod.mk.inj he
    dsimp only at hd htok
    rw [hd, hD] at hE
    cases hE
    omega
  · rw [inCall_update hs]
    constructor
    · rintro (⟨rfl, rfl, hf⟩ | ⟨-, hf⟩)
      · rcases List.mem_cons.mp hf with rfl | hf
        · exact .inr ⟨rfl, rfl, rfl⟩
        · exact .inl ⟨T, hT, rfl, hf⟩
      · exact .inl hf
    · rintro (hf | ⟨rfl, rfl, rfl⟩)
      · by_cases hu : u = t
        · subst hu
          obtain ⟨U, hU, ha, hf⟩ := hf
          rw [hT] at hU
          cases hU
          exact .inl ⟨rfl, ha, List.mem_cons_of_mem _ hf⟩
        · exact .inr ⟨hu, hf⟩
      · exact .inl ⟨rfl, rfl, List.mem_cons_self⟩

/-- The calls after the innermost one of a task is left. -/
theorem Kept.inCall_leave {t : Nat} {T T' : HandlerTask} {g : HandlerFrame} {rest : List HandlerFrame} (h : s.Kept)
    (hT : s.tasks t = some T) (hframes : T.frames = g :: rest)
    (hs : s'.tasks = Function.update s.tasks t (some T')) (ha : T'.addr = T.addr) (hrest : T'.frames = rest)
    (u b : Nat) (f : HandlerFrame) :
    s'.InCall u b f ↔ s.InCall u b f ∧ f.key ≠ g.key := by
  have hg : s.InCall t T.addr g := ⟨T, hT, rfl, hframes ▸ List.mem_cons_self⟩
  have hnodup := h.keys t T hT
  rw [hframes, List.map_cons, List.nodup_cons] at hnodup
  rw [inCall_update hs, ha, hrest]
  constructor
  · rintro (⟨rfl, rfl, hf⟩ | ⟨hu, hf⟩)
    · exact ⟨⟨T, hT, rfl, hframes ▸ List.mem_cons_of_mem _ hf⟩, fun he => hnodup.1 (he ▸ List.mem_map_of_mem hf)⟩
    · exact ⟨hf, fun he => hu (h.owner u b f t T.addr g hf hg he)⟩
  · rintro ⟨hf, hne⟩
    by_cases hu : u = t
    · subst hu
      obtain ⟨U, hU, rfl, hf⟩ := hf
      rw [hT] at hU
      cases hU
      rw [hframes] at hf
      exact .inl ⟨rfl, rfl, (List.mem_cons.mp hf).resolve_left fun he => hne (he ▸ rfl)⟩
    · exact .inr ⟨hu, hf⟩

theorem update_eq_some_iff {α : Type} {m : Nat → Option α} {i k : Nat} {v x : α} :
    Function.update m i (some v) k = some x ↔ (k = i ∧ v = x) ∨ (k ≠ i ∧ m k = some x) := by
  by_cases hk : k = i
  · subst hk
    simp
  · simp [hk]

theorem update_none_eq_some_iff {α : Type} {m : Nat → Option α} {i k : Nat} {x : α} :
    Function.update m i none k = some x ↔ k ≠ i ∧ m k = some x := by
  by_cases hk : k = i
  · subst hk
    simp
  · simp [hk]

theorem Kept.enter {t d : Nat} {T : HandlerTask} {D : HandlerOrigins} {kind : CallKind} {resource : Option ResourceId}
    (h : s.Kept) (hT : s.tasks t = some T) (hD : s.dispatchers d = some D)
    (hs : s' = { s with
      dispatchers := Function.update s.dispatchers d (some (D.enter kind resource T.addr))
      tasks := Function.update s.tasks t (some (T.enter d D kind resource s.nextCall))
      nextCall := s.nextCall + 1 }) : s'.Kept := by
  have htasks : s'.tasks = Function.update s.tasks t (some (T.enter d D kind resource s.nextCall)) := by rw [hs]
  have hdisp : s'.dispatchers = Function.update s.dispatchers d (some (D.enter kind resource T.addr)) := by rw [hs]
  obtain ⟨g, hframes, hgd, hga, hgt, hgk, hgr, hnew, hcalls⟩ := h.inCall_enter hT hD htasks
  have hnamed : s'.Named := h.toNamed.of_old (by rw [hs]) (by rw [hs])
    (fun u U hU => by
      rw [htasks] at hU
      rcases eq_some_of_update_some hU with ⟨rfl, rfl⟩ | ⟨-, hU⟩
      · exact ⟨T, hT, rfl⟩
      · exact ⟨U, hU, rfl⟩)
    fun e E hE => by
      rw [hdisp] at hE
      rcases eq_some_of_update_some hE with ⟨rfl, rfl⟩ | ⟨-, hE⟩
      · exact ⟨D, hD, rfl⟩
      · exact ⟨E, hE, rfl⟩
  refine ⟨hnamed, ?_, ?_, ?_, ?_, ?_⟩
  · intro u b f hf
    rw [hdisp]
    rcases (hcalls u b f).mp hf with hf | ⟨-, -, rfl⟩
    · obtain ⟨E, hE, hea, hle⟩ := h.live u b f hf
      by_cases hfd : f.dispatcher = d
      · rw [hfd] at hE ⊢
        rw [hD] at hE
        cases hE
        exact ⟨_, Function.update_self .., hea, Nat.le_succ_of_le hle⟩
      · exact ⟨E, (Function.update_of_ne hfd _ _).trans hE, hea, hle⟩
    · rw [hgd]
      exact ⟨_, Function.update_self .., hga.symm, Nat.le_of_eq hgt⟩
  · intro u U hU
    rw [htasks] at hU
    rcases eq_some_of_update_some hU with ⟨rfl, rfl⟩ | ⟨-, hU⟩
    · rw [hframes, List.map_cons]
      refine List.nodup_cons.mpr ⟨fun hm => ?_, h.keys u T hT⟩
      obtain ⟨f, hf, hk⟩ := List.mem_map.mp hm
      exact hnew u T.addr f ⟨T, hT, rfl, hf⟩ hk
    · exact h.keys u U hU
  · intro u b f v c k hf hk he
    rcases (hcalls u b f).mp hf with hf | ⟨rfl, -, rfl⟩ <;> rcases (hcalls v c k).mp hk with hk | ⟨rfl, -, rfl⟩
    · exact h.owner u b f v c k hf hk he
    · exact absurd he (hnew u b f hf)
    · exact absurd he.symm (hnew v c k hk)
    · rfl
  · intro u U hU
    rw [htasks] at hU
    rcases eq_some_of_update_some hU with ⟨rfl, rfl⟩ | ⟨-, hU⟩
    · exact ⟨rfl, rfl, h.nested u T hT⟩
    · exact h.nested u U hU
  · intro e E hE
    rw [hdisp] at hE
    rcases eq_some_of_update_some hE with ⟨rfl, rfl⟩ | ⟨hed, hE⟩
    · have hexact := h.exact e D hD
      refine ⟨hexact.tokens.enter hcalls hgd hnew fun k => ?_,
        fun r => (hexact.resources r).enter hcalls hgd hnew fun k => ?_,
        fun o => (hexact.owners o).enter hcalls hgd hnew fun k => ?_,
        hexact.childProvenance.enter hcalls hgd hnew fun k => ?_⟩
      · show k ∈ insert _ _ ↔ _
        rw [Finset.mem_insert, hgt]
        tauto
      · rw [hgr, hgt]
        exact update_eq_some_iff
      · rw [hgt]
        exact update_eq_some_iff
      · rw [hgk, hgt]
        cases kind with
        | handler =>
          show k ∈ insert _ _ ↔ _
          rw [Finset.mem_insert]
          tauto
        | stopCallback =>
          show k ∈ D.activeHandlerOriginChildProvenanceTokens ↔ _
          refine ⟨fun hk => .inr ⟨fun he => ?_, hk⟩, fun hk => (hk.resolve_left nofun).2⟩
          obtain ⟨u, b, f, hf, hkey, -⟩ := (hexact.childProvenance k).mp hk
          exact hnew u b f hf (by rw [hkey, HandlerFrame.key, hgd, hgt, he])
    · have hexact := h.exact e E hE
      have hne : g.dispatcher ≠ e := fun he => hed (he.symm.trans hgd)
      exact
        { tokens := hexact.tokens.enter_of_ne hcalls hne
          resources := fun r => (hexact.resources r).enter_of_ne hcalls hne
          owners := fun o => (hexact.owners o).enter_of_ne hcalls hne
          childProvenance := hexact.childProvenance.enter_of_ne hcalls hne }

theorem Kept.leave {t : Nat} {T : HandlerTask} {g : HandlerFrame} {rest : List HandlerFrame} (h : s.Kept)
    (hT : s.tasks t = some T) (hframes : T.frames = g :: rest)
    (hs : s' = { s with
      dispatchers := Function.update s.dispatchers g.dispatcher ((s.dispatchers g.dispatcher).map (·.leave g.token))
      tasks := Function.update s.tasks t
        (some { T with
          handlerDispatchContext := g.savedDispatch
          handlerOriginContext := g.savedOrigin
          frames := rest }) }) : s'.Kept := by
  obtain ⟨D, hD, -⟩ := h.live t T.addr g ⟨T, hT, rfl, hframes ▸ List.mem_cons_self⟩
  rw [hD] at hs
  have htasks : s'.tasks = Function.update s.tasks t
      (some { T with
        handlerDispatchContext := g.savedDispatch
        handlerOriginContext := g.savedOrigin
        frames := rest }) := by rw [hs]
  have hdisp : s'.dispatchers = Function.update s.dispatchers g.dispatcher (some (D.leave g.token)) := by rw [hs]; rfl
  have hcalls := h.inCall_leave hT hframes htasks rfl rfl
  have hnamed : s'.Named := h.toNamed.of_old (by rw [hs]) (by rw [hs])
    (fun u U hU => by
      rw [htasks] at hU
      rcases eq_some_of_update_some hU with ⟨rfl, rfl⟩ | ⟨-, hU⟩
      · exact ⟨T, hT, rfl⟩
      · exact ⟨U, hU, rfl⟩)
    fun e E hE => by
      rw [hdisp] at hE
      rcases eq_some_of_update_some hE with ⟨rfl, rfl⟩ | ⟨-, hE⟩
      · exact ⟨D, hD, rfl⟩
      · exact ⟨E, hE, rfl⟩
  refine ⟨hnamed, ?_, ?_, ?_, ?_, ?_⟩
  · intro u b f hf
    obtain ⟨E, hE, hlive⟩ := h.live u b f ((hcalls u b f).mp hf).1
    rw [hdisp]
    by_cases hfd : f.dispatcher = g.dispatcher
    · rw [hfd] at hE ⊢
      rw [hD] at hE
      cases hE
      exact ⟨_, Function.update_self .., hlive⟩
    · exact ⟨E, (Function.update_of_ne hfd _ _).trans hE, hlive⟩
  · intro u U hU
    rw [htasks] at hU
    rcases eq_some_of_update_some hU with ⟨rfl, rfl⟩ | ⟨-, hU⟩
    · have hkeys := h.keys u T hT
      rw [hframes, List.map_cons] at hkeys
      exact hkeys.of_cons
    · exact h.keys u U hU
  · exact fun u b f v c k hf hk => h.owner u b f v c k ((hcalls u b f).mp hf).1 ((hcalls v c k).mp hk).1
  · intro u U hU
    rw [htasks] at hU
    rcases eq_some_of_update_some hU with ⟨rfl, rfl⟩ | ⟨-, hU⟩
    · have hnested := h.nested u T hT
      rw [hframes] at hnested
      exact hnested.2.2
    · exact h.nested u U hU
  · intro e E hE
    rw [hdisp] at hE
    rcases eq_some_of_update_some hE with ⟨rfl, rfl⟩ | ⟨hed, hE⟩
    · have hexact := h.exact _ D hD
      exact
        { tokens := hexact.tokens.leave hcalls rfl fun k => Finset.mem_erase
          resources := fun r => (hexact.resources r).leave hcalls rfl fun k => update_none_eq_some_iff
          owners := fun o => (hexact.owners o).leave hcalls rfl fun k => update_none_eq_some_iff
          childProvenance := hexact.childProvenance.leave hcalls rfl fun k => Finset.mem_erase }
    · have hexact := h.exact e E hE
      exact
        { tokens := hexact.tokens.leave_of_ne hcalls (Ne.symm hed)
          resources := fun r => (hexact.resources r).leave_of_ne hcalls (Ne.symm hed)
          owners := fun o => (hexact.owners o).leave_of_ne hcalls (Ne.symm hed)
          childProvenance := hexact.childProvenance.leave_of_ne hcalls (Ne.symm hed) }

/-- No task has the `id()`, as the guard of `createTask` asks. -/
theorem Named.tasks_free {addr : Nat} (h : s.Named) (hfree : ¬ ∃ t < s.nextTask, ∃ T ∈ s.tasks t, T.addr = addr) :
    ∀ t T, s.tasks t = some T → T.addr ≠ addr :=
  fun t T hT he => hfree ⟨t, h.tasks_lt t T hT, T, hT, he⟩

theorem Named.dispatchers_free {addr : Nat} (h : s.Named)
    (hfree : ¬ ∃ d < s.nextDispatcher, ∃ D ∈ s.dispatchers d, D.addr = addr) :
    ∀ d D, s.dispatchers d = some D → D.addr ≠ addr :=
  fun d D hD he => hfree ⟨d, h.dispatchers_lt d D hD, D, hD, he⟩

inductive Steps (s : Provenance) : ProvenanceAct → Provenance → Prop
  | createDispatcher {addr : Nat} (hfree : ¬ ∃ d < s.nextDispatcher, ∃ D ∈ s.dispatchers d, D.addr = addr) :
    Steps s (.createDispatcher addr)
      { s with
        dispatchers := Function.update s.dispatchers s.nextDispatcher (some { addr })
        nextDispatcher := s.nextDispatcher + 1 }
  | freeDispatcher {d : Nat} (hidle : ¬ s.entered d) :
    Steps s (.freeDispatcher d) { s with dispatchers := Function.update s.dispatchers d none }
  | createRoot {addr : Nat} (hfree : ¬ ∃ t < s.nextTask, ∃ T ∈ s.tasks t, T.addr = addr) :
    Steps s (.createTask none addr)
      { s with tasks := Function.update s.tasks s.nextTask (some { addr }), nextTask := s.nextTask + 1 }
  | createChild {p addr : Nat} {T : HandlerTask} (hfree : ¬ ∃ t < s.nextTask, ∃ T ∈ s.tasks t, T.addr = addr)
    (hT : s.tasks p = some T) :
    Steps s (.createTask (some p) addr)
      { s with tasks := Function.update s.tasks s.nextTask (some (T.child addr)), nextTask := s.nextTask + 1 }
  | endTask {t : Nat} {T : HandlerTask} (hT : s.tasks t = some T) (hframes : T.frames = []) :
    Steps s (.endTask t) { s with tasks := Function.update s.tasks t none }
  | enter {t d : Nat} {T : HandlerTask} {D : HandlerOrigins} {kind : CallKind} {resource : Option ResourceId}
    (hT : s.tasks t = some T) (hD : s.dispatchers d = some D) :
    Steps s (.enter t d kind resource)
      { s with
        dispatchers := Function.update s.dispatchers d (some (D.enter kind resource T.addr))
        tasks := Function.update s.tasks t (some (T.enter d D kind resource s.nextCall))
        nextCall := s.nextCall + 1 }
  | leave {t : Nat} {T : HandlerTask} {g : HandlerFrame} {rest : List HandlerFrame} (hT : s.tasks t = some T)
    (hframes : T.frames = g :: rest) :
    Steps s (.leave t)
      { s with
        dispatchers := Function.update s.dispatchers g.dispatcher ((s.dispatchers g.dispatcher).map (·.leave g.token))
        tasks := Function.update s.tasks t
          (some { T with
            handlerDispatchContext := g.savedDispatch
            handlerOriginContext := g.savedOrigin
            frames := rest }) }

theorem steps_of_step {a : ProvenanceAct} (h : s.step a = some s') : s.Steps a s' := by
  cases a with
  | createDispatcher addr =>
    simp only [step] at h
    split at h
    · cases h
    · next hfree => cases h; exact .createDispatcher hfree
  | freeDispatcher d =>
    simp only [step] at h
    split at h
    · cases h
    · next hidle => cases h; exact .freeDispatcher hidle
  | createTask parent addr =>
    simp only [step] at h
    split at h
    · cases h
    · next hfree =>
      cases parent with
      | none => cases h; exact .createRoot hfree
      | some p =>
        obtain ⟨T, hT, rfl⟩ := Option.map_eq_some_iff.mp h
        exact .createChild hfree hT
  | endTask t =>
    simp only [step] at h
    split at h
    · next T hT =>
      split at h
      · next hframes => cases h; exact .endTask hT (List.isEmpty_iff.mp hframes)
      · cases h
    · cases h
  | enter t d kind resource =>
    simp only [step] at h
    split at h
    · next T D hT hD => cases h; exact .enter hT hD
    · cases h
  | leave t =>
    simp only [step] at h
    split at h
    · next T hT =>
      split at h
      · next g rest hframes => cases h; exact .leave hT hframes
      · cases h
    · cases h

theorem Kept.step {a : ProvenanceAct} (h : s.Kept) (hs : s.step a = some s') : s'.Kept := by
  cases steps_of_step hs with
  | createDispatcher hfree => exact h.createDispatcher (h.toNamed.dispatchers_free hfree) rfl
  | freeDispatcher hidle =>
    refine h.freeDispatcher (fun t a f hf he => hidle ?_) rfl
    obtain ⟨T, hT, -, hf⟩ := hf
    exact ⟨t, h.tasks_lt t T hT, T, hT, f, hf, he⟩
  | createRoot hfree => exact h.createTask (h.toNamed.tasks_free hfree) rfl rfl rfl
  | createChild hfree hT => exact h.createTask (h.toNamed.tasks_free hfree) rfl rfl rfl
  | endTask hT hframes =>
    refine h.endTask (fun U hU => ?_) rfl
    rw [hT] at hU
    cases hU
    exact hframes
  | enter hT hD => exact h.enter hT hD rfl
  | leave hT hframes => exact h.leave hT hframes rfl

/-! ## Runs that give out nothing stale -/

/-- No context entry names the wrong object: no inherited mark of a live dispatcher is the task's own, and a task that
has the pair of an active handler call runs it or descends from it. -/
structure Fresh (s : Provenance) : Prop where
  inherited : ∀ t T d D, s.tasks t = some T → s.dispatchers d = some D → (D.addr, T.addr) ∉ T.inherited
  descends : ∀ t T u a f, s.tasks t = some T → s.InCall u a f → f.kind = .handler →
    (f.addr, f.token) ∈ T.handlerOriginContext → u = t ∨ f.call ∈ T.descends

theorem Kept.dispatcher_eq {t a d : Nat} {f : HandlerFrame} {D : HandlerOrigins} (h : s.Kept) (hf : s.InCall t a f)
    (hD : s.dispatchers d = some D) (he : f.addr = D.addr) : f.dispatcher = d := by
  obtain ⟨E, hE, hea, -⟩ := h.live t a f hf
  exact h.dispatchers_addr _ E d D hE hD (hea.trans he)

/-- Leaving a call gives the task back a part of its context. -/
theorem Kept.savedOrigin_subset {t : Nat} {T : HandlerTask} {g : HandlerFrame} {rest : List HandlerFrame} (h : s.Kept)
    (hT : s.tasks t = some T) (hframes : T.frames = g :: rest) : g.savedOrigin ⊆ T.handlerOriginContext := by
  have hnested := h.nested t T hT
  rw [hframes] at hnested
  rw [hnested.2.1]
  exact Finset.subset_insert _ _

/-- A call is entered or left: a task and a dispatcher change, with their `id()` and what the task inherited kept. -/
theorem Fresh.inherited_of_update {t d : Nat} {T T' : HandlerTask} {D D' : HandlerOrigins} (h : s.Fresh)
    (hT : s.tasks t = some T) (hD : s.dispatchers d = some D)
    (htasks : s'.tasks = Function.update s.tasks t (some T')) (haddr : T'.addr = T.addr)
    (hinh : T'.inherited = T.inherited) (hdisp : s'.dispatchers = Function.update s.dispatchers d (some D'))
    (haddrD : D'.addr = D.addr) (u : Nat) (U : HandlerTask) (e : Nat) (E : HandlerOrigins)
    (hU : s'.tasks u = some U) (hE : s'.dispatchers e = some E) : (E.addr, U.addr) ∉ U.inherited := by
  have hU' : ∃ V, s.tasks u = some V ∧ V.addr = U.addr ∧ V.inherited = U.inherited := by
    rw [htasks] at hU
    rcases eq_some_of_update_some hU with ⟨rfl, rfl⟩ | ⟨-, hU⟩
    · exact ⟨T, hT, haddr.symm, hinh.symm⟩
    · exact ⟨U, hU, rfl, rfl⟩
  obtain ⟨V, hV, hVaddr, hVinh⟩ := hU'
  rw [← hVaddr, ← hVinh]
  rw [hdisp] at hE
  rcases eq_some_of_update_some hE with ⟨rfl, rfl⟩ | ⟨-, hE⟩
  · rw [haddrD]
    exact h.inherited u V e D hV hD
  · exact h.inherited u V e E hV hE

/-- A handler call takes a token that no other task has a left-over pair of. -/
theorem Fresh.enter {t d : Nat} {T : HandlerTask} {D : HandlerOrigins} {kind : CallKind}
    {resource : Option ResourceId} (h : s.Fresh) (hk : s.Kept) (hok : s.NoStale (.enter t d kind resource))
    (hT : s.tasks t = some T) (hD : s.dispatchers d = some D)
    (hs : s' = { s with
      dispatchers := Function.update s.dispatchers d (some (D.enter kind resource T.addr))
      tasks := Function.update s.tasks t (some (T.enter d D kind resource s.nextCall))
      nextCall := s.nextCall + 1 }) : s'.Fresh := by
  have htasks : s'.tasks = Function.update s.tasks t (some (T.enter d D kind resource s.nextCall)) := by rw [hs]
  have hdisp : s'.dispatchers = Function.update s.dispatchers d (some (D.enter kind resource T.addr)) := by rw [hs]
  obtain ⟨g, -, hgd, hga, hgt, hgk, -, hnew, hcalls⟩ := hk.inCall_enter hT hD htasks
  refine ⟨h.inherited_of_update hT hD htasks rfl rfl hdisp rfl, fun u U v a f hU hf hkind hin => ?_⟩
  · rw [htasks] at hU
    rcases (hcalls v a f).mp hf with hf | ⟨rfl, -, rfl⟩
    · rcases eq_some_of_update_some hU with ⟨rfl, rfl⟩ | ⟨-, hU⟩
      · rcases Finset.mem_insert.mp hin with he | hin
        · -- The pair just taken is not that of an older call.
          refine absurd ?_ (hnew v a f hf)
          obtain ⟨haddr, htok⟩ := Prod.mk.inj he
          rw [HandlerFrame.key, HandlerFrame.key, hk.dispatcher_eq hf hD haddr, hgd, htok, hgt]
        · exact h.descends u T v a f hT hf hkind hin
      · exact h.descends u U v a f hU hf hkind hin
    · refine .inl ?_
      by_contra hne
      rcases eq_some_of_update_some hU with ⟨rfl, rfl⟩ | ⟨-, hold⟩
      · exact hne rfl
      · obtain rfl : kind = .handler := hgk.symm.trans hkind
        rw [hga, hgt] at hin
        exact hok D hD u (hk.tasks_lt u U hold) (Ne.symm hne) U hold hin

theorem Fresh.leave {t : Nat} {T : HandlerTask} {g : HandlerFrame} {rest : List HandlerFrame} (h : s.Fresh)
    (hk : s.Kept) (hT : s.tasks t = some T) (hframes : T.frames = g :: rest)
    (hs : s' = { s with
      dispatchers := Function.update s.dispatchers g.dispatcher ((s.dispatchers g.dispatcher).map (·.leave g.token))
      tasks := Function.update s.tasks t
        (some { T with
          handlerDispatchContext := g.savedDispatch
          handlerOriginContext := g.savedOrigin
          frames := rest }) }) : s'.Fresh := by
  obtain ⟨D, hD, -⟩ := hk.live t T.addr g ⟨T, hT, rfl, hframes ▸ List.mem_cons_self⟩
  rw [hD] at hs
  have htasks : s'.tasks = Function.update s.tasks t
      (some { T with
        handlerDispatchContext := g.savedDispatch
        handlerOriginContext := g.savedOrigin
        frames := rest }) := by rw [hs]
  have hdisp : s'.dispatchers = Function.update s.dispatchers g.dispatcher (some (D.leave g.token)) := by rw [hs]; rfl
  have hcalls := hk.inCall_leave hT hframes htasks rfl rfl
  refine ⟨h.inherited_of_update hT hD htasks rfl rfl hdisp rfl, fun u U v a f hU hf hkind hin => ?_⟩
  · rw [htasks] at hU
    have hf := ((hcalls v a f).mp hf).1
    rcases eq_some_of_update_some hU with ⟨rfl, rfl⟩ | ⟨-, hU⟩
    · exact h.descends u T v a f hT hf hkind (hk.savedOrigin_subset hT hframes hin)
    · exact h.descends u U v a f hU hf hkind hin

theorem Fresh.step {a : ProvenanceAct} (h : s.Fresh) (hk : s.Kept) (hok : s.NoStale a) (hs : s.step a = some s') :
    s'.Fresh := by
  cases steps_of_step hs with
  | @createDispatcher addr hfree =>
    refine ⟨fun t T d D hT hD hin => ?_, h.descends⟩
    rcases eq_some_of_update_some hD with ⟨-, rfl⟩ | ⟨-, hD⟩
    · exact hok t (hk.tasks_lt t T hT) T hT ((hk.nested t T hT).inherited_subset hin)
    · exact h.inherited t T d D hT hD hin
  | freeDispatcher hidle =>
    exact ⟨fun t T d D hT hD => h.inherited t T d D hT (eq_some_of_update_none hD).2, h.descends⟩
  | createRoot hfree =>
    refine ⟨fun t T d D hT hD => ?_, fun t T u a f hT hf hkind hin => ?_⟩
    · rcases eq_some_of_update_some hT with ⟨-, rfl⟩ | ⟨-, hT⟩
      · exact Finset.notMem_empty _
      · exact h.inherited t T d D hT hD
    · have hf := (hk.inCall_createTask rfl rfl u a f).mp hf
      rcases eq_some_of_update_some hT with ⟨-, rfl⟩ | ⟨-, hT⟩
      · exact absurd hin (Finset.notMem_empty _)
      · exact h.descends t T u a f hT hf hkind hin
  | @createChild p addr T hfree hT =>
    refine ⟨fun t U d D hU hD => ?_, fun t U u a f hU hf hkind hin => ?_⟩
    · rcases eq_some_of_update_some hU with ⟨-, rfl⟩ | ⟨-, hU⟩
      · exact hok T hT d (hk.dispatchers_lt d D hD) D hD
      · exact h.inherited t U d D hU hD
    · have hf := (hk.inCall_createTask rfl rfl u a f).mp hf
      rcases eq_some_of_update_some hU with ⟨-, rfl⟩ | ⟨-, hU⟩
      · -- A call of the parent, or one that the parent descends from.
        refine .inr (List.mem_append.mpr ?_)
        rcases h.descends p T u a f hT hf hkind hin with rfl | hcall
        · obtain ⟨V, hV, -, hf⟩ := hf
          rw [hT] at hV
          cases hV
          exact .inl (List.mem_map_of_mem hf)
        · exact .inr hcall
      · exact h.descends t U u a f hU hf hkind hin
  | @endTask t T hT hframes =>
    have hidle : ∀ U, s.tasks t = some U → U.frames = [] := fun U hU => by
      rw [hT] at hU
      cases hU
      exact hframes
    refine ⟨fun u U d D hU hD => h.inherited u U d D (eq_some_of_update_none hU).2 hD, fun u U v a f hU hf => ?_⟩
    exact h.descends u U v a f (eq_some_of_update_none hU).2 ((inCall_endTask hidle rfl v a f).mp hf)
  | enter hT hD => exact h.enter hk hok hT hD rfl
  | leave hT hframes => exact h.leave hk hT hframes rfl

/-- The containers name the owner and the resource of a call. -/
theorem Exact.of_inCall {t a d k : Nat} {f : HandlerFrame} {D : HandlerOrigins} (h : s.Exact d D) (hf : s.InCall t a f)
    (hkey : f.key = (d, k)) : D.activeHandlerOriginOwnerTasks k = some (some a) ∧
      D.activeHandlerOriginResources k = some f.resource :=
  ⟨(h.owners _ k).mpr ⟨t, a, f, hf, hkey, rfl⟩, (h.resources _ k).mpr ⟨t, a, f, hf, hkey, rfl⟩⟩

/-- `current_task_has_handler_origin_context` is right in every run: the entry's owner is the task's `id()`, which no
other live task has. -/
theorem Kept.hasOrigin {t d : Nat} {T : HandlerTask} {D : HandlerOrigins} {r : Option ResourceId} (h : s.Kept)
    (hT : s.tasks t = some T) (hD : s.dispatchers d = some D) (hr : currentTaskHasHandlerOriginContext D T r) :
    ∃ f ∈ T.frames, f.dispatcher = d ∧ (r = none ∨ f.resource = r) := by
  obtain ⟨p, -, -, hactive, howner, hres⟩ := hr
  obtain ⟨u, a, f, hcall, hkey, -⟩ := ((h.exact d D hD).tokens p.2).mp hactive
  obtain ⟨ho, hfr⟩ := (h.exact d D hD).of_inCall hcall hkey
  rw [ho] at howner
  rw [hfr] at hres
  obtain ⟨U, hU, ha, hf⟩ := hcall
  have haddr : a = T.addr := Option.some.inj (howner.resolve_left nofun)
  obtain rfl := h.tasks_addr u U t T hU hT (ha.trans haddr)
  rw [hT] at hU
  cases hU
  exact ⟨f, hf, congrArg Prod.fst hkey, hres⟩

/-- In a state with nothing stale, the checks and the containers say what they are meant to. -/
theorem Kept.sound (h : s.Kept) (hf : s.Fresh) : s.Sound where
  hasOrigin _ _ _ _ _ hT hD hr := h.hasOrigin hT hD hr
  exact := h.exact
  dispatching t T d D r hT hD hr := by
    obtain ⟨hmark, hr⟩ := hr
    rcases r with _ | r
    · rcases (h.nested t T hT).mem hmark with hin | ⟨f, hfr, he⟩
      · exact absurd hin (hf.inherited t T d D hT hD)
      · exact ⟨f, hfr, h.dispatcher_eq ⟨T, hT, rfl, hfr⟩ hD (congrArg Prod.fst he).symm, .inl rfl⟩
    · exact h.hasOrigin hT hD (hr.resolve_left nofun)
  inherits t T d D r hT hD hr := by
    obtain ⟨p, hp, hpd, hactive, howner, hres⟩ := hr
    have hexact := h.exact d D hD
    rcases howner with hchild | hown
    · obtain ⟨u, a, f, hcall, hkey, hkind⟩ := (hexact.childProvenance p.2).mp hchild
      obtain ⟨-, hfr⟩ := hexact.of_inCall hcall hkey
      rw [hfr] at hres
      obtain ⟨hfd, hft⟩ := Prod.mk.inj hkey
      obtain ⟨E, hE, hea, -⟩ := h.live u a f hcall
      rw [hfd, hD] at hE
      cases hE
      have hpair : (f.addr, f.token) = p := Prod.ext (hea.symm.trans hpd.symm) hft
      exact ⟨u, a, f, hcall, hfd, hf.descends t T u a f hT hcall hkind (hpair ▸ hp), hres⟩
    · obtain ⟨u, a, f, hcall, hkey, -⟩ := (hexact.tokens p.2).mp hactive
      obtain ⟨ho, hfr⟩ := hexact.of_inCall hcall hkey
      rw [ho] at hown
      rw [hfr] at hres
      refine ⟨u, a, f, hcall, congrArg Prod.fst hkey, .inl ?_, hres⟩
      obtain ⟨U, hU, ha, -⟩ := hcall
      exact h.tasks_addr u U t T hU hT (ha.trans (Option.some.inj hown))

end Provenance

namespace Provenance

theorem kept_of_reachable {s : Provenance} (h : provenanceMachine.Reachable Runs.Machine.Any s) : s.Kept := by
  refine h.invariant ?_ fun _ _ _ hk _ hs => hk.step hs
  rintro _ rfl
  exact
    { tasks_lt := nofun, dispatchers_lt := nofun, tasks_addr := nofun, dispatchers_addr := nofun
      live := fun _ _ _ ⟨_, hT, _⟩ => nomatch hT
      keys := nofun
      owner := fun _ _ _ _ _ _ ⟨_, hT, _⟩ => nomatch hT
      nested := nofun, exact := nofun }

/-- In every run whose steps all meet `NoStale`, every state reached is sound. -/
theorem sound_of_noStale {s : Provenance} (h : provenanceMachine.Reachable NoStale s) : s.Sound := by
  refine (kept_of_reachable h.any).sound (h.invariant_of (fun h => kept_of_reachable h.any) ?_
    fun _ _ _ hk hf hok hs => hf.step hk hok hs)
  rintro _ rfl
  exact ⟨nofun, nofun⟩

end Provenance

/-! ## Runs -/

instance (s : Provenance) : (a : ProvenanceAct) → Decidable (s.NoStale a)
  | .createDispatcher _ => inferInstanceAs (Decidable (∀ _ < _, ∀ _ ∈ _, _))
  | .createTask (some _) _ => inferInstanceAs (Decidable (∀ _ ∈ _, ∀ _ < _, ∀ _ ∈ _, _))
  | .enter _ _ .handler _ => inferInstanceAs (Decidable (∀ _ ∈ _, ∀ _ < _, _ → ∀ _ ∈ _, _))
  | .createTask none _ | .enter _ _ .stopCallback _ | .freeDispatcher _ | .endTask _ | .leave _ =>
    inferInstanceAs (Decidable True)

/-- A handler of the dispatcher at 100, run by the task at 1, leaves a child at 2 behind and calls a handler within a
handler; the child then starts a task at 3. -/
def nestedHandlers : List ProvenanceAct :=
  [.createDispatcher 100, .createTask none 1, .enter 0 0 .handler (some 7), .createTask (some 0) 2,
    .enter 0 0 .handler (some 8), .leave 0, .createTask (some 1) 3]

theorem sound_of_nestedHandlers :
    ∃ s : Provenance, (s.nextTask = 3 ∧ s.nextCall = 2 ∧ s.entered 0) ∧ s.Sound := by
  have hrun : ∃ s, provenanceMachine.Reachable Provenance.NoStale s ∧
      decide (s.nextTask = 3 ∧ s.nextCall = 2 ∧ s.entered 0) :=
    Runs.Machine.Reachable.exists_of_execOk rfl nestedHandlers _ (by decide)
  obtain ⟨s, hr, hp⟩ := hrun
  exact ⟨s, of_decide_eq_true hp, Provenance.sound_of_noStale hr⟩

/-- The task at 1 runs a handler and leaves a child at 2 behind; it ends, and the child starts a task at 1. -/
def taskAtFormerId : List ProvenanceAct :=
  [.createDispatcher 100, .createTask none 1, .enter 0 0 .handler (some 7), .createTask (some 0) 2, .leave 0,
    .endTask 0, .createTask (some 1) 1]

/-- The new task is told that it runs a handler, and none is running. -/
theorem not_sound_of_taskAtFormerId :
    ¬ ∀ s : Provenance, provenanceMachine.Reachable Runs.Machine.Any s → s.Sound := by
  intro hall
  have hrun : ∃ s, provenanceMachine.Reachable Runs.Machine.Any s ∧
      decide (∃ T ∈ s.tasks 2, ∃ D ∈ s.dispatchers 0, T.frames.length = 0 ∧
        (D.addr, T.addr) ∈ T.handlerDispatchContext) :=
    Runs.Machine.Reachable.exists_of_exec rfl taskAtFormerId _ (by decide)
  obtain ⟨s, hr, hp⟩ := hrun
  obtain ⟨T, hT, D, hD, hframes, hmark⟩ := of_decide_eq_true hp
  obtain ⟨f, hf, -⟩ := (hall s hr).dispatching 2 T 0 D none hT hD ⟨hmark, .inl rfl⟩
  rw [List.length_eq_zero_iff.mp hframes] at hf
  cases hf

end Aionetx
