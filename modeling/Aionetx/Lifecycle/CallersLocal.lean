import Aionetx.Lifecycle.CancellationDatagram
import Aionetx.Lifecycle.StoppedAgain

/-!
# The cancellation of one caller stays local

* `CallersOk` : the callers and the shared futures; `OperationOk` : what the stop in progress promises;
* `CallInv` : the invariant, with `CallInv.afterTurn` for a step of the path in progress and one lemma for each other step;
* `staysLocal_of_reachable` : in a run whose cancellations of an owner are absorbed, or come last, everything else goes on;
* `not_staysLocal_of_cancelledOwner` : a run in which the cancellation of the owner fails another caller.
-/

namespace Aionetx

open Runs

universe u

variable {κ : Type u} [DecidableEq κ] {component : Component} {w : ActiveComponent}

/-! ## Every stop has a path -/

theorem nonempty_of_planStop {origin : StopOrigin} {v v' : StopWorld} {stop : OwnedStop}
    (h : component.planStop { origin } v = some (stop, v')) : stop.path ≠ [] ∧ stop.completion ≠ [] := by
  unfold Component.planStop at h
  cases component with
  | tcpClient =>
    obtain ⟨plan, -, hplan⟩ := Option.map_eq_some_iff.1 h
    cases hplan
    simp [TcpClientStopPlan.ownedStop, TcpClientStopPlan.executeOwnedStop, TcpClientStopPlan.completeDeferredStop,
      TcpClientStopPlan.teardownClientStopResources]
  | tcpServer =>
    cases h
    simp [TcpServerStopPlan.ownedStop, TcpServerStopPlan.executeOwnedStop, TcpServerStopPlan.completeDeferredStop,
      TcpServerStopPlan.teardownServerStopResources]
  | datagramReceiver =>
    obtain ⟨snapshot, -, hplan⟩ := Option.map_eq_some_iff.1 h
    cases hplan
    unfold DatagramStopSnapshot.ownedStop
    split_ifs <;> simp [DatagramStopSnapshot.runDeferredStopPath, DatagramStopSnapshot.completeAfterDeferredStopEvents,
      DatagramStopSnapshot.runOrdinaryStopPath, DatagramStopSnapshot.completeAfterDeferredCloseAndStop]

/-! ## The invariant -/

structure CallersOk (s : StopCalls κ) : Prop where
  owning : ∀ k, s.callers k = .owning → ∃ o inlineHandler, s.operation = some o ∧ o.owner = some (k, inlineHandler)
  waiting : ∀ k f, s.callers k = .waiting f → f < s.next ∧ ∀ r, s.futures f = some r → r = none
  awaiting : ∀ k f raises, s.callers k = .awaitingOwn f raises → f < s.next ∧ (∀ r, s.futures f = some r → r = none) ∧
    (raises = true → s.cancelled k = true) ∧ ∀ o, s.operation = some o → o.future = f → o.owner = none
  current : ∀ o, s.operation = some o → o.future + 1 = s.next ∧ s.futures o.future = none
  past : ∀ f < s.next, s.futures f ≠ none ∨ ∃ o, s.operation = some o ∧ o.future = f
  fresh : ∀ f, s.next ≤ f → s.futures f = none
  ended : ∀ k r, s.callers k = .ended r → s.cancelled k = false → r = none
  absent : ∀ k, s.callers k = .absent → s.cancelled k = false

/-- What the path of an owner promises from here on. -/
structure OwnedOk (component : Component) (first : Bool) (before : StopWorld) (completion : List StopStmt)
    (inlineHandler cancelled : Bool) (rest : List StopStmt) (p : StopPath) : Prop where
  always : Always StopOp.perform (MayCancel component inlineHandler)
    (EndsWell component first before completion inlineHandler) rest p
  clean : cancelled = false → (execute StopOp.perform (fun _ => none) rest p).error = none ∧
    (execute StopOp.perform (fun _ => none) rest p).state.raiseCancelAfterStopWaiter = false
  ends : inlineHandler = false → EndsAtCancellation rest

/-- What the stop in progress promises. -/
structure OperationOk (component : Component) (w : ActiveComponent) (s : StopCalls κ) (o : StopOperation κ) : Prop where
  rest : o.rest ≠ []
  left : o.left = false
  owned : ∀ k inlineHandler, o.owner = some (k, inlineHandler) → s.callers k = .owning ∧ o.completion ≠ [] ∧
    (inlineHandler = false → s.cancelled k = false) ∧
    OwnedOk component s.inlineHandler w.toStopWorld o.completion inlineHandler (s.cancelled k) o.rest (o.path s.world)
  completing : o.owner = none →
    CompletionEnds component s.inlineHandler w.toStopWorld o.rest (o.path s.world)

/-- The invariant of the callers of a component that was active at first. -/
structure CallInv (component : Component) (w : ActiveComponent) (s : StopCalls κ) : Prop extends CallersOk s where
  initial : s.next = 0 → s.world = w.toStopWorld ∧ s.operation = none
  done : s.operation = none → s.next ≠ 0 → Done component s.inlineHandler w.toStopWorld s.world
  operation : ∀ o, s.operation = some o → OperationOk component w s o

omit [DecidableEq κ] in
theorem callInv_init : CallInv component w ({ world := w.toStopWorld } : StopCalls κ) where
  owning _ h := by cases h
  waiting _ _ h := by cases h
  awaiting _ _ _ h := by cases h
  current _ h := by cases h
  past _ h := absurd h (Nat.not_lt_zero _)
  fresh _ _ := rfl
  ended _ _ h := by cases h
  absent _ _ := rfl
  initial _ := ⟨rfl, rfl⟩
  done _ h := absurd rfl h
  operation _ h := by cases h

/-! ## A caller goes on -/

/-- A caller goes on, cancelled or not; an owner does so by leaving the rest to the completion task. -/
theorem CallersOk.setCaller {s : StopCalls κ} (h : CallersOk s) {k : κ} {c : StopCallerState} (cancelled : κ → Bool)
    (operation : Option (StopOperation κ)) (hcancelled : ∀ k', k' ≠ k → cancelled k' = s.cancelled k')
    (hoperation : operation = s.operation ∨ ∃ o o' inlineHandler, s.operation = some o ∧
      o.owner = some (k, inlineHandler) ∧ operation = some o' ∧ o'.future = o.future ∧ o'.owner = none)
    (howning : c ≠ .owning) (habsent : c ≠ .absent)
    (hwaiting : ∀ f, c = .waiting f → f < s.next ∧ ∀ r, s.futures f = some r → r = none)
    (hawaiting : ∀ f raises, c = .awaitingOwn f raises → f < s.next ∧ (∀ r, s.futures f = some r → r = none) ∧
      (raises = true → cancelled k = true) ∧ ∀ o, operation = some o → o.future = f → o.owner = none)
    (hended : ∀ r, c = .ended r → cancelled k = false → r = none) :
    CallersOk ({ s with cancelled, operation }.setCaller k c) := by
  have hself : ({ s with cancelled, operation }.setCaller k c).callers k = c := Function.update_self ..
  have hne : ∀ k', k' ≠ k → ({ s with cancelled, operation }.setCaller k c).callers k' = s.callers k' := fun k' hk =>
    Function.update_of_ne hk ..
  -- the operation has the same future, and the same owner unless it is `k`
  have hsame : ∀ o', operation = some o' → ∃ o, s.operation = some o ∧ o'.future = o.future ∧
      (o'.owner = o.owner ∨ o'.owner = none) := by
    intro o' ho'
    rcases hoperation with rfl | ⟨o, o'', i, ho, -, ho'', hf, hnone⟩
    · exact ⟨o', ho', rfl, .inl rfl⟩
    · cases ho'.symm.trans ho''
      exact ⟨o, ho, hf, .inr hnone⟩
  have hkept : ∀ o, s.operation = some o → ∃ o', operation = some o' ∧ o'.future = o.future ∧
      ∀ k' i, k' ≠ k → o.owner = some (k', i) → o'.owner = some (k', i) := by
    intro o ho
    rcases hoperation with rfl | ⟨o₁, o', i, ho₁, howner, ho', hf, -⟩
    · exact ⟨o, ho, rfl, fun _ _ _ h => h⟩
    · cases ho.symm.trans ho₁
      refine ⟨o', ho', hf, fun k' i' hk' hi' => ?_⟩
      cases howner.symm.trans hi'
      exact absurd rfl hk'
  refine ⟨fun k' hk' => ?_, fun k' f hk' => ?_, fun k' f raises hk' => ?_, fun o' ho' => ?_, fun f hf => ?_, h.fresh,
    fun k' r hk' hc => ?_, fun k' hk' => ?_⟩
  · by_cases hk : k' = k
    · rw [hk, hself] at hk'
      exact absurd hk' howning
    · rw [hne k' hk] at hk'
      obtain ⟨o, i, ho, hi⟩ := h.owning k' hk'
      obtain ⟨o', ho', -, howner⟩ := hkept o ho
      exact ⟨o', i, ho', howner k' i hk hi⟩
  · by_cases hk : k' = k
    · rw [hk, hself] at hk'
      exact hwaiting f hk'
    · rw [hne k' hk] at hk'
      exact h.waiting k' f hk'
  · by_cases hk : k' = k
    · rw [hk, hself] at hk'
      rw [hk]
      exact hawaiting f raises hk'
    · rw [hne k' hk] at hk'
      obtain ⟨hf, hr, hraises, ho⟩ := h.awaiting k' f raises hk'
      refine ⟨hf, hr, fun hr => (hcancelled k' hk).trans (hraises hr), fun o' ho' hf' => ?_⟩
      obtain ⟨o, ho₁, hfuture, howner⟩ := hsame o' ho'
      rcases howner with hsame' | hnone
      · exact hsame'.trans (ho o ho₁ (hfuture.symm.trans hf'))
      · exact hnone
  · obtain ⟨o, ho, hfuture, -⟩ := hsame o' ho'
    rw [hfuture]
    exact h.current o ho
  · rcases h.past f hf with hdone | ⟨o, ho, hfuture⟩
    · exact .inl hdone
    · obtain ⟨o', ho', hf', -⟩ := hkept o ho
      exact .inr ⟨o', ho', hf'.trans hfuture⟩
  · by_cases hk : k' = k
    · rw [hk, hself] at hk'
      rw [hk] at hc
      exact hended r hk' hc
    · rw [hne k' hk] at hk'
      exact h.ended k' r hk' ((hcancelled k' hk).symm.trans hc)
  · by_cases hk : k' = k
    · rw [hk, hself] at hk'
      exact absurd hk' habsent
    · rw [hne k' hk] at hk'
      exact (hcancelled k' hk).trans (h.absent k' hk')

theorem CallInv.setCaller {s : StopCalls κ} (h : CallInv component w s) {k : κ} (hk : s.callers k ≠ .owning)
    {c : StopCallerState} (cancelled : κ → Bool) (hcancelled : ∀ k', k' ≠ k → cancelled k' = s.cancelled k')
    (hok : CallersOk ({ s with cancelled }.setCaller k c)) :
    CallInv component w ({ s with cancelled }.setCaller k c) := by
  refine ⟨hok, h.initial, h.done, fun o ho => ?_⟩
  obtain ⟨hrest, hleft, howned, hcompleting⟩ := h.operation o ho
  refine ⟨hrest, hleft, fun k' inlineHandler ho' => ?_, hcompleting⟩
  obtain ⟨hcaller, hcompletion, hexternal, hpath⟩ := howned k' inlineHandler ho'
  have hne : k' ≠ k := by
    rintro rfl
    exact hk hcaller
  have hc : ({ s with cancelled }.setCaller k c).cancelled k' = s.cancelled k' := hcancelled k' hne
  refine ⟨(Function.update_of_ne hne ..).trans hcaller, hcompletion, fun hi => hc.trans (hexternal hi), ?_⟩
  rw [hc]
  exact hpath

/-! ## The stop in progress goes on -/

omit [DecidableEq κ] in
theorem CallersOk.ends {s : StopCalls κ} (h : CallersOk s) {o : StopOperation κ} (ho : s.operation = some o)
    {result : Option Failure} (hresult : result = none ∨
      (o.owner.isSome = true ∧ ∀ k, s.callers k ≠ .waiting o.future)) {c : κ → StopCallerState}
    (hcallers : ∀ k, c k = s.callers k ∨
      (∃ inlineHandler, o.owner = some (k, inlineHandler)) ∧ c k = .ended result ∧
        (s.cancelled k = false → result = none))
    (howner : ∀ k inlineHandler, o.owner = some (k, inlineHandler) → c k ≠ .owning) :
    CallersOk { s with operation := none, futures := Function.update s.futures o.future (some result), callers := c } := by
  obtain ⟨hfuture, hnone⟩ := h.current o ho
  have hfutures : ∀ f r, Function.update s.futures o.future (some result) f = some r →
      f = o.future ∧ r = result ∨ s.futures f = some r := by
    intro f r hr
    by_cases hf : f = o.future
    · rw [hf, Function.update_self] at hr
      exact .inl ⟨hf, (Option.some.inj hr).symm⟩
    · rw [Function.update_of_ne hf] at hr
      exact .inr hr
  refine ⟨fun k hk => ?_, fun k f hk => ?_, fun k f raises hk => ?_, fun _ h => (by cases h), fun f hf => .inl ?_,
    fun f hf => ?_, fun k r hk hc => ?_, fun k hk => ?_⟩
  · rcases hcallers k with hsame | ⟨-, hended, -⟩
    · obtain ⟨o', inlineHandler, ho', howns⟩ := h.owning k (hsame.symm.trans hk)
      rw [ho] at ho'
      cases ho'
      exact absurd hk (howner k inlineHandler howns)
    · cases hended.symm.trans hk
  · rcases hcallers k with hsame | ⟨-, hended, -⟩
    · obtain ⟨hlt, hr⟩ := h.waiting k f (hsame.symm.trans hk)
      refine ⟨hlt, fun r hf => ?_⟩
      rcases hfutures f r hf with ⟨rfl, rfl⟩ | hf
      · exact hresult.resolve_right fun hno => hno.2 k (hsame.symm.trans hk)
      · exact hr r hf
    · cases hended.symm.trans hk
  · rcases hcallers k with hsame | ⟨-, hended, -⟩
    · obtain ⟨hlt, hr, hraises, howns⟩ := h.awaiting k f raises (hsame.symm.trans hk)
      refine ⟨hlt, fun r hf => ?_, hraises, fun _ h => (by cases h)⟩
      rcases hfutures f r hf with ⟨rfl, rfl⟩ | hf
      · refine hresult.resolve_right fun hno => ?_
        rw [howns o ho rfl] at hno
        cases hno.1
      · exact hr r hf
    · cases hended.symm.trans hk
  · by_cases he : f = o.future
    · rw [he]
      simp
    · rcases h.past f hf with hdone | ⟨o', ho', hf'⟩
      · simpa [he] using hdone
      · rw [ho] at ho'
        cases ho'
        exact absurd hf'.symm he
  · have hne : f ≠ o.future := fun he => absurd hf (by rw [he, ← hfuture]; exact Nat.not_succ_le_self _)
    exact (Function.update_of_ne hne ..).trans (h.fresh f hf)
  · rcases hcallers k with hsame | ⟨-, hended, hclean⟩
    · exact h.ended k r (hsame.symm.trans hk) hc
    · cases hended.symm.trans hk
      exact hclean hc
  · rcases hcallers k with hsame | ⟨-, hended, -⟩
    · exact h.absent k (hsame.symm.trans hk)
    · cases hended.symm.trans hk

omit [DecidableEq κ] in
/-- The stop in progress may go on, and the component change. -/
theorem CallersOk.goesOn {s : StopCalls κ} (h : CallersOk s) {o o' : StopOperation κ} (ho : s.operation = some o)
    (hfuture : o'.future = o.future) (howner : o'.owner = o.owner) (world : StopWorld) :
    CallersOk { s with world, operation := some o' } := by
  refine ⟨fun k hk => ?_, h.waiting, fun k f raises hk => ?_, fun _ ho' => ?_, fun f hf => ?_, h.fresh, h.ended, h.absent⟩
  · obtain ⟨o₁, inlineHandler, ho₁, hi⟩ := h.owning k hk
    cases ho.symm.trans ho₁
    exact ⟨o', inlineHandler, rfl, howner.trans hi⟩
  · obtain ⟨hlt, hr, hraises, hown⟩ := h.awaiting k f raises hk
    refine ⟨hlt, hr, hraises, fun _ ho' hf => ?_⟩
    cases ho'
    exact howner.trans (hown o ho (hfuture.symm.trans hf))
  · cases ho'
    rw [hfuture]
    exact h.current o ho
  · rcases h.past f hf with hdone | ⟨o₁, ho₁, hf'⟩
    · exact .inl hdone
    · cases ho.symm.trans ho₁
      exact .inr ⟨o', rfl, hfuture.trans hf'⟩

/-- What a step of the path in progress has led to. -/
structure TurnOk (component : Component) (w : ActiveComponent) (s : StopCalls κ) (o : StopOperation κ)
    (rest : List StopStmt) (p : StopPath) : Prop where
  owned : ∀ k inlineHandler, o.owner = some (k, inlineHandler) → s.callers k = .owning ∧ o.completion ≠ [] ∧
    OwnedOk component s.inlineHandler w.toStopWorld o.completion inlineHandler (s.cancelled k) rest p ∧
    (inlineHandler = false → s.cancelled k = true →
      (rest = [] ∨ p.left = true) ∧ (p.state.completionDeferred = true ∨ ∀ k', s.callers k' ≠ .waiting o.future))
  completing : o.owner = none → CompletionEnds component s.inlineHandler w.toStopWorld rest p

theorem execute_of_ended {rest : List StopStmt} {p : StopPath} (h : rest = [] ∨ p.left = true) :
    execute StopOp.perform (fun _ => none) rest p = p := by
  rcases h with rfl | hleft
  · rfl
  · exact execute_of_left hleft rest

theorem OwnedOk.endsWell {first inlineHandler cancelled : Bool} {before : StopWorld} {completion rest : List StopStmt}
    {p : StopPath} (h : OwnedOk component first before completion inlineHandler cancelled rest p)
    (hends : rest = [] ∨ p.left = true) :
    EndsWell component first before completion inlineHandler p ∧
      (cancelled = false → p.error = none ∧ p.state.raiseCancelAfterStopWaiter = false) := by
  refine ⟨?_, fun hc => ?_⟩
  · rcases hends with rfl | hleft
    · exact h.always
    · exact h.always.of_left hleft
  · have hclean := h.clean hc
    rw [execute_of_ended hends] at hclean
    exact hclean

/-- The owner leaves the rest to the completion task, and awaits its future or raises. -/
theorem CallInv.handsOn {s : StopCalls κ} (h : CallersOk s) {o : StopOperation κ} (ho : s.operation = some o) {k : κ}
    {inlineHandler : Bool} (howner : o.owner = some (k, inlineHandler)) {p : StopPath} (hcompletion : o.completion ≠ [])
    (hends : CompletionEnds component s.inlineHandler w.toStopWorld o.completion { state := p.state })
    (hclean : s.cancelled k = false → p.error = none ∧ p.state.raiseCancelAfterStopWaiter = false)
    (hdeferred : p.state.completionDeferred = true) :
    CallInv component w ({ s with world := p.state }.finishOwned o k p) := by
  obtain ⟨hfuture, hnone⟩ := h.current o ho
  have hlt : o.future < s.next := by
    rw [← hfuture]
    exact Nat.lt_succ_self _
  unfold StopCalls.finishOwned
  rw [if_pos hdeferred]
  refine ⟨?_, fun hnext => ?_, fun h => (by cases h), fun o' ho' => ?_⟩
  · refine (h.goesOn ho rfl rfl p.state).setCaller s.cancelled _ (fun _ _ => rfl)
      (.inr ⟨o, _, inlineHandler, rfl, howner, rfl, rfl, rfl⟩) ?_ ?_ ?_ ?_ ?_
    all_goals rcases herror : p.error with _ | e
    · exact fun h => (by cases h)
    · exact fun h => (by cases h)
    · exact fun h => (by cases h)
    · exact fun h => (by cases h)
    · exact fun f h => (by cases h)
    · exact fun f h => (by cases h)
    · rintro f raises hc
      cases hc
      refine ⟨hlt, fun r hr => ?_, fun hraises => ?_, fun o' ho' _ => ?_⟩
      · cases hnone.symm.trans hr
      · by_contra hnot
        have hfalse := (hclean (by simpa using hnot)).2
        rw [hraises] at hfalse
        cases hfalse
      · cases ho'
        rfl
    · exact fun f raises h => (by cases h)
    · exact fun r h => (by cases h)
    · intro r hr hc
      have hnothing := (hclean hc).1
      rw [herror] at hnothing
      cases hnothing
  · exact absurd hnext (Nat.ne_of_gt (Nat.lt_of_le_of_lt (Nat.zero_le _) hlt))
  · cases ho'
    exact ⟨hcompletion, rfl, fun _ _ h => (by cases h), fun _ => hends⟩

/-- The owner's path ends the stop. -/
theorem CallInv.completes {s : StopCalls κ} (h : CallersOk s) {o : StopOperation κ} (ho : s.operation = some o) {k : κ}
    {inlineHandler : Bool} (howner : o.owner = some (k, inlineHandler)) {p : StopPath}
    (hdone : Done component s.inlineHandler w.toStopWorld p.state)
    (hclean : s.cancelled k = false → p.error = none)
    (hno : s.cancelled k = true → ∀ k', s.callers k' ≠ .waiting o.future)
    (hdeferred : p.state.completionDeferred = false) :
    CallInv component w ({ s with world := p.state }.finishOwned o k p) := by
  obtain ⟨hfuture, -⟩ := h.current o ho
  have hnext : s.next ≠ 0 := by
    rw [← hfuture]
    exact Nat.succ_ne_zero _
  unfold StopCalls.finishOwned
  rw [if_neg (by simp [hdeferred])]
  refine ⟨?_, fun h => absurd h hnext, fun _ _ => hdone, fun _ h => (by cases h)⟩
  refine (h.goesOn ho rfl rfl p.state).ends (c := Function.update s.callers k (.ended p.error)) rfl ?_
    (fun k' => ?_) fun k' i hi => ?_
  · rcases hc : s.cancelled k with _ | _
    · exact .inl (hclean hc)
    · exact .inr ⟨by rw [howner]; rfl, hno hc⟩
  · by_cases hk : k' = k
    · subst hk
      exact .inr ⟨⟨inlineHandler, howner⟩, Function.update_self .., hclean⟩
    · exact .inl (Function.update_of_ne hk ..)
  · cases howner.symm.trans hi
    rw [Function.update_self]
    exact fun h => (by cases h)

theorem CallInv.afterTurn {s : StopCalls κ} (h : CallersOk s) {o : StopOperation κ} (ho : s.operation = some o)
    {rest : List StopStmt} {p : StopPath} (hturn : TurnOk component w s o rest p) :
    CallInv component w (s.afterTurn o rest p) := by
  obtain ⟨hfuture, hnone⟩ := h.current o ho
  have hnext : s.next ≠ 0 := by
    rw [← hfuture]
    exact Nat.succ_ne_zero _
  unfold StopCalls.afterTurn
  dsimp only
  split_ifs with hends
  · rcases howner : o.owner with _ | ⟨k, inlineHandler⟩
    · have hends' := hturn.completing howner
      unfold CompletionEnds at hends'
      rw [execute_of_ended hends] at hends'
      dsimp only
      rw [hends'.1]
      refine ⟨?_, fun h => absurd h hnext, fun _ _ => hends'.2, fun _ h => (by cases h)⟩
      refine (h.goesOn ho rfl rfl p.state).ends (c := s.callers) rfl (.inl rfl) (fun _ => .inl rfl) fun k i hi => ?_
      rw [howner] at hi
      cases hi
    · obtain ⟨-, hcompletion, hpath, hexternal⟩ := hturn.owned k inlineHandler howner
      obtain ⟨hwell, hclean⟩ := hpath.endsWell hends
      unfold EndsWell at hwell
      dsimp only
      split_ifs at hwell with hdeferred
      · exact CallInv.handsOn h ho howner hcompletion hwell.1 hclean hdeferred
      · refine CallInv.completes h ho howner hwell.2 (fun hc => (hclean hc).1) (fun hc => ?_) (by simpa using hdeferred)
        exact (hexternal hwell.1 hc).2.resolve_left hdeferred
  · obtain ⟨hrest, hleft⟩ := not_or.1 hends
    refine ⟨?_, fun h => absurd h hnext, fun h => (by cases h), fun o' ho' => ?_⟩
    · refine h.goesOn ho ?_ ?_ p.state <;> rfl
    cases ho'
    refine ⟨hrest, by simpa using hleft, fun k inlineHandler howner => ?_, fun howner => hturn.completing howner⟩
    obtain ⟨hcaller, hcompletion, hpath, hexternal⟩ := hturn.owned k inlineHandler howner
    refine ⟨hcaller, hcompletion, fun hi => ?_, hpath⟩
    by_contra hc
    exact hends (hexternal hi (by simpa using hc)).1

/-! ## The steps -/

theorem OwnedOk.turn {first inlineHandler cancelled : Bool} {before : StopWorld} {completion rest : List StopStmt}
    {stmt : StopStmt} {p : StopPath}
    (h : OwnedOk component first before completion inlineHandler cancelled (stmt :: rest) p) (hleft : p.left = false) :
    OwnedOk component first before completion inlineHandler cancelled rest (stmt.turn StopOp.perform none p) := by
  refine ⟨h.always.turn hleft fun _ he => (by cases he), fun hc => ?_, fun hi => ?_⟩
  · have hclean := h.clean hc
    rw [execute_cons, executeStep_none hleft] at hclean
    exact hclean
  · have hends := h.ends hi
    cases stmt with
    | apply f => exact hends
    | run op runs leaves => exact hends.2.2

theorem CompletionEnds.turn {first : Bool} {before : StopWorld} {rest : List StopStmt} {stmt : StopStmt} {p : StopPath}
    (h : CompletionEnds component first before (stmt :: rest) p) (hleft : p.left = false) :
    CompletionEnds component first before rest (stmt.turn StopOp.perform none p) := by
  unfold CompletionEnds at h ⊢
  rw [execute_cons, executeStep_none hleft] at h
  exact h

theorem CallInv.operate {s t : StopCalls κ} (h : CallInv component w s) (hstep : s.operate none = some t) :
    CallInv component w t := by
  unfold StopCalls.operate at hstep
  rcases ho : s.operation with _ | o
  · rw [ho] at hstep
    cases hstep
  obtain ⟨hrest, hleft, howned, hcompleting⟩ := h.operation o ho
  rcases hstmts : o.rest with _ | ⟨stmt, rest⟩
  · exact absurd hstmts hrest
  rw [ho] at hstep
  dsimp only at hstep
  rw [hstmts] at hstep
  cases hstep
  rw [hstmts] at howned hcompleting
  refine CallInv.afterTurn h.toCallersOk ho ⟨fun k inlineHandler howner => ?_, fun howner => ?_⟩
  · obtain ⟨hcaller, hcompletion, hexternal, hpath⟩ := howned k inlineHandler howner
    refine ⟨hcaller, hcompletion, hpath.turn hleft, fun hi hc => ?_⟩
    rw [hexternal hi] at hc
    cases hc
  · exact (hcompleting howner).turn hleft

theorem CallInv.begin {s t : StopCalls κ} (h : CallInv component w s) (hstep : component.stopCallStep s .begin = some t) :
    CallInv component w t := by
  obtain ⟨o, ho, rfl⟩ := Option.map_eq_some_iff.1 hstep
  have hok : CallersOk { s with operation := some { o with begun := true } } := by
    refine h.toCallersOk.goesOn ho ?_ ?_ s.world <;> rfl
  refine ⟨hok, fun hnext => ?_, fun hnone => (by cases hnone), fun o' ho' => ?_⟩
  · exact absurd (ho.symm.trans (h.initial hnext).2) (Option.some_ne_none o)
  · cases ho'
    obtain ⟨hrest, hleft, howned, hcompleting⟩ := h.operation o ho
    exact ⟨hrest, hleft, howned, hcompleting⟩

theorem CallersOk.cancelOwner {s : StopCalls κ} (h : CallersOk s) {k : κ} (hk : s.callers k = .owning) :
    CallersOk { s with cancelled := Function.update s.cancelled k true } := by
  have hof : ∀ k', s.cancelled k' = true → Function.update s.cancelled k true k' = true := by
    intro k' hc
    by_cases hk' : k' = k
    · rw [hk', Function.update_self]
    · rw [Function.update_of_ne hk', hc]
  have hne : ∀ k', s.callers k' ≠ .owning → Function.update s.cancelled k true k' = s.cancelled k' := by
    intro k' hnot
    refine Function.update_of_ne ?_ ..
    rintro rfl
    exact hnot hk
  refine ⟨h.owning, h.waiting, fun k' f raises hk' => ?_, h.current, h.past, h.fresh, fun k' r hk' hc => ?_,
    fun k' hk' => ?_⟩
  · obtain ⟨hlt, hr, hraises, ho⟩ := h.awaiting k' f raises hk'
    exact ⟨hlt, hr, fun hr => hof k' (hraises hr), ho⟩
  · exact h.ended k' r hk' ((hne k' (by rw [hk']; exact fun h => (by cases h))).symm.trans hc)
  · exact (hne k' (by rw [hk']; exact fun h => (by cases h))).trans (h.absent k' hk')

/-- The path of an external caller ends where its owner is cancelled. -/
theorem ends_of_cancelled {stmt : StopStmt} {rest : List StopStmt} {p : StopPath} {op : StopOp}
    (hends : EndsAtCancellation (stmt :: rest)) (hop : stmt.operation p = some op)
    (hsafe : component.absorbsCancellation false op = true ∨ op = .stopDispatcher) :
    (rest = [] ∨ (stmt.turn StopOp.perform (some .cancelled) p).left = true) ∧
      ((stmt.turn StopOp.perform (some .cancelled) p).state.completionDeferred = true ∨ op = .stopDispatcher) := by
  cases stmt with
  | apply f => cases hop
  | run o runs leaves =>
    obtain ⟨hawait, hlast, -⟩ := hends
    simp only [Stmt.operation, Option.ite_none_right_eq_some, Option.some.injEq] at hop
    obtain ⟨hruns, rfl⟩ := hop
    rcases hsafe with habs | rfl
    · have ho : o = .awaitDeferredClose := by
        cases component with
        | datagramReceiver => exact of_decide_eq_true habs
        | _ => cases habs
      subst ho
      rw [Stmt.turn_run, if_pos hruns, Path.record, if_pos (hawait rfl)]
      exact ⟨.inr rfl, .inl rfl⟩
    · exact ⟨.inl (hlast rfl), .inr rfl⟩

theorem CallInv.cancelOwner {s t : StopCalls κ} (h : CallInv component w s) {k : κ} (hk : s.callers k = .owning)
    (hsafe : component.CancelsSafely s (.cancel k)) (hstep : component.stopCallStep s (.cancel k) = some t) :
    CallInv component w t := by
  obtain ⟨o, inlineHandler, ho, howner⟩ := h.owning k hk
  obtain ⟨hrest, hleft, howned, -⟩ := h.operation o ho
  obtain ⟨-, hcompletion, -, hpath⟩ := howned k inlineHandler howner
  unfold Component.stopCallStep at hstep
  simp only [hk, ho] at hstep
  rcases hnext : o.next s.world with _ | op
  · rw [hnext] at hstep
    cases hstep
  simp only [hnext] at hstep
  split_ifs at hstep with hsuspends
  rcases hstmts : o.rest with _ | ⟨stmt, rest⟩
  · exact absurd hstmts hrest
  have hop : stmt.operation (o.path s.world) = some op := by
    unfold StopOperation.next at hnext
    rw [hstmts] at hnext
    exact hnext
  have hsafe := hsafe o inlineHandler op ho howner hnext
  -- the tasks of a `gather` have begun
  have hbegun : ¬(component.gathers op && !o.begun) = true := by
    rcases hsafe with ⟨-, hbegun⟩ | ⟨rfl, -⟩
    · simpa using hbegun
    · exact Bool.false_ne_true
  unfold Component.cancelOwner at hstep
  rw [if_neg hbegun] at hstep
  replace hsafe := hsafe.imp And.left id
  have hmay : MayCancel component inlineHandler (o.path s.world) op .cancelled :=
    ⟨rfl, hsuspends, hsafe.imp id And.left⟩
  rw [hstmts] at hpath
  have hok := CallersOk.cancelOwner h.toCallersOk hk
  have hself : Function.update s.cancelled k true k = true := Function.update_self ..
  unfold StopCalls.operate at hstep
  dsimp only at hstep
  rw [hstmts] at hstep
  cases hstep
  refine CallInv.afterTurn hok ho ⟨fun k' i hi => ?_, fun hnone => ?_⟩
  · cases howner.symm.trans hi
    refine ⟨hk, hcompletion, ⟨?_, fun hc => ?_, fun hi => ?_⟩, fun hi _ => ?_⟩
    · refine hpath.always.turn hleft fun e he => ?_
      cases he
      exact ⟨op, hop, hmay⟩
    · cases hself.symm.trans hc
    · have hends := hpath.ends hi
      cases stmt with
      | apply f => exact hends
      | run op runs leaves => exact hends.2.2
    · subst hi
      obtain ⟨hends, hdeferred⟩ := ends_of_cancelled (hpath.ends rfl) hop (hsafe.imp id And.left)
      refine ⟨hends, hdeferred.imp id fun hlast => ?_⟩
      rcases hsafe with habs | hno
      · rw [hlast] at habs
        cases component <;> cases habs
      · exact hno.2
  · rw [howner] at hnone
    cases hnone

theorem CallInv.callNothing {s : StopCalls κ} (h : CallInv component w s) {k : κ} (hk : s.callers k = .absent)
    (ho : s.operation = none) (hnext : s.next ≠ 0) (flag : Bool) :
    CallInv component w
      ({ s with
        world := { s.world with stopping := s.world.stopping || flag }, operation := none }.setCaller k (.ended none)) := by
  have hdone := h.done ho hnext
  have hworld : CallInv component w
      { s with world := { s.world with stopping := s.world.stopping || flag }, operation := none } := by
    rw [← ho]
    refine ⟨⟨h.owning, h.waiting, h.awaiting, h.current, h.past, h.fresh, h.ended, h.absent⟩, fun h => absurd h hnext,
      fun _ _ => ?_, fun o ho' => ?_⟩
    · refine ⟨⟨hdone.lifecycle, ?_, hdone.released, hdone.published⟩, hdone.nothingLeft⟩
      simp [hdone.stopping]
    · cases ho.symm.trans ho'
  refine hworld.setCaller (by rw [hk]; exact fun h => (by cases h)) s.cancelled (fun _ _ => rfl) ?_
  refine hworld.toCallersOk.setCaller s.cancelled _ (fun _ _ => rfl) (.inl rfl) (fun h => (by cases h))
    (fun h => (by cases h)) (fun f h => (by cases h)) (fun f r h => (by cases h)) fun r hr _ => ?_
  cases hr
  rfl

theorem CallInv.callOwning {s : StopCalls κ} (h : CallInv component w s) {k : κ} (hk : s.callers k = .absent)
    (ho : s.operation = none) {inlineHandler first : Bool} {stop : OwnedStop} {v : StopWorld}
    (hstop : stop.path ≠ [] ∧ stop.completion ≠ [])
    (hpath : PathOk component first w.toStopWorld stop.completion inlineHandler stop.path { state := v }) :
    CallInv component w
      ({ s with
        world := v
        operation :=
          some { future := s.next, owner := some (k, inlineHandler), rest := stop.path, completion := stop.completion }
        next := s.next + 1
        inlineHandler := first }.setCaller k .owning) := by
  have hself : Function.update s.callers k .owning k = .owning := Function.update_self ..
  have hold : ∀ {k' c}, Function.update s.callers k .owning k' = c → c ≠ .owning → s.callers k' = c := by
    intro k' c hc hne
    have hk' : k' ≠ k := by
      rintro rfl
      exact hne (hc.symm.trans hself)
    exact (Function.update_of_ne hk' ..).symm.trans hc
  have hnot : ∀ o, s.operation ≠ some o := fun o h => by
    cases ho.symm.trans h
  refine ⟨⟨fun k' hk' => ?_, fun k' f hk' => ?_, fun k' f raises hk' => ?_, fun o ho' => ?_, fun f hf => ?_,
    fun f hf => h.fresh f (Nat.le_of_succ_le hf), fun k' r hk' => ?_, fun k' hk' => ?_⟩, fun h => (by cases h),
    fun h => (by cases h), fun o ho' => ?_⟩
  · by_cases hkk : k' = k
    · rw [hkk]
      exact ⟨_, inlineHandler, rfl, rfl⟩
    · obtain ⟨o, -, ho', -⟩ := h.owning k' ((Function.update_of_ne hkk ..).symm.trans hk')
      exact absurd ho' (hnot o)
  · obtain ⟨hlt, hr⟩ := h.waiting k' f (hold hk' fun h => (by cases h))
    exact ⟨Nat.lt_succ_of_lt hlt, hr⟩
  · obtain ⟨hlt, hr, hraises, -⟩ := h.awaiting k' f raises (hold hk' fun h => (by cases h))
    refine ⟨Nat.lt_succ_of_lt hlt, hr, hraises, fun o ho' hf => ?_⟩
    cases ho'
    exact absurd hf (Nat.ne_of_gt hlt)
  · cases ho'
    exact ⟨rfl, h.fresh _ (Nat.le_refl _)⟩
  · rcases Nat.lt_succ_iff_lt_or_eq.1 hf with hlt | rfl
    · refine .inl ((h.past f hlt).resolve_right ?_)
      rintro ⟨o, ho', -⟩
      exact hnot o ho'
    · exact .inr ⟨_, rfl, rfl⟩
  · exact h.ended k' r (hold hk' fun h => (by cases h))
  · exact h.absent k' (hold hk' fun h => (by cases h))
  · cases ho'
    refine ⟨hstop.1, rfl, fun k' i hi => ?_, fun h => (by cases h)⟩
    cases hi
    exact ⟨hself, hstop.2, fun _ => h.absent k hk, hpath.always, fun _ => hpath.clean, hpath.ends⟩

theorem CallInv.call {s : StopCalls κ} (h : CallInv component w s) {k : κ} (hk : s.callers k = .absent)
    (inlineHandler : Bool) : CallInv component w (component.stopCall s k inlineHandler) := by
  unfold Component.stopCall
  rcases ho : s.operation with _ | o
  · dsimp only
    by_cases hnext : s.next = 0
    · obtain ⟨stop, v, hplan, hpath⟩ := pathOk_active component w inlineHandler
      rw [(h.initial hnext).1, hplan]
      exact h.callOwning hk ho (nonempty_of_planStop hplan) (by rw [if_pos hnext]; exact hpath)
    · rcases hplan : component.planStop { origin := externalOrigin inlineHandler } s.world with _ | ⟨stop, v⟩
      · exact h.callNothing hk ho hnext _
      · refine h.callOwning hk ho (nonempty_of_planStop hplan) ?_
        rw [if_neg hnext]
        exact pathOk_again (h.done ho hnext) inlineHandler hplan
  · obtain ⟨hfuture, hnone⟩ := h.current o ho
    refine h.setCaller (by rw [hk]; exact fun h => (by cases h)) s.cancelled (fun _ _ => rfl) ?_
    refine h.toCallersOk.setCaller s.cancelled _ (fun _ _ => rfl) (.inl rfl) (fun h => (by cases h))
      (fun h => (by cases h)) (fun f hf => ?_) (fun f r h => (by cases h)) fun r h => (by cases h)
    cases hf
    refine ⟨hfuture ▸ Nat.lt_succ_self _, fun r hr => ?_⟩
    cases hnone.symm.trans hr

/-- The await of a shared future returns or raises. -/
theorem CallInv.resume {s t : StopCalls κ} (h : CallInv component w s) {k : κ}
    (hstep : component.stopCallStep s (.resume k) = some t) : CallInv component w t := by
  have hend : ∀ r, s.callers k ≠ .owning → (s.cancelled k = false → r = none) →
      CallInv component w (s.setCaller k (.ended r)) := by
    intro r hk hr
    refine h.setCaller hk s.cancelled (fun _ _ => rfl) ?_
    refine h.toCallersOk.setCaller s.cancelled _ (fun _ _ => rfl) (.inl rfl) (fun h => (by cases h))
      (fun h => (by cases h)) (fun f h => (by cases h)) (fun f r h => (by cases h)) fun r' hr' hc => ?_
    cases hr'
    exact hr hc
  unfold Component.stopCallStep at hstep
  rcases hk : s.callers k with _ | f | _ | ⟨f, raises⟩ | r
  all_goals
    simp only [hk] at hstep
    rw [hk] at hend
  · cases hstep
  · obtain ⟨r, hr, rfl⟩ := Option.map_eq_some_iff.1 hstep
    exact hend r (fun h => (by cases h)) fun _ => (h.waiting k f hk).2 r hr
  · cases hstep
  · obtain ⟨r, hr, rfl⟩ := Option.map_eq_some_iff.1 hstep
    obtain ⟨-, hnone, hraises, -⟩ := h.awaiting k f raises hk
    refine hend _ (fun h => (by cases h)) fun hc => ?_
    rw [hnone r hr, Option.none_or, if_neg]
    intro hr
    cases hc.symm.trans (hraises hr)
  · cases hstep

theorem CallInv.cancelWaiter {s t : StopCalls κ} (h : CallInv component w s) {k : κ} (hk : s.callers k ≠ .owning)
    (hstep : component.stopCallStep s (.cancel k) = some t) : CallInv component w t := by
  have hself : Function.update s.cancelled k true k = true := Function.update_self ..
  have hother : ∀ k', k' ≠ k → Function.update s.cancelled k true k' = s.cancelled k' := fun k' hk' =>
    Function.update_of_ne hk' ..
  have hend : ∀ c, (∃ r, c = .ended r) ∨ (∃ f raises, s.callers k = .awaitingOwn f raises ∧ c = .awaitingOwn f true) →
      CallInv component w ({ s with cancelled := Function.update s.cancelled k true }.setCaller k c) := by
    intro c hc
    refine h.setCaller hk _ hother ?_
    rcases hc with ⟨r, rfl⟩ | ⟨f, raises, hf, rfl⟩
    · refine h.toCallersOk.setCaller _ _ hother (.inl rfl) (fun h => (by cases h)) (fun h => (by cases h))
        (fun f h => (by cases h)) (fun f r h => (by cases h)) fun r' _ hc => ?_
      cases hself.symm.trans hc
    · refine h.toCallersOk.setCaller _ _ hother (.inl rfl) (fun h => (by cases h)) (fun h => (by cases h))
        (fun f h => (by cases h)) (fun f' r hc => ?_) fun r h => (by cases h)
      cases hc
      obtain ⟨hlt, hnone, -, howner⟩ := h.awaiting k f raises hf
      exact ⟨hlt, hnone, fun _ => hself, howner⟩
  unfold Component.stopCallStep at hstep
  rcases hcaller : s.callers k with _ | f | _ | ⟨f, raises⟩ | r
  all_goals simp only [hcaller] at hstep
  · cases hstep
  · cases hstep
    exact hend _ (.inl ⟨_, rfl⟩)
  · exact absurd hcaller hk
  · cases hstep
    unfold Component.cancelAwaitingOwn
    split_ifs
    · exact hend _ (.inl ⟨_, rfl⟩)
    · exact hend _ (.inr ⟨f, raises, hcaller, rfl⟩)
  · cases hstep

theorem callInv_step {s t : StopCalls κ} {a : StopCallAct κ} (h : CallInv component w s) (hsafe : component.CancelsSafely s a)
    (hstep : component.stopCallStep s a = some t) : CallInv component w t := by
  cases a with
  | call k inlineHandler =>
    unfold Component.stopCallStep at hstep
    dsimp only at hstep
    split_ifs at hstep with hk
    cases hstep
    exact h.call hk inlineHandler
  | begin => exact h.begin hstep
  | operate => exact h.operate hstep
  | resume k => exact h.resume hstep
  | cancel k =>
    by_cases hk : s.callers k = .owning
    · exact h.cancelOwner hk hsafe hstep
    · exact h.cancelWaiter hk hstep

/-! ## The result -/

/-- The path in progress can go on, and comes closer to its end. -/
theorem StopCalls.operate_remaining {s : StopCalls κ} {o : StopOperation κ} (ho : s.operation = some o)
    (hrest : o.rest ≠ []) : ∃ t, s.operate none = some t ∧ t.remaining < s.remaining := by
  rcases hstmts : o.rest with _ | ⟨stmt, rest⟩
  · exact absurd hstmts hrest
  have hs : s.remaining = rest.length + 1 + (if o.owner.isSome then o.completion.length + 1 else 0) + 1 := by
    unfold remaining
    rw [ho]
    simp only [hstmts, List.length_cons]
  unfold operate
  simp only [ho, hstmts]
  refine ⟨_, rfl, ?_⟩
  rw [hs]
  unfold afterTurn
  dsimp only
  by_cases hends : rest = [] ∨ (stmt.turn StopOp.perform none (o.path s.world)).left = true
  · rw [if_pos hends]
    rcases howner : o.owner with _ | ⟨k, inlineHandler⟩
    · exact Nat.succ_pos _
    · dsimp only [finishOwned]
      by_cases hdeferred : (stmt.turn StopOp.perform none (o.path s.world)).state.completionDeferred = true
      · rw [if_pos hdeferred]
        simp only [setCaller, remaining, Option.isSome_none, Option.isSome_some, if_true, Bool.false_eq_true, if_false]
        omega
      · rw [if_neg hdeferred]
        exact Nat.succ_pos _
  · rw [if_neg hends]
    simp only [remaining]
    omega

theorem staysLocal_of_callInv {s : StopCalls κ} (h : CallInv component w s) : StaysLocal component w.toStopWorld s where
  returns := h.ended
  completes ho hnext := (h.done ho hnext).toCompleted
  moves ho := by
    obtain ⟨o, ho⟩ := Option.ne_none_iff_exists'.1 ho
    exact s.operate_remaining ho (h.operation o ho).rest
  served k f hk := by
    have hlt : f < s.next := by
      rcases hk with hwaiting | ⟨raises, hawaiting⟩
      · exact (h.waiting k f hwaiting).1
      · exact (h.awaiting k f raises hawaiting).1
    exact h.past f hlt

/-- While the owners are cancelled only where their paths absorb it, or at the end while nobody waits, every cancellation
stays local. -/
theorem staysLocal_of_reachable (component : Component) (w : ActiveComponent) {s : StopCalls κ}
    (h : (component.stopMachine w).Reachable component.CancelsSafely s) : StaysLocal component w.toStopWorld s := by
  refine staysLocal_of_callInv (h.invariant (I := fun s => CallInv component w s) ?_ fun s a t hs hok hstep => ?_)
  · rintro s rfl
    exact callInv_init
  · exact callInv_step hs hok hstep

/-- The running client with one connection, as it stands before its callers. -/
def activeClient : ActiveComponent where
  lifecycle := .running
  dispatchMode := .background
  worker := true
  held := Function.update (fun _ => false) .connections true
  active := rfl
  accepts := rfl
  nothingDetached := rfl
  nothingReleased := rfl
  nothingPublished := rfl

/-- A second caller that is cancelled while it waits for the owner meets the condition. -/
theorem staysLocal_of_cancelledWaiter :
    ∃ s : StopCalls Bool, (Component.tcpClient.stopMachine activeClient).Reachable Component.tcpClient.CancelsSafely s ∧
      s.cancelled true = true ∧ StaysLocal .tcpClient activeClient.toStopWorld s := by
  have h₀ : (Component.tcpClient.stopMachine activeClient).Reachable Component.tcpClient.CancelsSafely
      ({ world := activeClient.toStopWorld } : StopCalls Bool) := .init rfl
  have h₁ := (h₀.step (a := StopCallAct.call false false) trivial rfl).step (a := StopCallAct.call true false) trivial rfl
  have h₂ := h₁.step (a := StopCallAct.cancel true) (fun o _ _ ho howner => (by cases ho; cases howner)) rfl
  exact ⟨_, h₂, rfl, staysLocal_of_reachable .tcpClient activeClient h₂⟩

/-- The owner is cancelled while it closes the connection, and the caller that waits for it is told `CancelledError`. -/
theorem not_staysLocal_of_cancelledOwner :
    ∃ s : StopCalls Bool, (Component.tcpClient.stopMachine activeClient).Reachable Machine.Any s ∧
      ¬StaysLocal .tcpClient activeClient.toStopWorld s := by
  obtain ⟨s, hs, hended⟩ := Machine.Reachable.exists_of_exec
    (M := Component.tcpClient.stopMachine activeClient) (s := ({ world := activeClient.toStopWorld } : StopCalls Bool)) rfl
    [.call false false, .call true false, .operate, .operate, .cancel false, .operate, .operate, .operate, .resume true]
    (fun s => s.callers true = .ended (some .cancelled) && !s.cancelled true) (by decide)
  simp only [Bool.and_eq_true, decide_eq_true_eq, Bool.not_eq_true'] at hended
  exact ⟨s, hs, fun hlocal => (by cases hlocal.returns true _ hended.1 hended.2)⟩

end Aionetx
