import Aionetx.Runs.Machine

/-!
# Awaiting a target without passing on a cancellation

The two helpers await `asyncio.shield` of their target in a loop. `shield` gives a new future, the outer one, while the
target is pending, and the target itself once it is done; its callback copies the outcome of the target to the outer
future. `Task.cancel()` counts the request and cancels the future that the task awaits, or leaves the request to the next
resumption if that future is done.

* `FutureOutcome`, `PreservingAwait` : how a future ends, and a caller in one of the helpers;
* `awaitTaskCompletionPreservingCancellation`, `awaitFutureCompletionPreservingCancellation` : the helpers, from the end of
  an await to the next one;
* `PreservingAct`, `preservingMachine` : the caller, its target and its cancellations;
* `PreservingAwait.Preserves` : the promise, `PreservingAwait.Classified` : the condition on a resumption,
  `PreservingAwait.preserves_iff`, `PreservingAwait.preserves_of_reachable`.
-/

namespace Aionetx

open Runs

universe u

/-! ## The caller and its target -/

/-- How a future, a task or a coroutine ends. -/
inductive FutureOutcome (ε : Type u)
  | result
  | raised (error : ε)
  | cancelled
  deriving DecidableEq, Repr

inductive AwaitedFuture
  | outer | target
  deriving DecidableEq, Repr

/-- Where the caller is: about to call the helper, suspended in it on a future whose outcome may be set, or past it. -/
inductive PreservingPc (ε : Type u)
  | calling
  | suspended (on : AwaitedFuture) (outcome : Option (FutureOutcome ε))
  | ended (how : FutureOutcome ε)
  deriving DecidableEq, Repr

/-- A caller of a helper, and the target.

* `cancelling`, `mustCancel` : the requests counted by `Task.cancelling()`, and the one kept for the next resumption;
* `callerCancelled` : the local variable of the helper;
* `requested` : a cancellation was requested in the call, or was not delivered before it;
* `targetCancels` : the calls of `cancel()` that the target has received from the caller. -/
structure PreservingAwait (ε : Type u) where
  target : Option (FutureOutcome ε)
  cancelling : Nat
  mustCancel : Bool
  callerCancelled : Bool := false
  requested : Bool
  targetCancels : Nat := 0
  pc : PreservingPc ε := .calling
  deriving DecidableEq, Repr

inductive PreservingHelper
  | task | future
  deriving DecidableEq, Repr

variable {ε : Type u}

namespace PreservingAwait
variable (s : PreservingAwait ε)

/-- `await asyncio.shield(target)` while the target is pending: a request that was kept cancels the future at once. -/
def awaitShield : PreservingAwait ε :=
  let on : AwaitedFuture := if s.target.isSome then .target else .outer
  if s.mustCancel then { s with mustCancel := false, pc := .suspended on (some .cancelled) }
  else { s with pc := .suspended on none }

def finishTask : PreservingAwait ε :=
  { s with pc := .ended (if s.callerCancelled then .cancelled else .result) }

def awaitTaskCompletionPreservingCancellation : FutureOutcome ε → PreservingAwait ε
  | .result => s.finishTask
  | .raised error => { s with pc := .ended (.raised error) }
  | .cancelled =>
    if 0 < s.cancelling then
      let s := { s with callerCancelled := true }
      if s.target.isSome then s.finishTask else s.awaitShield
    else s.finishTask

/-- The end of `await_future_completion_preserving_cancellation`: `future.result()` comes first. -/
def finishFuture (invalidStateError : ε) : PreservingAwait ε :=
  match s.target with
  | none => { s with pc := .ended (.raised invalidStateError) }
  | some .result => { s with pc := .ended (if s.callerCancelled then .cancelled else .result) }
  | some how => { s with pc := .ended how }

def awaitFutureCompletionPreservingCancellation (invalidStateError : ε) : FutureOutcome ε → PreservingAwait ε
  | .result => s.finishFuture invalidStateError
  | .raised error => { s with pc := .ended (.raised error) }
  | .cancelled =>
    if 0 < s.cancelling then
      let s := { s with callerCancelled := true }
      if s.target.isSome then s.finishFuture invalidStateError else s.awaitShield
    else { s with pc := .ended .cancelled }

def goOn (helper : PreservingHelper) (invalidStateError : ε) (how : FutureOutcome ε) : PreservingAwait ε :=
  match helper with
  | .task => s.awaitTaskCompletionPreservingCancellation how
  | .future => s.awaitFutureCompletionPreservingCancellation invalidStateError how

/-- The helper is called: the await of a target that is done does not suspend. -/
def call (helper : PreservingHelper) (invalidStateError : ε) : Option (PreservingAwait ε) :=
  match s.pc with
  | .calling =>
    match s.target with
    | none => some s.awaitShield
    | some how => some (s.goOn helper invalidStateError how)
  | _ => none

def settle (how : FutureOutcome ε) : Option (PreservingAwait ε) :=
  if s.target.isNone then some { s with target := some how } else none

def propagate : Option (PreservingAwait ε) :=
  match s.pc with
  | .suspended .outer none => s.target.map fun how => { s with pc := .suspended .outer (some how) }
  | _ => none

/-- `cancel()` of the caller while it is suspended. -/
def cancel : Option (PreservingAwait ε) :=
  let s := { s with cancelling := s.cancelling + 1, requested := true }
  match s.pc with
  | .suspended .outer none => some { s with pc := .suspended .outer (some .cancelled) }
  | .suspended .target none => some { s with targetCancels := s.targetCancels + 1 }
  | .suspended _ (some _) => some { s with mustCancel := true }
  | _ => none

def delivers : Bool := s.mustCancel || s.pc matches .suspended _ (some .cancelled)

/-- The caller resumes: a request that was kept replaces the outcome of the future. -/
def resume (helper : PreservingHelper) (invalidStateError : ε) : Option (PreservingAwait ε) :=
  match s.pc with
  | .suspended _ (some how) =>
    some ({ s with mustCancel := false }.goOn helper invalidStateError (if s.mustCancel then .cancelled else how))
  | _ => none

end PreservingAwait

/-! ## The machine -/

/-- The steps of the caller, the target, the event loop, and of those who cancel the caller. -/
inductive PreservingAct (ε : Type u)
  | call
  | settle (how : FutureOutcome ε)
  | propagate
  | cancel
  | resume
  deriving DecidableEq, Repr

def PreservingAwait.step (helper : PreservingHelper) (invalidStateError : ε) (s : PreservingAwait ε) :
    PreservingAct ε → Option (PreservingAwait ε)
  | .call => s.call helper invalidStateError
  | .settle how => s.settle how
  | .propagate => s.propagate
  | .cancel => s.cancel
  | .resume => s.resume helper invalidStateError

/-- The caller is about to call a helper: it may have been cancelled before, and the last request may still be kept. -/
structure PreservingAwait.Calling (s : PreservingAwait ε) : Prop where
  pc : s.pc = .calling
  fresh : s.callerCancelled = false ∧ s.targetCancels = 0
  counted : s.mustCancel = true → 0 < s.cancelling
  requested : s.requested = s.mustCancel

def preservingMachine (helper : PreservingHelper) (invalidStateError : ε) :
    Machine (PreservingAwait ε) (PreservingAct ε) where
  init s := s.Calling
  step s a := s.step helper invalidStateError a

/-! ## The promise -/

namespace PreservingAwait

/-- The helper ends after the target and never cancels it; it raises the exception of a target that failed, else
`CancelledError` if the caller was cancelled; else it returns normally if the target has a result, the task helper also if
the target was cancelled. -/
structure Preserves (helper : PreservingHelper) (s : PreservingAwait ε) : Prop where
  afterTarget : ∀ how, s.pc = .ended how → s.target.isSome
  isolated : s.targetCancels = 0
  fails : ∀ how error, s.pc = .ended how → s.target = some (.raised error) → how = .raised error
  cancels : ∀ how, s.pc = .ended how → s.requested = true → (∀ error, s.target ≠ some (.raised error)) → how = .cancelled
  returns : ∀ how, s.pc = .ended how → s.requested = false → s.target = some .result → how = .result
  childOnly : ∀ how, s.pc = .ended how → helper = .task → s.requested = false → s.target = some .cancelled → how = .result

/-- The condition on the steps that may end the helper. The task helper does not resume with a cancellation of the caller
once the target has failed, and not from a cancelled target with nothing but requests that were delivered before the call;
no helper is called with a target that has a result while a request is kept. -/
def Classified (helper : PreservingHelper) (s : PreservingAwait ε) : PreservingAct ε → Prop
  | .call =>
    match s.target with
    | some .result => s.mustCancel = false
    | some .cancelled => helper = .task → s.cancelling = 0 ∨ s.requested = true
    | _ => True
  | .resume =>
    match s.target with
    | some (.raised _) => helper = .task → s.delivers = false
    | some .cancelled => helper = .task → s.cancelling = 0 ∨ s.requested = true
    | _ => True
  | _ => True

/-- What the promise says of the end of a call, given the target, and whether the caller was cancelled. -/
def Allowed (helper : PreservingHelper) (requested : Bool) (how : FutureOutcome ε) : FutureOutcome ε → Prop
  | .raised error => how = .raised error
  | .result => how = if requested then .cancelled else .result
  | .cancelled => if requested then how = .cancelled else helper = .task → how = .result

variable {helper : PreservingHelper} {invalidStateError : ε} {s t : PreservingAwait ε} {a : PreservingAct ε}
variable {how τ : FutureOutcome ε}

theorem preserves_of_not_ended (hcancels : s.targetCancels = 0) (hpc : ∀ how, s.pc ≠ .ended how) : s.Preserves helper :=
  ⟨fun how h => absurd h (hpc how), hcancels, fun how _ h => absurd h (hpc how), fun how h => absurd h (hpc how),
    fun how h => absurd h (hpc how), fun how h => absurd h (hpc how)⟩

theorem preserves_iff_allowed (hcancels : s.targetCancels = 0) (hpc : s.pc = .ended how) (htarget : s.target = some τ) :
    s.Preserves helper ↔ Allowed helper s.requested how τ := by
  constructor
  · intro h
    cases τ with
    | raised error => exact h.fails how error hpc htarget
    | result =>
      cases hr : s.requested with
      | false => exact h.returns how hpc hr htarget
      | true => exact h.cancels how hpc hr fun error he => by cases htarget.symm.trans he
    | cancelled =>
      cases hr : s.requested with
      | false => exact fun htask => h.childOnly how hpc htask hr htarget
      | true => exact h.cancels how hpc hr fun error he => by cases htarget.symm.trans he
  · intro h
    have hself : ∀ {how'}, s.pc = .ended how' → how' = how := fun hpc' => by cases hpc.symm.trans hpc'; rfl
    refine ⟨fun _ _ => by rw [htarget]; rfl, hcancels, ?_, ?_, ?_, ?_⟩
    · intro how' error hpc' he
      cases htarget.symm.trans he
      exact (hself hpc').trans h
    · intro how' hpc' hr hne
      cases hself hpc'
      cases τ with
      | raised error => exact absurd htarget (hne error)
      | result => exact h.trans (if_pos hr)
      | cancelled => exact (if_pos hr).mp h
    · intro how' hpc' hr he
      cases hself hpc'
      cases htarget.symm.trans he
      exact h.trans (if_neg (by rw [hr]; exact Bool.false_ne_true))
    · intro how' hpc' htask hr he
      cases hself hpc'
      cases htarget.symm.trans he
      rw [Allowed, hr] at h
      exact h htask

/-! ## The invariant -/

/-- What the caller has seen of its cancellations. -/
structure Inv (s : PreservingAwait ε) : Prop where
  isolated : s.targetCancels = 0
  kept : s.mustCancel = true → s.requested = true
  counted : s.requested = true → 0 < s.cancelling
  calling : s.pc = .calling → s.callerCancelled = false ∧ s.requested = s.mustCancel
  suspended : ∀ on outcome, s.pc = .suspended on outcome →
    on = .outer ∧ (s.callerCancelled = true → s.requested = true) ∧
      (s.requested = true → s.callerCancelled = true ∨ s.delivers = true) ∧
      ∀ how, outcome = some how → how = .cancelled ∧ s.requested = true ∨ s.target = some how
  ended : ∀ how, s.pc = .ended how → s.target.isSome

/-- A pending target is awaited, for the first time or again. -/
theorem Inv.awaitShield (htarget : s.target = none) (hcancels : s.targetCancels = 0)
    (hkept : s.mustCancel = true → s.requested = true) (hcounted : s.requested = true → 0 < s.cancelling)
    (hcaller : s.callerCancelled = true → s.requested = true)
    (hseen : s.requested = true → s.callerCancelled = true ∨ s.mustCancel = true) : s.awaitShield.Inv := by
  have hon : (if s.target.isSome then AwaitedFuture.target else .outer) = .outer := by rw [htarget]; rfl
  unfold PreservingAwait.awaitShield
  rw [hon]
  cases hmust : s.mustCancel with
  | true =>
    refine ⟨hcancels, nofun, hcounted, nofun, fun on outcome hpc => ?_, nofun⟩
    cases hpc
    refine ⟨rfl, hcaller, fun _ => .inr rfl, fun how hhow => ?_⟩
    cases hhow
    exact .inl ⟨rfl, hkept hmust⟩
  | false =>
    refine ⟨hcancels, nofun, hcounted, nofun, fun on outcome hpc => ?_, nofun⟩
    cases hpc
    refine ⟨rfl, hcaller, fun hr => .inl ((hseen hr).resolve_right ?_), nofun⟩
    rw [hmust]
    exact Bool.false_ne_true

/-! ## The end of a helper -/

/-- How a helper finishes after its loop, when its target has ended as `τ`. -/
def finishing (helper : PreservingHelper) (τ : FutureOutcome ε) (callerCancelled : Bool) : FutureOutcome ε :=
  match helper, τ with
  | .task, _ | .future, .result => if callerCancelled then .cancelled else .result
  | .future, τ => τ

def ending (helper : PreservingHelper) (cancelling : Nat) (callerCancelled : Bool) (τ : FutureOutcome ε) :
    FutureOutcome ε → FutureOutcome ε
  | .raised error => .raised error
  | .result => finishing helper τ callerCancelled
  | .cancelled =>
    if 0 < cancelling then finishing helper τ true
    else match helper with
      | .task => finishing .task τ callerCancelled
      | .future => .cancelled

/-- A helper whose target is done ends. -/
structure EndsAs (s t : PreservingAwait ε) (how : FutureOutcome ε) : Prop where
  pc : t.pc = .ended how
  target : t.target = s.target
  targetCancels : t.targetCancels = s.targetCancels
  requested : t.requested = s.requested
  mustCancel : t.mustCancel = s.mustCancel
  cancelling : t.cancelling = s.cancelling

theorem endsAs_finishTask (callerCancelled : Bool) (τ : FutureOutcome ε) :
    EndsAs s { s with callerCancelled }.finishTask (finishing .task τ callerCancelled) :=
  ⟨rfl, rfl, rfl, rfl, rfl, rfl⟩

theorem endsAs_finishFuture (htarget : s.target = some τ) (callerCancelled : Bool) :
    EndsAs s ({ s with callerCancelled }.finishFuture invalidStateError) (finishing .future τ callerCancelled) := by
  unfold finishFuture
  dsimp only
  rw [htarget]
  cases τ with
  | result | raised error | cancelled => exact ⟨rfl, htarget.symm ▸ rfl, rfl, rfl, rfl, rfl⟩

theorem endsAs_goOn (helper : PreservingHelper) (invalidStateError : ε) (htarget : s.target = some τ) (how : FutureOutcome ε) :
    EndsAs s (s.goOn helper invalidStateError how) (ending helper s.cancelling s.callerCancelled τ how) := by
  have hdone : s.target.isSome = true := by rw [htarget]; rfl
  cases how with
  | raised error => cases helper <;> exact ⟨rfl, rfl, rfl, rfl, rfl, rfl⟩
  | result =>
    cases helper with
    | task => exact endsAs_finishTask s.callerCancelled τ
    | future => exact endsAs_finishFuture htarget s.callerCancelled
  | cancelled =>
    by_cases hcancelling : 0 < s.cancelling
    · cases helper with
      | task =>
        simp only [goOn, awaitTaskCompletionPreservingCancellation, ending, if_pos hcancelling, if_pos hdone]
        exact endsAs_finishTask true τ
      | future =>
        simp only [goOn, awaitFutureCompletionPreservingCancellation, ending, if_pos hcancelling, if_pos hdone]
        exact endsAs_finishFuture htarget true
    · cases helper with
      | task =>
        simp only [goOn, awaitTaskCompletionPreservingCancellation, ending, if_neg hcancelling]
        exact endsAs_finishTask s.callerCancelled τ
      | future =>
        simp only [goOn, awaitFutureCompletionPreservingCancellation, ending, if_neg hcancelling]
        exact ⟨rfl, rfl, rfl, rfl, rfl, rfl⟩

/-- While the target is pending, only a cancellation of the caller ends an await, and the helper awaits again. -/
theorem goOn_of_pending (htarget : s.target = none) (hcancelling : 0 < s.cancelling) :
    s.goOn helper invalidStateError .cancelled = { s with callerCancelled := true }.awaitShield := by
  have hnone : ¬ s.target.isSome = true := by rw [htarget]; exact Bool.false_ne_true
  cases helper with
  | task => simp only [goOn, awaitTaskCompletionPreservingCancellation, if_pos hcancelling, if_neg hnone]
  | future => simp only [goOn, awaitFutureCompletionPreservingCancellation, if_pos hcancelling, if_neg hnone]

theorem EndsAs.preserves_iff (h : EndsAs s t how) (hcancels : s.targetCancels = 0) (htarget : s.target = some τ) :
    t.Preserves helper ↔ Allowed helper s.requested how τ := by
  rw [← h.requested]
  exact preserves_iff_allowed (h.targetCancels.trans hcancels) h.pc (h.target.trans htarget)

theorem EndsAs.inv (h : EndsAs s t how) (hcancels : s.targetCancels = 0) (htarget : s.target = some τ)
    (hkept : s.mustCancel = true → s.requested = true) (hcounted : s.requested = true → 0 < s.cancelling) : t.Inv := by
  refine ⟨h.targetCancels.trans hcancels, fun hmust => ?_, fun hr => ?_, fun hpc => ?_, fun on outcome hpc => ?_,
    fun _ _ => ?_⟩
  · rw [h.requested]
    exact hkept (h.mustCancel ▸ hmust)
  · rw [h.cancelling]
    exact hcounted (h.requested ▸ hr)
  · cases h.pc.symm.trans hpc
  · cases h.pc.symm.trans hpc
  · rw [h.target, htarget]
    rfl

theorem finishing_result (helper : PreservingHelper) (callerCancelled : Bool) :
    finishing (ε := ε) helper .result callerCancelled = if callerCancelled then .cancelled else .result := by
  cases helper <;> rfl

theorem ending_cancelled {cancelling : Nat} {callerCancelled : Bool} (h : 0 < cancelling) :
    ending helper cancelling callerCancelled τ .cancelled = finishing helper τ true := if_pos h

/-- A target that was cancelled, and a caller that carries nothing but requests it has seen before. -/
theorem allowed_cancelled_iff (hcounted : s.requested = true → 0 < s.cancelling)
    (hcaller : s.callerCancelled = true → s.requested = true) :
    Allowed helper s.requested (ending helper s.cancelling s.callerCancelled .cancelled .cancelled)
        (.cancelled : FutureOutcome ε) ↔
      (helper = .task → s.cancelling = 0 ∨ s.requested = true) := by
  by_cases hr : s.requested = true
  · rw [Allowed, if_pos hr, ending_cancelled (hcounted hr)]
    exact iff_of_true (by cases helper <;> rfl) fun _ => .inr hr
  · have hnot : s.callerCancelled = false := Bool.eq_false_iff.mpr fun hc => hr (hcaller hc)
    rw [Allowed, if_neg hr]
    cases helper with
    | future => exact iff_of_true nofun nofun
    | task =>
      by_cases hcancelling : 0 < s.cancelling
      · rw [ending_cancelled hcancelling]
        refine iff_of_false (fun hf => ?_) fun hf => ?_
        · cases hf rfl
        · exact (hf rfl).elim (Nat.ne_of_gt hcancelling) hr
      · refine iff_of_true (fun _ => ?_) fun _ => .inl (Nat.eq_zero_of_not_pos hcancelling)
        simp only [ending, if_neg hcancelling, finishing, hnot, Bool.false_eq_true, if_false]

theorem Inv.allowed_call_iff (h : s.Inv) (hpc : s.pc = .calling) (htarget : s.target = some τ) :
    Allowed helper s.requested (ending helper s.cancelling s.callerCancelled τ τ) τ ↔ s.Classified helper .call := by
  obtain ⟨hcaller, hrequested⟩ := h.calling hpc
  simp only [Classified, htarget]
  cases τ with
  | raised error => exact iff_of_true rfl trivial
  | result =>
    rw [ending, finishing_result, hcaller, ← hrequested, Allowed]
    cases s.requested <;> simp
  | cancelled => exact allowed_cancelled_iff h.counted fun hc => by rw [hcaller] at hc; cases hc

theorem Inv.allowed_resume_iff (h : s.Inv) {on : AwaitedFuture} (hpc : s.pc = .suspended on (some how))
    (htarget : s.target = some τ) :
    Allowed helper s.requested
        (ending helper s.cancelling s.callerCancelled τ (if s.mustCancel then .cancelled else how)) τ ↔
      s.Classified helper .resume := by
  obtain ⟨-, hcaller, hseen, hhow⟩ := h.suspended on (some how) hpc
  simp only [Classified, htarget]
  cases hd : s.delivers with
  | false =>
    have hmust : s.mustCancel = false := by
      simp only [delivers, Bool.or_eq_false_iff] at hd
      exact hd.1
    have hne : how ≠ .cancelled := by
      rintro rfl
      simp [delivers, hpc] at hd
    have hτ : how = τ := by
      have hself := ((hhow how rfl).resolve_left fun hc => hne hc.1).symm.trans htarget
      exact Option.some.inj hself
    subst hτ
    rw [hmust, if_neg Bool.false_ne_true]
    cases how with
    | raised error => exact iff_of_true rfl fun _ => rfl
    | result =>
      -- every request has been seen by the loop
      have hiff : s.callerCancelled = s.requested := by
        rw [Bool.eq_iff_iff]
        exact ⟨hcaller, fun hr => (hseen hr).resolve_right (by rw [hd]; exact Bool.false_ne_true)⟩
      rw [ending, finishing_result, Allowed, hiff]
      exact iff_of_true rfl trivial
    | cancelled => exact absurd rfl hne
  | true =>
    have hcancelled : (if s.mustCancel then .cancelled else how) = FutureOutcome.cancelled := by
      cases hmust : s.mustCancel with
      | true => rfl
      | false =>
        rw [delivers, hmust, hpc] at hd
        cases how with
        | cancelled => rfl
        | result | raised => cases hd
    have hrequested : τ ≠ .cancelled → s.requested = true := by
      intro hne
      cases hmust : s.mustCancel with
      | true => exact h.kept hmust
      | false =>
        rw [hmust, if_neg Bool.false_ne_true] at hcancelled
        rcases hhow how rfl with hc | hc
        · exact hc.2
        · rw [hcancelled, htarget] at hc
          exact absurd (Option.some.inj hc) hne
    rw [hcancelled]
    cases τ with
    | raised error =>
      rw [ending_cancelled (h.counted (hrequested nofun))]
      cases helper with
      | task => exact iff_of_false nofun fun hf => by cases hf rfl
      | future => exact iff_of_true rfl nofun
    | result =>
      have hr := hrequested nofun
      rw [ending_cancelled (h.counted hr), finishing_result, Allowed, hr]
      exact iff_of_true rfl trivial
    | cancelled => exact allowed_cancelled_iff h.counted hcaller

/-! ## Runs -/

theorem Calling.inv (h : s.Calling) : s.Inv := by
  refine ⟨h.fresh.2, fun hmust => h.requested.trans hmust, fun hr => h.counted (h.requested ▸ hr),
    fun _ => ⟨h.fresh.1, h.requested⟩, fun on outcome hpc => ?_, fun how hpc => ?_⟩
  · cases h.pc.symm.trans hpc
  · cases h.pc.symm.trans hpc

theorem awaitShield_ne_ended (s : PreservingAwait ε) (how : FutureOutcome ε) : s.awaitShield.pc ≠ .ended how := by
  intro hpc
  unfold PreservingAwait.awaitShield at hpc
  dsimp only at hpc
  split at hpc <;> cases hpc

/-- What a step that calls or resumes the helper does: the helper awaits again, or it ends. -/
theorem Inv.goesOn (h : s.Inv) (hstep : s.step helper invalidStateError a = some t) (ha : a = .call ∨ a = .resume) :
    t.Inv ∧ ((∀ how, t.pc ≠ .ended how) ∨ (t.Preserves helper ↔ s.Classified helper a)) := by
  rcases ha with rfl | rfl
  · simp only [step, call] at hstep
    split at hstep
    · next hpc =>
      obtain ⟨hcaller, hrequested⟩ := h.calling hpc
      split at hstep
      · next htarget =>
        cases hstep
        refine ⟨.awaitShield htarget h.isolated h.kept h.counted (fun hc => ?_) fun hr => .inr (hrequested ▸ hr),
          .inl (awaitShield_ne_ended _)⟩
        rw [hcaller] at hc
        cases hc
      · next τ htarget =>
        cases hstep
        have hends := endsAs_goOn helper invalidStateError htarget τ
        refine ⟨hends.inv h.isolated htarget h.kept h.counted, .inr ?_⟩
        exact (hends.preserves_iff h.isolated htarget).trans (h.allowed_call_iff hpc htarget)
    · cases hstep
  · simp only [step, resume] at hstep
    split at hstep
    · next on how hpc =>
      cases hstep
      obtain ⟨-, hcaller, hseen, hhow⟩ := h.suspended on (some how) hpc
      obtain htarget | ⟨τ, htarget⟩ := s.target.eq_none_or_eq_some
      · have hcancelled : how = .cancelled ∧ s.requested = true :=
          (hhow how rfl).resolve_right fun hc => by cases htarget.symm.trans hc
        have hwoken : (if s.mustCancel then .cancelled else how) = FutureOutcome.cancelled := by
          rw [hcancelled.1, ite_self]
        rw [hwoken, goOn_of_pending (s := { s with mustCancel := false }) htarget (h.counted hcancelled.2)]
        exact ⟨.awaitShield htarget h.isolated nofun h.counted (fun _ => hcancelled.2) fun _ => .inl rfl,
          .inl (awaitShield_ne_ended _)⟩
      · have hends := endsAs_goOn helper invalidStateError
          (s := { s with mustCancel := false }) htarget (if s.mustCancel then .cancelled else how)
        refine ⟨hends.inv h.isolated htarget nofun h.counted, .inr ?_⟩
        exact (hends.preserves_iff h.isolated htarget).trans (h.allowed_resume_iff hpc htarget)
    · cases hstep

/-- What the other steps do: the invariant stays, and the helper does not end. -/
theorem Inv.goes (h : s.Inv) (hstep : s.step helper invalidStateError a = some t) (ha : a ≠ .call ∧ a ≠ .resume) :
    t.Inv ∧ ∀ how, t.pc ≠ .ended how := by
  cases a with
  | call => exact absurd rfl ha.1
  | resume => exact absurd rfl ha.2
  | settle τ =>
    simp only [step, settle] at hstep
    split at hstep
    · next htarget =>
      cases hstep
      have hnone : s.target = none := Option.isNone_iff_eq_none.mp htarget
      have hended : ∀ how, s.pc ≠ .ended how := fun how hpc => by
        have hdone := h.ended how hpc
        rw [hnone] at hdone
        cases hdone
      refine ⟨⟨h.isolated, h.kept, h.counted, h.calling, fun on outcome hpc => ?_, fun how hpc => absurd hpc (hended how)⟩,
        hended⟩
      obtain ⟨hon, hcaller, hseen, hhow⟩ := h.suspended on outcome hpc
      refine ⟨hon, hcaller, hseen, fun how hout => .inl ((hhow how hout).resolve_right fun hc => ?_)⟩
      cases hnone.symm.trans hc
    · cases hstep
  | propagate =>
    simp only [step, propagate] at hstep
    split at hstep
    · next hpc =>
      obtain ⟨τ, htarget, rfl⟩ := Option.map_eq_some_iff.mp hstep
      obtain ⟨-, hcaller, hseen, -⟩ := h.suspended .outer none hpc
      refine ⟨⟨h.isolated, h.kept, h.counted, nofun, fun on outcome hpc' => ?_, nofun⟩, nofun⟩
      cases hpc'
      refine ⟨rfl, hcaller, fun hr => (hseen hr).imp id fun hd => ?_, fun how hout => ?_⟩
      · simp only [delivers, hpc, Bool.or_false] at hd
        simp only [delivers, hd, Bool.true_or]
      · cases hout
        exact .inr htarget
    · cases hstep
  | cancel =>
    simp only [step, cancel] at hstep
    split at hstep
    · next hpc =>
      cases hstep
      refine ⟨⟨h.isolated, fun _ => rfl, fun _ => Nat.succ_pos _, nofun, fun on outcome hpc' => ?_, nofun⟩, nofun⟩
      cases hpc'
      refine ⟨rfl, fun _ => rfl, fun _ => .inr ?_, fun how hout => ?_⟩
      · simp only [delivers, Bool.or_true]
      · cases hout
        exact .inl ⟨rfl, rfl⟩
    · next hpc =>
      obtain ⟨hon, -⟩ := h.suspended .target none hpc
      cases hon
    · next on how hpc =>
      cases hstep
      obtain ⟨hon, -, -, hhow⟩ := h.suspended on (some how) hpc
      refine ⟨⟨h.isolated, fun _ => rfl, fun _ => Nat.succ_pos _, fun hpc' => ?_, fun on' outcome hpc' => ?_,
        fun how' hpc' => ?_⟩, fun how' hpc' => ?_⟩
      · cases hpc.symm.trans hpc'
      · cases hpc.symm.trans hpc'
        refine ⟨hon, fun _ => rfl, fun _ => .inr ?_, fun how' hout => ?_⟩
        · simp only [delivers, Bool.true_or]
        · exact (hhow how' hout).imp (fun hc => ⟨hc.1, rfl⟩) id
      · cases hpc.symm.trans hpc'
      · cases hpc.symm.trans hpc'
    · cases hstep

theorem Inv.step (h : s.Inv) (hstep : s.step helper invalidStateError a = some t) : t.Inv := by
  by_cases ha : a = .call ∨ a = .resume
  · exact (h.goesOn hstep ha).1
  · exact (h.goes hstep (not_or.mp ha)).1

theorem inv_of_reachable {ok : PreservingAwait ε → PreservingAct ε → Prop}
    (h : (preservingMachine helper invalidStateError).Reachable ok s) : s.Inv :=
  h.invariant (I := Inv) (fun _ h0 => Calling.inv h0) fun _ _ _ hi _ hstep => hi.step hstep

/-- In every run, a step that ends the helper keeps the promise if and only if it meets the condition. -/
theorem preserves_iff (h : (preservingMachine helper invalidStateError).Reachable Machine.Any s)
    (hstep : s.step helper invalidStateError a = some t) (hpc : t.pc = .ended how) :
    t.Preserves helper ↔ s.Classified helper a := by
  have hinv : s.Inv := inv_of_reachable h
  by_cases ha : a = .call ∨ a = .resume
  · exact (hinv.goesOn hstep ha).2.resolve_left fun hne => hne how hpc
  · exact absurd hpc ((hinv.goes hstep (not_or.mp ha)).2 how)

/-- Whatever the number and the times of the cancellations of the caller, and however the target ends: the helpers keep
their promise in every run whose steps all meet the condition. -/
theorem preserves_of_reachable
    (h : (preservingMachine helper invalidStateError).Reachable (fun s a => s.Classified helper a) s) :
    s.Preserves helper := by
  cases h with
  | init h0 => exact preserves_of_not_ended h0.fresh.2 fun how hpc => by cases h0.pc.symm.trans hpc
  | step hs hok hstep =>
    by_cases hended : ∃ how, s.pc = .ended how
    · obtain ⟨how, hpc⟩ := hended
      exact (preserves_iff hs.any hstep hpc).mpr hok
    · exact preserves_of_not_ended (inv_of_reachable (hs.step hok hstep)).isolated fun how hpc => hended ⟨how, hpc⟩

instance [DecidableEq ε] (s : PreservingAwait ε) : (a : PreservingAct ε) → Decidable (s.Classified helper a)
  | .call => by
    unfold Classified
    exact match s.target with
      | some .result => inferInstanceAs (Decidable (s.mustCancel = false))
      | some .cancelled => inferInstanceAs (Decidable (helper = .task → s.cancelling = 0 ∨ s.requested = true))
      | some (.raised _) | none => isTrue trivial
  | .resume => by
    unfold Classified
    exact match s.target with
      | some (.raised _) => inferInstanceAs (Decidable (helper = .task → s.delivers = false))
      | some .cancelled => inferInstanceAs (Decidable (helper = .task → s.cancelling = 0 ∨ s.requested = true))
      | some .result | none => isTrue trivial
  | .settle _ | .propagate | .cancel => isTrue trivial

end PreservingAwait

def uncancelledCaller : PreservingAwait String where
  target := none
  cancelling := 0
  mustCancel := false
  requested := false

theorem calling_uncancelledCaller : uncancelledCaller.Calling := ⟨rfl, ⟨rfl, rfl⟩, nofun, rfl⟩

/-- The caller is cancelled twice while the target runs, and then the target fails. -/
theorem preserves_of_cancelledTwice :
    ∃ s, (preservingMachine .task "invalid state").Reachable (fun s a => s.Classified .task a) s ∧
      (s.pc = .ended (.raised "failed") ∧ s.cancelling = 2) ∧ s.Preserves .task := by
  have hrun : ∃ s, (preservingMachine .task "invalid state").Reachable (fun s a => s.Classified .task a) s ∧
      decide (s.pc = .ended (.raised "failed") ∧ s.cancelling = 2) :=
    Machine.Reachable.exists_of_execOk calling_uncancelledCaller
      [.call, .cancel, .resume, .cancel, .resume, .settle (.raised "failed"), .propagate, .resume] _ (by decide)
  obtain ⟨s, hs, hp⟩ := hrun
  exact ⟨s, hs, of_decide_eq_true hp, PreservingAwait.preserves_of_reachable hs⟩

/-- The target fails, and the caller is cancelled before it resumes: the failure is lost. -/
theorem not_preserves_of_cancelledAfterFailure :
    ¬ ∀ s, (preservingMachine .task "invalid state").Reachable Machine.Any s → s.Preserves .task := by
  have hrun : ∃ s, (preservingMachine .task "invalid state").Reachable Machine.Any s ∧
      decide (s.pc = .ended .cancelled ∧ s.target = some (.raised "failed")) :=
    Machine.Reachable.exists_of_exec calling_uncancelledCaller
      [.call, .settle (.raised "failed"), .propagate, .cancel, .resume] _ (by decide)
  obtain ⟨s, hs, hp⟩ := hrun
  obtain ⟨hpc, htarget⟩ := of_decide_eq_true hp
  intro hall
  cases (hall s hs).fails _ _ hpc htarget

end Aionetx
