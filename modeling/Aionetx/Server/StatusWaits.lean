import Aionetx.Runs.StatusBoard
import Aionetx.Model.Lifecycle

/-!
# Waiting for the server to run

`wait_until_running` of any number of callers behind `_status_changed`. All of them look for the same, so that nobody clears the
event while there is something for another.

* `ServerStatus`, `ServerStatus.poll` : what `wait_until_server_running` reads, and what it finds there;
* `ServerSite`, `serverStatus` : the stretches of the server that write it or notify;
* `serverWaits_of_reachable` : no caller stays behind, and none spins.
-/

namespace Aionetx

open Runs

structure ServerStatus where
  lifecycle : ComponentLifecycleState := .stopped
  hasStarted : Bool := false
  deriving DecidableEq

inductive RunningAnswer
  | running
  | stopped
  deriving DecidableEq, Repr

namespace ServerStatus
variable (s : ServerStatus)

/-- One pass of the loop of `wait_until_server_running`. -/
def poll : Option RunningAnswer :=
  if s.lifecycle = .running then some .running
  else if s.lifecycle = .stopped ∧ s.hasStarted then some .stopped
  else none

/-- `_apply_lifecycle_state`; the flag tells whether the transition is applied, which notifies. -/
def applyLifecycleState (target : ComponentLifecycleState) : ServerStatus × Bool :=
  match LifecycleTransition.of s.lifecycle target with
  | .applied _ => ({ s with lifecycle := target }, true)
  | .unchanged | .illegal => (s, false)

/-- The locked section of `start()`. -/
def startSection : ServerStatus × Bool :=
  if s.lifecycle.active then (s, false) else { s with hasStarted := true }.applyLifecycleState .starting

end ServerStatus

/-- `notifyStatusChanged` : the calls of `_notify_status_changed` beside those of the transitions. -/
inductive ServerSite
  | startSection
  | applyLifecycleState (target : ComponentLifecycleState)
  | notifyStatusChanged
  deriving DecidableEq, Repr

def serverStatus : Notifier ServerStatus ServerSite where
  init s := s = {}
  step s
    | .startSection => some s.startSection
    | .applyLifecycleState target => some (s.applyLifecycleState target)
    | .notifyStatusChanged => some (s, true)

def serverWatch (_ : Unit) : Watch ServerStatus RunningAnswer where
  poll := ServerStatus.poll

/-- An answer appears only where the server notifies: `start()` during `STOPPING` raises after it has written its flag. -/
theorem serverStatus_announces (k : Unit) : serverStatus.Announces (fun _ => True) (serverWatch k) := by
  intro s a s' _ hs hnone
  replace hnone : s.poll = none := hnone
  show s'.poll = none
  have hsame : ∀ {s : ServerStatus} {target}, s.applyLifecycleState target = (s', false) → s' = s := by
    intro s target h
    unfold ServerStatus.applyLifecycleState at h
    split at h <;> cases h <;> rfl
  cases a with
  | startSection =>
    have hs : s.startSection = (s', false) := Option.some.inj hs
    unfold ServerStatus.startSection at hs
    split at hs
    · cases hs
      exact hnone
    · next hactive =>
      have hl : s.lifecycle = .stopping := by
        cases hl : s.lifecycle with
        | stopping => rfl
        | starting | running =>
          rw [hl] at hactive
          exact absurd rfl hactive
        | stopped =>
          unfold ServerStatus.applyLifecycleState at hs
          rw [hl] at hs
          cases hs
      rw [hsame hs]
      unfold ServerStatus.poll
      rw [hl]
      rfl
  | applyLifecycleState target =>
    rw [hsame (Option.some.inj hs)]
    exact hnone
  | notifyStatusChanged => cases hs

/-- Whether the wait begins in the turn of the caller, as from Python 3.12 on, or in a task, as before. -/
theorem serverWaits_of_reachable {eager : Bool} {b : StatusBoard ServerStatus Unit RunningAnswer}
    (h : (watching serverStatus serverWatch eager).Reachable Machine.Any b) :
    b.Prompt serverStatus serverWatch eager ∧ b.Thrifty := by
  have hkeeps : serverStatus.Keeps fun _ => True := ⟨fun _ _ => trivial, fun _ _ _ _ _ _ => trivial⟩
  have hcourteous : (watching serverStatus serverWatch eager).Reachable
      (fun b a => eager = true ∨ StatusBoard.courteous serverWatch b a) b :=
    h.mono fun b a _ => .inr (StatusBoard.courteous_of_listens fun _ _ _ _ _ hl _ => StatusBoard.poll_of_listens hl)
  exact ⟨StatusBoard.prompt_of_reachable hkeeps serverStatus_announces hcourteous, StatusBoard.thrifty_of_reachable h⟩

/-- On Python 3.11: two callers wait for a server that starts and fails to bind; the second clears the event that has been set
for the first, whose wait has not begun. -/
def bindFailed : List (BoardAct ServerSite Unit) :=
  [.join (), .turn 0, .join (), .change .startSection, .turn 1, .turn 0, .change (.applyLifecycleState .stopped), .turn 1]

theorem serverWaits_of_bindFailed :
    ∃ b : StatusBoard ServerStatus Unit RunningAnswer,
      (b.waiters.map Waiter.pc = [.polling, .polling] ∧ b.status.poll = some .stopped) ∧
      (b.Prompt serverStatus serverWatch false ∧ b.Thrifty) := by
  have hrun : ∃ b : StatusBoard ServerStatus Unit RunningAnswer,
      (watching serverStatus serverWatch false).Reachable Machine.Any b ∧
        decide (b.waiters.map Waiter.pc = [.polling, .polling] ∧ b.status.poll = some .stopped) :=
    Machine.Reachable.exists_of_exec (M := watching serverStatus serverWatch false) (s := { status := {} }) ⟨rfl, rfl⟩
      bindFailed _ (by decide)
  obtain ⟨b, hb, hp⟩ := hrun
  exact ⟨b, of_decide_eq_true hp, serverWaits_of_reachable hb⟩

end Aionetx
