import Mathlib.Data.List.Basic

/-!
# Paths that go on after an error and keep the first one

* `Path σ ε` : the state, the first error recorded, and whether an error has left the path;
* `Stmt σ ι ε` : a statement, either code that cannot fail or an operation with the condition it runs under and the errors
  that leave the path instead of being recorded;
* `Stmt.turn` : one statement with a given outcome of its operation; `execute` : a list of them, with the outcome of every
  operation given;
* `execute_inv` : a property that every statement keeps; `execute_recorded` : statements that record every error;
* `Always` : every outcome that may happen leads to the postcondition; `Always.turn`,
  `always_append_sure`, `always_append_of_inv`, `always_attempts`.
-/

namespace Runs

universe u v w

structure Path (σ : Type u) (ε : Type w) where
  state : σ
  error : Option ε := none
  left : Bool := false

inductive Stmt (σ : Type u) (ι : Type v) (ε : Type w)
  /-- code that cannot fail -/
  | apply (f : Path σ ε → Path σ ε)
  /-- an operation that may fail -/
  | run (op : ι) (runs : Path σ ε → Bool) (leaves : ε → Bool)

variable {σ : Type u} {ι : Type v} {ε : Type w}

namespace Path

def clean (p : Path σ ε) : Bool := p.error.isNone

def record (p : Path σ ε) (s : σ) (leaves : ε → Bool) : Option ε → Path σ ε
  | none => { p with state := s }
  | some e => if leaves e then { state := s, error := some e, left := true } else
      { p with state := s, error := p.error.or (some e) }

@[simp] theorem record_none (p : Path σ ε) (s : σ) (leaves : ε → Bool) : p.record s leaves none = { p with state := s } :=
  rfl

@[simp] theorem record_state (p : Path σ ε) (s : σ) (leaves : ε → Bool) (outcome : Option ε) :
    (p.record s leaves outcome).state = s := by
  rcases outcome with _ | e
  · rfl
  · by_cases h : leaves e <;> simp [record, h]

end Path

namespace Stmt

/-- `try: op  except error: first_error = first_error or error`. -/
def attempt (op : ι) : Stmt σ ι ε := .run op (fun _ => true) fun _ => false

/-- The same under `if first_error is None`. -/
def ifClean (op : ι) : Stmt σ ι ε := .run op Path.clean fun _ => false

/-- An operation outside every `try`. -/
def plain (op : ι) : Stmt σ ι ε := .run op (fun _ => true) fun _ => true

def operation (p : Path σ ε) : Stmt σ ι ε → Option ι
  | .apply _ => none
  | .run op runs _ => if runs p then some op else none

def turn (perform : ι → Option ε → σ → σ) (outcome : Option ε) (p : Path σ ε) : Stmt σ ι ε → Path σ ε
  | .apply f => f p
  | .run op runs leaves => if runs p then p.record (perform op outcome p.state) leaves outcome else p

theorem turn_run (perform : ι → Option ε → σ → σ) (outcome : Option ε) (p : Path σ ε) (op : ι) (runs : Path σ ε → Bool)
    (leaves : ε → Bool) : (Stmt.run op runs leaves).turn perform outcome p =
      if runs p then p.record (perform op outcome p.state) leaves outcome else p := rfl

end Stmt

/-- One statement, unless an error has left the path; `fails` says how each operation ends. -/
def executeStep (perform : ι → Option ε → σ → σ) (fails : ι → Option ε) (p : Path σ ε) (stmt : Stmt σ ι ε) : Path σ ε :=
  if p.left then p else stmt.turn perform ((stmt.operation p).bind fails) p

def execute (perform : ι → Option ε → σ → σ) (fails : ι → Option ε) (stmts : List (Stmt σ ι ε)) (p : Path σ ε) :
    Path σ ε :=
  stmts.foldl (executeStep perform fails) p

section
variable {perform : ι → Option ε → σ → σ} {fails : ι → Option ε}

@[simp] theorem execute_nil (p : Path σ ε) : execute perform fails [] p = p := rfl

theorem execute_cons (stmt : Stmt σ ι ε) (stmts : List (Stmt σ ι ε)) (p : Path σ ε) :
    execute perform fails (stmt :: stmts) p = execute perform fails stmts (executeStep perform fails p stmt) := rfl

theorem execute_append (l m : List (Stmt σ ι ε)) (p : Path σ ε) :
    execute perform fails (l ++ m) p = execute perform fails m (execute perform fails l p) :=
  List.foldl_append ..

theorem executeStep_none {p : Path σ ε} (hp : p.left = false) (stmt : Stmt σ ι ε) :
    executeStep perform (fun _ => none) p stmt = stmt.turn perform none p := by
  have hnone : ((stmt.operation p).bind fun _ => none : Option ε) = none := by
    cases stmt.operation p <;> rfl
  rw [executeStep, if_neg (by simp [hp]), hnone]

theorem execute_of_left {p : Path σ ε} (h : p.left = true) (stmts : List (Stmt σ ι ε)) :
    execute perform fails stmts p = p := by
  induction stmts with
  | nil => rfl
  | cons stmt stmts ih => rw [execute_cons, executeStep, if_pos h, ih]

/-- What every statement keeps, the whole path keeps. -/
theorem execute_inv {I : Path σ ε → Prop} {stmts : List (Stmt σ ι ε)}
    (hstep : ∀ stmt ∈ stmts, ∀ p outcome, I p → I (stmt.turn perform outcome p)) {p : Path σ ε} (h : I p) :
    I (execute perform fails stmts p) := by
  induction stmts generalizing p with
  | nil => exact h
  | cons stmt stmts ih =>
    rw [execute_cons]
    refine ih (fun s hs => hstep s (List.mem_cons_of_mem _ hs)) ?_
    unfold executeStep
    split_ifs
    · exact h
    · exact hstep stmt List.mem_cons_self p _ h

/-- The same for a path of which no operation fails. -/
theorem execute_none_inv {I : Path σ ε → Prop} {stmts : List (Stmt σ ι ε)}
    (hstep : ∀ stmt ∈ stmts, ∀ p, I p → I (stmt.turn perform none p)) {p : Path σ ε} (h : I p) :
    I (execute perform (fun _ => none) stmts p) := by
  induction stmts generalizing p with
  | nil => exact h
  | cons stmt stmts ih =>
    rw [execute_cons]
    refine ih (fun s hs => hstep s (List.mem_cons_of_mem _ hs)) ?_
    have hnone : ((stmt.operation p).bind fun _ => none : Option ε) = none := by
      cases stmt.operation p <;> rfl
    unfold executeStep
    rw [hnone]
    split_ifs
    · exact h
    · exact hstep stmt List.mem_cons_self p h

/-- `try: op  except error: …`, step by step. -/
theorem execute_attempt {p : Path σ ε} (hp : p.left = false) (op : ι) (stmts : List (Stmt σ ι ε)) :
    execute perform fails (.attempt op :: stmts) p =
      execute perform fails stmts
        { state := perform op (fails op) p.state, error := p.error.or (fails op), left := false } := by
  rw [execute_cons]
  congr 1
  obtain ⟨s, error, left⟩ := p
  subst hp
  cases h : fails op <;>
    simp [executeStep, Stmt.attempt, Stmt.operation, Stmt.turn, Path.record, h]

theorem execute_ifClean_of_clean {s : σ} (op : ι) (stmts : List (Stmt σ ι ε)) :
    execute perform fails (.ifClean op :: stmts) { state := s } =
      execute perform fails stmts { state := perform op (fails op) s, error := fails op, left := false } := by
  rw [execute_cons]
  congr 1
  cases h : fails op <;>
    simp [executeStep, Stmt.ifClean, Stmt.operation, Stmt.turn, Path.record, Path.clean, h]

theorem execute_ifClean_of_error {p : Path σ ε} {e : ε} (he : p.error = some e) (op : ι) (stmts : List (Stmt σ ι ε)) :
    execute perform fails (.ifClean op :: stmts) p = execute perform fails stmts p := by
  rw [execute_cons]
  congr 1
  simp [executeStep, Stmt.ifClean, Stmt.turn, Path.clean, he]

theorem execute_plain_of_returned {p : Path σ ε} (hp : p.left = false) {op : ι} (hop : fails op = none)
    (stmts : List (Stmt σ ι ε)) :
    execute perform fails (.plain op :: stmts) p =
      execute perform fails stmts { p with state := perform op none p.state } := by
  rw [execute_cons]
  congr 1
  simp [executeStep, Stmt.plain, Stmt.operation, Stmt.turn, hp, hop]

theorem execute_plain_of_failed {p : Path σ ε} (hp : p.left = false) {op : ι} {e : ε} (hop : fails op = some e)
    (stmts : List (Stmt σ ι ε)) :
    execute perform fails (.plain op :: stmts) p =
      { state := perform op (some e) p.state, error := some e, left := true } := by
  rw [execute_cons, execute_of_left]
  all_goals simp [executeStep, Stmt.plain, Stmt.operation, Stmt.turn, Path.record, hp, hop]

theorem execute_run_of_not {p : Path σ ε} {op : ι} {runs : Path σ ε → Bool} (h : runs p = false) (leaves : ε → Bool)
    (stmts : List (Stmt σ ι ε)) : execute perform fails (.run op runs leaves :: stmts) p = execute perform fails stmts p := by
  rw [execute_cons]
  congr 1
  simp [executeStep, Stmt.turn, h]

theorem execute_run_of {p : Path σ ε} {op : ι} {runs : Path σ ε → Bool} (h : runs p = true) (leaves : ε → Bool)
    (stmts : List (Stmt σ ι ε)) :
    execute perform fails (.run op runs leaves :: stmts) p =
      execute perform fails (.run op (fun _ => true) leaves :: stmts) p := by
  rw [execute_cons, execute_cons]
  congr 1
  simp [executeStep, Stmt.turn, Stmt.operation, h]

theorem execute_apply {p : Path σ ε} (hp : p.left = false) (f : Path σ ε → Path σ ε) (stmts : List (Stmt σ ι ε)) :
    execute perform fails (.apply f :: stmts) p = execute perform fails stmts (f p) := by
  rw [execute_cons, executeStep, if_neg (by simp [hp])]
  rfl

/-- A run of attempts: every one is made, and the first error is kept. -/
theorem execute_attempts (ops : List ι) {p : Path σ ε} (hp : p.left = false) :
    execute perform fails (ops.map .attempt) p =
      { state := ops.foldl (fun s op => perform op (fails op) s) p.state
        error := p.error.or (ops.findSome? fails)
        left := false } := by
  induction ops generalizing p with
  | nil =>
    obtain ⟨s, error, left⟩ := p
    subst hp
    simp
  | cons op ops ih =>
    rw [List.map_cons, execute_attempt hp, ih rfl, List.foldl_cons, List.findSome?_cons]
    congr 1
    cases fails op <;> cases p.error <;> rfl

end

/-! ## Every outcome that may happen -/

section
variable {perform : ι → Option ε → σ → σ} {may : Path σ ε → ι → ε → Prop} {Q : Path σ ε → Prop}

def Permitted (may : Path σ ε → ι → ε → Prop) (p : Path σ ε) (stmt : Stmt σ ι ε) (outcome : Option ε) : Prop :=
  ∀ e, outcome = some e → ∃ op, stmt.operation p = some op ∧ may p op e

/-- Whatever happens among what `may` happen, the path ends in `Q`. -/
def Always (perform : ι → Option ε → σ → σ) (may : Path σ ε → ι → ε → Prop) (Q : Path σ ε → Prop) :
    List (Stmt σ ι ε) → Path σ ε → Prop
  | [], p => Q p
  | stmt :: stmts, p =>
    (p.left = true → Q p) ∧
      (p.left = false → ∀ outcome, Permitted may p stmt outcome → Always perform may Q stmts (stmt.turn perform outcome p))

theorem Always.of_left {stmts : List (Stmt σ ι ε)} {p : Path σ ε} (h : Always perform may Q stmts p)
    (hp : p.left = true) : Q p := by
  cases stmts with
  | nil => exact h
  | cons stmt stmts => exact h.1 hp

theorem Always.turn {stmt : Stmt σ ι ε} {stmts : List (Stmt σ ι ε)} {p : Path σ ε}
    (h : Always perform may Q (stmt :: stmts) p) (hp : p.left = false) {outcome : Option ε}
    (ho : Permitted may p stmt outcome) : Always perform may Q stmts (stmt.turn perform outcome p) := h.2 hp outcome ho

/-- Statements that cannot fail are simply executed. -/
theorem always_append_sure {l m : List (Stmt σ ι ε)}
    (hl : ∀ stmt ∈ l, ∀ q op e, stmt.operation q = some op → ¬may q op e) {p : Path σ ε}
    (h : Always perform may Q m (Runs.execute perform (fun _ => none) l p)) : Always perform may Q (l ++ m) p := by
  induction l generalizing p with
  | nil => exact h
  | cons stmt l ih =>
    have hl' : ∀ s ∈ l, ∀ q op e, s.operation q = some op → ¬may q op e := fun s hs => hl s (List.mem_cons_of_mem _ hs)
    refine ⟨fun hp => ?_, fun hp outcome ho => ?_⟩
    · rw [execute_of_left hp] at h
      exact h.of_left hp
    · cases outcome with
      | none =>
        rw [execute_cons, executeStep_none hp] at h
        exact ih hl' h
      | some e =>
        obtain ⟨op, hop, hmay⟩ := ho e rfl
        exact absurd hmay (hl stmt List.mem_cons_self p op e hop)

/-- Statements that keep an invariant, whatever may happen. -/
theorem always_append_of_inv {I : Path σ ε → Prop} {l m : List (Stmt σ ι ε)}
    (hstep : ∀ stmt ∈ l, ∀ p outcome, I p → Permitted may p stmt outcome → I (stmt.turn perform outcome p))
    (hleft : ∀ p, I p → p.left = false) (hm : ∀ p, I p → Always perform may Q m p) {p : Path σ ε} (h : I p) :
    Always perform may Q (l ++ m) p := by
  induction l generalizing p with
  | nil => exact hm p h
  | cons stmt l ih =>
    refine ⟨fun hp => ?_, fun _ outcome ho => ?_⟩
    · rw [hleft p h] at hp
      cases hp
    · exact ih (fun s hs => hstep s (List.mem_cons_of_mem _ hs)) (hstep stmt List.mem_cons_self p outcome h ho)

/-- Attempts: an invariant of the state that says which operations are still to come, and a property of the recorded
error, lead to what follows. -/
theorem always_attempts {I : List ι → σ → Prop} {E : Option ε → Prop}
    (hstep : ∀ op ops s error e, I (op :: ops) s → (∀ x, e = some x → may { state := s, error } op x) →
      I ops (perform op e s) ∧ (E error → E (error.or e)))
    {m : List (Stmt σ ι ε)} (hm : ∀ s error, I [] s → E error → Always perform may Q m { state := s, error })
    (ops : List ι) {s : σ} {error : Option ε} (hI : I ops s) (hE : E error) :
    Always perform may Q (ops.map .attempt ++ m) { state := s, error } := by
  induction ops generalizing s error with
  | nil => exact hm s error hI hE
  | cons op ops ih =>
    refine ⟨fun hp => (by cases hp), fun _ outcome ho => ?_⟩
    have hmay : ∀ x, outcome = some x → may { state := s, error } op x := by
      intro x hx
      obtain ⟨op', hop, h⟩ := ho x hx
      cases hop
      exact h
    obtain ⟨hI', hE'⟩ := hstep op ops s error outcome hI hmay
    have hturn : (Stmt.attempt op : Stmt σ ι ε).turn perform outcome { state := s, error } =
        { state := perform op outcome s, error := error.or outcome } := by
      cases outcome <;> simp [Stmt.attempt, Stmt.turn, Path.record]
    rw [hturn]
    exact ih hI' (hE' hE)

end

end Runs
