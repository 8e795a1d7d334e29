import Mathlib.Algebra.Order.Ring.Unbundled.Rat
import Mathlib.Algebra.Group.Nat.Defs
import Aionetx.Client.Reconnects
import Aionetx.ReleaseGate.LinkHeader

/-!
# Values and their checks

The helpers of `api/_validation.py`, on whatever Python value a caller may put into a settings field.

* `PyFloat`, `PyValue`, `PyValue.toFloat` : values, as far as the helpers tell them apart, and `float()`;
* `PyError` : the type and the text of an exception;
* `PyValue.requireBool` and the others : the helpers, each with what it accepts and with `Names`, the field its errors begin with.
-/

namespace Aionetx

inductive PyFloat
  | finite (x : ℚ)
  | infinite (negative : Bool)
  | nan
  deriving DecidableEq

inductive EnumType
  | errorPolicy
  | reconnectJitter
  | eventDispatchMode
  | eventBackpressurePolicy
  | eventHandlerFailurePolicy
  deriving DecidableEq, Repr

def EnumType.name : EnumType → String
  | .errorPolicy => "ErrorPolicy"
  | .reconnectJitter => "ReconnectJitter"
  | .eventDispatchMode => "EventDispatchMode"
  | .eventBackpressurePolicy => "EventBackpressurePolicy"
  | .eventHandlerFailurePolicy => "EventHandlerFailurePolicy"

/-- A member of one of them. They derive from `str`. -/
inductive EnumMember
  | errorPolicy (policy : ErrorPolicy)
  | reconnectJitter (jitter : ReconnectJitter)
  | eventDispatchMode (mode : EventDispatchMode)
  | eventBackpressurePolicy (policy : EventBackpressurePolicy)
  | eventHandlerFailurePolicy (policy : EventHandlerFailurePolicy)
  deriving DecidableEq, Repr

def EnumMember.type : EnumMember → EnumType
  | .errorPolicy _ => .errorPolicy
  | .reconnectJitter _ => .reconnectJitter
  | .eventDispatchMode _ => .eventDispatchMode
  | .eventBackpressurePolicy _ => .eventBackpressurePolicy
  | .eventHandlerFailurePolicy _ => .eventHandlerFailurePolicy

/-- A value. `real` is any other `numbers.Real`, given by what `float()` makes of it, or the text of its `OverflowError`, and by its
truth; a `member` is a `str` as well, with a text that is not blank; of any `other` value only its truth is known. -/
inductive PyValue
  | none
  | bool (b : Bool)
  | int (n : Int)
  | float (x : PyFloat)
  | real (x : Except String PyFloat) (truthy : Bool)
  | str (s : PyStr)
  | member (m : EnumMember)
  | other (truthy : Bool)
  deriving DecidableEq

/-- The exceptions that the settings and the UDP sender raise. -/
inductive ErrorType
  | invalidNetworkConfigurationError
  | overflowError
  | typeError
  | udpInvalidTargetError
  | udpSenderStoppedError
  | osError
  | unicodeError
  deriving DecidableEq, Repr

structure PyError where
  type : ErrorType
  message : String
  deriving DecidableEq, Repr

/-- An error of a check has the type of the check and begins with the field; the overflow of `float()` is the only other one. -/
def PyError.Names (e : PyError) (errorType : ErrorType) (fieldName : String) : Prop :=
  (e.type = errorType ∧ ∃ rest, e.message = fieldName ++ rest) ∨ e.type = .overflowError

/-- A natural number as the nearest multiple of a power of two with 53 significant bits, ties to even. -/
def roundToDouble (n : Nat) : Nat :=
  let e := n.log2 - 52
  let q := n / 2 ^ e
  let r := n % 2 ^ e
  if 2 ^ e < 2 * r ∨ 2 ^ e = 2 * r ∧ q % 2 = 1 then (q + 1) * 2 ^ e else q * 2 ^ e

def intToFloat (n : Int) : Except String PyFloat :=
  let magnitude := roundToDouble n.natAbs
  if magnitude < 2 ^ 1024 then .ok (.finite (if n < 0 then -(magnitude : ℚ) else magnitude))
  else .error "int too large to convert to float"

namespace PyValue

/-- `isinstance(value, Real)` without `bool`, and `float(value)`. -/
def toFloat : PyValue → Option (Except String PyFloat)
  | .int n => some (intToFloat n)
  | .float x => some (.ok x)
  | .real x _ => some x
  | _ => Option.none

/-! ## The helpers -/

variable (fieldName : String) (value : PyValue)

def requireBool (errorType : ErrorType := .invalidNetworkConfigurationError) : Except PyError Bool :=
  match value with
  | .bool b => .ok b
  | _ => .error ⟨errorType, fieldName ++ " must be a bool."⟩

def requireNonEmptyStr (errorType : ErrorType := .invalidNetworkConfigurationError) : Except PyError Unit :=
  match value with
  | .str s => if strip s = [] then .error ⟨errorType, fieldName ++ " must not be empty or whitespace-only."⟩ else .ok ()
  | .member _ => .ok ()
  | _ => .error ⟨errorType, fieldName ++ " must not be empty or whitespace-only."⟩

def requireIntRange (minValue maxValue : Int) (errorType : ErrorType := .invalidNetworkConfigurationError) : Except PyError Int :=
  let failure := ⟨errorType, fieldName ++ (" must be between " ++ toString minValue ++ " and " ++ toString maxValue ++ ".")⟩
  match value with
  | .int n => if minValue ≤ n ∧ n ≤ maxValue then .ok n else .error failure
  | _ => .error failure

def requirePositiveInt : Except PyError Int :=
  match value with
  | .int n => if 0 < n then .ok n else .error ⟨.invalidNetworkConfigurationError, fieldName ++ " must be > 0."⟩
  | _ => .error ⟨.invalidNetworkConfigurationError, fieldName ++ " must be > 0."⟩

/-- What the two helpers for numbers share: a finite number that passes a test. -/
def requireFinite (complaint : String) (test : ℚ → Bool) : Except PyError ℚ :=
  match value.toFloat with
  | some (.ok (.finite x)) =>
    if test x then .ok x else .error ⟨.invalidNetworkConfigurationError, fieldName ++ complaint⟩
  | some (.error overflow) => .error ⟨.overflowError, overflow⟩
  | _ => .error ⟨.invalidNetworkConfigurationError, fieldName ++ complaint⟩

def requirePositiveFiniteNumber : Except PyError ℚ :=
  value.requireFinite fieldName " must be a finite number > 0." fun x => 0 < x

/-- `require_finite_number_at_least`; `shown` is how the minimum is printed. -/
def requireFiniteNumberAtLeast (minimum : ℚ) (shown : String) : Except PyError ℚ :=
  value.requireFinite fieldName (" must be a finite number >= " ++ shown ++ ".") fun x => minimum ≤ x

def requireEnumMember (enumType : EnumType) : Except PyError EnumMember :=
  match value with
  | .member m =>
    if m.type = enumType then .ok m
    else .error ⟨.invalidNetworkConfigurationError, fieldName ++ (" must be a " ++ enumType.name ++ " value.")⟩
  | _ => .error ⟨.invalidNetworkConfigurationError, fieldName ++ (" must be a " ++ enumType.name ++ " value.")⟩

/-! ## What they accept -/

def NonBlank : PyValue → Prop
  | .str s => strip s ≠ []
  | .member _ => True
  | _ => False

def Finite (x : ℚ) : Prop := value.toFloat = some (.ok (.finite x))

variable {fieldName value}

theorem requireBool_eq_ok_iff {errorType : ErrorType} {b : Bool} :
    value.requireBool fieldName errorType = .ok b ↔ value = .bool b := by
  cases value <;> simp [requireBool]

theorem requireNonEmptyStr_eq_ok_iff {errorType : ErrorType} :
    value.requireNonEmptyStr fieldName errorType = .ok () ↔ value.NonBlank := by
  cases value <;> simp [requireNonEmptyStr, NonBlank]

theorem requireIntRange_eq_ok_iff {minValue maxValue n : Int} {errorType : ErrorType} :
    value.requireIntRange fieldName minValue maxValue errorType = .ok n ↔
      value = .int n ∧ minValue ≤ n ∧ n ≤ maxValue := by
  cases value with
  | int m =>
    simp only [requireIntRange, PyValue.int.injEq]
    split
    · next h =>
      rw [Except.ok.injEq]
      exact ⟨fun hm => ⟨hm, hm ▸ h⟩, fun hm => hm.1⟩
    · next h => exact ⟨fun hm => (by cases hm), fun hm => absurd (hm.1 ▸ hm.2) h⟩
  | _ => simp [requireIntRange]

theorem requirePositiveInt_eq_ok_iff {n : Int} :
    value.requirePositiveInt fieldName = .ok n ↔ value = .int n ∧ 0 < n := by
  cases value with
  | int m =>
    simp only [requirePositiveInt, PyValue.int.injEq]
    split
    · next h =>
      rw [Except.ok.injEq]
      exact ⟨fun hm => ⟨hm, hm ▸ h⟩, fun hm => hm.1⟩
    · next h => exact ⟨fun hm => (by cases hm), fun hm => absurd (hm.1 ▸ hm.2) h⟩
  | _ => simp [requirePositiveInt]

theorem requireFinite_eq_ok_iff {complaint : String} {test : ℚ → Bool} {x : ℚ} :
    value.requireFinite fieldName complaint test = .ok x ↔ value.Finite x ∧ test x = true := by
  unfold requireFinite Finite
  split
  · next y heq =>
    rw [heq]
    split
    · next h =>
      rw [Except.ok.injEq]
      constructor
      · rintro rfl
        exact ⟨rfl, h⟩
      · rintro ⟨hy, -⟩
        injection hy with hy
        injection hy with hy
        injection hy
    · next h =>
      constructor
      · intro hx
        cases hx
      · rintro ⟨hy, hx⟩
        injection hy with hy
        injection hy with hy
        injection hy with hy
        exact absurd (hy ▸ hx) h
  · next heq =>
    rw [heq]
    exact ⟨fun hx => (by cases hx), fun hx => (by cases hx.1)⟩
  · next hne _ =>
    exact ⟨fun hx => (by cases hx), fun hx => absurd hx.1 (hne x)⟩

theorem requirePositiveFiniteNumber_eq_ok_iff {x : ℚ} :
    value.requirePositiveFiniteNumber fieldName = .ok x ↔ value.Finite x ∧ 0 < x := by
  unfold requirePositiveFiniteNumber
  rw [requireFinite_eq_ok_iff, decide_eq_true_eq]

theorem requireFiniteNumberAtLeast_eq_ok_iff {minimum x : ℚ} {shown : String} :
    value.requireFiniteNumberAtLeast fieldName minimum shown = .ok x ↔ value.Finite x ∧ minimum ≤ x := by
  unfold requireFiniteNumberAtLeast
  rw [requireFinite_eq_ok_iff, decide_eq_true_eq]

theorem requireEnumMember_eq_ok_iff {enumType : EnumType} {m : EnumMember} :
    value.requireEnumMember fieldName enumType = .ok m ↔ value = .member m ∧ m.type = enumType := by
  cases value with
  | member m' =>
    simp only [requireEnumMember, PyValue.member.injEq]
    split
    · next h =>
      rw [Except.ok.injEq]
      exact ⟨fun hm => ⟨hm, hm ▸ h⟩, fun hm => hm.1⟩
    · next h => exact ⟨fun hm => (by cases hm), fun hm => absurd (hm.1 ▸ hm.2) h⟩
  | _ => simp [requireEnumMember]

/-! ## What they complain about -/

section Names
variable {e : PyError}

theorem names_append (errorType : ErrorType) (rest : String) : PyError.Names ⟨errorType, fieldName ++ rest⟩ errorType fieldName :=
  .inl ⟨rfl, rest, rfl⟩

theorem names_requireBool {errorType : ErrorType} (h : value.requireBool fieldName errorType = .error e) :
    e.Names errorType fieldName := by
  unfold requireBool at h
  split at h <;> cases h
  exact names_append _ _

theorem names_requireNonEmptyStr {errorType : ErrorType} (h : value.requireNonEmptyStr fieldName errorType = .error e) :
    e.Names errorType fieldName := by
  unfold requireNonEmptyStr at h
  split at h
  · split at h <;> cases h
    exact names_append _ _
  · cases h
  · cases h
    exact names_append _ _

theorem names_requireIntRange {minValue maxValue : Int} {errorType : ErrorType}
    (h : value.requireIntRange fieldName minValue maxValue errorType = .error e) : e.Names errorType fieldName := by
  unfold requireIntRange at h
  dsimp only at h
  split at h
  · split at h <;> cases h
    exact names_append _ _
  · cases h
    exact names_append _ _

theorem names_requirePositiveInt (h : value.requirePositiveInt fieldName = .error e) :
    e.Names .invalidNetworkConfigurationError fieldName := by
  unfold requirePositiveInt at h
  split at h
  · split at h <;> cases h
    exact names_append _ _
  · cases h
    exact names_append _ _

theorem names_requireFinite {complaint : String} {test : ℚ → Bool}
    (h : value.requireFinite fieldName complaint test = .error e) : e.Names .invalidNetworkConfigurationError fieldName := by
  unfold requireFinite at h
  split at h
  · split at h <;> cases h
    exact names_append _ _
  · cases h
    exact .inr rfl
  · cases h
    exact names_append _ _

theorem names_requirePositiveFiniteNumber (h : value.requirePositiveFiniteNumber fieldName = .error e) :
    e.Names .invalidNetworkConfigurationError fieldName := names_requireFinite h

theorem names_requireFiniteNumberAtLeast {minimum : ℚ} {shown : String}
    (h : value.requireFiniteNumberAtLeast fieldName minimum shown = .error e) :
    e.Names .invalidNetworkConfigurationError fieldName := names_requireFinite h

theorem names_requireEnumMember {enumType : EnumType} (h : value.requireEnumMember fieldName enumType = .error e) :
    e.Names .invalidNetworkConfigurationError fieldName := by
  unfold requireEnumMember at h
  split at h
  · split at h <;> cases h
    exact names_append _ _
  · cases h
    exact names_append _ _

end Names

end PyValue

end Aionetx
