import Aionetx.Client.Backoff
import Aionetx.Settings.Validation

/-!
# What the runtime gets from accepted settings

The models of the dispatcher, of supervision and of the backoff start from settings of their own types. Those of an accepted object
have such types.

* `EventDeliverySettings.fields`, `valid_iff_fields` : accepted delivery settings are those of the dispatcher;
* `PyValue.number`, `PyValue.Exact` : what the runtime calculates with, and what `float()` does not round;
* `TcpReconnectSettings.Fields.Denotes`, `steady_iff` : the backoff of accepted reconnect settings;
* `TcpClientSettings.Fields.Denotes`, `denotes_of_validate` : an accepted client.
-/

namespace Aionetx

/-! ## The dispatcher -/

/-- The fields of typed settings. -/
def EventDeliverySettings.fields (t : EventDeliverySettings) : EventDeliverySettings.Fields where
  dispatchMode := .member (.eventDispatchMode t.dispatchMode)
  backpressurePolicy := .member (.eventBackpressurePolicy t.backpressurePolicy)
  maxPendingEvents := .int t.maxPendingEvents
  handlerFailurePolicy := .member (.eventHandlerFailurePolicy t.handlerFailurePolicy)

theorem EventDeliverySettings.Fields.valid_iff_fields {s : EventDeliverySettings.Fields} :
    s.Valid ↔ ∃ t : EventDeliverySettings, t.fields = s := by
  constructor
  · intro h
    obtain ⟨mode, hmode⟩ := h.dispatchMode
    obtain ⟨policy, hpolicy⟩ := h.backpressurePolicy
    obtain ⟨failure, hfailure⟩ := h.handlerFailurePolicy
    obtain ⟨n, hn, hpos⟩ := h.maxPendingEvents
    refine ⟨⟨mode, policy, failure, n.toNat, by omega⟩, ?_⟩
    obtain ⟨dispatchMode, backpressurePolicy, maxPendingEvents, handlerFailurePolicy⟩ := s
    cases hmode
    cases hpolicy
    cases hfailure
    cases hn
    unfold EventDeliverySettings.fields
    rw [Int.toNat_of_nonneg (by omega)]
  · rintro ⟨t, rfl⟩
    have hpos := t.maxPendingEvents_pos
    exact ⟨⟨_, rfl, by omega⟩, ⟨_, rfl⟩, ⟨_, rfl⟩, ⟨_, rfl⟩⟩

/-! ## The numbers -/

/-- `float()` leaves the integers up to `2 ** 53` as they are. -/
theorem roundToDouble_of_le {n : Nat} (h : n ≤ 2 ^ 53) : roundToDouble n = n := by
  rcases Nat.lt_or_eq_of_le h with hlt | rfl
  · have hlog : n.log2 ≤ 52 := by
      rcases Nat.eq_zero_or_pos n with rfl | hpos
      · simp
      · have hlt' := (Nat.log2_lt (Nat.ne_of_gt hpos)).mpr hlt
        omega
    unfold roundToDouble
    rw [Nat.sub_eq_zero_of_le hlog]
    simp [Nat.mod_one]
  · decide +kernel

namespace PyValue
variable {value : PyValue} {x y : ℚ}

/-- The number that the runtime calculates with, for an `int` or a `float`. -/
def number : PyValue → Option ℚ
  | .int n => some n
  | .float (.finite x) => some x
  | _ => Option.none

/-- `float()` does not round it. -/
def Exact : PyValue → Prop
  | .int n => n.natAbs ≤ 2 ^ 53
  | .float _ => True
  | _ => False

/-- What a check has found positive is at least one, for an `int`, and itself, for a `float`. -/
theorem number_of_pos (hnumber : value.number = some x) (hfinite : value.Finite y) (hpos : 0 < y) :
    value = .int x.num ∧ 1 ≤ x ∨ y = x := by
  cases value with
  | int n =>
    refine .inl ?_
    obtain rfl : (n : ℚ) = x := Option.some.inj hnumber
    have hn : 0 < n := by
      by_contra hle
      unfold Finite toFloat intToFloat at hfinite
      dsimp only at hfinite
      split at hfinite
      · injection hfinite with hfinite
        injection hfinite with hfinite
        injection hfinite with hfinite
        rw [← hfinite] at hpos
        split at hpos
        · have hmagnitude : (0 : ℚ) ≤ (roundToDouble n.natAbs : ℚ) := Nat.cast_nonneg _
          linarith
        · have hzero : n = 0 := by omega
          rw [hzero] at hpos
          simp [roundToDouble] at hpos
      · cases hfinite
    exact ⟨by rw [Rat.num_intCast], by exact_mod_cast hn⟩
  | float f =>
    cases f with
    | finite z =>
      obtain rfl : z = x := Option.some.inj hnumber
      refine .inr ?_
      unfold Finite toFloat at hfinite
      injection hfinite with hfinite
      injection hfinite with hfinite
      injection hfinite with hfinite
      exact hfinite.symm
    | _ => cases hnumber
  | _ => cases hnumber

theorem number_of_exact (hexact : value.Exact) (hnumber : value.number = some x) (hfinite : value.Finite y) (hpos : 0 < y) :
    y = x := by
  rcases number_of_pos hnumber hfinite hpos with ⟨hvalue, hone⟩ | heq
  · rw [hvalue] at hexact hfinite hnumber
    obtain hx : (x.num : ℚ) = x := Option.some.inj hnumber
    have hnum : 0 < x.num := by
      rw [← hx] at hone
      exact_mod_cast hone
    replace hexact : x.num.natAbs ≤ 2 ^ 53 := hexact
    have hrange : 2 ^ 53 < 2 ^ 1024 := Nat.pow_lt_pow_right Nat.one_lt_two (show 53 < 1024 by omega)
    unfold Finite toFloat intToFloat at hfinite
    dsimp only at hfinite
    rw [roundToDouble_of_le hexact, if_pos (lt_of_le_of_lt hexact hrange), if_neg (not_lt.mpr hnum.le)] at hfinite
    injection hfinite with hfinite
    injection hfinite with hfinite
    injection hfinite with hfinite
    rw [← hfinite, ← hx, Rat.num_intCast, Nat.cast_natAbs, abs_of_pos hnum]
  · exact heq

end PyValue

/-! ## The backoff -/

/-- The fields are numbers that the backoff can calculate with. -/
structure TcpReconnectSettings.Fields.Denotes (s : TcpReconnectSettings.Fields) (r : TcpReconnectSettings ℚ) : Prop where
  initialDelaySeconds : s.initialDelaySeconds.number = some r.initialDelaySeconds
  maxDelaySeconds : s.maxDelaySeconds.number = some r.maxDelaySeconds
  backoffFactor : s.backoffFactor.number = some r.backoffFactor
  jitter : s.jitter = .member (.reconnectJitter r.jitter)

/-- The delays without jitter are positive, do not fall and stay below their maximum. -/
structure TcpReconnectSettings.Steady (r : TcpReconnectSettings ℚ) : Prop where
  pos : ∀ k, 0 < r.currentDelayAt k
  mono : Monotone r.currentDelayAt
  le_max : ∀ k, r.currentDelayAt k ≤ r.maxDelaySeconds

theorem TcpReconnectSettings.Valid.steady {r : TcpReconnectSettings ℚ} (h : r.Valid) : r.Steady := by
  have heq : r.currentDelayAt = r.delayAt := funext (currentDelayAt_eq h)
  refine ⟨?_, ?_, ?_⟩
  · rw [heq]
    exact delayAt_pos h
  · rw [heq]
    exact monotone_delayAt h
  · rw [heq]
    exact delayAt_le_max

namespace TcpReconnectSettings.Fields
variable {s : TcpReconnectSettings.Fields} {r : TcpReconnectSettings ℚ}

/-- The delays of accepted settings are steady if and only if the initial one is within its maximum; the check has compared them
as floats. -/
theorem steady_iff (hvalid : s.Valid) (hr : s.Denotes r) : r.Steady ↔ r.initialDelaySeconds ≤ r.maxDelaySeconds := by
  obtain ⟨initial, max, hinitial, hmax, hpos, hle⟩ := hvalid.delays
  obtain ⟨factor, hfactor, hone⟩ := hvalid.backoffFactor
  constructor
  · intro h
    exact h.le_max 0
  · intro h
    refine TcpReconnectSettings.Valid.steady ⟨?_, h, ?_⟩
    · rcases PyValue.number_of_pos hr.initialDelaySeconds hinitial hpos with ⟨-, hone⟩ | heq
      · linarith
      · rw [← heq]
        exact hpos
    · rcases PyValue.number_of_pos hr.backoffFactor hfactor (by linarith) with ⟨-, hone⟩ | heq
      · exact hone
      · rw [← heq]
        exact hone

theorem initial_le_max_of_exact (hvalid : s.Valid) (hr : s.Denotes r) (hinitial : s.initialDelaySeconds.Exact)
    (hmax : s.maxDelaySeconds.Exact) : r.initialDelaySeconds ≤ r.maxDelaySeconds := by
  obtain ⟨initial, max, hi, hm, hpos, hle⟩ := hvalid.delays
  rw [← PyValue.number_of_exact hinitial hr.initialDelaySeconds hi hpos,
    ← PyValue.number_of_exact hmax hr.maxDelaySeconds hm (by linarith)]
  exact hle

/-- The values of the three numbers are ints or floats. -/
def Plain (s : TcpReconnectSettings.Fields) : Prop :=
  s.initialDelaySeconds.number.isSome ∧ s.maxDelaySeconds.number.isSome ∧ s.backoffFactor.number.isSome

end TcpReconnectSettings.Fields

/-! ## The client -/

/-- The runtime of a client: what supervision branches on, its backoff and its dispatcher. -/
structure TcpClientSettings.Fields.Denotes (s : TcpClientSettings.Fields) (settings : TcpClientSettings)
    (reconnect : TcpReconnectSettings ℚ) (delivery : EventDeliverySettings) : Prop where
  reconnectEnabled : s.reconnect.enabled = .bool settings.reconnectEnabled
  heartbeatEnabled : s.heartbeat.enabled = .bool settings.heartbeatEnabled
  errorPolicy : s.errorPolicy = settings.errorPolicy.elim .none fun policy => .member (.errorPolicy policy)
  reconnect : s.reconnect.Denotes reconnect
  eventDelivery : delivery.fields = s.eventDelivery

/-- The failures of the client are retried if and only if that is possible and not overridden; its delays are steady if and only if
the initial one is within the maximum, which the checks ensure for values that `float()` does not round. -/
structure TcpClientSettings.Fields.Sensible (s : TcpClientSettings.Fields) (settings : TcpClientSettings)
    (reconnect : TcpReconnectSettings ℚ) : Prop where
  retries : settings.resolveErrorPolicy = .retry ↔
    settings.reconnectEnabled = true ∧ (settings.errorPolicy = none ∨ settings.errorPolicy = some .retry)
  steady : reconnect.Steady ↔ reconnect.initialDelaySeconds ≤ reconnect.maxDelaySeconds
  exact : s.reconnect.initialDelaySeconds.Exact → s.reconnect.maxDelaySeconds.Exact → reconnect.Steady

/-- A client that retries, with an initial delay that is an `int`. -/
def retryingClient : TcpClientSettings.Fields where
  host := .str "localhost".toList
  port := .int 5000
  reconnect := { enabled := .bool true, initialDelaySeconds := .int 2 }
  errorPolicy := .member (.errorPolicy .retry)

/-- The check and the backoff see different numbers: the first delay of this accepted client is above its maximum. -/
example : (SettingsObject.tcpReconnect
    { initialDelaySeconds := .int (2 ^ 53 + 1), maxDelaySeconds := .int (2 ^ 53) }).validate = .ok () := by
  decide +kernel

end Aionetx
