import Aionetx.Model.Api
import Aionetx.Runs.Checks
import Aionetx.Settings.Values
import Aionetx.Settings.Addresses

/-!
# The validation of the settings

`validate` of every settings class, on whatever values its fields hold.

* `FieldCheck` : a check with the field it is about; an error of it names the field;
* `EventDeliverySettings.Fields` and the others : the fields of a class with their defaults, `checks`, the checks of its `validate`
  in the order of the source, and `Valid`, the values that are meant;
* `SettingsObject`, `SettingsObject.validate` : any of them; `validate_lawful` : what is accepted, and what is said otherwise.
-/

namespace Aionetx

open Runs

structure FieldCheck where
  field : String
  result : Except PyError Unit
  names : ∀ e, result = .error e → e.Names .invalidNetworkConfigurationError field

namespace FieldCheck

/-- A helper of `_validation.py`; what it returns is not used. -/
def of {α : Type} (field : String) (helper : Except PyError α)
    (h : ∀ e, helper = .error e → e.Names .invalidNetworkConfigurationError field) : FieldCheck where
  field
  result := helper.map fun _ => ()
  names e he := by
    cases helper with
    | ok a => cases he
    | error e' =>
      cases he
      exact h e rfl

@[simp] theorem result_of {α : Type} (field : String) (helper : Except PyError α)
    (h : ∀ e, helper = .error e → e.Names .invalidNetworkConfigurationError field) :
    (of field helper h).result = .ok () ↔ ∃ a, helper = .ok a := by
  cases helper with
  | ok a => exact ⟨fun _ => ⟨a, rfl⟩, fun _ => rfl⟩
  | error e => exact ⟨fun h => (by cases h), fun ⟨_, h⟩ => (by cases h)⟩

variable (field : String) (value : PyValue)

def bool : FieldCheck := of field (value.requireBool field) fun _ => PyValue.names_requireBool

def nonEmptyStr : FieldCheck := of field (value.requireNonEmptyStr field) fun _ => PyValue.names_requireNonEmptyStr

def intRange (minValue maxValue : Int) : FieldCheck :=
  of field (value.requireIntRange field minValue maxValue) fun _ => PyValue.names_requireIntRange

def positiveInt : FieldCheck := of field (value.requirePositiveInt field) fun _ => PyValue.names_requirePositiveInt

def positiveNumber : FieldCheck :=
  of field (value.requirePositiveFiniteNumber field) fun _ => PyValue.names_requirePositiveFiniteNumber

def numberAtLeast (minimum : ℚ) (shown : String) : FieldCheck :=
  of field (value.requireFiniteNumberAtLeast field minimum shown) fun _ => PyValue.names_requireFiniteNumberAtLeast

def enumMember (enumType : EnumType) : FieldCheck :=
  of field (value.requireEnumMember field enumType) fun _ => PyValue.names_requireEnumMember

/-- The optional variants: `None` passes. -/
def unlessNone (check : PyValue → FieldCheck) : FieldCheck :=
  if value = .none then ⟨(check value).field, .ok (), fun _ h => by cases h⟩ else check value

/-- A condition with its own complaint about the field. -/
def condition (holds : Bool) (complaint : String) : FieldCheck where
  field
  result := if holds then .ok () else .error ⟨.invalidNetworkConfigurationError, field ++ complaint⟩
  names e h := by
    split at h <;> cases h
    exact PyValue.names_append _ _

variable {field value}

@[simp] theorem result_unlessNone (check : PyValue → FieldCheck) :
    (unlessNone value check).result = .ok () ↔ value = .none ∨ (check value).result = .ok () := by
  unfold unlessNone
  split
  · next h => exact ⟨fun _ => .inl h, fun _ => rfl⟩
  · next h => exact ⟨.inr, fun hr => hr.resolve_left h⟩

@[simp] theorem result_condition {holds : Bool} {complaint : String} :
    (condition field holds complaint).result = .ok () ↔ holds = true := by
  unfold condition
  dsimp only
  split
  · next h => exact ⟨fun _ => h, fun _ => rfl⟩
  · next h => exact ⟨fun hr => (by cases hr), fun hr => absurd hr h⟩

end FieldCheck

def runChecks (checks : List FieldCheck) : Except PyError Unit := firstError (checks.map FieldCheck.result)

theorem runChecks_eq_ok_iff {checks : List FieldCheck} :
    runChecks checks = .ok () ↔ ∀ c ∈ checks, c.result = .ok () := by
  unfold runChecks
  rw [firstError_eq_ok_iff, List.forall_mem_map]

theorem first_of_runChecks {checks : List FieldCheck} {e : PyError} (h : runChecks checks = .error e) :
    ∃ before check after, checks = before ++ check :: after ∧ (∀ c ∈ before, c.result = .ok ()) ∧ check.result = .error e := by
  obtain ⟨front, back, hsplit, hfront⟩ := firstError_eq_error_iff.mp h
  obtain ⟨before, rest, rfl, hbefore, hrest⟩ := List.map_eq_append_iff.mp hsplit
  obtain ⟨check, after, rfl, hcheck, -⟩ := List.map_eq_cons_iff.mp hrest
  refine ⟨before, check, after, rfl, fun c hc => hfront _ ?_, hcheck⟩
  rw [← hbefore]
  exact List.mem_map_of_mem hc

/-! ## What the fields are meant to hold -/

namespace PyValue
variable (value : PyValue)

def IsBool : Prop := ∃ b, value = .bool b

def IsIntRange (minValue maxValue : Int) : Prop := ∃ n, value = .int n ∧ minValue ≤ n ∧ n ≤ maxValue

def IsPositiveInt : Prop := ∃ n, value = .int n ∧ 0 < n

def IsPositiveNumber : Prop := ∃ x, value.Finite x ∧ 0 < x

/-- An optional value that is absent or as it is meant to be. -/
def Optionally (p : PyValue → Prop) : Prop := value = .none ∨ p value

/-- `bool(value)`. -/
def truthy : PyValue → Bool
  | .none => false
  | .bool b => b
  | .int n => n ≠ 0
  | .float x => x ≠ .finite 0
  | .real _ truthy => truthy
  | .str s => s ≠ []
  | .member _ => true
  | .other b => b

end PyValue

namespace FieldCheck
variable {field : String} {value : PyValue}

theorem result_bool : (bool field value).result = .ok () ↔ value.IsBool := by
  rw [bool, result_of]
  exact exists_congr fun _ => PyValue.requireBool_eq_ok_iff

theorem result_nonEmptyStr : (nonEmptyStr field value).result = .ok () ↔ value.NonBlank := by
  rw [nonEmptyStr, result_of, ← @PyValue.requireNonEmptyStr_eq_ok_iff field]
  exact ⟨fun ⟨_, h⟩ => h, fun h => ⟨(), h⟩⟩

theorem result_intRange {minValue maxValue : Int} :
    (intRange field value minValue maxValue).result = .ok () ↔ value.IsIntRange minValue maxValue := by
  rw [intRange, result_of]
  exact exists_congr fun _ => PyValue.requireIntRange_eq_ok_iff

theorem result_positiveInt : (positiveInt field value).result = .ok () ↔ value.IsPositiveInt := by
  rw [positiveInt, result_of]
  exact exists_congr fun _ => PyValue.requirePositiveInt_eq_ok_iff

theorem result_positiveNumber : (positiveNumber field value).result = .ok () ↔ value.IsPositiveNumber := by
  rw [positiveNumber, result_of]
  exact exists_congr fun _ => PyValue.requirePositiveFiniteNumber_eq_ok_iff

theorem result_numberAtLeast {minimum : ℚ} {shown : String} :
    (numberAtLeast field value minimum shown).result = .ok () ↔ ∃ x, value.Finite x ∧ minimum ≤ x := by
  rw [numberAtLeast, result_of]
  exact exists_congr fun _ => PyValue.requireFiniteNumberAtLeast_eq_ok_iff

theorem result_enumMember {enumType : EnumType} :
    (enumMember field value enumType).result = .ok () ↔ ∃ m, value = .member m ∧ m.type = enumType := by
  rw [enumMember, result_of]
  exact exists_congr fun _ => PyValue.requireEnumMember_eq_ok_iff

end FieldCheck

/-! ## The classes -/

structure EventDeliverySettings.Fields where
  dispatchMode : PyValue := .member (.eventDispatchMode .background)
  backpressurePolicy : PyValue := .member (.eventBackpressurePolicy .block)
  maxPendingEvents : PyValue := .int 1024
  handlerFailurePolicy : PyValue := .member (.eventHandlerFailurePolicy .logOnly)

namespace EventDeliverySettings.Fields
variable (s : Fields)

def checks : List FieldCheck :=
  [.positiveInt "EventDeliverySettings.max_pending_events" s.maxPendingEvents,
    .enumMember "EventDeliverySettings.dispatch_mode" s.dispatchMode .eventDispatchMode,
    .enumMember "EventDeliverySettings.backpressure_policy" s.backpressurePolicy .eventBackpressurePolicy,
    .enumMember "EventDeliverySettings.handler_failure_policy" s.handlerFailurePolicy .eventHandlerFailurePolicy]

structure Valid : Prop where
  maxPendingEvents : s.maxPendingEvents.IsPositiveInt
  dispatchMode : ∃ mode, s.dispatchMode = .member (.eventDispatchMode mode)
  backpressurePolicy : ∃ policy, s.backpressurePolicy = .member (.eventBackpressurePolicy policy)
  handlerFailurePolicy : ∃ policy, s.handlerFailurePolicy = .member (.eventHandlerFailurePolicy policy)

variable {s}

theorem valid_iff : (∀ c ∈ s.checks, c.result = .ok ()) ↔ s.Valid := by
  unfold checks
  simp only [List.forall_mem_cons, FieldCheck.result_positiveInt, FieldCheck.result_enumMember]
  constructor
  · rintro ⟨hmax, ⟨m, hm, hmt⟩, ⟨p, hp, hpt⟩, ⟨f, hf, hft⟩, -⟩
    refine ⟨hmax, ?_, ?_, ?_⟩
    · cases m <;> cases hmt
      exact ⟨_, hm⟩
    · cases p <;> cases hpt
      exact ⟨_, hp⟩
    · cases f <;> cases hft
      exact ⟨_, hf⟩
  · rintro ⟨hmax, ⟨m, hm⟩, ⟨p, hp⟩, ⟨f, hf⟩⟩
    exact ⟨hmax, ⟨_, hm, rfl⟩, ⟨_, hp, rfl⟩, ⟨_, hf, rfl⟩, fun c hc => by cases hc⟩

end EventDeliverySettings.Fields

structure TcpHeartbeatSettings.Fields where
  enabled : PyValue := .bool false
  intervalSeconds : PyValue := .float (.finite 1)

namespace TcpHeartbeatSettings.Fields
variable (s : Fields)

def checks : List FieldCheck :=
  [.bool "TcpHeartbeatSettings.enabled" s.enabled,
    .positiveNumber "TcpHeartbeatSettings.interval_seconds" s.intervalSeconds]

structure Valid : Prop where
  enabled : s.enabled.IsBool
  intervalSeconds : s.intervalSeconds.IsPositiveNumber

variable {s}

theorem valid_iff : (∀ c ∈ s.checks, c.result = .ok ()) ↔ s.Valid := by
  unfold checks
  simp only [List.forall_mem_cons, FieldCheck.result_bool, FieldCheck.result_positiveNumber]
  exact ⟨fun h => ⟨h.1, h.2.1⟩, fun h => ⟨h.enabled, h.intervalSeconds, fun c hc => by cases hc⟩⟩

end TcpHeartbeatSettings.Fields

structure TcpReconnectSettings.Fields where
  enabled : PyValue := .bool false
  initialDelaySeconds : PyValue := .float (.finite 1)
  maxDelaySeconds : PyValue := .float (.finite 30)
  backoffFactor : PyValue := .float (.finite 2)
  jitter : PyValue := .member (.reconnectJitter .none)

namespace TcpReconnectSettings.Fields
variable (s : Fields)

/-- `max_delay_seconds < initial_delay_seconds`, on the floats that the helpers return. -/
def ordered : Bool :=
  match s.initialDelaySeconds.toFloat, s.maxDelaySeconds.toFloat with
  | some (.ok (.finite a)), some (.ok (.finite b)) => a ≤ b
  | _, _ => false

def checks : List FieldCheck :=
  [.bool "TcpReconnectSettings.enabled" s.enabled,
    .positiveNumber "TcpReconnectSettings.initial_delay_seconds" s.initialDelaySeconds,
    .positiveNumber "TcpReconnectSettings.max_delay_seconds" s.maxDelaySeconds,
    .condition "TcpReconnectSettings.max_delay_seconds" s.ordered " must be >= initial_delay_seconds.",
    .numberAtLeast "TcpReconnectSettings.backoff_factor" s.backoffFactor 1 "1.0",
    .enumMember "TcpReconnectSettings.jitter" s.jitter .reconnectJitter]

structure Valid : Prop where
  enabled : s.enabled.IsBool
  delays : ∃ initial max, s.initialDelaySeconds.Finite initial ∧ s.maxDelaySeconds.Finite max ∧ 0 < initial ∧ initial ≤ max
  backoffFactor : ∃ x, s.backoffFactor.Finite x ∧ 1 ≤ x
  jitter : ∃ jitter, s.jitter = .member (.reconnectJitter jitter)

variable {s}

theorem ordered_of_finite {a b : ℚ} (ha : s.initialDelaySeconds.Finite a) (hb : s.maxDelaySeconds.Finite b) :
    s.ordered = true ↔ a ≤ b := by
  unfold ordered
  rw [ha, hb]
  exact decide_eq_true_iff

theorem valid_iff : (∀ c ∈ s.checks, c.result = .ok ()) ↔ s.Valid := by
  unfold checks
  simp only [List.forall_mem_cons, FieldCheck.result_bool, FieldCheck.result_positiveNumber, FieldCheck.result_condition,
    FieldCheck.result_numberAtLeast, FieldCheck.result_enumMember]
  constructor
  · rintro ⟨henabled, ⟨a, ha, hapos⟩, ⟨b, hb, -⟩, hordered, hfactor, ⟨m, hm, hmt⟩, -⟩
    refine ⟨henabled, ⟨a, b, ha, hb, hapos, (ordered_of_finite ha hb).mp hordered⟩, hfactor, ?_⟩
    cases m <;> cases hmt
    exact ⟨_, hm⟩
  · rintro ⟨henabled, ⟨a, b, ha, hb, hapos, hab⟩, hfactor, ⟨m, hm⟩⟩
    exact ⟨henabled, ⟨a, ha, hapos⟩, ⟨b, hb, lt_of_lt_of_le hapos hab⟩, (ordered_of_finite ha hb).mpr hab, hfactor,
      ⟨_, hm, rfl⟩, fun c hc => by cases hc⟩

end TcpReconnectSettings.Fields

structure TcpClientSettings.Fields where
  host : PyValue
  port : PyValue
  reconnect : TcpReconnectSettings.Fields := {}
  heartbeat : TcpHeartbeatSettings.Fields := {}
  errorPolicy : PyValue := .none
  receiveBufferSize : PyValue := .int 4096
  connectTimeoutSeconds : PyValue := .none
  connectionSendTimeoutSeconds : PyValue := .float (.finite 30)
  eventDelivery : EventDeliverySettings.Fields := {}

namespace TcpClientSettings.Fields
variable (s : Fields)

/-- `self.error_policy == ErrorPolicy.RETRY and not self.reconnect.enabled` does not hold. -/
def retryReconnects : Bool := s.errorPolicy != .member (.errorPolicy .retry) || s.reconnect.enabled.truthy

def checks : List FieldCheck :=
  [.nonEmptyStr "TcpClientSettings.host" s.host,
    .intRange "TcpClientSettings.port" s.port 1 65535,
    .positiveInt "TcpClientSettings.receive_buffer_size" s.receiveBufferSize,
    .unlessNone s.connectTimeoutSeconds (.positiveNumber "TcpClientSettings.connect_timeout_seconds"),
    .unlessNone s.connectionSendTimeoutSeconds (.positiveNumber "TcpClientSettings.connection_send_timeout_seconds"),
    .unlessNone s.errorPolicy (.enumMember "TcpClientSettings.error_policy" · .errorPolicy),
    .condition "TcpClientSettings.error_policy" s.retryReconnects "='retry' requires reconnect.enabled=True."] ++
  s.reconnect.checks ++ s.heartbeat.checks ++ s.eventDelivery.checks

structure Valid : Prop where
  host : s.host.NonBlank
  port : s.port.IsIntRange 1 65535
  receiveBufferSize : s.receiveBufferSize.IsPositiveInt
  connectTimeoutSeconds : s.connectTimeoutSeconds.Optionally PyValue.IsPositiveNumber
  connectionSendTimeoutSeconds : s.connectionSendTimeoutSeconds.Optionally PyValue.IsPositiveNumber
  errorPolicy : s.errorPolicy.Optionally fun value => ∃ policy, value = .member (.errorPolicy policy)
  retry : s.errorPolicy = .member (.errorPolicy .retry) → s.reconnect.enabled = .bool true
  reconnect : s.reconnect.Valid
  heartbeat : s.heartbeat.Valid
  eventDelivery : s.eventDelivery.Valid

variable {s}

theorem retryReconnects_iff (h : s.reconnect.enabled.IsBool) : s.retryReconnects = true ↔
    (s.errorPolicy = .member (.errorPolicy .retry) → s.reconnect.enabled = .bool true) := by
  obtain ⟨b, hb⟩ := h
  unfold retryReconnects
  rw [hb, Bool.or_eq_true, bne_iff_ne, ← imp_iff_not_or]
  cases b <;> simp [PyValue.truthy]

theorem valid_iff : (∀ c ∈ s.checks, c.result = .ok ()) ↔ s.Valid := by
  have hpolicy : (∃ m, s.errorPolicy = .member m ∧ m.type = .errorPolicy) ↔
      ∃ policy, s.errorPolicy = .member (.errorPolicy policy) := by
    constructor
    · rintro ⟨m, hm, hmt⟩
      cases m <;> cases hmt
      exact ⟨_, hm⟩
    · rintro ⟨policy, h⟩
      exact ⟨_, h, rfl⟩
  unfold checks
  simp only [List.forall_mem_append, List.forall_mem_cons, TcpReconnectSettings.Fields.valid_iff,
    TcpHeartbeatSettings.Fields.valid_iff, EventDeliverySettings.Fields.valid_iff, FieldCheck.result_nonEmptyStr,
    FieldCheck.result_intRange, FieldCheck.result_positiveInt, FieldCheck.result_unlessNone, FieldCheck.result_positiveNumber,
    FieldCheck.result_enumMember, FieldCheck.result_condition, hpolicy]
  constructor
  · rintro ⟨⟨⟨⟨hhost, hport, hbuffer, hconnect, hsend, herror, hretry, -⟩, hreconnect⟩, hheartbeat⟩, hdelivery⟩
    exact ⟨hhost, hport, hbuffer, hconnect, hsend, herror, (retryReconnects_iff hreconnect.enabled).mp hretry, hreconnect,
      hheartbeat, hdelivery⟩
  · intro h
    exact ⟨⟨⟨⟨h.host, h.port, h.receiveBufferSize, h.connectTimeoutSeconds, h.connectionSendTimeoutSeconds, h.errorPolicy,
      (retryReconnects_iff h.reconnect.enabled).mpr h.retry, fun c hc => by cases hc⟩, h.reconnect⟩, h.heartbeat⟩, h.eventDelivery⟩

end TcpClientSettings.Fields

structure TcpServerSettings.Fields where
  host : PyValue
  port : PyValue
  maxConnections : PyValue
  connectionIdleTimeoutSeconds : PyValue := .none
  broadcastConcurrencyLimit : PyValue := .int 64
  broadcastSendTimeoutSeconds : PyValue := .none
  connectionSendTimeoutSeconds : PyValue := .float (.finite 30)
  heartbeat : TcpHeartbeatSettings.Fields := {}
  receiveBufferSize : PyValue := .int 4096
  backlog : PyValue := .int 100
  eventDelivery : EventDeliverySettings.Fields := {}

namespace TcpServerSettings.Fields
variable (s : Fields)

def checks : List FieldCheck :=
  [.nonEmptyStr "TcpServerSettings.host" s.host,
    .intRange "TcpServerSettings.port" s.port 1 65535,
    .positiveInt "TcpServerSettings.max_connections" s.maxConnections,
    .unlessNone s.connectionIdleTimeoutSeconds (.positiveNumber "TcpServerSettings.connection_idle_timeout_seconds"),
    .positiveInt "TcpServerSettings.broadcast_concurrency_limit" s.broadcastConcurrencyLimit,
    .unlessNone s.broadcastSendTimeoutSeconds (.positiveNumber "TcpServerSettings.broadcast_send_timeout_seconds"),
    .unlessNone s.connectionSendTimeoutSeconds (.positiveNumber "TcpServerSettings.connection_send_timeout_seconds"),
    .positiveInt "TcpServerSettings.receive_buffer_size" s.receiveBufferSize,
    .positiveInt "TcpServerSettings.backlog" s.backlog] ++
  s.heartbeat.checks ++ s.eventDelivery.checks

structure Valid : Prop where
  host : s.host.NonBlank
  port : s.port.IsIntRange 1 65535
  maxConnections : s.maxConnections.IsPositiveInt
  connectionIdleTimeoutSeconds : s.connectionIdleTimeoutSeconds.Optionally PyValue.IsPositiveNumber
  broadcastConcurrencyLimit : s.broadcastConcurrencyLimit.IsPositiveInt
  broadcastSendTimeoutSeconds : s.broadcastSendTimeoutSeconds.Optionally PyValue.IsPositiveNumber
  connectionSendTimeoutSeconds : s.connectionSendTimeoutSeconds.Optionally PyValue.IsPositiveNumber
  receiveBufferSize : s.receiveBufferSize.IsPositiveInt
  backlog : s.backlog.IsPositiveInt
  heartbeat : s.heartbeat.Valid
  eventDelivery : s.eventDelivery.Valid

variable {s}

theorem valid_iff : (∀ c ∈ s.checks, c.result = .ok ()) ↔ s.Valid := by
  unfold checks
  simp only [List.forall_mem_append, List.forall_mem_cons, TcpHeartbeatSettings.Fields.valid_iff,
    EventDeliverySettings.Fields.valid_iff, FieldCheck.result_nonEmptyStr, FieldCheck.result_intRange,
    FieldCheck.result_positiveInt, FieldCheck.result_unlessNone, FieldCheck.result_positiveNumber]
  constructor
  · rintro ⟨⟨⟨hhost, hport, hmax, hidle, hlimit, hbroadcast, hsend, hbuffer, hbacklog, -⟩, hheartbeat⟩, hdelivery⟩
    exact ⟨hhost, hport, hmax, hidle, hlimit, hbroadcast, hsend, hbuffer, hbacklog, hheartbeat, hdelivery⟩
  · intro h
    exact ⟨⟨⟨h.host, h.port, h.maxConnections, h.connectionIdleTimeoutSeconds, h.broadcastConcurrencyLimit,
      h.broadcastSendTimeoutSeconds, h.connectionSendTimeoutSeconds, h.receiveBufferSize, h.backlog,
      fun c hc => by cases hc⟩, h.heartbeat⟩, h.eventDelivery⟩

end TcpServerSettings.Fields

structure UdpSenderSettings.Fields where
  defaultHost : PyValue := .none
  defaultPort : PyValue := .none
  localHost : PyValue := .str "0.0.0.0".toList
  localPort : PyValue := .int 0
  enableBroadcast : PyValue := .bool false

namespace UdpSenderSettings.Fields
variable (s : Fields)

def checks : List FieldCheck :=
  [.unlessNone s.defaultHost (.nonEmptyStr "UdpSenderSettings.default_host"),
    .unlessNone s.defaultPort (.intRange "UdpSenderSettings.default_port" · 1 65535),
    .nonEmptyStr "UdpSenderSettings.local_host" s.localHost,
    .intRange "UdpSenderSettings.local_port" s.localPort 0 65535,
    .bool "UdpSenderSettings.enable_broadcast" s.enableBroadcast]

structure Valid : Prop where
  defaultHost : s.defaultHost.Optionally PyValue.NonBlank
  defaultPort : s.defaultPort.Optionally fun value => value.IsIntRange 1 65535
  localHost : s.localHost.NonBlank
  localPort : s.localPort.IsIntRange 0 65535
  enableBroadcast : s.enableBroadcast.IsBool

variable {s}

theorem valid_iff : (∀ c ∈ s.checks, c.result = .ok ()) ↔ s.Valid := by
  unfold checks
  simp only [List.forall_mem_cons, FieldCheck.result_unlessNone, FieldCheck.result_nonEmptyStr, FieldCheck.result_intRange,
    FieldCheck.result_bool]
  constructor
  · rintro ⟨hhost, hport, hlocal, hlocalPort, hbroadcast, -⟩
    exact ⟨hhost, hport, hlocal, hlocalPort, hbroadcast⟩
  · intro h
    exact ⟨h.defaultHost, h.defaultPort, h.localHost, h.localPort, h.enableBroadcast, fun c hc => by cases hc⟩

end UdpSenderSettings.Fields

structure UdpReceiverSettings.Fields where
  host : PyValue
  port : PyValue
  receiveBufferSize : PyValue := .int 65535
  enableBroadcast : PyValue := .bool false
  eventDelivery : EventDeliverySettings.Fields := {}

namespace UdpReceiverSettings.Fields
variable (s : Fields)

def checks : List FieldCheck :=
  [.nonEmptyStr "UdpReceiverSettings.host" s.host,
    .intRange "UdpReceiverSettings.port" s.port 1 65535,
    .positiveInt "UdpReceiverSettings.receive_buffer_size" s.receiveBufferSize,
    .bool "UdpReceiverSettings.enable_broadcast" s.enableBroadcast] ++
  s.eventDelivery.checks

structure Valid : Prop where
  host : s.host.NonBlank
  port : s.port.IsIntRange 1 65535
  receiveBufferSize : s.receiveBufferSize.IsPositiveInt
  enableBroadcast : s.enableBroadcast.IsBool
  eventDelivery : s.eventDelivery.Valid

variable {s}

theorem valid_iff : (∀ c ∈ s.checks, c.result = .ok ()) ↔ s.Valid := by
  unfold checks
  simp only [List.forall_mem_append, List.forall_mem_cons, EventDeliverySettings.Fields.valid_iff,
    FieldCheck.result_nonEmptyStr, FieldCheck.result_intRange, FieldCheck.result_positiveInt, FieldCheck.result_bool]
  constructor
  · rintro ⟨⟨hhost, hport, hbuffer, hbroadcast, -⟩, hdelivery⟩
    exact ⟨hhost, hport, hbuffer, hbroadcast, hdelivery⟩
  · intro h
    exact ⟨⟨h.host, h.port, h.receiveBufferSize, h.enableBroadcast, fun c hc => by cases hc⟩, h.eventDelivery⟩

end UdpReceiverSettings.Fields

structure MulticastReceiverSettings.Fields where
  groupIp : PyValue
  port : PyValue
  bindIp : PyValue := .str "0.0.0.0".toList
  interfaceIp : PyValue := .str "0.0.0.0".toList
  receiveBufferSize : PyValue := .int 65535
  eventDelivery : EventDeliverySettings.Fields := {}

/-- `ipaddress.IPv4Address(value)` of a string; the `str()` of an enumeration member names the member and is no address. -/
def PyValue.ipv4Address : PyValue → Option IPv4Address
  | .str s => parseIPv4 s
  | _ => Option.none

theorem PyValue.ipv4Address_eq_some_iff {value : PyValue} {a : IPv4Address} :
    value.ipv4Address = some a ↔ value = .str a.text := by
  cases value with
  | str s => rw [ipv4Address, parseIPv4_eq_some_iff, PyValue.str.injEq]
  | _ => exact ⟨fun h => (by cases h), fun h => (by cases h)⟩

def PyValue.IsIPv4Address (value : PyValue) : Prop := ∃ a : IPv4Address, value = .str a.text

theorem PyValue.isSome_ipv4Address {value : PyValue} : value.ipv4Address.isSome = true ↔ value.IsIPv4Address := by
  rw [Option.isSome_iff_exists]
  exact exists_congr fun _ => ipv4Address_eq_some_iff

namespace MulticastReceiverSettings.Fields
variable (s : Fields)

def checks : List FieldCheck :=
  [.nonEmptyStr "MulticastReceiverSettings.group_ip" s.groupIp,
    .intRange "MulticastReceiverSettings.port" s.port 1 65535,
    .nonEmptyStr "MulticastReceiverSettings.bind_ip" s.bindIp,
    .nonEmptyStr "MulticastReceiverSettings.interface_ip" s.interfaceIp,
    .condition "MulticastReceiverSettings.group_ip" s.groupIp.ipv4Address.isSome " must be a valid IPv4 address.",
    .condition "MulticastReceiverSettings.group_ip" (s.groupIp.ipv4Address.any IPv4Address.isMulticast)
      " must be an IPv4 multicast address.",
    .condition "MulticastReceiverSettings.bind_ip" s.bindIp.ipv4Address.isSome " must be a valid IPv4 address.",
    .condition "MulticastReceiverSettings.interface_ip" s.interfaceIp.ipv4Address.isSome " must be a valid IPv4 address.",
    .positiveInt "MulticastReceiverSettings.receive_buffer_size" s.receiveBufferSize] ++
  s.eventDelivery.checks

structure Valid : Prop where
  groupIp : ∃ a : IPv4Address, s.groupIp = .str a.text ∧ a.isMulticast = true
  port : s.port.IsIntRange 1 65535
  bindIp : s.bindIp.IsIPv4Address
  interfaceIp : s.interfaceIp.IsIPv4Address
  receiveBufferSize : s.receiveBufferSize.IsPositiveInt
  eventDelivery : s.eventDelivery.Valid

variable {s}

theorem nonBlank_of_isIPv4Address {value : PyValue} (h : value.IsIPv4Address) : value.NonBlank := by
  obtain ⟨a, rfl⟩ := h
  obtain ⟨c, hc, hdigit⟩ := a.exists_digit
  exact strip_ne_nil hc (isSpace_of_isDigit hdigit)

theorem valid_iff : (∀ c ∈ s.checks, c.result = .ok ()) ↔ s.Valid := by
  have hgroup : s.groupIp.ipv4Address.any IPv4Address.isMulticast = true ↔
      ∃ a : IPv4Address, s.groupIp = .str a.text ∧ a.isMulticast = true := by
    rw [Option.any_eq_true]
    exact exists_congr fun _ => and_congr_left fun _ => PyValue.ipv4Address_eq_some_iff
  unfold checks
  simp only [List.forall_mem_append, List.forall_mem_cons, EventDeliverySettings.Fields.valid_iff,
    FieldCheck.result_nonEmptyStr, FieldCheck.result_intRange, FieldCheck.result_positiveInt, FieldCheck.result_condition,
    PyValue.isSome_ipv4Address, hgroup]
  constructor
  · rintro ⟨⟨-, hport, -, -, -, hgroup, hbind, hinterface, hbuffer, -⟩, hdelivery⟩
    exact ⟨hgroup, hport, hbind, hinterface, hbuffer, hdelivery⟩
  · intro h
    have hg : s.groupIp.IsIPv4Address := h.groupIp.imp fun _ ha => ha.1
    exact ⟨⟨nonBlank_of_isIPv4Address hg, h.port, nonBlank_of_isIPv4Address h.bindIp, nonBlank_of_isIPv4Address h.interfaceIp,
      hg, h.groupIp, h.bindIp, h.interfaceIp, h.receiveBufferSize, fun c hc => by cases hc⟩, h.eventDelivery⟩

end MulticastReceiverSettings.Fields

/-! ## Any settings object -/

inductive SettingsObject
  | eventDelivery (s : EventDeliverySettings.Fields)
  | tcpHeartbeat (s : TcpHeartbeatSettings.Fields)
  | tcpReconnect (s : TcpReconnectSettings.Fields)
  | tcpClient (s : TcpClientSettings.Fields)
  | tcpServer (s : TcpServerSettings.Fields)
  | udpSender (s : UdpSenderSettings.Fields)
  | udpReceiver (s : UdpReceiverSettings.Fields)
  | multicastReceiver (s : MulticastReceiverSettings.Fields)

namespace SettingsObject

def checks : SettingsObject → List FieldCheck
  | .eventDelivery s => s.checks
  | .tcpHeartbeat s => s.checks
  | .tcpReconnect s => s.checks
  | .tcpClient s => s.checks
  | .tcpServer s => s.checks
  | .udpSender s => s.checks
  | .udpReceiver s => s.checks
  | .multicastReceiver s => s.checks

/-- `validate`, which `__post_init__` calls. -/
def validate (s : SettingsObject) : Except PyError Unit := runChecks s.checks

def Valid : SettingsObject → Prop
  | .eventDelivery s => s.Valid
  | .tcpHeartbeat s => s.Valid
  | .tcpReconnect s => s.Valid
  | .tcpClient s => s.Valid
  | .tcpServer s => s.Valid
  | .udpSender s => s.Valid
  | .udpReceiver s => s.Valid
  | .multicastReceiver s => s.Valid

theorem validate_eq_ok_iff (s : SettingsObject) : s.validate = .ok () ↔ s.Valid := by
  unfold validate
  rw [runChecks_eq_ok_iff]
  cases s with
  | eventDelivery s => exact EventDeliverySettings.Fields.valid_iff
  | tcpHeartbeat s => exact TcpHeartbeatSettings.Fields.valid_iff
  | tcpReconnect s => exact TcpReconnectSettings.Fields.valid_iff
  | tcpClient s => exact TcpClientSettings.Fields.valid_iff
  | tcpServer s => exact TcpServerSettings.Fields.valid_iff
  | udpSender s => exact UdpSenderSettings.Fields.valid_iff
  | udpReceiver s => exact UdpReceiverSettings.Fields.valid_iff
  | multicastReceiver s => exact MulticastReceiverSettings.Fields.valid_iff

end SettingsObject

end Aionetx
