import Mathlib.Data.Fintype.OfMap
import Outboxy.Worker

/-!
# The configuration of the worker

`workerConfigSchema` and `loadConfig`.  A field of the schema has a kind, which
is how its text is read and what its value has to be, a variable of the
environment, and a default.

`Number()` and `String()` of the language are parameters.
-/

namespace Outboxy.Config

/-- `Number(text)`, where `NaN` and the infinities are `none`, and `String(x)`
of a number. -/
structure NumberRuntime where
  number : String → Option ℚ
  string : ℚ → String

inductive LogLevel where
  | trace
  | debug
  | info
  | warn
  | error
  | fatal
deriving DecidableEq, Repr

namespace LogLevel

def text : LogLevel → String
  | .trace => "trace"
  | .debug => "debug"
  | .info => "info"
  | .warn => "warn"
  | .error => "error"
  | .fatal => "fatal"

def ofText (text : String) : Option LogLevel :=
  [trace, debug, info, warn, error, fatal].find? fun level => level.text = text

end LogLevel

/-! ## Kinds of fields -/

/-- The kinds of fields: `z.coerce.number().int().positive()`,
`z.coerce.number().int().nonnegative()`, `z.coerce.number().positive()`,
`z.coerce.boolean()`, `z.enum([...])`, `z.string()` and
`z.string().optional()`. -/
inductive Kind where
  | positiveInt
  | nonnegativeInt
  | positive
  | boolean
  | logLevel
  | text
  | optionalText
deriving DecidableEq, Repr

namespace Kind

/-- The values of a field. -/
abbrev Value : Kind → Type
  | .positiveInt | .nonnegativeInt => ℤ
  | .positive => ℚ
  | .boolean => Bool
  | .logLevel => LogLevel
  | .text => String
  | .optionalText => Option String

/-- `Number.MAX_SAFE_INTEGER`, up to which `int()` takes numbers. -/
def MAX_SAFE_INTEGER : ℤ := 9007199254740991

/-- What the schema asks of a value. -/
def check : (kind : Kind) → kind.Value → Bool
  | .positiveInt, value => decide (0 < value ∧ value ≤ MAX_SAFE_INTEGER)
  | .nonnegativeInt, value => decide (0 ≤ value ∧ value ≤ MAX_SAFE_INTEGER)
  | .positive, value => decide (0 < value)
  | .boolean, _ | .logLevel, _ | .text, _ | .optionalText, _ => true

/-- A number that is an integer. -/
def integer (x : ℚ) : Option ℤ := if x.den = 1 then some x.num else none

/-- The value of a text.  `z.coerce.boolean()` is `Boolean(text)`. -/
def coerce (js : NumberRuntime) : (kind : Kind) → String → Option kind.Value
  | .positiveInt, written | .nonnegativeInt, written => (js.number written).bind integer
  | .positive, written => js.number written
  | .boolean, written => some (decide (written ≠ ""))
  | .logLevel, written => LogLevel.ofText written
  | .text, written => some written
  | .optionalText, written => some (some written)

/-- The value of a text, if the schema takes it. -/
def parse (js : NumberRuntime) (kind : Kind) (written : String) : Option kind.Value :=
  (kind.coerce js written).filter kind.check

end Kind

/-! ## Fields -/

inductive Field where
  | pollIntervalMs
  | batchSize
  | maxRetries
  | backoffBaseMs
  | backoffMultiplier
  | logLevel
  | shutdownTimeoutMs
  | staleEventThresholdMs
  | staleRecoveryIntervalMs
  | adaptivePollingEnabled
  | adaptivePollingMinPollIntervalMs
  | adaptivePollingMaxPollIntervalMs
  | adaptivePollingBusyThreshold
  | adaptivePollingModerateThreshold
  | metricsEnabled
  | metricsPort
  | metricsHost
  | metricsPath
  | workerId
  | workerCount
  | workerIdPrefix
  | idempotencyCleanupEnabled
  | idempotencyCleanupIntervalMs
  | idempotencyRetentionDays
  | inboxCleanupEnabled
  | inboxCleanupIntervalMs
  | inboxRetentionDays
deriving DecidableEq, Repr

namespace Field

def all : List Field :=
  [.pollIntervalMs, .batchSize, .maxRetries, .backoffBaseMs, .backoffMultiplier, .logLevel,
    .shutdownTimeoutMs, .staleEventThresholdMs, .staleRecoveryIntervalMs,
    .adaptivePollingEnabled, .adaptivePollingMinPollIntervalMs,
    .adaptivePollingMaxPollIntervalMs, .adaptivePollingBusyThreshold,
    .adaptivePollingModerateThreshold, .metricsEnabled, .metricsPort, .metricsHost,
    .metricsPath, .workerId, .workerCount, .workerIdPrefix, .idempotencyCleanupEnabled,
    .idempotencyCleanupIntervalMs, .idempotencyRetentionDays, .inboxCleanupEnabled,
    .inboxCleanupIntervalMs, .inboxRetentionDays]

theorem mem_all (field : Field) : field ∈ all := by
  cases field <;> decide

instance : Fintype Field := Fintype.ofList all mem_all

@[reducible]
def kind : Field → Kind
  | .backoffMultiplier => .positive
  | .logLevel => .logLevel
  | .maxRetries | .adaptivePollingBusyThreshold | .adaptivePollingModerateThreshold =>
    .nonnegativeInt
  | .adaptivePollingEnabled | .metricsEnabled | .idempotencyCleanupEnabled
  | .inboxCleanupEnabled => .boolean
  | .metricsHost | .metricsPath => .text
  | .workerId | .workerIdPrefix => .optionalText
  | .pollIntervalMs | .batchSize | .backoffBaseMs | .shutdownTimeoutMs | .staleEventThresholdMs
  | .staleRecoveryIntervalMs | .adaptivePollingMinPollIntervalMs
  | .adaptivePollingMaxPollIntervalMs | .metricsPort | .workerCount
  | .idempotencyCleanupIntervalMs | .idempotencyRetentionDays | .inboxCleanupIntervalMs
  | .inboxRetentionDays => .positiveInt

/-- The variable of the environment. -/
def variableName : Field → String
  | .pollIntervalMs => "POLL_INTERVAL_MS"
  | .batchSize => "BATCH_SIZE"
  | .maxRetries => "MAX_RETRIES"
  | .backoffBaseMs => "BACKOFF_BASE_MS"
  | .backoffMultiplier => "BACKOFF_MULTIPLIER"
  | .logLevel => "LOG_LEVEL"
  | .shutdownTimeoutMs => "SHUTDOWN_TIMEOUT_MS"
  | .staleEventThresholdMs => "STALE_EVENT_THRESHOLD_MS"
  | .staleRecoveryIntervalMs => "STALE_RECOVERY_INTERVAL_MS"
  | .adaptivePollingEnabled => "ADAPTIVE_POLLING_ENABLED"
  | .adaptivePollingMinPollIntervalMs => "ADAPTIVE_POLLING_MIN_POLL_INTERVAL_MS"
  | .adaptivePollingMaxPollIntervalMs => "ADAPTIVE_POLLING_MAX_POLL_INTERVAL_MS"
  | .adaptivePollingBusyThreshold => "ADAPTIVE_POLLING_BUSY_THRESHOLD"
  | .adaptivePollingModerateThreshold => "ADAPTIVE_POLLING_MODERATE_THRESHOLD"
  | .metricsEnabled => "METRICS_ENABLED"
  | .metricsPort => "METRICS_PORT"
  | .metricsHost => "METRICS_HOST"
  | .metricsPath => "METRICS_PATH"
  | .workerId => "WORKER_ID"
  | .workerCount => "WORKER_COUNT"
  | .workerIdPrefix => "WORKER_ID_PREFIX"
  | .idempotencyCleanupEnabled => "IDEMPOTENCY_CLEANUP_ENABLED"
  | .idempotencyCleanupIntervalMs => "IDEMPOTENCY_CLEANUP_INTERVAL_MS"
  | .idempotencyRetentionDays => "IDEMPOTENCY_RETENTION_DAYS"
  | .inboxCleanupEnabled => "INBOX_CLEANUP_ENABLED"
  | .inboxCleanupIntervalMs => "INBOX_CLEANUP_INTERVAL_MS"
  | .inboxRetentionDays => "INBOX_RETENTION_DAYS"

/-- The value of a field whose variable is not set.  An optional text is
`undefined` then. -/
def defaultValue : (field : Field) → field.kind.Value
  | .pollIntervalMs => (1000 : ℤ)
  | .batchSize => (10 : ℤ)
  | .maxRetries => (5 : ℤ)
  | .backoffBaseMs => (1000 : ℤ)
  | .backoffMultiplier => (2 : ℚ)
  | .logLevel => LogLevel.info
  | .shutdownTimeoutMs => (30000 : ℤ)
  | .staleEventThresholdMs => (300000 : ℤ)
  | .staleRecoveryIntervalMs => (60000 : ℤ)
  | .adaptivePollingEnabled => true
  | .adaptivePollingMinPollIntervalMs => (100 : ℤ)
  | .adaptivePollingMaxPollIntervalMs => (5000 : ℤ)
  | .adaptivePollingBusyThreshold => (50 : ℤ)
  | .adaptivePollingModerateThreshold => (10 : ℤ)
  | .metricsEnabled => true
  | .metricsPort => (9090 : ℤ)
  | .metricsHost => "0.0.0.0"
  | .metricsPath => "/metrics"
  | .workerId => (none : Option String)
  | .workerCount => (1 : ℤ)
  | .workerIdPrefix => (none : Option String)
  | .idempotencyCleanupEnabled => true
  | .idempotencyCleanupIntervalMs => (86400000 : ℤ)
  | .idempotencyRetentionDays => (30 : ℤ)
  | .inboxCleanupEnabled => false
  | .inboxCleanupIntervalMs => (86400000 : ℤ)
  | .inboxRetentionDays => (30 : ℤ)

end Field

/-! ## Configurations -/

/-- A value for each field. -/
abbrev WorkerConfig := (field : Field) → field.kind.Value

/-- `process.env` -/
abbrev Environment := String → Option String

namespace WorkerConfig

/-- The first `refine`. -/
def intervalsOrdered (config : WorkerConfig) : Bool :=
  decide ((config .adaptivePollingMinPollIntervalMs : ℤ) < config .adaptivePollingMaxPollIntervalMs)

/-- The second `refine`. -/
def thresholdsOrdered (config : WorkerConfig) : Bool :=
  decide ((config .adaptivePollingModerateThreshold : ℤ) ≤ config .adaptivePollingBusyThreshold)

/-- The schema takes the value. -/
structure Valid (config : WorkerConfig) : Prop where
  fields : ∀ field : Field, field.kind.check (config field) = true
  intervals : config.intervalsOrdered = true
  thresholds : config.thresholdsOrdered = true

/-- What the outbox worker uses. -/
def worker (config : WorkerConfig) : Outboxy.WorkerConfig where
  batchSize := (config .batchSize : ℤ).toNat
  maxRetries := (config .maxRetries : ℤ).toNat
  backoffBaseMs := (config .backoffBaseMs : ℤ)
  backoffMultiplier := config .backoffMultiplier

end WorkerConfig

/-- A field as the schema reads it from the environment. -/
def Field.read (js : NumberRuntime) (env : Environment) (field : Field) :
    Option field.kind.Value :=
  match env field.variableName with
  | none => some field.defaultValue
  | some text => field.kind.parse js text

/-- `loadConfig()`.  There is no result when the schema refuses the environment:
the issues are logged and the process exits. -/
def loadConfig (js : NumberRuntime) (env : Environment) : Option WorkerConfig :=
  if h : ∀ field : Field, (field.read js env).isSome then
    let config : WorkerConfig := fun field => (field.read js env).get (h field)
    if config.intervalsOrdered && config.thresholdsOrdered then some config else none
  else none

/-- The defaults pass their own checks. -/
theorem valid_defaults : WorkerConfig.Valid Field.defaultValue where
  fields := by decide
  intervals := by decide
  thresholds := by decide

end Outboxy.Config
