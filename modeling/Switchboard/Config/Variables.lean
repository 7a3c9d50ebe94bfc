import Switchboard.Config.Validity

/-!
# Settings from variables

Settings are read from named variables, such as those of the environment. A variable that is not set
leaves the default; the token has to be set. Variables are read in a fixed order, so of several
faults the first is reported, and the finished settings are checked at the end.

## Main definitions

* `Config.ofVariables`: the settings that the variables describe.
-/
namespace Switchboard.Config

/-- A source of variables: the value of a name, if it is set. -/
abbrev Variables := String → Option String

/-- Reads a whole number below `bound`; without the variable, the value stays. -/
def readNat (vars : Variables) (bound : Nat) (name : String) (current : Nat) : Except Problem Nat :=
  match vars (variableFront ++ name) with
  | none => .ok current
  | some raw =>
    match Text.readUnsigned bound (Text.trim raw) with
    | .ok n => .ok n
    | .error e => .error (.notInteger name raw e)

/-- Reads a whole number below `bound` that may be left out. -/
def readNat? (vars : Variables) (bound : Nat) (name : String) (current : Option Nat) :
    Except Problem (Option Nat) :=
  match vars (variableFront ++ name) with
  | none => .ok current
  | some _ => (readNat vars bound name 0).map some

/-- Reads a float; without the variable, the value stays. -/
def readFloat (vars : Variables) (name : String) (current : Float) : Except Problem Float :=
  match vars (variableFront ++ name) with
  | none => .ok current
  | some raw =>
    match Decimal.readFloat (Text.trim raw) with
    | .ok x => .ok x
    | .error e => .error (.notFloat name raw e)

/-- Reads the compression mode. -/
def readCompression (vars : Variables) (current : Compression) : Except Problem Compression :=
  match vars (variableFront ++ "COMPRESSION") with
  | none => .ok current
  | some raw =>
    match Compression.parse? raw with
    | some mode => .ok mode
    | none => .error (.unknownCompression raw)

/-- Reads the policy for shards that stopped for good. -/
def readPolicy (vars : Variables) (current : FatalPolicy) : Except Problem FatalPolicy :=
  match vars (variableFront ++ "FATAL_RESTART") with
  | none => .ok current
  | some raw =>
    match FatalPolicy.ofName? (Text.lower (Text.trim raw)) with
    | some policy => .ok policy
    | none => .error (.unknownFatalPolicy raw)

/-- Reads every setting, without the check. -/
def readAll (vars : Variables) (c : Config) : Except Problem Config := do
  let token ← match vars (variableFront ++ "TOKEN") with
    | some token => pure token
    | none => throw .tokenMissing
  let gatewayUrl := (vars (variableFront ++ "GATEWAY_URL")).getD c.gatewayUrl
  let apiBaseUrl := (vars (variableFront ++ "API_BASE_URL")).getD c.apiBaseUrl
  let compression ← readCompression vars c.compression
  let fatalRestart ← readPolicy vars c.fatalRestart
  let number32 := readNat vars Text.bound32
  let number64 := readNat vars Text.bound64
  let intents ← number64 "INTENTS" c.intents
  let shardCount ← number32 "SHARD_COUNT" c.shardCount
  let identifyIntervalMs ← number64 "IDENTIFY_INTERVAL_MS" c.identifyIntervalMs
  let identifyMaxConcurrency ← number32 "IDENTIFY_MAX_CONCURRENCY" c.identifyMaxConcurrency
  let heartbeatAckGrace ← number32 "HEARTBEAT_ACK_GRACE" c.heartbeatAckGrace
  let reconnectBackoffBaseMs ← number64 "RECONNECT_BACKOFF_BASE_MS" c.reconnectBackoffBaseMs
  let reconnectBackoffMaxMs ← number64 "RECONNECT_BACKOFF_MAX_MS" c.reconnectBackoffMaxMs
  let reconnectBackoffJitter ← readFloat vars "RECONNECT_BACKOFF_JITTER" c.reconnectBackoffJitter
  let maxReconnectAttempts ←
    readNat? vars Text.bound32 "MAX_RECONNECT_ATTEMPTS" c.maxReconnectAttempts
  let fatalRestartCooldownMs ← number64 "FATAL_RESTART_COOLDOWN_MS" c.fatalRestartCooldownMs
  let gatewayCommandsPerMinute ←
    number32 "GATEWAY_COMMANDS_PER_MINUTE" c.gatewayCommandsPerMinute
  let eventBuffer ← number64 "EVENT_BUFFER" c.eventBuffer
  let bucketIdleEvictionIntervalMs ←
    number64 "BUCKET_IDLE_EVICTION_INTERVAL_MS" c.bucketIdleEvictionIntervalMs
  let maxRetryAttempts ← number32 "MAX_RETRY_ATTEMPTS" c.maxRetryAttempts
  let maxRateLimitRetries ← number32 "MAX_RATE_LIMIT_RETRIES" c.maxRateLimitRetries
  let retryBackoffBaseMs ← number64 "RETRY_BACKOFF_BASE_MS" c.retryBackoffBaseMs
  let retryBackoffMaxMs ← number64 "RETRY_BACKOFF_MAX_MS" c.retryBackoffMaxMs
  let requestTimeoutDefaultMs ← number64 "REQUEST_TIMEOUT_DEFAULT_MS" c.requestTimeoutDefaultMs
  return { c with
    token, intents, gatewayUrl, apiBaseUrl, compression, shardCount, identifyIntervalMs,
    identifyMaxConcurrency, heartbeatAckGrace, reconnectBackoffBaseMs, reconnectBackoffMaxMs,
    reconnectBackoffJitter, maxReconnectAttempts, fatalRestart, fatalRestartCooldownMs,
    gatewayCommandsPerMinute, eventBuffer, bucketIdleEvictionIntervalMs, maxRetryAttempts,
    maxRateLimitRetries, retryBackoffBaseMs, retryBackoffMaxMs, requestTimeoutDefaultMs }

/-- The settings that the variables describe, or the first fault. -/
def ofVariables (vars : Variables) : Except Problem Config := do
  let config ← readAll vars {}
  config.validate
  return config

end Switchboard.Config
