import Switchboard.Config.Basic
import Switchboard.Json.Fields
import Switchboard.Text.Unsigned

/-!
# Settings from a document

Settings are read from a JSON document with a field for each. A field that is absent leaves the
default; the settings are not checked here.
-/
namespace Switchboard.Config

/-- The names of the fields, in the order in which an array lists them. -/
def fieldNames : List String :=
  ["token", "intents", "gateway_url", "api_base_url", "compression", "shard_count",
    "identify_interval_ms", "identify_max_concurrency", "heartbeat_ack_grace",
    "reconnect_backoff_base_ms", "reconnect_backoff_max_ms", "reconnect_backoff_jitter",
    "max_reconnect_attempts", "fatal_restart", "fatal_restart_cooldown_ms",
    "gateway_commands_per_minute", "event_buffer", "bucket_idle_eviction_interval_ms",
    "max_retry_attempts", "max_rate_limit_retries", "retry_backoff_base_ms",
    "retry_backoff_max_ms", "request_timeout_default_ms"]

/-- A choice among names: a string, or an object whose only member is the name with null. -/
def choice? {α : Type} (ofName? : String → Option α) : Json → Option α
  | .text s => ofName? s
  | .object [(s, .null)] => ofName? s
  | _ => none

/-- The settings that a document gives; `none` when it cannot be read. -/
def ofDocument? (text : String) : Option Config := do
  let fields ← Json.readFields? fieldNames text
  let c : Config := {}
  let string (name : String) (current : String) :=
    Json.optional? fields name current Json.asText?
  let number32 (name : String) (current : Nat) :=
    Json.optional? fields name current (Json.asNat? Text.bound32)
  let number64 (name : String) (current : Nat) :=
    Json.optional? fields name current (Json.asNat? Text.bound64)
  let token ← string "token" c.token
  let intents ← number64 "intents" c.intents
  let gatewayUrl ← string "gateway_url" c.gatewayUrl
  let apiBaseUrl ← string "api_base_url" c.apiBaseUrl
  let compression ←
    Json.optional? fields "compression" c.compression (choice? Compression.ofName?)
  let shardCount ← number32 "shard_count" c.shardCount
  let identifyIntervalMs ← number64 "identify_interval_ms" c.identifyIntervalMs
  let identifyMaxConcurrency ← number32 "identify_max_concurrency" c.identifyMaxConcurrency
  let heartbeatAckGrace ← number32 "heartbeat_ack_grace" c.heartbeatAckGrace
  let reconnectBackoffBaseMs ← number64 "reconnect_backoff_base_ms" c.reconnectBackoffBaseMs
  let reconnectBackoffMaxMs ← number64 "reconnect_backoff_max_ms" c.reconnectBackoffMaxMs
  let reconnectBackoffJitter ←
    Json.optional? fields "reconnect_backoff_jitter" c.reconnectBackoffJitter Json.asFloat?
  let maxReconnectAttempts ←
    Json.optional? fields "max_reconnect_attempts" c.maxReconnectAttempts
      (Json.nullable (Json.asNat? Text.bound32))
  let fatalRestart ←
    Json.optional? fields "fatal_restart" c.fatalRestart (choice? FatalPolicy.ofName?)
  let fatalRestartCooldownMs ← number64 "fatal_restart_cooldown_ms" c.fatalRestartCooldownMs
  let gatewayCommandsPerMinute ←
    number32 "gateway_commands_per_minute" c.gatewayCommandsPerMinute
  let eventBuffer ← number64 "event_buffer" c.eventBuffer
  let bucketIdleEvictionIntervalMs ←
    number64 "bucket_idle_eviction_interval_ms" c.bucketIdleEvictionIntervalMs
  let maxRetryAttempts ← number32 "max_retry_attempts" c.maxRetryAttempts
  let maxRateLimitRetries ← number32 "max_rate_limit_retries" c.maxRateLimitRetries
  let retryBackoffBaseMs ← number64 "retry_backoff_base_ms" c.retryBackoffBaseMs
  let retryBackoffMaxMs ← number64 "retry_backoff_max_ms" c.retryBackoffMaxMs
  let requestTimeoutDefaultMs ← number64 "request_timeout_default_ms" c.requestTimeoutDefaultMs
  return { c with
    token, intents, gatewayUrl, apiBaseUrl, compression, shardCount, identifyIntervalMs,
    identifyMaxConcurrency, heartbeatAckGrace, reconnectBackoffBaseMs, reconnectBackoffMaxMs,
    reconnectBackoffJitter, maxReconnectAttempts, fatalRestart, fatalRestartCooldownMs,
    gatewayCommandsPerMinute, eventBuffer, bucketIdleEvictionIntervalMs, maxRetryAttempts,
    maxRateLimitRetries, retryBackoffBaseMs, retryBackoffMaxMs, requestTimeoutDefaultMs }

end Switchboard.Config
