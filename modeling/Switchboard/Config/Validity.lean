import Switchboard.Config.Basic
import Switchboard.Failure
import Switchboard.Text.Quoted
import Switchboard.Text.Unsigned
import Switchboard.Decimal.Reader

/-!
# What is wrong with a configuration

The causes for which settings are refused, with their wording, and the check of settings that can
never work. The check has an order; the first cause that applies is the one reported.

## Main definitions

* `Config.Problem`: the causes.
* `Config.problem?`: the first that applies.
* `Config.validate`: the same as a result.
-/
namespace Switchboard.Config

/-- What stands in front of the name of a variable. -/
def variableFront : String := "SHARDWIRE_"

/-- Why a configuration is refused. -/
inductive Problem where
  | tokenMissing
  | unknownCompression (raw : String)
  | unknownFatalPolicy (raw : String)
  | notInteger (setting raw : String) (cause : Text.IntegerError)
  | notFloat (setting raw : String) (cause : Decimal.FloatError)
  | tokenEmpty
  | tokenNotPlain
  | noShards
  | noIdentifyConcurrency
  | noHeartbeatGrace
  | reconnectBackoffReversed (base most : Nat)
  | jitterOutOfRange (value : Float)
  | retryBackoffReversed (base most : Nat)
  | noEventBuffer
  | noRequestTimeout
  | gatewayScheme (url : String)
  | apiScheme (url : String)

/-- The wording of a cause. -/
def Problem.reason : Problem → String
  | .tokenMissing => variableFront ++ "TOKEN is not set"
  | .unknownCompression raw => variableFront ++ "COMPRESSION: unknown mode " ++ Text.quote raw
  | .unknownFatalPolicy raw =>
    variableFront ++ "FATAL_RESTART: expected surface|restart, got " ++ Text.quote raw
  | .notInteger setting raw cause =>
    variableFront ++ setting ++ ": invalid value " ++ Text.quote raw ++ ": " ++ cause.message
  | .notFloat setting raw cause =>
    variableFront ++ setting ++ ": invalid value " ++ Text.quote raw ++ ": " ++ cause.message
  | .tokenEmpty => "token is empty"
  | .tokenNotPlain => "token contains whitespace or control characters"
  | .noShards => "shard_count must be at least 1"
  | .noIdentifyConcurrency => "identify_max_concurrency must be at least 1"
  | .noHeartbeatGrace => "heartbeat_ack_grace must be at least 1"
  | .reconnectBackoffReversed base most =>
    "reconnect backoff base (" ++ toString base ++ "ms) exceeds max (" ++ toString most ++ "ms)"
  | .jitterOutOfRange value =>
    "reconnect_backoff_jitter must be within 0..=1, got " ++ Decimal.plain value
  | .retryBackoffReversed base most =>
    "retry backoff base (" ++ toString base ++ "ms) exceeds max (" ++ toString most ++ "ms)"
  | .noEventBuffer => "event_buffer must be at least 1"
  | .noRequestTimeout => "request_timeout_default_ms must be positive"
  | .gatewayScheme url => "gateway_url must start with ws:// or wss://: " ++ url
  | .apiScheme url => "api_base_url must start with http:// or https://: " ++ url

/-- The failure that a cause is. -/
def Problem.toFailure (p : Problem) : Failure := .config p.reason

/-- A fraction: at least zero and at most one. -/
def isFraction (x : Float) : Bool := 0.0 ≤ x && x ≤ 1.0

/-- The first cause for which settings can never work. -/
def problem? (c : Config) : Option Problem :=
  if c.bareToken.isEmpty then some .tokenEmpty
  else if c.bareToken.toList.any fun ch => Text.isBlank ch || Text.isControl ch then
    some .tokenNotPlain
  else if c.shardCount = 0 then some .noShards
  else if c.identifyMaxConcurrency = 0 then some .noIdentifyConcurrency
  else if c.heartbeatAckGrace = 0 then some .noHeartbeatGrace
  else if c.reconnectBackoffMaxMs < c.reconnectBackoffBaseMs then
    some (.reconnectBackoffReversed c.reconnectBackoffBaseMs c.reconnectBackoffMaxMs)
  else if !isFraction c.reconnectBackoffJitter then
    some (.jitterOutOfRange c.reconnectBackoffJitter)
  else if c.retryBackoffMaxMs < c.retryBackoffBaseMs then
    some (.retryBackoffReversed c.retryBackoffBaseMs c.retryBackoffMaxMs)
  else if c.eventBuffer = 0 then some .noEventBuffer
  else if c.requestTimeoutDefaultMs = 0 then some .noRequestTimeout
  else if !(Text.startsWith "ws://" c.gatewayUrl || Text.startsWith "wss://" c.gatewayUrl) then
    some (.gatewayScheme c.gatewayUrl)
  else if !(Text.startsWith "http://" c.apiBaseUrl || Text.startsWith "https://" c.apiBaseUrl) then
    some (.apiScheme c.apiBaseUrl)
  else none

/-- Refuses settings that can never work. -/
def validate (c : Config) : Except Problem Unit :=
  match c.problem? with
  | some p => .error p
  | none => .ok ()

end Switchboard.Config
