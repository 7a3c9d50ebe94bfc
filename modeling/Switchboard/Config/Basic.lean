import Switchboard.Span
import Switchboard.Text.Blank
import Switchboard.Wire.Compression

/-!
# Configuration

The settings of one client. Every setting but the token has a default that works.

## Main definitions

* `Config`: the settings.
* `Config.bareToken`, `Config.authorization`: the token without and with its scheme.
-/
namespace Switchboard

/-- What happens to a shard that stopped for good. -/
inductive FatalPolicy where
  /-- It stays stopped. -/
  | surface
  /-- It is restarted after a while, unless its credentials were rejected. -/
  | restart
deriving DecidableEq, Repr, Inhabited

/-- The name of a policy. -/
def FatalPolicy.name : FatalPolicy → String
  | .surface => "surface"
  | .restart => "restart"

/-- The policy that is written exactly so. -/
def FatalPolicy.ofName? (s : String) : Option FatalPolicy :=
  if s == "surface" then some .surface
  else if s == "restart" then some .restart
  else none

/-- The settings of a client, and where it runs. -/
structure Config where
  token : String := ""
  intents : Nat := 0
  gatewayUrl : String := "wss://gateway.discord.gg"
  apiBaseUrl : String := "https://discord.com/api/v10"
  compression : Compression := .none
  shardCount : Nat := 1
  identifyIntervalMs : Nat := 5000
  identifyMaxConcurrency : Nat := 1
  /-- Missed acknowledgements in a row that end a connection. -/
  heartbeatAckGrace : Nat := 2
  reconnectBackoffBaseMs : Nat := 1000
  reconnectBackoffMaxMs : Nat := 60000
  reconnectBackoffJitter : Float := 0.5
  /-- Nothing means as often as it takes. -/
  maxReconnectAttempts : Option Nat := none
  fatalRestart : FatalPolicy := .surface
  fatalRestartCooldownMs : Nat := 30000
  gatewayCommandsPerMinute : Nat := 120
  eventBuffer : Nat := 1024
  bucketIdleEvictionIntervalMs : Nat := 300000
  maxRetryAttempts : Nat := 3
  maxRateLimitRetries : Nat := 5
  retryBackoffBaseMs : Nat := 500
  retryBackoffMaxMs : Nat := 8000
  requestTimeoutDefaultMs : Nat := 15000
  /-- The operating system on which the client runs: no document and no variable gives it. -/
  system : String := "linux"
deriving Repr

namespace Config

/-- The scheme that may stand before a token. -/
def scheme : String := "Bot "

/-- The token without blanks around it and without its scheme. -/
def bareToken (c : Config) : String :=
  let token := Text.trim c.token
  (Text.stripFront? scheme token).getD token

/-- The value of the authorization header. -/
def authorization (c : Config) : String := scheme ++ c.bareToken

/-- The name of the identity behind a token: what stands before its first point, which is no secret.
-/
def identityLabel (c : Config) : String :=
  let label := String.ofList (c.bareToken.toList.takeWhile (· ≠ '.'))
  if label.isEmpty then "default" else label

end Config

end Switchboard
