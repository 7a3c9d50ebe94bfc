import Switchboard.Json.Value
import Switchboard.Span

/-!
# Events and notices

What the subscribers of a pool hear: the events of the application, and notices about how the shards
are doing.
-/
namespace Switchboard

/-- An event of the application. -/
structure Event where
  shard : Nat
  kind : String
  sequence : Nat
  payload : Json
deriving Repr, Inhabited

/-- What happened to a shard. -/
inductive Happening where
  | connected
  | ready (sessionId : String)
  | resumed
  | disconnected (code : Option Nat) (reason : String)
  | reconnectScheduled (attempt : Nat) (delay : Span)
  /-- It stopped for good; `authentication` says that its credentials were rejected. -/
  | fatal (reason : String) (authentication : Bool)
deriving DecidableEq, Repr, Inhabited

/-- What happened, and to which shard. -/
structure Notice where
  shard : Nat
  happening : Happening
deriving DecidableEq, Repr, Inhabited

end Switchboard
