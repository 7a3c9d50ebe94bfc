import Switchboard.Span

/-!
# Failures

Everything that can go wrong for a caller, by cause. A failure may be worth another attempt, may
need an operator, or neither.

## Main definitions

* `Failure`: the causes with what is known about each.
* `Failure.message`: the wording.
* `Failure.isRetryable`, `Failure.isFatal`: what to do about it.
-/
namespace Switchboard

/-- Why something did not work. -/
inductive Failure where
  /-- The connection could not be made. -/
  | connection (reason : String)
  /-- The server sent what it may not send. -/
  | protocol (reason : String)
  /-- The server rejects the credentials. -/
  | authentication (code : Option Nat) (reason : String)
  /-- The server no longer knows the session. -/
  | sessionExpired (reason : String)
  /-- A rate limit holds the caller off for `retryAfter`. -/
  | rateLimited (scope : String) (everywhere : Bool) (retryAfter : Span)
  /-- The server turns the request down for good. -/
  | requestRejected (status : Nat) (body : String)
  /-- The server failed, or no answer came, as often as allowed. -/
  | transientServer (status : Option Nat) (reason : String)
  /-- The caller waited long enough. -/
  | timeout (context : String)
  /-- The transport broke. -/
  | transport (context reason : String)
  /-- A frame could not be handed over. -/
  | send (reason : String)
  /-- A payload could not be decoded. -/
  | decode (reason : String)
  /-- The call does not fit the state. -/
  | invalidState (reason : String)
  /-- The configuration cannot work. -/
  | config (reason : String)
  /-- The task that had to answer is gone. -/
  | unavailable (reason : String)
deriving DecidableEq, Repr, Inhabited

/-- A code that may be absent, as messages show it. -/
def showCode : Option Nat → String
  | none => "None"
  | some n => "Some(" ++ toString n ++ ")"

/-- A truth value, as messages show it. -/
def showFlag (b : Bool) : String := if b then "true" else "false"

namespace Failure

/-- The wording of a failure. -/
def message : Failure → String
  | connection reason => "Connection failed: " ++ reason
  | protocol reason => "Protocol error: " ++ reason
  | authentication code reason =>
    "Authentication failed (close code " ++ showCode code ++ "): " ++ reason
  | sessionExpired reason => "Session expired: " ++ reason
  | rateLimited scope everywhere retryAfter =>
    "Rate limited on " ++ scope ++ " (global=" ++ showFlag everywhere ++ ", retry after " ++
      Span.render retryAfter ++ ")"
  | requestRejected status body =>
    "Request rejected with status " ++ toString status ++ ": " ++ body
  | transientServer status reason =>
    "Server error (status=" ++ showCode status ++ "): " ++ reason
  | timeout context => "Timeout: " ++ context
  | transport context reason => "Transport error (" ++ context ++ "): " ++ reason
  | send reason => "Send failed: " ++ reason
  | decode reason => "Decode failed: " ++ reason
  | invalidState reason => "Invalid state: " ++ reason
  | config reason => "Invalid configuration: " ++ reason
  | unavailable reason => "Actor error: " ++ reason

/-- The condition passes, so another attempt makes sense. -/
def isRetryable : Failure → Bool
  | connection _ | rateLimited .. | transientServer .. | transport .. | sessionExpired _ => true
  | _ => false

/-- Only an operator can mend it. -/
def isFatal : Failure → Bool
  | authentication .. | config _ => true
  | _ => false

/-- The task asked is not there any more. -/
def notRunning : Failure := unavailable "actor not running"

/-- The task stopped while it had the question. -/
def stopped : Failure := unavailable "actor stopped"

end Failure

end Switchboard
