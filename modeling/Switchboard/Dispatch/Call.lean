import Switchboard.Config.Basic
import Switchboard.Dispatch.Limits
import Switchboard.Dispatch.Route
import Switchboard.Failure
import Switchboard.Pacing.Backoff

/-!
# What comes of an attempt

A call is attempted until it succeeds, is turned down, or has used up one of two budgets: one for
failures of the server or the transport, which are followed by growing delays, and one for refusals
under a rate limit. This module judges one answer; when the next attempt takes place is not its
concern.

## Main definitions

* `RetryPolicy`: the two budgets and the delays.
* `Answer`: a response, or the reason why none came.
* `Tries.judge`: the verdict on an answer, and what is left of the budgets.
-/
namespace Switchboard

/-- How often a call is attempted again, and after which delays. -/
structure RetryPolicy where
  maxRetryAttempts : Nat
  maxRateLimitRetries : Nat
  backoffBase : Span
  backoffMax : Span
deriving DecidableEq, Repr, Inhabited

namespace RetryPolicy

/-- The policy of a configuration. -/
def ofConfig (c : Config) : RetryPolicy :=
  ⟨c.maxRetryAttempts, c.maxRateLimitRetries, Span.ofMillis c.retryBackoffBaseMs,
    Span.ofMillis c.retryBackoffMaxMs⟩

/-- The delays for one call: doubling, with up to half shaved off. -/
def backoff (p : RetryPolicy) : Backoff :=
  (Backoff.new p.backoffBase p.backoffMax 2.0).withJitter 0.5

end RetryPolicy

/-- What came of an attempt. -/
inductive Answer where
  | response (r : Response)
  /-- No response arrived. -/
  | lost (failure : Failure)
deriving DecidableEq, Repr

/-- The attempts of a call so far. -/
structure Tries where
  /-- Answers that were failures of the server or the transport. -/
  failures : Nat
  /-- Answers that were refusals under a rate limit. -/
  refusals : Nat
  backoff : Backoff

/-- What follows from an answer. -/
inductive Verdict where
  /-- The call is over. -/
  | done (result : Except Failure Response)
  /-- Another attempt after a delay. -/
  | retry (delay : Span)
  /-- Another attempt when the rate limit allows it, which is in `wait`. -/
  | limited (limits : Limits) (wait : Span)

namespace Tries

/-- No attempt was made. -/
def new (p : RetryPolicy) : Tries := ⟨0, 0, p.backoff⟩

/-- Counts a failure: the call ends with it, or is attempted again after the next delay. -/
def fail (t : Tries) (p : RetryPolicy) (failure : Failure) (draw : Float) : Tries × Verdict :=
  let t := { t with failures := t.failures + 1 }
  if p.maxRetryAttempts < t.failures then (t, .done (.error failure))
  else
    let (backoff, delay) := t.backoff.next draw
    ({ t with backoff }, .retry delay)

/-- Counts a refusal. -/
def refuse (t : Tries) (p : RetryPolicy) (route : Route) (limits : Limits) : Tries × Verdict :=
  let t := { t with refusals := t.refusals + 1 }
  let wait := limits.effectiveWait
  if p.maxRateLimitRetries < t.refusals then
    (t, .done (.error (.rateLimited route.render limits.isGlobal wait)))
  else (t, .limited limits wait)

/-- Judges an answer; `limits` is what its headers say. -/
def judge (t : Tries) (p : RetryPolicy) (route : Route) (limits : Limits) (draw : Float) :
    Answer → Tries × Verdict
  | .lost failure => t.fail p (.transientServer none failure.message) draw
  | .response r =>
    if r.isTooMany then t.refuse p route (limits.withBody r.body)
    else if r.isSuccess then (t, .done (.ok r))
    else if r.isServerError then t.fail p (.transientServer (some r.status) r.text) draw
    else (t, .done (.error (.requestRejected r.status r.text)))

end Tries

end Switchboard
