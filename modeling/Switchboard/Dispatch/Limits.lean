import Switchboard.Decimal.Reader
import Switchboard.Dispatch.Exchange
import Switchboard.Json.Fields
import Switchboard.Span
import Switchboard.Text.Unsigned

/-!
# Rate limits in responses

What a response says about the bucket of its route. Values that cannot be read are passed over one
by one, and no value makes anybody wait longer than an hour.

## Main definitions

* `Limits`: what was said.
* `Limits.ofHeaders`: reads the headers of a response.
* `Limits.withBody`: adds what the body of a refusal says.
* `deadlineAfter`: the instant at which a wait ends.
-/
namespace Switchboard

/-- What a response said about its bucket. -/
structure Limits where
  /-- Requests in a window. -/
  limit : Option Nat := none
  /-- Requests left in it. -/
  remaining : Option Nat := none
  /-- Time until the window ends. -/
  resetAfter : Option Span := none
  /-- The name that the server has for the bucket. -/
  token : Option String := none
  /-- The limit is for all routes. -/
  everywhere : Bool := false
  scope : Option String := none
  /-- Time until another attempt. -/
  retryAfter : Option Span := none
deriving DecidableEq, Repr, Inhabited

/-- The longest wait that a server can impose: an hour. -/
def longestWait : Span := Span.ofSecs 3600

/-- The instant at which a wait ends that begins at `now`. -/
def deadlineAfter (now : Instant) (wait : Span) : Instant := now + min wait longestWait

theorem deadlineAfter_le (now : Instant) (wait : Span) :
    deadlineAfter now wait ≤ now + longestWait :=
  Nat.add_le_add_left (Nat.min_le_right _ _) _

namespace Limits

/-- A wait in seconds, capped; what is negative or no number is no wait. -/
def wait? (x : Float) : Option Span :=
  if Decimal.isNaN x || x < 0.0 then none
  else some (match Span.ofSeconds? x with
    | some s => min s longestWait
    | none => longestWait)

/-- The number in a header. -/
def float? (h : Headers) (name : String) : Option Float := do
  match Decimal.readFloat (← h.text? name) with
  | .ok x => some x
  | .error _ => none

/-- The whole number in a header. -/
def nat? (h : Headers) (name : String) : Option Nat := do
  match Text.readUnsigned Text.bound32 (← h.text? name) with
  | .ok n => some n
  | .error _ => none

/-- What remains until a point of the wall clock, and nothing if it is past. -/
def until? (clock : Option Span) (reset : Float) : Option Span := do
  let left := reset - Span.toSeconds (← clock)
  wait? (if 0.0 < left then left else 0.0)

/-- The time until the window ends: as given, or as follows from the point at which it ends. The
wall clock counts from 1970 and is none before. -/
def resetAfter? (h : Headers) (clock : Option Span) : Option Span :=
  match (float? h "x-ratelimit-reset-after").bind wait? with
  | some s => some s
  | none => (float? h "x-ratelimit-reset").bind (until? clock)

/-- Reads the headers of a response. -/
def ofHeaders (h : Headers) (clock : Option Span) : Limits where
  limit := nat? h "x-ratelimit-limit"
  remaining := nat? h "x-ratelimit-remaining"
  resetAfter := resetAfter? h clock
  token := h.text? "x-ratelimit-bucket"
  everywhere := (h.text? "x-ratelimit-global").any (Text.sameLetters · "true")
  scope := h.text? "x-ratelimit-scope"
  retryAfter := (float? h "retry-after").bind wait?

/-- The names of the fields in the body of a refusal. -/
def bodyFields : List String := ["retry_after", "global"]

/-- The wait and the reach that the body of a refusal gives. -/
def readBody? (body : List UInt8) : Option (Float × Bool) := do
  let text ← (Utf8.decode body).toOption
  let fields ← Json.readFields? bodyFields text
  let seconds ← Json.required? fields "retry_after" Json.asFloat?
  let everywhere ← Json.optional? fields "global" false Json.asBool?
  return (seconds, everywhere)

/-- Adds what the body of a refusal says: the wait only if the headers gave none. -/
def withBody (l : Limits) (body : List UInt8) : Limits :=
  match readBody? body with
  | none => l
  | some (seconds, everywhere) =>
    { l with
      retryAfter := l.retryAfter.or (wait? seconds)
      everywhere := l.everywhere || everywhere }

/-- Nothing was said about a bucket. -/
def isEmpty (l : Limits) : Bool :=
  l.limit.isNone && l.remaining.isNone && l.resetAfter.isNone && l.token.isNone

/-- The refusal is for all routes. -/
def isGlobal (l : Limits) : Bool := l.everywhere || l.scope == some "global"

/-- The wait where a refusal names none: a second. -/
def standardWait : Span := Span.ofSecs 1

/-- How long a refusal asks to wait. -/
def effectiveWait (l : Limits) : Span := (l.retryAfter.or l.resetAfter).getD standardWait

@[simp] theorem token_withBody (l : Limits) (body : List UInt8) :
    (l.withBody body).token = l.token := by
  unfold withBody
  split <;> rfl

theorem wait?_le {x : Float} {s : Span} (h : wait? x = some s) : s ≤ longestWait := by
  unfold wait? at h
  split at h
  · simp at h
  · simp only [Option.some.injEq] at h
    subst h
    split
    · exact Nat.min_le_right _ _
    · exact Nat.le_refl _

end Limits

/-- Adds the headers with which a limited route answers; seconds have three places. -/
def Response.withLimits (r : Response) (limit remaining : Nat) (resetAfter : Span)
    (token : String) : Response :=
  (((r.withHeader "x-ratelimit-limit" (toString limit)).withHeader
    "x-ratelimit-remaining" (toString remaining)).withHeader
    "x-ratelimit-reset-after" (Decimal.fixed 3 (Span.toSeconds resetAfter))).withHeader
    "x-ratelimit-bucket" token

end Switchboard
