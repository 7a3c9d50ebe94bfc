import Switchboard.Dispatch.Limits

/-!
# Buckets

A bucket predicts how many requests the server will still accept: units are taken from it until it
is empty, and it fills up again when its window ends. Without any word from the server it is
optimistic.

## Main definitions

* `Bucket`: the prediction.
* `Bucket.reserve`: takes a unit, or says when there will be one.
* `Bucket.apply`, `Bucket.block`: what the server said about it.
* `Bucket.isIdle`: nobody needs it any more.
-/
namespace Switchboard

/-- The prediction for the requests of one or several routes. -/
structure Bucket where
  /-- The route for which it was made. -/
  label : String
  limit : Option Nat := none
  /-- Units left in the window. -/
  remaining : Nat := 1
  /-- When the window ends. -/
  resetAt : Option Instant := none
  /-- The name that the server has for it. -/
  token : Option String := none
  lastUsed : Instant
  /-- Requests that were submitted and are not done. -/
  pending : Nat := 0
deriving DecidableEq, Repr

namespace Bucket

/-- A bucket about which nothing is known. -/
def fresh (label : String) (now : Instant) : Bucket := { label, lastUsed := now }

/-- A window that is over at `now` leaves a full bucket. -/
def refilled (b : Bucket) (now : Instant) : Bucket :=
  match b.resetAt with
  | some reset =>
    if reset ≤ now then { b with remaining := b.limit.getD 1, resetAt := none } else b
  | none => b

/-- The end of a window that has no units left. -/
def exhaustedUntil? (b : Bucket) : Option Instant := if b.remaining = 0 then b.resetAt else none

/-- Takes a unit at `now`, or says when there will be one. Where no end of a window is known the
request is allowed. -/
def reserve (b : Bucket) (now : Instant) : Except Instant Bucket :=
  let b := b.refilled now
  match b.exhaustedUntil? with
  | some reset => .error reset
  | none => .ok { b with remaining := b.remaining - 1, lastUsed := now }

/-- Takes over what a response said; where it said nothing, the prediction stays. -/
def apply (b : Bucket) (limits : Limits) (now : Instant) : Bucket :=
  { b with
    limit := limits.limit.or b.limit
    remaining := limits.remaining.getD b.remaining
    resetAt := (limits.resetAfter.map (deadlineAfter now)).or b.resetAt
    token := limits.token.or b.token
    lastUsed := now }

/-- Holds everybody off until `ending` at least. -/
def block (b : Bucket) (ending : Instant) : Bucket :=
  { b with
    remaining := 0
    resetAt := some (match b.resetAt with
      | some reset => max reset ending
      | none => ending) }

/-- A request was submitted. -/
def hold (b : Bucket) : Bucket := { b with pending := b.pending + 1 }

/-- A request is done. -/
def release (b : Bucket) (now : Instant) : Bucket :=
  { b with pending := b.pending - 1, lastUsed := now }

/-- Nothing is pending, no window is open, and the last use is at least `idle` ago. -/
def isIdle (b : Bucket) (now : Instant) (idle : Span) : Bool :=
  b.pending = 0 && b.resetAt.all (· ≤ now) && idle ≤ now - b.lastUsed

@[simp] theorem label_refilled (b : Bucket) (now : Instant) : (b.refilled now).label = b.label := by
  unfold refilled; split
  · split <;> rfl
  · rfl

@[simp] theorem pending_refilled (b : Bucket) (now : Instant) :
    (b.refilled now).pending = b.pending := by
  unfold refilled; split
  · split <;> rfl
  · rfl

@[simp] theorem token_refilled (b : Bucket) (now : Instant) : (b.refilled now).token = b.token := by
  unfold refilled; split
  · split <;> rfl
  · rfl

@[simp] theorem label_apply (b : Bucket) (limits : Limits) (now : Instant) :
    (b.apply limits now).label = b.label := rfl

@[simp] theorem pending_apply (b : Bucket) (limits : Limits) (now : Instant) :
    (b.apply limits now).pending = b.pending := rfl

@[simp] theorem pending_block (b : Bucket) (ending : Instant) :
    (b.block ending).pending = b.pending := rfl

@[simp] theorem token_block (b : Bucket) (ending : Instant) :
    (b.block ending).token = b.token := rfl

end Bucket

end Switchboard
