import Switchboard.Pacing.Window
import Switchboard.Table

/-!
# Admission to identify

Fresh handshakes are spaced: an identity has a number of lanes, every shard belongs to one of them,
and a lane admits one handshake per interval.

## Main definitions

* `Lane`: an identity and one of its lanes; `Lane.ofShard` is the lane of a shard.
* `Admission`: the windows of all lanes; `Admission.acquire` asks for a place.
* `Admission.pause`: how long a shard that was refused sleeps before it asks again.
-/
namespace Switchboard

/-- One of the lanes of an identity. -/
structure Lane where
  identity : String
  number : Nat
deriving DecidableEq, Repr

/-- The lane of a shard among `lanes`; there is always one. -/
def Lane.ofShard (identity : String) (shard lanes : Nat) : Lane := ⟨identity, shard % max lanes 1⟩

/-- The windows of all lanes that were used. -/
structure Admission where
  interval : Span
  windows : Table Lane Window
deriving Repr

namespace Admission

/-- No lane was used. -/
def new (interval : Span) : Admission := ⟨interval, []⟩

/-- The window of a lane; a lane that was not used has a new one. -/
def window (a : Admission) (lane : Lane) : Window :=
  (Table.get? lane a.windows).getD (.new "identify" 1 a.interval)

/-- Asks for a place in a lane at `now`; a refusal says how long to wait. -/
def acquire (a : Admission) (lane : Lane) (now : Instant) : Admission × Except Span Unit :=
  let (window, answer) := (a.window lane).tryAcquire now
  ({ a with windows := Table.put lane window a.windows }, answer)

/-- The failure that a refusal is. -/
def refusal (a : Admission) (lane : Lane) (retryAfter : Span) : Failure :=
  (a.window lane).refusal retryAfter

/-- How long to sleep after a refusal: as long as it said, and a millisecond at least. -/
def pause (retryAfter : Span) : Span := max retryAfter Span.millisecond

theorem window_acquire_self (a : Admission) (lane : Lane) (now : Instant) :
    (a.acquire lane now).1.window lane = ((a.window lane).tryAcquire now).1 := by
  simp [acquire, window]

theorem window_acquire_of_ne (a : Admission) {lane other : Lane} (h : other ≠ lane)
    (now : Instant) : (a.acquire lane now).1.window other = a.window other := by
  simp [acquire, window, Table.get?_put_of_ne h]

end Admission

end Switchboard
