import Switchboard.Pool.Broadcast
import Switchboard.Pool.Event

/-!
# The hub of a pool

Two broadcasts that all shards of a pool publish to: the events of the application, and the notices
about the shards.
-/
namespace Switchboard

/-- The broadcasts of a pool. -/
structure Hub where
  events : Broadcast Event
  notices : Broadcast Notice

namespace Hub

/-- A hub whose broadcasts keep at least `capacity` items, and one at least. -/
def new (capacity : Nat) : Hub := ⟨.new (max capacity 1), .new (max capacity 1)⟩

/-- Publishes an event, and says how many subscribers will hear it. -/
def publish (h : Hub) (e : Event) : Hub × Nat :=
  let (events, heard) := h.events.publish e
  ({ h with events }, heard)

/-- Publishes a notice. -/
def announce (h : Hub) (n : Notice) : Hub := { h with notices := (h.notices.publish n).1 }

/-- Nobody publishes any more. -/
def close (h : Hub) : Hub := ⟨h.events.close, h.notices.close⟩

end Hub

end Switchboard
