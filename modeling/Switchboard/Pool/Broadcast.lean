import Switchboard.Session.Recent

/-!
# Broadcasts

A channel on which every subscriber hears everything that is published after it subscribed. The
channel keeps the last items only; a subscriber that falls behind them learns once how many it lost,
and goes on with the oldest that is kept. Nothing is published while nobody listens.

## Main definitions

* `Broadcast`: what is kept, and how far each subscriber has read.
* `Broadcast.publish`, `Broadcast.receive`: the two ends.
* `Broadcast.drain`: everything that a subscriber can read now, without the notes about losses.
-/
namespace Switchboard

/-- The least power of two that is not below `n`. -/
def powerOfTwoFrom (n : Nat) : Nat := if n ≤ 1 then 1 else Nat.pow 2 (Nat.log2 (n - 1) + 1)

/-- A channel. Items are numbered as they are published. -/
structure Broadcast (α : Type) where
  /-- The last items. -/
  kept : Recent α
  /-- How many were published. -/
  published : Nat
  /-- The number of the next item for each subscriber, in order of subscription; none for one that
  left. -/
  cursors : List (Option Nat)
  closed : Bool

/-- What a subscriber gets when it asks. -/
inductive Reception (α : Type) where
  | item (value : α)
  /-- So many items were lost. -/
  | lagged (count : Nat)
  /-- There is nothing now. -/
  | empty
  /-- There will be nothing any more. -/
  | closed
deriving Repr

/-- The item of a reception. -/
def Reception.item? {α : Type} : Reception α → Option α
  | .item x => some x
  | _ => none

namespace Broadcast

variable {α : Type}

/-- A channel that keeps at least `capacity` items. -/
def new (capacity : Nat) : Broadcast α := ⟨.empty (powerOfTwoFrom capacity), 0, [], false⟩

/-- A further subscriber, and its number. -/
def subscribe (b : Broadcast α) : Broadcast α × Nat :=
  ({ b with cursors := b.cursors ++ [some b.published] }, b.cursors.length)

/-- A subscriber leaves. -/
def unsubscribe (b : Broadcast α) (subscriber : Nat) : Broadcast α :=
  { b with cursors := b.cursors.set subscriber none }

/-- How many subscribers there are. -/
def listeners (b : Broadcast α) : Nat := (b.cursors.filter Option.isSome).length

/-- Publishes an item, and says how many subscribers will hear it. -/
def publish (b : Broadcast α) (x : α) : Broadcast α × Nat :=
  if b.listeners = 0 then (b, 0)
  else ({ b with kept := b.kept.push x, published := b.published + 1 }, b.listeners)

/-- Nobody publishes any more. -/
def close (b : Broadcast α) : Broadcast α := { b with closed := true }

/-- The number of the oldest item that is kept for sure. -/
def oldest (b : Broadcast α) : Nat := b.published - b.kept.capacity

/-- The item of a number, if it is kept. -/
def item? (b : Broadcast α) (number : Nat) : Option α :=
  b.kept.items[number - (b.published - b.kept.items.length)]?

/-- What a subscriber at this position gets, and where it is then. -/
def read (b : Broadcast α) (position : Nat) : Nat × Reception α :=
  if position < b.oldest then (b.oldest, .lagged (b.oldest - position))
  else if position < b.published then
    match b.item? position with
    | some x => (position + 1, .item x)
    | none => (position, .empty)
  else (position, if b.closed then .closed else .empty)

/-- A subscriber asks; one that left gets nothing. -/
def receive (b : Broadcast α) (subscriber : Nat) : Broadcast α × Option (Reception α) :=
  match b.cursors[subscriber]? with
  | some (some position) =>
    let (position, reception) := b.read position
    ({ b with cursors := b.cursors.set subscriber (some position) }, some reception)
  | _ => (b, none)

/-- Everything that a subscriber gets now, and what ended it. -/
def receiveAll (b : Broadcast α) (subscriber : Nat) :
    Nat → Broadcast α × List (Reception α) × Bool
  | 0 => (b, [], false)
  | fuel + 1 =>
    match b.receive subscriber with
    | (b, some (.item x)) =>
      let (b, more, ended) := receiveAll b subscriber fuel
      (b, .item x :: more, ended)
    | (b, some (.lagged n)) =>
      let (b, more, ended) := receiveAll b subscriber fuel
      (b, .lagged n :: more, ended)
    | (b, some .closed) => (b, [], true)
    | (b, _) => (b, [], false)

/-- How often a subscriber can ask before it has everything: once for each kept item, and once more
for a loss and for the end. -/
def drainTurns (b : Broadcast α) : Nat := b.kept.items.length + 2

/-- Everything that a subscriber can read now, losses included; the flag says that there will be no
more. -/
def collect (b : Broadcast α) (subscriber : Nat) : Broadcast α × List (Reception α) × Bool :=
  b.receiveAll subscriber b.drainTurns

/-- As `collect`, with the losses passed over. -/
def drain (b : Broadcast α) (subscriber : Nat) : Broadcast α × List α × Bool :=
  let (b, receptions, ended) := b.collect subscriber
  (b, receptions.filterMap Reception.item?, ended)

@[simp] theorem published_subscribe (b : Broadcast α) : b.subscribe.1.published = b.published := rfl

@[simp] theorem kept_subscribe (b : Broadcast α) : b.subscribe.1.kept = b.kept := rfl

end Broadcast

end Switchboard
