import Switchboard.Span

/-!
# Heartbeats

A tracker counts the ticks that found a heartbeat without an acknowledgement. Once as many as the
grace have done so in a row, the connection is dead.

## Main definitions

* `Heartbeat`: what is outstanding, and how many ticks found it so.
* `Heartbeat.tick`, `Heartbeat.sent`, `Heartbeat.acked`, `Heartbeat.reset`: what happens to it.
-/
namespace Switchboard

/-- What a tick asks for. -/
inductive Tick where
  /-- A heartbeat is due. -/
  | send
  /-- So many ticks in a row found no acknowledgement. -/
  | dead (missed : Nat)
deriving DecidableEq, Repr

/-- The heartbeats of one connection. -/
structure Heartbeat where
  /-- Ticks without an acknowledgement that end the connection; one at least. -/
  grace : Nat
  interval : Option Span
  /-- A heartbeat was sent and not acknowledged. -/
  awaiting : Bool
  /-- Ticks in a row that found one outstanding. -/
  missed : Nat
  lastSent : Option Instant
  lastAck : Option Instant
deriving DecidableEq, Repr

namespace Heartbeat

/-- The most that the counter of missed ticks counts to. -/
def mostMissed : Nat := (1 <<< 32) - 1

/-- Nothing was sent yet. -/
def new (grace : Nat) : Heartbeat := ⟨max grace 1, none, false, 0, none, none⟩

/-- The interval is known. -/
def setInterval (h : Heartbeat) (interval : Span) : Heartbeat :=
  { h with interval := some interval }

/-- One interval went by. -/
def tick (h : Heartbeat) : Heartbeat × Tick :=
  if h.awaiting then
    let missed := min (h.missed + 1) mostMissed
    let h := { h with missed := missed }
    if h.grace ≤ missed then (h, .dead missed) else (h, .send)
  else (h, .send)

/-- A heartbeat was sent. -/
def sent (h : Heartbeat) (now : Instant) : Heartbeat :=
  { h with awaiting := true, lastSent := some now }

/-- An acknowledgement came; if one was outstanding, this is how long it took. -/
def acked (h : Heartbeat) (now : Instant) : Heartbeat × Option Span :=
  ({ h with awaiting := false, missed := 0, lastAck := some now },
    if h.awaiting then h.lastSent.map (now - ·) else none)

/-- Everything but the grace is forgotten. -/
def reset (h : Heartbeat) : Heartbeat := ⟨h.grace, none, false, 0, none, none⟩

@[simp] theorem grace_tick (h : Heartbeat) : h.tick.1.grace = h.grace := by
  unfold tick; split
  · simp only; split <;> rfl
  · rfl

@[simp] theorem grace_sent (h : Heartbeat) (now : Instant) : (h.sent now).grace = h.grace := rfl

@[simp] theorem grace_acked (h : Heartbeat) (now : Instant) : (h.acked now).1.grace = h.grace := rfl

@[simp] theorem grace_reset (h : Heartbeat) : h.reset.grace = h.grace := rfl

end Heartbeat

end Switchboard
