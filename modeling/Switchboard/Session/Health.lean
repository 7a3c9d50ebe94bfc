import Switchboard.Session.Histogram
import Switchboard.Session.Phase
import Switchboard.Session.Recent

/-!
# The health of a session

Counters that a session keeps from its beginning to its end, whatever happens to its connections,
and the statistics that are drawn from them.

## Main definitions

* `Health`: the counters, with one function for each thing that is counted.
* `Stats`: what an observer gets; `Health.stats` draws it.
-/
namespace Switchboard

/-- How many closes are remembered. -/
def rememberedCloses : Nat := 32

/-- The counters of a session. -/
structure Health where
  started : Instant
  lastMessage : Instant
  messages : Nat
  reconnects : Nat
  /-- The codes of the last closes. -/
  closes : Recent (Option Nat)
  /-- How long acknowledgements took, in microseconds. -/
  latencies : Histogram

/-- The statistics of a session. -/
structure Stats where
  phase : Phase
  sequence : Option Nat
  uptime : Span
  messages : Nat
  reconnects : Nat
  lastMessageAge : Span
  recentCloseCodes : List (Option Nat)
  /-- The middle latency, in microseconds. -/
  p50 : Nat
  /-- The latency that one acknowledgement in a hundred exceeds, in microseconds. -/
  p99 : Nat
  samples : Nat
deriving DecidableEq, Repr

namespace Health

/-- A session that began at `now`. -/
def new (now : Instant) : Health := ⟨now, now, 0, 0, .empty rememberedCloses, .empty⟩

/-- A message arrived. -/
def recordMessage (h : Health) (now : Instant) : Health :=
  { h with lastMessage := now, messages := h.messages + 1 }

/-- A connection was closed by the server. -/
def recordClose (h : Health) (code : Option Nat) : Health := { h with closes := h.closes.push code }

/-- An acknowledgement took this long. -/
def recordLatency (h : Health) (latency : Span) : Health :=
  { h with latencies := h.latencies.record (max (latency / Span.microsecond) 1) }

/-- A reconnect was planned or made. -/
def recordReconnect (h : Health) : Health := { h with reconnects := h.reconnects + 1 }

/-- The statistics at `now`. -/
def stats (h : Health) (now : Instant) (phase : Phase) (sequence : Option Nat) : Stats where
  phase := phase
  sequence := sequence
  uptime := now - h.started
  messages := h.messages
  reconnects := h.reconnects
  lastMessageAge := now - h.lastMessage
  recentCloseCodes := h.closes.items
  p50 := h.latencies.percentile 50
  p99 := h.latencies.percentile 99
  samples := h.latencies.total

end Health

end Switchboard
