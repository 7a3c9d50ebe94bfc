import Switchboard.Failure

/-!
# Windows of admission

A window admits at most so many callers for a span of time. It opens at the first admission after
the one before has expired, so with a single place admissions are at least that span apart.

## Main definitions

* `Window`: the limit, and the window that is open.
* `Window.tryAcquire`: asks for a place at an instant.
-/
namespace Switchboard

/-- A limit on admissions, with the window that was opened last. -/
structure Window where
  /-- What is limited, for messages. -/
  scope : String
  /-- Places in a window. -/
  places : Nat
  /-- How long a window lasts. -/
  span : Span
  /-- When the last window was opened. -/
  opened : Option Instant
  /-- Places left in it. -/
  remaining : Nat
deriving DecidableEq, Repr

namespace Window

/-- A limit under which no window was opened yet. -/
def new (scope : String) (places : Nat) (span : Span) : Window :=
  ⟨scope, places, span, none, places⟩

/-- No window is open at `now`. -/
def isExpired (w : Window) (now : Instant) : Bool :=
  match w.opened with
  | none => true
  | some start => w.span ≤ now - start

/-- How long the open window still lasts. -/
def untilReset (w : Window) (now : Instant) : Span :=
  match w.opened with
  | none => 0
  | some start => w.span - (now - start)

/-- The window in force at `now`: a new one if none is open. -/
def refreshed (w : Window) (now : Instant) : Window :=
  if w.isExpired now then { w with opened := some now, remaining := w.places } else w

/-- Asks for a place at `now`; a refusal says how long to wait. Without places nothing is ever
admitted. -/
def tryAcquire (w : Window) (now : Instant) : Window × Except Span Unit :=
  if w.places = 0 then (w, .error w.span)
  else
    let current := w.refreshed now
    if current.remaining = 0 then (current, .error (current.untilReset now))
    else ({ current with remaining := current.remaining - 1 }, .ok ())

/-- The failure that a refusal is. -/
def refusal (w : Window) (retryAfter : Span) : Failure := .rateLimited w.scope false retryAfter

@[simp] theorem scope_refreshed (w : Window) (now : Instant) :
    (w.refreshed now).scope = w.scope := by
  unfold refreshed; split <;> rfl

@[simp] theorem places_refreshed (w : Window) (now : Instant) :
    (w.refreshed now).places = w.places := by
  unfold refreshed; split <;> rfl

@[simp] theorem span_refreshed (w : Window) (now : Instant) : (w.refreshed now).span = w.span := by
  unfold refreshed; split <;> rfl

end Window

end Switchboard
