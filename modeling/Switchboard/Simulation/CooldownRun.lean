import Switchboard.Pacing.Cooldown
import Switchboard.Simulation.Agenda

/-!
# A cooldown in time

A cooldown with a clock of its own, and somebody who waits for its end while others may extend it.

## Main definitions

* `CooldownRun`: the cooldown, the clock, and the extensions that are planned.
* `CooldownRun.wait`: waits for the end of the pause.
-/
namespace Switchboard

/-- A cooldown, the clock, and planned extensions: when each takes place, and until when it reaches.
-/
structure CooldownRun where
  now : Instant := 0
  cooldown : Cooldown := .none
  planned : List (Instant × Instant) := []

namespace CooldownRun

/-- The clock moves to an instant; the extensions planned up to then take place. -/
def moveTo (r : CooldownRun) (time : Instant) : CooldownRun :=
  { now := time
    cooldown := (r.planned.filter (·.1 ≤ time)).foldl (fun c p => c.trigger p.2) r.cooldown
    planned := r.planned.filter (time < ·.1) }

/-- Extensions that take place before an instant. -/
def moveBefore (r : CooldownRun) (time : Instant) : CooldownRun :=
  { now := time
    cooldown := (r.planned.filter (·.1 < time)).foldl (fun c p => c.trigger p.2) r.cooldown
    planned := r.planned.filter (time ≤ ·.1) }

/-- The clock moves on. -/
def advance (r : CooldownRun) (span : Span) : CooldownRun := r.moveTo (r.now + span)

/-- Another task extends the pause until `ending`, after a span. -/
def plan (r : CooldownRun) (after : Span) (ending : Instant) : CooldownRun :=
  { r with planned := r.planned ++ [(r.now + after, ending)] }

/-- Waits for the end of the pause, looking again whenever it seems over. Who began to wait earlier
looks before what else happens at that instant. -/
def waitTurns (r : CooldownRun) : Nat → CooldownRun
  | 0 => r
  | fuel + 1 =>
    match r.cooldown.remaining r.now with
    | (cooldown, none) => { r with cooldown }
    | (cooldown, some left) => waitTurns ({ r with cooldown }.moveBefore (r.now + left)) fuel

/-- Waits for the end of the pause. Every look but the last follows an extension. -/
def wait (r : CooldownRun) : CooldownRun := r.waitTurns (r.planned.length + 2)

end CooldownRun

end Switchboard
