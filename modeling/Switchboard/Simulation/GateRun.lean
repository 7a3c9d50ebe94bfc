import Switchboard.Pool.Admission
import Switchboard.Simulation.Agenda

/-!
# Admission in time

Gates that wait for a place in a lane. A gate asks at once, and after every refusal it sleeps and
asks again. The admission can be taken away; then whoever asks learns that nobody is there.

## Main definitions

* `Gate`: one that waits, and how it ended.
* `GateRun`: the admission with the gates.
* `GateRun.ask`, `GateRun.enter`, `GateRun.kill`: what can be done at the current instant.
-/
namespace Switchboard

/-- One that waits for a place. -/
structure Gate where
  name : String
  lane : Lane

/-- The end of a wait. -/
structure Passage where
  time : Instant
  gate : Gate
  outcome : Except Failure Unit

/-- Admission with gates, which are numbered in the order in which they came. -/
structure GateRun where
  agenda : Agenda Nat := {}
  /-- Nothing once it was taken away. -/
  admission : Option Admission
  gates : List Gate := []
  /-- Waits that ended since the last report. -/
  passages : List Passage := []

namespace GateRun

/-- A run at the beginning of time. -/
def new (interval : Span) : GateRun := { admission := some (.new interval) }

/-- The current instant. -/
def now (r : GateRun) : Instant := r.agenda.now

/-- Asks for a place once. -/
def ask (r : GateRun) (lane : Lane) : GateRun × Except Failure Unit :=
  match r.admission with
  | none => (r, .error .notRunning)
  | some a =>
    let (a, answer) := a.acquire lane r.now
    ({ r with admission := some a }, answer.mapError (a.refusal lane))

/-- A further gate begins to wait. -/
def enter (r : GateRun) (gate : Gate) : GateRun :=
  { r with gates := r.gates ++ [gate], agenda := r.agenda.wake r.gates.length }

/-- Takes the admission away. -/
def kill (r : GateRun) : GateRun := { r with admission := none }

/-- The wait of a gate is over. -/
def pass (r : GateRun) (gate : Gate) (outcome : Except Failure Unit) : GateRun :=
  { r with passages := r.passages ++ [Passage.mk r.now gate outcome] }

/-- The turn of a gate: it asks, and sleeps if it was refused. -/
def turn (number : Nat) (r : GateRun) : GateRun :=
  match r.gates[number]? with
  | none => r
  | some gate =>
    match r.admission with
    | none => r.pass gate (.error .notRunning)
    | some a =>
      let (a, answer) := a.acquire gate.lane r.now
      let r := { r with admission := some a }
      match answer with
      | .ok () => r.pass gate (.ok ())
      | .error wait => { r with agenda := r.agenda.wakeAt (r.now + Admission.pause wait) number }

/-- How gates are run. -/
def world : World GateRun Nat where
  agenda r := r.agenda
  withAgenda r agenda := { r with agenda }
  turn := turn

/-- Lets the clock run. -/
def runFor (r : GateRun) (span : Span) : GateRun := world.runFor span r

/-- Begins the next report. -/
def reported (r : GateRun) : GateRun := { r with passages := [] }

end GateRun

end Switchboard
