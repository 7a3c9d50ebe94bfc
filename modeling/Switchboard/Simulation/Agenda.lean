import Switchboard.Span

/-!
# Agendas

The plan of a simulated run: tasks that can go on at once, and tasks that can go on at a later
instant. Tasks that are ready take turns in the order in which they became so. The clock moves from
tick to tick, a tick being a millisecond; a task that waits for an instant goes on at the first tick
that is not before it, and tasks of one tick in the order in which they began to wait.

A world holds an agenda and says what the turn of a task does to it. Running a world ends when the
given instant is reached; the number of turns is bounded, so that every run is finite.

## Main definitions

* `Agenda`: the plan.
* `World`: how a type of states is run by an agenda.
* `World.runFor`: lets the clock run.
-/
namespace Switchboard

/-- Tasks that are ready, and tasks that wait for a tick. -/
structure Agenda (τ : Type) where
  now : Instant := 0
  ready : List τ := []
  /-- In the order in which they began to wait. -/
  waiting : List (Instant × τ) := []

namespace Agenda

variable {τ : Type}

/-- The length of a tick. -/
def tickLength : Span := Span.millisecond

/-- The first tick that is not before an instant. -/
def tickOf (time : Instant) : Instant := (time + tickLength - 1) / tickLength * tickLength

/-- The task can go on; it is not listed twice. -/
def wake [DecidableEq τ] (a : Agenda τ) (task : τ) : Agenda τ :=
  if task ∈ a.ready then a else { a with ready := a.ready ++ [task] }

/-- The task can go on at an instant. -/
def wakeAt (a : Agenda τ) (time : Instant) (task : τ) : Agenda τ :=
  { a with waiting := a.waiting ++ [(tickOf time, task)] }

/-- The task that comes next, if one is ready. -/
def take? (a : Agenda τ) : Option (τ × Agenda τ) :=
  match a.ready with
  | [] => none
  | task :: rest => some (task, { a with ready := rest })

/-- The next tick for which a task waits. -/
def nextTick? (a : Agenda τ) : Option Instant := (a.waiting.map (·.1)).min?

/-- The clock moves to an instant, and the tasks that waited for it or for an earlier tick are
ready. -/
def moveTo [DecidableEq τ] (a : Agenda τ) (time : Instant) : Agenda τ :=
  let due := (a.waiting.filter (·.1 ≤ time)).map (·.2)
  due.foldl wake { a with now := time, waiting := a.waiting.filter (time < ·.1) }

end Agenda

/-- How states are run by an agenda. -/
structure World (ω τ : Type) where
  agenda : ω → Agenda τ
  withAgenda : ω → Agenda τ → ω
  /-- The turn of a task. -/
  turn : τ → ω → ω

namespace World

variable {ω τ : Type}

/-- More turns than any run of use takes. -/
def turnLimit : Nat := 10000000

/-- Tasks take turns until none is ready. -/
def settle (p : World ω τ) : Nat → ω → ω
  | 0, s => s
  | fuel + 1, s =>
    match (p.agenda s).take? with
    | none => s
    | some (task, rest) => settle p fuel (p.turn task (p.withAgenda s rest))

/-- The clock runs from tick to tick until an instant, which is included. -/
def advance [DecidableEq τ] (p : World ω τ) (ending : Instant) : Nat → ω → ω
  | 0, s => s
  | fuel + 1, s =>
    let s := p.settle turnLimit s
    match (p.agenda s).nextTick? with
    | none => p.withAgenda s ((p.agenda s).moveTo ending)
    | some tick =>
      if tick ≤ ending then
        advance p ending fuel (p.withAgenda s ((p.agenda s).moveTo (max tick (p.agenda s).now)))
      else p.withAgenda s ((p.agenda s).moveTo ending)

/-- The clock runs for a span. -/
def runFor [DecidableEq τ] (p : World ω τ) (span : Span) (s : ω) : ω :=
  p.settle turnLimit (p.advance ((p.agenda s).now + span) turnLimit s)

end World

end Switchboard
