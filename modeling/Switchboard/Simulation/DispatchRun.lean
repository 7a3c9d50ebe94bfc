import Switchboard.Dispatch.Dispatcher
import Switchboard.Simulation.Agenda

/-!
# A dispatcher in time

A dispatcher whose requests go to a script of answers, run by an agenda. Each request takes the next
answer that the script has for its path, else the next of those for any path, else an empty success.

## Main definitions

* `Script`: the answers to come, each with the time that it takes.
* `DispatchRun`: the dispatcher, the script, and what was observed since the last report.
* `DispatchRun.submit`, `DispatchRun.sweep`, …: what can be done at the current instant.
* `DispatchRun.runFor`: lets the clock run.
-/
namespace Switchboard

/-- An answer to come, and the time that it takes. -/
structure ScriptedAnswer where
  answer : Answer
  delay : Span := 0
  /-- The only path that it is for. -/
  path : Option String := none

/-- The answers to come. -/
abbrev Script := List ScriptedAnswer

namespace Script

/-- Removes the first answer that fits. -/
def takeFirst (fits : ScriptedAnswer → Bool) : Script → Option (ScriptedAnswer × Script)
  | [] => none
  | a :: rest =>
    if fits a then some (a, rest)
    else (takeFirst fits rest).map fun (found, rest) => (found, a :: rest)

/-- The answer when none is scripted: an empty object. -/
def standard : ScriptedAnswer := { answer := .response (.new 200 (Utf8.encode "\x7b\x7d")) }

/-- Takes the answer to a request for a path. -/
def answerTo (s : Script) (path : String) : ScriptedAnswer × Script :=
  ((takeFirst (fun a => a.path == some path) s).or
    (takeFirst (fun a => a.path.isNone) s)).getD (standard, s)

/-- What stands in a path whose request makes the executor break down. -/
def breakdownMark : String := "!panic"

/-- The text occurs in the list of characters. -/
def occursIn (mark : List Char) : List Char → Bool
  | [] => mark.isEmpty
  | c :: rest => mark.isPrefixOf (c :: rest) || occursIn mark rest

/-- A request for this path makes the executor break down. -/
def breaksDown (path : String) : Bool := occursIn breakdownMark.toList path.toList

/-- The failure that a lost answer stands for. -/
def lost (reason : String) : Answer := .lost (.transport "mock_http" reason)

end Script

/-- The tasks of a dispatcher. -/
inductive DispatchTask where
  | caller (ticket : TicketId)
  | worker (id : WorkerId)
  | sweeper
deriving DecidableEq, Repr

/-- A request that began. -/
structure ObservedCall where
  time : Instant
  route : Route
  request : Request

/-- A call that is over. -/
structure ObservedEnd where
  time : Instant
  name : String
  result : Except Failure Response

/-- A dispatcher in time. -/
structure DispatchRun where
  agenda : Agenda DispatchTask := {}
  dispatcher : Dispatcher
  script : Script
  sweepInterval : Span
  /-- The names under which calls were submitted, by ticket. -/
  names : List String := []
  /-- Answers under way, with the instant of their arrival. -/
  underWay : Table WorkerId (Instant × Answer) := []
  calls : List ObservedCall := []
  ended : List ObservedEnd := []
  /-- When the request before the calls not yet reported began. -/
  lastCall : Option Instant := none

namespace DispatchRun

/-- The wall clock at the beginning of a run. -/
def clockAtStart : Span := Span.ofSecs 1767225600

/-- The draw for every delay with a random part. -/
def draw : Float := 0.5

/-- A dispatcher at the beginning of time. Its sweeper wakes after every interval, if that is any
time at all. -/
def new (c : Config) (script : Script) : DispatchRun :=
  let sweepInterval := Span.ofMillis c.bucketIdleEvictionIntervalMs
  let agenda : Agenda DispatchTask := {}
  { dispatcher := .ofConfig c
    script
    sweepInterval
    agenda := if sweepInterval = 0 then agenda else agenda.wakeAt sweepInterval .sweeper }

/-- The current instant. -/
def now (r : DispatchRun) : Instant := r.agenda.now

/-- Wakes a task. -/
def wake (r : DispatchRun) (task : DispatchTask) : DispatchRun :=
  { r with agenda := r.agenda.wake task }

/-- Wakes a task at an instant. -/
def wakeAt (r : DispatchRun) (time : Instant) (task : DispatchTask) : DispatchRun :=
  { r with agenda := r.agenda.wakeAt time task }

/-- Wakes a task at an instant, unless it has come. -/
def wakeLater (r : DispatchRun) (time : Instant) (task : DispatchTask) : DispatchRun :=
  if time ≤ r.now then r else r.wakeAt time task

/-- The route of a worker. -/
def routeOf (r : DispatchRun) (w : WorkerId) : Route :=
  ((r.dispatcher.workers[w]?).map (·.route)).getD default

/-- A request begins: the script has an answer for it, which arrives after its time. -/
def execute (r : DispatchRun) (w : WorkerId) (request : Request) : DispatchRun :=
  let (a, script) := r.script.answerTo request.path
  let arrival := r.now + a.delay
  let r := { r with
    script
    calls := r.calls ++ [ObservedCall.mk r.now (r.routeOf w) request]
    underWay := Table.put w (arrival, a.answer) r.underWay }
  r.wakeLater arrival (.worker w)

/-- Does what a step asked for, except for breakdowns. -/
def perform (r : DispatchRun) : DispatchEffect → DispatchRun
  | .execute w request => if Script.breaksDown request.path then r else r.execute w request
  | .wakeWorker w => r.wake (.worker w)
  | .wakeWorkerAt w time => r.wakeLater time (.worker w)
  | .wakeCaller id => r.wake (.caller id)
  | .finished id result =>
    { r with ended := r.ended ++ [ObservedEnd.mk r.now (r.names.getD id "") result] }
  | .swept _ => r

/-- The worker whose request made the executor break down. -/
def broken? : List DispatchEffect → Option WorkerId
  | [] => none
  | .execute w request :: rest => if Script.breaksDown request.path then some w else broken? rest
  | _ :: rest => broken? rest

/-- Takes over the outcome of a step. -/
def take (r : DispatchRun) (outcome : Dispatcher × List DispatchEffect) : DispatchRun :=
  let r := outcome.2.foldl perform { r with dispatcher := outcome.1 }
  match broken? outcome.2 with
  | none => r
  | some w =>
    let (dispatcher, effects) := r.dispatcher.crash r.now w
    effects.foldl perform { r with dispatcher }

/-- The turn of a worker: it goes on until it has to wait. -/
def workerTurn (w : WorkerId) : Nat → DispatchRun → DispatchRun
  | 0, r => r
  | fuel + 1, r =>
    match Table.get? w r.underWay with
    | some (arrival, answer) =>
      if arrival ≤ r.now then
        let r := { r with underWay := Table.erase w r.underWay }
        let outcome := r.dispatcher.receive r.now w (some (clockAtStart + r.now)) draw answer
        workerTurn w fuel (r.take outcome)
      else r
    | none =>
      match r.dispatcher.proceed r.now w with
      | some outcome => workerTurn w fuel (r.take outcome)
      | none => r

/-- The turn of a task. -/
def turn (task : DispatchTask) (r : DispatchRun) : DispatchRun :=
  match task with
  | .worker w => workerTurn w World.turnLimit r
  | .caller id => (r.dispatcher.settle r.now id).elim r r.take
  | .sweeper =>
    (r.take (r.dispatcher.sweep r.now)).wakeAt (r.now + r.sweepInterval) .sweeper

/-- How a dispatcher is run. -/
def world : World DispatchRun DispatchTask where
  agenda r := r.agenda
  withAgenda r agenda := { r with agenda }
  turn := turn

/-- Lets the clock run. -/
def runFor (r : DispatchRun) (span : Span) : DispatchRun := world.runFor span r

/-- Submits a call under a name. Its caller waits until the deadline, and not at all if that has
come. -/
def submit (r : DispatchRun) (name : String) (route : Route) (request : Request)
    (timeout : Option Span) : DispatchRun :=
  let id := r.names.length
  let r := { r with names := r.names ++ [name] }
  let r := r.take (r.dispatcher.submit r.now id route request timeout)
  let deadline := r.now + timeout.getD r.dispatcher.defaultTimeout
  if deadline ≤ r.now then turn (.caller id) r else r.wakeAt deadline (.caller id)

/-- Adds an answer to the script. -/
def reply (r : DispatchRun) (a : ScriptedAnswer) : DispatchRun :=
  { r with script := r.script ++ [a] }

/-- The bucket of a route; on first sight it is made. -/
def bucket (r : DispatchRun) (route : Route) : DispatchRun × Option Bucket :=
  let (registry, id) := r.dispatcher.registry.resolve route r.now
  ({ r with dispatcher := { r.dispatcher with registry } }, registry.bucket? id)

/-- Sweeps now, and says how many routes were retired. -/
def sweep (r : DispatchRun) : DispatchRun × Nat :=
  let outcome := r.dispatcher.sweep r.now
  let count := outcome.2.findSome? fun
    | .swept n => some n
    | _ => none
  (r.take outcome, count.getD 0)

/-- Holds everybody off for a span. -/
def pause (r : DispatchRun) (span : Span) : DispatchRun :=
  { r with dispatcher := r.dispatcher.pause (r.now + span) }

/-! ## Reports -/

/-- The calls since the last report, by time, and at one time by route. -/
def sortedCalls (r : DispatchRun) : List ObservedCall :=
  r.calls.mergeSort fun a b =>
    decide (a.time < b.time ∨ (a.time = b.time ∧ a.route.render ≤ b.route.render))

/-- The calls that ended since the last report, by time, and at one time by name. -/
def sortedEnds (r : DispatchRun) : List ObservedEnd :=
  r.ended.mergeSort fun a b => decide (a.time < b.time ∨ (a.time = b.time ∧ a.name ≤ b.name))

/-- The least power of two by which `base` has to be multiplied to reach `gap`, as its exponent. -/
def gapClass (base gap : Nat) : Nat :=
  ((List.range 128).find? fun k => gap ≤ base * Nat.pow 2 k).getD 128

/-- The classes of the gaps before the given instants; the first of all has none. -/
def gapClasses (base : Span) : Option Instant → List Instant → List (Option Nat)
  | _, [] => []
  | last, time :: rest =>
    last.map (fun l => gapClass base (time - l)) :: gapClasses base (some time) rest

/-- The classes of the gaps before the calls of this report. -/
def classes (r : DispatchRun) (base : Span) : List (Option Nat) :=
  gapClasses base r.lastCall (r.sortedCalls.map (·.time))

/-- Workers that are listed. -/
def workerCount (r : DispatchRun) : Nat := r.dispatcher.roster.length

/-- Routes that are known. -/
def routeCount (r : DispatchRun) : Nat := r.dispatcher.registry.routes.length

/-- What is left of the cooldown. -/
def cooldownLeft (r : DispatchRun) : Option Span := (r.dispatcher.cooldown.remaining r.now).2

/-- Begins the next report. -/
def reported (r : DispatchRun) : DispatchRun :=
  { r with
    calls := []
    ended := []
    lastCall := ((r.sortedCalls.getLast?).map (·.time)).or r.lastCall }

end DispatchRun

end Switchboard
