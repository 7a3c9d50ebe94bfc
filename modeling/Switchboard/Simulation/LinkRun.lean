import Switchboard.Simulation.Agenda
import Switchboard.Simulation.Line

/-!
# A link in time

A transport with a server in memory, run by an agenda. Its owner opens, sends and closes; when the
owner leaves, the transport closes what is open.

## Main definitions

* `LinkRun`: the transport, the server, and the events since the last report.
* `LinkRun.dial`, `LinkRun.send`, `LinkRun.close`, `LinkRun.leave`: what the owner does.
* `LinkRun.act`: what the server does.
-/
namespace Switchboard

/-- The tasks of a link. -/
inductive LinkTask where
  | reader (connection : Nat)
  | writer (connection : Nat)
deriving DecidableEq, Repr

/-- A link in time. -/
structure LinkRun where
  agenda : Agenda LinkTask := {}
  line : Line
  /-- The owner has not left. -/
  owned : Bool := true
  /-- What connections reported since the last report. -/
  events : List (Nat × LinkEvent) := []

namespace LinkRun

/-- A link at the beginning of time. -/
def new (mode : Compression) : LinkRun := { line := ⟨{ mode }, {}⟩ }

/-- The owner of all connections, as the server sees it. -/
def owner : Nat := 0

/-- Wakes a task. -/
def wake (r : LinkRun) (task : LinkTask) : LinkRun := { r with agenda := r.agenda.wake task }

/-- Wakes the writer of a connection, if it has something to do. -/
def wakeWriter (r : LinkRun) (connection : Nat) : LinkRun :=
  if r.line.backlog connection = 0 then r else r.wake (.writer connection)

/-- The turn of a task. -/
def turn (task : LinkTask) (r : LinkRun) : LinkRun :=
  match task with
  | .reader id =>
    let (line, events) := r.line.readerTurn ⟨owner, id⟩
    { r with line, events := r.events ++ events.map (id, ·) }.wakeWriter id
  | .writer id => { r with line := r.line.writerTurn ⟨owner, id⟩ }

/-- How a link is run. -/
def world : World LinkRun LinkTask where
  agenda r := r.agenda
  withAgenda r agenda := { r with agenda }
  turn := turn

/-- Lets the clock run. -/
def runFor (r : LinkRun) (span : Span) : LinkRun := world.runFor span r

/-- The owner opens a connection; says which one is current then. -/
def dial (r : LinkRun) (url : String) : LinkRun × Nat :=
  let (transport, id) := r.line.transport.dial url
  ({ r with line := { r.line with transport } }.wake (.reader id), id)

/-- The owner sends a frame. -/
def send (r : LinkRun) (f : Frame) : LinkRun × Except Failure Unit :=
  let outcome := r.line.transport.sending
  match r.line.transport.link.current with
  | none => (r, outcome)
  | some id =>
    ({ r with line := { r.line with transport := r.line.transport.send f } }.wakeWriter id, outcome)

/-- The owner closes the connection. -/
def close (r : LinkRun) (code : Nat) (reason : String) : LinkRun :=
  match r.line.transport.link.current with
  | none => r
  | some id =>
    let transport := r.line.transport.close code reason
    { r with line := { r.line with transport } }.wake (.reader id)

/-- The owner leaves. -/
def leave (r : LinkRun) : LinkRun := { r.close 1000 "shutdown" with owned := false }

/-- The server acts on a socket. -/
def act (r : LinkRun) (socket : Nat) (a : ServerAct) : LinkRun × Option Socket.Obstacle :=
  let (server, obstacle) := r.line.server.perform socket a
  let r := { r with line := { r.line with server } }
  match server.peer? socket with
  | some peer => (r.wake (.reader peer.connection), obstacle)
  | none => (r, obstacle)

/-- What happened at the server since the last report. -/
def serverReport (r : LinkRun) : ServerReport := r.line.server.report.2

/-- Begins the next report. -/
def reported (r : LinkRun) : LinkRun :=
  { r with line := { r.line with server := r.line.server.report.1 }, events := [] }

end LinkRun

end Switchboard
