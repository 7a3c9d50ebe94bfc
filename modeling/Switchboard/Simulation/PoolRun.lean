import Switchboard.Client
import Switchboard.Pool.Admission
import Switchboard.Pool.Hub
import Switchboard.Pool.Supervisor
import Switchboard.Session.Step
import Switchboard.Simulation.Agenda
import Switchboard.Simulation.Line

/-!
# Pools in time

Clients with their pools of shards, run by an agenda. Every shard has a session, a transport and a
mailbox; every client has a hub and a server in memory; all clients share one admission. Heartbeats,
waits for an admission, planned reconnects and planned restarts are tasks that report to the mailbox
of their shard.

## Main definitions

* `Seat`: a shard of a client.
* `PoolTask`: the tasks.
* `ShardRun`, `ClientRun`, `PoolRun`: the states of a shard, of a client, and of all of them.
* `PoolRun.start`, `PoolRun.restart`, `PoolRun.shutdown`, …: what can be done at the current
  instant.
* `PoolRun.runFor`: lets the clock run.
-/
namespace Switchboard

/-- A shard of a client, both by their numbers. -/
structure Seat where
  client : Nat
  shard : Nat
deriving DecidableEq, Repr

/-- The tasks of pools. -/
inductive PoolTask where
  | session (seat : Seat)
  | reader (seat : Seat) (connection : Nat)
  | writer (seat : Seat) (connection : Nat)
  | heartbeat (seat : Seat) (task : Nat)
  | gate (seat : Seat) (task : Nat)
  | reconnect (seat : Seat) (epoch : Nat)
  | supervisor (client : Nat)
  | restart (seat : Seat)
deriving DecidableEq, Repr

/-- A task that reports every interval of a connection. -/
structure Beat where
  connection : Nat
  interval : Span
  /-- When the next interval is over. -/
  next : Instant
deriving DecidableEq, Repr

/-- A shard in time. -/
structure ShardRun where
  session : Session
  transport : Transport
  mail : List Session.Input := []
  alive : Bool := true
  /-- Heartbeat tasks that were begun and not ended. -/
  beats : Table Nat Beat := []
  /-- Waits for an admission, with the connection that each is for. -/
  gates : Table Nat Nat := []

/-- A client in time. -/
structure ClientRun where
  config : Config
  shards : List ShardRun
  hub : Hub
  server : Server := {}
  /-- The supervisor, with its number as a subscriber. -/
  supervisor : Option (Supervisor × Nat) := none

/-- All clients in time. -/
structure PoolRun where
  agenda : Agenda PoolTask := {}
  clients : List ClientRun
  /-- Nothing once it was taken away. -/
  admission : Option Admission
  /-- The outcome of the last command. -/
  outcome : Except Failure Unit := .ok ()

/-- What happened at a client since the last report. -/
structure ClientReport where
  events : List (Reception Event)
  notices : List (Reception Notice)
  /-- The same as streams have it. -/
  streamed : List Event × List Notice
  server : ServerReport
  phases : List (Option Phase)

namespace ShardRun

/-- A shard at the beginning of time. -/
def new (c : Config) (number : Nat) : ShardRun where
  session := .new c ⟨number, c.shardCount⟩ 0
  transport := { mode := c.compression }

/-- The phase, while somebody can be asked for it. -/
def phase? (s : ShardRun) : Option Phase := if s.alive then some s.session.phase else none

/-- Why it stopped for good, if it did and somebody can be asked for it. -/
def cause? (s : ShardRun) : Option FatalCause := if s.alive then s.session.fatal else none

end ShardRun

namespace ClientRun

/-- The number of the subscriber that is reported. -/
def listener : Nat := 0

/-- The number of the stream that is reported. -/
def stream : Nat := 1

/-- A client at the beginning of time, with a subscriber and a stream for each broadcast. -/
def new (c : Config) : ClientRun where
  config := c
  shards := (List.range c.shardCount).map (ShardRun.new c)
  hub :=
    let hub := Hub.new c.eventBuffer
    ⟨hub.events.subscribe.1.subscribe.1, hub.notices.subscribe.1.subscribe.1⟩

/-- What happened since the last report, and the client after it. -/
def report (c : ClientRun) : ClientRun × ClientReport :=
  let (events, heard, _) := c.hub.events.collect listener
  let (notices, noticed, _) := c.hub.notices.collect listener
  let (events, streamed, _) := events.drain stream
  let (notices, streamedNotices, _) := notices.drain stream
  let (server, report) := c.server.report
  ({ c with hub := ⟨events, notices⟩, server },
    { events := heard
      notices := noticed
      streamed := (streamed, streamedNotices)
      server := report
      phases := c.shards.map (·.phase?) })

end ClientRun

namespace PoolRun

/-- The draw for every delay with a random part. -/
def draw : Float := 0.5

/-- Clients at the beginning of time; the first one sets the pace of the admission. -/
def new (configs : List Config) : PoolRun where
  clients := configs.map .new
  admission := configs.head?.map fun c => .new (Span.ofMillis c.identifyIntervalMs)

/-- The current instant. -/
def now (r : PoolRun) : Instant := r.agenda.now

/-- Wakes a task. -/
def wake (r : PoolRun) (task : PoolTask) : PoolRun := { r with agenda := r.agenda.wake task }

/-- Wakes a task at an instant. -/
def wakeAt (r : PoolRun) (time : Instant) (task : PoolTask) : PoolRun :=
  { r with agenda := r.agenda.wakeAt time task }

/-- Wakes a task after a span; at once if it is none. -/
def wakeAfter (r : PoolRun) (span : Span) (task : PoolTask) : PoolRun :=
  if span = 0 then r.wake task else r.wakeAt (r.now + span) task

/-- A client. -/
def client? (r : PoolRun) (client : Nat) : Option ClientRun := r.clients[client]?

/-- Changes a client. -/
def modifyClient (r : PoolRun) (client : Nat) (f : ClientRun → ClientRun) : PoolRun :=
  { r with clients := r.clients.modify client f }

/-- A shard. -/
def shard? (r : PoolRun) (seat : Seat) : Option ShardRun :=
  (r.client? seat.client).bind (·.shards[seat.shard]?)

/-- Changes a shard. -/
def modifyShard (r : PoolRun) (seat : Seat) (f : ShardRun → ShardRun) : PoolRun :=
  r.modifyClient seat.client fun c => { c with shards := c.shards.modify seat.shard f }

/-- Puts something into the mailbox of a shard, if it is alive. -/
def post (r : PoolRun) (seat : Seat) (i : Session.Input) : PoolRun :=
  match r.shard? seat with
  | some s =>
    if s.alive then
      (r.modifyShard seat ({ · with mail := s.mail ++ [i] })).wake (.session seat)
    else r
  | none => r

/-! ## Sessions -/

/-- Does what a session asks for. -/
def perform (seat : Seat) (r : PoolRun) : Session.Effect → PoolRun
  | .connect connection url =>
    (r.modifyShard seat fun s => { s with transport := (s.transport.dial url).1 }).wake
      (.reader seat connection)
  | .close connection code reason =>
    (r.modifyShard seat fun s => { s with transport := s.transport.close code reason }).wake
      (.reader seat connection)
  | .send connection payload =>
    (r.modifyShard seat fun s =>
      { s with transport := s.transport.send (.ofString payload) }).wake
      (.writer seat connection)
  | .publish e => r.modifyClient seat.client fun c => { c with hub := (c.hub.publish e).1 }
  | .announce h =>
    (r.modifyClient seat.client fun c => { c with hub := c.hub.announce ⟨seat.shard, h⟩ }).wake
      (.supervisor seat.client)
  | .beginHeartbeat task connection interval =>
    let first := r.now + jittered interval 1.0 draw
    (r.modifyShard seat fun s =>
      { s with beats := Table.put task ⟨connection, interval, first⟩ s.beats }).wakeAt first
      (.heartbeat seat task)
  | .endHeartbeat task => r.modifyShard seat fun s => { s with beats := Table.erase task s.beats }
  | .beginIdentify task connection =>
    (r.modifyShard seat fun s => { s with gates := Table.put task connection s.gates }).wake
      (.gate seat task)
  | .endIdentify task => r.modifyShard seat fun s => { s with gates := Table.erase task s.gates }
  | .plan epoch delay => r.wakeAfter delay (.reconnect seat epoch)
  | .reply outcome => { r with outcome }

/-- A session handles an input. -/
def handle (r : PoolRun) (seat : Seat) (i : Session.Input) : PoolRun :=
  match r.client? seat.client, r.shard? seat with
  | some c, some s =>
    let m : Session.Moment := ⟨r.now, s.transport.isLive, s.transport.sending, draw⟩
    let (session, effects) := s.session.step c.config m i
    effects.foldl (perform seat) (r.modifyShard seat ({ · with session }))
  | _, _ => r

/-- The turn of a session: it handles its mailbox. -/
def sessionTurn (r : PoolRun) (seat : Seat) : PoolRun :=
  match r.shard? seat with
  | some s => s.mail.foldl (·.handle seat ·) (r.modifyShard seat ({ · with mail := [] }))
  | none => r

/-! ## Connections -/

/-- The line of a shard. -/
def line? (r : PoolRun) (seat : Seat) : Option Line :=
  match r.client? seat.client, r.shard? seat with
  | some c, some s => some ⟨s.transport, c.server⟩
  | _, _ => none

/-- Takes over the line of a shard. -/
def withLine (r : PoolRun) (seat : Seat) (l : Line) : PoolRun :=
  (r.modifyShard seat ({ · with transport := l.transport })).modifyClient seat.client
    ({ · with server := l.server })

/-- The turn of a reader: what it reports goes to the session. -/
def readerTurn (r : PoolRun) (seat : Seat) (connection : Nat) : PoolRun :=
  match r.line? seat with
  | some l =>
    let (l, events) := l.readerTurn ⟨seat.shard, connection⟩
    let r := r.withLine seat l
    let r := if l.backlog connection = 0 then r else r.wake (.writer seat connection)
    events.foldl (fun r e => r.post seat (.inbound connection e)) r
  | none => r

/-- The turn of a writer. -/
def writerTurn (r : PoolRun) (seat : Seat) (connection : Nat) : PoolRun :=
  match r.line? seat with
  | some l => r.withLine seat (l.writerTurn ⟨seat.shard, connection⟩)
  | none => r

/-! ## Heartbeats, admission, reconnects -/

/-- The turn of a heartbeat task: it reports, and waits for the next interval. -/
def heartbeatTurn (r : PoolRun) (seat : Seat) (task : Nat) : PoolRun :=
  match (r.shard? seat).bind fun s => Table.get? task s.beats with
  | some b =>
    let next := b.next + b.interval
    let r := r.modifyShard seat fun s => { s with beats := Table.put task { b with next } s.beats }
    (r.post seat (.heartbeatDue b.connection)).wakeAt next (.heartbeat seat task)
  | none => r

/-- The lane of a shard. -/
def laneOf (c : Config) (shard : Nat) : Lane :=
  .ofShard c.identityLabel shard c.identifyMaxConcurrency

/-- A wait for an admission is over. -/
def endWait (r : PoolRun) (seat : Seat) (task connection : Nat) (outcome : Except Failure Unit) :
    PoolRun :=
  (r.modifyShard seat fun s => { s with gates := Table.erase task s.gates }).post seat
    (.admitted connection outcome)

/-- The turn of a wait for an admission: it asks, and sleeps if it was refused. -/
def gateTurn (r : PoolRun) (seat : Seat) (task : Nat) : PoolRun :=
  match r.client? seat.client, (r.shard? seat).bind fun s => Table.get? task s.gates with
  | some c, some connection =>
    match r.admission with
    | none => r.endWait seat task connection (.error .notRunning)
    | some a =>
      let (a, answer) := a.acquire (laneOf c.config seat.shard) r.now
      let r := { r with admission := some a }
      match answer with
      | .ok () => r.endWait seat task connection (.ok ())
      | .error wait => r.wakeAt (r.now + Admission.pause wait) (.gate seat task)
  | _, _ => r

/-! ## Supervisors -/

/-- The supervisor of a client handles an input; says what it asks for, planned restarts apart. -/
def supervise (r : PoolRun) (client : Nat) (i : Supervisor.Input) :
    PoolRun × List Supervisor.Effect :=
  match (r.client? client).bind (·.supervisor) with
  | some (s, subscriber) =>
    let (s, effects) := s.step i
    let r := r.modifyClient client ({ · with supervisor := some (s, subscriber) })
    effects.foldl (fun (r, others) e => match e with
      | .plan shard cooldown => (r.wakeAfter cooldown (.restart ⟨client, shard⟩), others)
      | e => (r, others ++ [e])) (r, [])
  | none => (r, [])

/-- Answers a supervisor that asks, until it asks no more. -/
def answerSupervisor (client : Nat) : Nat → PoolRun → PoolRun
  | 0, r => r
  | fuel + 1, r =>
    match (r.client? client).bind fun c => c.supervisor.bind (·.1.asked) with
    | some shard =>
      let cause := (r.shard? ⟨client, shard⟩).bind (·.cause?)
      answerSupervisor client fuel (r.supervise client (.answer cause)).1
    | none => r

/-- The turn of a supervisor: it hears what was announced. -/
def supervisorTurn (client : Nat) : Nat → PoolRun → PoolRun
  | 0, r => r
  | fuel + 1, r =>
    match r.client? client with
    | some c =>
      match c.supervisor with
      | some (s, subscriber) =>
        let (notices, reception) := c.hub.notices.receive subscriber
        let r := r.modifyClient client fun c => { c with hub := { c.hub with notices } }
        match reception with
        | some (.item n) => supervisorTurn client fuel (r.supervise client (.notice n)).1
        | some (.lagged _) =>
          supervisorTurn client fuel
            (answerSupervisor client s.shards (r.supervise client .lagged).1)
        | _ => r
      | none => r
    | none => r

/-- The turn of a planned restart: it is handed over, and struck off. -/
def restartTurn (r : PoolRun) (seat : Seat) : PoolRun :=
  let (r, effects) := r.supervise seat.client (.due seat.shard)
  let r := effects.foldl (fun r e => match e with
    | .restart shard => r.post ⟨seat.client, shard⟩ .restart
    | _ => r) r
  (r.supervise seat.client (.told seat.shard)).1

/-! ## The run -/

/-- The turn of a task. -/
def turn (task : PoolTask) (r : PoolRun) : PoolRun :=
  match task with
  | .session seat => r.sessionTurn seat
  | .reader seat connection => r.readerTurn seat connection
  | .writer seat connection => r.writerTurn seat connection
  | .heartbeat seat task => r.heartbeatTurn seat task
  | .gate seat task => r.gateTurn seat task
  | .reconnect seat epoch => r.post seat (.reconnectDue epoch)
  | .supervisor client => supervisorTurn client World.turnLimit r
  | .restart seat => r.restartTurn seat

/-- How pools are run. -/
def world : World PoolRun PoolTask where
  agenda r := r.agenda
  withAgenda r agenda := { r with agenda }
  turn := turn

/-- Lets the clock run. -/
def runFor (r : PoolRun) (span : Span) : PoolRun := world.runFor span r

/-! ## What can be done -/

/-- The shard that is meant, or why there is none. -/
def find (r : PoolRun) (seat : Seat) : Except Failure ShardRun :=
  match r.shard? seat with
  | some s => .ok s
  | none =>
    let count := (r.client? seat.client).elim 0 (·.shards.length)
    .error (.invalidState
      ("shard " ++ toString seat.shard ++ " out of range (count " ++ toString count ++ ")"))

/-- The shard that is meant, if it can be asked, or why not. -/
def ask (r : PoolRun) (seat : Seat) : Except Failure ShardRun := do
  let s ← r.find seat
  if s.alive then .ok s else .error .notRunning

/-- Tells a shard something. -/
def tell (r : PoolRun) (seat : Seat) (i : Session.Input) : PoolRun × Except Failure Unit :=
  match r.ask seat with
  | .ok _ => (r.post seat i, .ok ())
  | .error failure => (r, .error failure)

/-- Tells the shards of a client to start, up to the first that is gone. -/
def startFrom (client : Nat) : List Nat → PoolRun → PoolRun × Except Failure Unit
  | [], r => (r, .ok ())
  | shard :: rest, r =>
    match r.tell ⟨client, shard⟩ .start with
    | (r, .ok ()) => startFrom client rest r
    | (r, .error failure) => (r, .error failure)

/-- Starts the supervisor of a client, if it has none. -/
def startSupervisor (c : ClientRun) : ClientRun :=
  match c.supervisor with
  | some _ => c
  | none =>
    let (notices, subscriber) := c.hub.notices.subscribe
    { c with
      hub := { c.hub with notices }
      supervisor := some (Supervisor.ofConfig c.config, subscriber) }

/-- Starts the pool of a client. -/
def start (r : PoolRun) (client : Nat) : PoolRun × Except Failure Unit :=
  let count := (r.client? client).elim 0 (·.shards.length)
  startFrom client (List.range count) (r.modifyClient client startSupervisor)

/-- Restarts a shard. -/
def restart (r : PoolRun) (seat : Seat) : PoolRun × Except Failure Unit := r.tell seat .restart

/-- Closes the connection of a shard and waits until that is done. -/
def closeShard (r : PoolRun) (seat : Seat) : PoolRun × Except Failure Unit :=
  match r.ask seat with
  | .ok _ => (r.handle seat .shutdown, .ok ())
  | .error failure => (r, .error failure)

/-- Sends a command of the application. -/
def command (r : PoolRun) (seat : Seat) (op : Nat) (data : Json) : PoolRun × Except Failure Unit :=
  match r.ask seat with
  | .ok _ =>
    let r := r.handle seat (.command op data)
    (r, r.outcome)
  | .error failure => (r, .error failure)

/-- Ends a shard: its connection is closed, and it is gone. -/
def endShard (r : PoolRun) (seat : Seat) : PoolRun :=
  match r.ask seat with
  | .ok _ =>
    ((r.handle seat .shutdown).handle seat .stop).modifyShard seat ({ · with alive := false })
  | .error _ => r

/-- Ends the supervisor of a client. -/
def endSupervisor (c : ClientRun) : ClientRun :=
  match c.supervisor with
  | some (_, subscriber) =>
    { c with
      hub := { c.hub with notices := c.hub.notices.unsubscribe subscriber }
      supervisor := none }
  | none => c

/-- Shuts the pool of a client down. -/
def shutdown (r : PoolRun) (client : Nat) : PoolRun :=
  let count := (r.client? client).elim 0 (·.shards.length)
  (List.range count).foldl (fun r shard => r.endShard ⟨client, shard⟩)
    (r.modifyClient client endSupervisor)

/-- Takes the admission away. -/
def killAdmission (r : PoolRun) : PoolRun := { r with admission := none }

/-- The server of a client acts on a socket. -/
def act (r : PoolRun) (client socket : Nat) (a : ServerAct) : PoolRun × Option Socket.Obstacle :=
  match r.client? client with
  | none => (r, none)
  | some c =>
    let (server, obstacle) := c.server.perform socket a
    let r := r.modifyClient client ({ · with server })
    match server.peer? socket with
    | some peer => (r.wake (.reader ⟨client, peer.owner⟩ peer.connection), obstacle)
    | none => (r, obstacle)

/-- The socket of a client that is meant when none is named. -/
def newestSocket (r : PoolRun) (client : Nat) : Nat := (r.client? client).elim 0 (·.server.newest)

/-- What happened since the last report, client by client. -/
def reports (r : PoolRun) : List ClientReport := r.clients.map (·.report.2)

/-- Begins the next report. -/
def reported (r : PoolRun) : PoolRun := { r with clients := r.clients.map (·.report.1) }

end PoolRun

end Switchboard
