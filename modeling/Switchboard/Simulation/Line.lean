import Switchboard.Simulation.Server
import Switchboard.Wire.Link

/-!
# A transport and its server

The two tasks of a connection, reader and writer, when a server in memory is at the other end.

## Main definitions

* `Line`: a transport with the server.
* `Line.readerTurn`, `Line.writerTurn`: the turns of the two tasks.
-/
namespace Switchboard

/-- A transport with the server at the other end. -/
structure Line where
  transport : Transport
  server : Server

namespace Line

/-- Reads until the connection is not read any more; says what was reported. -/
def readAll : List Inbound → Connection → Connection × List LinkEvent
  | [], c => (c, [])
  | i :: rest, c =>
    if c.stage = .reading then
      let (c, events) := c.read i
      let (c, more) := readAll rest c
      (c, events ++ more)
    else (c, [])

/-- The connection of a peer changes; a connection that is over is not read any more. -/
def update (l : Line) (peer : Peer) (c : Connection) : Line where
  transport := l.transport.modify peer.connection fun _ => c
  server := l.server.modifyPeer peer fun k =>
    { k with unread := k.unread || decide (c.stage = .done) }

/-- The turn of the reader of a connection: it connects, or learns that the connection was closed,
or reads what has come. -/
def readerTurn (l : Line) (peer : Peer) : Line × List LinkEvent :=
  match l.transport.connection? peer.connection with
  | none => (l, [])
  | some c =>
    match c.stage with
    | .connecting =>
      if c.closing then (l.update peer c.notice, [])
      else
        let (server, answer) := l.server.connect peer c.url
        let (c, events) := match answer with
          | .ok () => c.connected
          | .error failure => c.refused failure
        ({ l with server }.update peer c, events)
    | .reading =>
      if c.closing then (l.update peer c.notice, [])
      else
        let waiting := (l.server.socketOf? peer).elim [] (·.waiting)
        let (c, events) := readAll waiting c
        let server := l.server.modifyPeer peer ({ · with inbound := [] })
        ({ l with server }.update peer c, events)
    | .parting | .done => (l, [])

/-- What a delivery changes at the socket. -/
def deliver (writer : Option Writer) (d : Delivery) (k : Socket) : Socket :=
  { k with
    written := match d with
      | .written f => k.written ++ [f]
      | _ => k.written
    ended := k.ended || !writer.any (·.alive) }

/-- Writes until nothing is left. -/
def writeAll (peer : Peer) : Nat → Line → Line
  | 0, l => l
  | fuel + 1, l =>
    match (l.transport.connection? peer.connection).bind (·.write none) with
    | none => l
    | some (c, d) =>
      let l := l.update peer c
      writeAll peer fuel { l with server := l.server.modifyPeer peer (deliver c.writer d) }

/-- The letters that the writer of a connection has before it. -/
def backlog (l : Line) (connection : Nat) : Nat :=
  ((l.transport.connection? connection).bind (·.writer)).elim 0 (·.mail.length)

/-- The turn of the writer of a connection. Besides what it has before it, it may be told to stop.
-/
def writerTurn (l : Line) (peer : Peer) : Line := writeAll peer (l.backlog peer.connection + 1) l

end Line

end Switchboard
