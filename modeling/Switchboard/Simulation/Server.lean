import Switchboard.Wire.Connection

/-!
# A server in memory

The other end of the connections of a simulated client. The server accepts connections, numbered
from zero in the order in which they were made, unless it was told to refuse some; it sends what it
is told to send, and remembers what the clients wrote.

## Main definitions

* `Socket`: a connection as the server sees it.
* `Server`: the sockets; `Server.connect` is what happens to a client that connects.
* `ServerAct`: what a server is told to do; `Server.perform` does it.
* `Server.report`: what happened since the last report.
-/
namespace Switchboard

/-- A connection of a client, by the shard that owns it and its number there. -/
structure Peer where
  owner : Nat
  connection : Nat
deriving DecidableEq, Repr, Inhabited

/-- A connection as the server sees it. -/
structure Socket where
  peer : Peer
  url : String
  /-- Frames that the client has not read. -/
  inbound : List Frame := []
  /-- The server ended its side. -/
  dropped : Bool := false
  /-- The client reads no more. -/
  unread : Bool := false
  /-- Frames of the client that were not reported. -/
  written : List Frame := []
  /-- The client writes no more. -/
  ended : Bool := false
  /-- The end was reported. -/
  endReported : Bool := false
deriving Repr

namespace Socket

/-- A connection that was just made. -/
def new (peer : Peer) (url : String) : Socket := { peer := peer, url := url }

/-- Why nothing can be sent to the client. -/
inductive Obstacle where
  | dropped
  | unread
deriving DecidableEq, Repr

/-- The wording of an obstacle. -/
def Obstacle.message : Obstacle → String
  | .dropped => "mock socket already dropped"
  | .unread => "mock client channel is closed"

/-- What keeps the server from sending. -/
def obstacle? (s : Socket) : Option Obstacle :=
  if s.dropped then some .dropped
  else if s.unread then some .unread
  else none

/-- What a reader finds. -/
def waiting (s : Socket) : List Inbound :=
  s.inbound.map .frame ++ if s.dropped then [.ended] else []

/-- Something to report has come. -/
def endIsNews (s : Socket) : Bool := s.ended && !s.endReported

end Socket

/-- A server. -/
structure Server where
  sockets : List Socket := []
  /-- How often a client tried to connect. -/
  attempts : Nat := 0
  /-- How many attempts are still to be refused. -/
  refusals : Nat := 0
  /-- How many sockets were reported. -/
  reported : Nat := 0
deriving Repr

/-- What a server is told to do. -/
inductive ServerAct where
  /-- Send frames, all before the client reads. -/
  | send (frames : List Frame)
  /-- End the socket without a close frame. -/
  | drop
  /-- Refuse further attempts to connect. -/
  | refuse (count : Nat)

/-- What happened at a server. -/
structure ServerReport where
  accepted : List (Nat × String)
  attempts : Nat
  /-- What the clients wrote, by socket; nothing stands for the end. -/
  frames : List (Nat × Option Frame)

namespace Server

/-- A client tries to connect. -/
def connect (s : Server) (peer : Peer) (url : String) : Server × Except Failure Unit :=
  let s := { s with attempts := s.attempts + 1 }
  if s.refusals = 0 then
    ({ s with sockets := s.sockets ++ [Socket.new peer url] }, .ok ())
  else ({ s with refusals := s.refusals - 1 }, .error (.connection ("mock refused " ++ url)))

/-- Changes the socket of a peer. -/
def modifyPeer (s : Server) (peer : Peer) (f : Socket → Socket) : Server :=
  { s with sockets := s.sockets.map fun k => if k.peer = peer then f k else k }

/-- The socket of a peer. -/
def socketOf? (s : Server) (peer : Peer) : Option Socket := s.sockets.find? (·.peer = peer)

/-- The socket that is meant when none is named: the newest. -/
def newest (s : Server) : Nat := s.sockets.length - 1

/-- Does what it is told to do with a socket; where nothing can be sent, it says why. -/
def perform (s : Server) (number : Nat) : ServerAct → Server × Option Socket.Obstacle
  | .refuse count => ({ s with refusals := s.refusals + count }, none)
  | .drop => ({ s with sockets := s.sockets.modify number ({ · with dropped := true }) }, none)
  | .send frames =>
    match s.sockets[number]?.bind (·.obstacle?) with
    | some o => (s, some o)
    | none =>
      let receive (k : Socket) : Socket := { k with inbound := k.inbound ++ frames }
      ({ s with sockets := s.sockets.modify number receive }, none)

/-- The peer at a socket. -/
def peer? (s : Server) (number : Nat) : Option Peer := (s.sockets[number]?).map (·.peer)

/-- What was written to a socket since the last report. -/
def news (number : Nat) (k : Socket) : List (Nat × Option Frame) :=
  k.written.map (fun f => (number, some f)) ++ if k.endIsNews then [(number, none)] else []

/-- What happened since the last report, and the server after it. -/
def report (s : Server) : Server × ServerReport :=
  let numbered := s.sockets.zipIdx
  ({ s with
      sockets := s.sockets.map fun k => { k with written := [], endReported := k.ended }
      reported := s.sockets.length },
    { accepted := (numbered.drop s.reported).map fun (k, number) => (number, k.url)
      attempts := s.attempts
      frames := numbered.flatMap fun (k, number) => news number k })

/-! ## Messages of a server -/

/-- The greeting, with the heartbeat interval in milliseconds. -/
def greeting (intervalMs : Nat) : String :=
  "\x7b\"op\":10,\"d\":\x7b\"heartbeat_interval\":" ++ toString intervalMs ++ "\x7d\x7d"

/-- An event; its name and its data stand in the text as they are. -/
def event (kind : String) (sequence : Nat) (data : String) : String :=
  "\x7b\"op\":0,\"t\":\"" ++ kind ++ "\",\"s\":" ++ toString sequence ++ ",\"d\":" ++ data ++ "\x7d"

/-- The event that accepts a session. -/
def acceptance (session : String) (sequence : Nat) : String :=
  event "READY" sequence ("\x7b\"session_id\":\"" ++ session ++
    "\",\"resume_gateway_url\":\"ws://resume.gateway\"\x7d")

/-- The acknowledgement of a heartbeat. -/
def acknowledgement : String := "\x7b\"op\":11\x7d"

end Server

end Switchboard
