import Switchboard.Config.Basic
import Switchboard.Pacing.Backoff
import Switchboard.Pacing.Heartbeat
import Switchboard.Pacing.Window
import Switchboard.Pool.Event
import Switchboard.Session.Health
import Switchboard.Wire.Address
import Switchboard.Wire.Link
import Switchboard.Wire.Message
import Switchboard.Wire.Payload

/-!
# Sessions

The session of one shard with its gateway. A session is a state; what happens to it is an input, and
what it asks for is a list of effects. Sockets, timers and queues are not part of it: connections,
heartbeat tasks, waits for an admission and planned reconnects are named by numbers, and their news
arrive as inputs that carry the number.

## Main definitions

* `Session`: the state; `Session.new` is the one at the beginning.
* `Session.Input`: what happens to a session.
* `Session.Moment`: what is known of the surroundings when it happens.
* `Session.Effect`: what a session asks for.
-/
namespace Switchboard

/-- Why a session stopped for good. -/
structure FatalCause where
  reason : String
  /-- The credentials were rejected. -/
  authentication : Bool
deriving DecidableEq, Repr

/-- The close code with which this side gives up a connection that it wants to resume. -/
def resumeCloseCode : Nat := 4000

/-- The close code with which this side ends a connection for good. -/
def normalCloseCode : Nat := 1000

/-- The span over which commands of the application are counted. -/
def commandWindow : Span := Span.ofSecs 60

/-- The most that a counter of attempts counts to. -/
def mostAttempts : Nat := (1 <<< 32) - 1

/-- The session of a shard. -/
structure Session where
  shard : Shard
  phase : Phase := .disconnected
  /-- The connection whose news are heard. -/
  connection : Option Nat := none
  /-- The connections that were begun. -/
  link : Link := {}
  /-- A handshake was sent on this connection. -/
  handshakeSent : Bool := false
  /-- The identifier under which the server knows the session. -/
  sessionId : Option String := none
  /-- The address for taking up the session again. -/
  resumeUrl : Option String := none
  /-- The number of the last event. -/
  sequence : Option Nat := none
  heartbeat : Heartbeat
  /-- Delays of reconnects. -/
  backoff : Backoff
  /-- Reconnects since the server last accepted the session. -/
  attempt : Nat := 0
  /-- The number of the last planned reconnect; what was planned under another one is void. -/
  epoch : Nat := 0
  commands : Window
  health : Health
  fatal : Option FatalCause := none
  /-- How many tasks were begun. -/
  tasks : Nat := 0
  heartbeatTask : Option Nat := none
  identifyTask : Option Nat := none

namespace Session

/-- The count of the commands on a new connection. -/
def freshCommands (c : Config) : Window :=
  .new "gateway_commands" c.gatewayCommandsPerMinute commandWindow

/-- A session that begins at `now`. -/
def new (c : Config) (shard : Shard) (now : Instant) : Session where
  shard := shard
  heartbeat := .new c.heartbeatAckGrace
  backoff :=
    (Backoff.new (Span.ofMillis c.reconnectBackoffBaseMs) (Span.ofMillis c.reconnectBackoffMaxMs)
      2.0).withJitter c.reconnectBackoffJitter
  commands := freshCommands c
  health := .new now

/-- What happens to a session. -/
inductive Input where
  /-- Connect, if nothing is connected or planned. -/
  | start
  /-- Forget everything and connect. -/
  | restart
  /-- Close the connection and stay disconnected. -/
  | shutdown
  /-- The session ends. -/
  | stop
  /-- Send a command of the application. -/
  | command (op : Nat) (data : Json)
  /-- News of a connection. -/
  | inbound (connection : Nat) (event : LinkEvent)
  /-- A heartbeat interval of a connection went by. -/
  | heartbeatDue (connection : Nat)
  /-- The wait for an admission is over. -/
  | admitted (connection : Nat) (outcome : Except Failure Unit)
  /-- A planned reconnect is due. -/
  | reconnectDue (epoch : Nat)

/-- The surroundings at the time of an input. -/
structure Moment where
  now : Instant
  /-- The current connection is pending or open. -/
  live : Bool
  /-- What comes of sending a frame. -/
  sending : Except Failure Unit
  /-- A draw for delays with a random part. -/
  draw : Float

/-- What a session asks for. -/
inductive Effect where
  /-- Begin a connection. -/
  | connect (connection : Nat) (url : String)
  /-- Give up a connection. -/
  | close (connection : Nat) (code : Nat) (reason : String)
  /-- Send a payload over a connection. -/
  | send (connection : Nat) (payload : String)
  /-- Publish an event of the application. -/
  | publish (event : Event)
  /-- Tell what happened to the shard. -/
  | announce (happening : Happening)
  /-- Begin a task that reports every interval of a connection. -/
  | beginHeartbeat (task connection : Nat) (interval : Span)
  | endHeartbeat (task : Nat)
  /-- Begin a task that waits for an admission and reports it. -/
  | beginIdentify (task connection : Nat)
  | endIdentify (task : Nat)
  /-- Report after a delay that a reconnect is due. -/
  | plan (epoch : Nat) (delay : Span)
  /-- The outcome of a command. -/
  | reply (outcome : Except Failure Unit)

/-- There is a session that the server may take up again. -/
def canResume (s : Session) : Bool := s.sessionId.isSome && s.sequence.isSome

/-- Forgets what the server knows of the session. -/
def forget (s : Session) : Session :=
  { s with sessionId := none, resumeUrl := none, sequence := none }

/-- The address for the next connection: that of the session, if it can be resumed and has one. -/
def nextUrl (c : Config) (s : Session) : String :=
  gatewayAddress ((if s.canResume then s.resumeUrl else none).getD c.gatewayUrl) c.compression

/-- The statistics of a session. -/
def stats (s : Session) (now : Instant) : Stats := s.health.stats now s.phase s.sequence

@[simp] theorem canResume_forget (s : Session) : s.forget.canResume = false := rfl

end Session

end Switchboard
