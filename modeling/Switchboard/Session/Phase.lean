/-!
# Phases of a session

Where a session stands: without a connection, on the way to one, in the handshake, or at work.
-/
namespace Switchboard

/-- The phase of a session. -/
inductive Phase where
  /-- Nothing is connected and nothing is planned. -/
  | disconnected
  /-- A connection is being made. -/
  | connecting
  /-- The connection is open; the handshake is under way. -/
  | identifying
  /-- The server accepted the session. -/
  | ready
  /-- As `ready`, and a heartbeat was acknowledged. -/
  | heartbeating
  /-- The connection is being given up for one that resumes the session. -/
  | resuming
  /-- A reconnect is planned. -/
  | reconnectPending
  /-- The session stopped for good. -/
  | fatal
deriving DecidableEq, Repr, Inhabited

namespace Phase

/-- All phases. -/
def all : List Phase :=
  [disconnected, connecting, identifying, ready, heartbeating, resuming, reconnectPending, fatal]

/-- The name of a phase. -/
def name : Phase → String
  | disconnected => "disconnected"
  | connecting => "connecting"
  | identifying => "identifying"
  | ready => "ready"
  | heartbeating => "heartbeating"
  | resuming => "resuming"
  | reconnectPending => "reconnect_pending"
  | fatal => "fatal"

/-- The phase of a name. -/
def ofName? (s : String) : Option Phase := all.find? fun p => p.name == s

/-- Events of the server are accepted. -/
def acceptsDispatch : Phase → Bool
  | identifying | ready | heartbeating => true
  | _ => false

/-- The server accepted the session. -/
def isReady : Phase → Bool
  | ready | heartbeating => true
  | _ => false

/-- The phases that have a connection. -/
def isConnected : Phase → Bool
  | connecting | identifying | ready | heartbeating => true
  | _ => false

@[simp] theorem ofName?_name (p : Phase) : ofName? p.name = some p := by cases p <;> rfl

end Phase

end Switchboard
