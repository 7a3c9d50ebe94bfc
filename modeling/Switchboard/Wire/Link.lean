import Switchboard.Table
import Switchboard.Wire.Connection

/-!
# The link of a session

A link has at most one connection at a time. Connections are numbered from one in the order in which
they were begun; one that was given up may go on for a while, and its events carry its number.

## Main definitions

* `Link`: which connection is the current one.
* `Transport`: a link with all its connections; `Transport.dial`, `Transport.send` and
  `Transport.close` are what its owner does.
-/
namespace Switchboard

/-- The connections of a link, by what can be said without looking into them. -/
structure Link where
  /-- How many connections were begun. -/
  begun : Nat := 0
  current : Option Nat := none
deriving DecidableEq, Repr, Inhabited

namespace Link

/-- A further connection is begun and is the current one. -/
def renew (l : Link) : Link := ⟨l.begun + 1, some (l.begun + 1)⟩

/-- The current connection is given up. -/
def drop (l : Link) : Link := { l with current := none }

@[simp] theorem current_renew (l : Link) : l.renew.current = some (l.begun + 1) := rfl
@[simp] theorem current_drop (l : Link) : l.drop.current = none := rfl
@[simp] theorem begun_drop (l : Link) : l.drop.begun = l.begun := rfl

end Link

/-- A link with its connections. -/
structure Transport where
  mode : Compression
  link : Link := {}
  connections : Table Nat Connection := []

namespace Transport

/-- The connection of a number. -/
def connection? (t : Transport) (id : Nat) : Option Connection := Table.get? id t.connections

/-- The current connection. -/
def current? (t : Transport) : Option Connection := t.link.current.bind t.connection?

/-- Changes a connection. -/
def modify (t : Transport) (id : Nat) (f : Connection → Connection) : Transport :=
  match t.connection? id with
  | some c => { t with connections := Table.put id (f c) t.connections }
  | none => t

/-- The current connection is pending or open. -/
def isLive (t : Transport) : Bool := t.current?.any (·.isLive)

/-- Frames can be sent. -/
def isOpen (t : Transport) : Bool := t.current?.any (·.offered)

/-- Closes the current connection, if there is one. -/
def close (t : Transport) (code : Nat) (reason : String) : Transport :=
  match t.link.current with
  | some id => { t.modify id (·.close code reason) with link := t.link.drop }
  | none => t

/-- Begins a connection, unless one is pending or open; says which one is current then. -/
def dial (t : Transport) (url : String) : Transport × Nat :=
  match t.link.current with
  | some id =>
    if t.isLive then (t, id)
    else
      let t := t.close 1000 "superseded"
      ({ t with
          link := t.link.renew
          connections := Table.put (t.link.begun + 1) (.new url t.mode) t.connections },
        t.link.begun + 1)
  | none =>
    ({ t with
        link := t.link.renew
        connections := Table.put (t.link.begun + 1) (.new url t.mode) t.connections },
      t.link.begun + 1)

/-- What comes of sending a frame. -/
def sending (t : Transport) : Except Failure Unit :=
  match t.current? with
  | some c => c.sending
  | none => .error (.send "transport is not open")

/-- Sends a frame over the current connection. -/
def send (t : Transport) (f : Frame) : Transport :=
  match t.link.current with
  | some id => t.modify id (·.send f)
  | none => t

end Transport

end Switchboard
