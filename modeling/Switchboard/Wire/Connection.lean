import Switchboard.Wire.Inflater
import Switchboard.Wire.Writer

/-!
# One connection

A connection is made, reads frames until it ends, and reports what it reads. It ends in one of two
ways: the other side ends it, which is reported as the last event; or this side closes it, after
which nothing is reported, and the close frame is the last thing that the writer is given.

The steps of a connection are those of its two tasks, the reader and the writer, and the two things
that others do to it: handing over a frame, and closing it.

## Main definitions

* `LinkEvent`: what a connection reports.
* `Connection`: its state.
* `Connection.connected`, `Connection.refused`, `Connection.notice`, `Connection.read`: the reader.
* `Connection.write`: the writer.
* `Connection.send`, `Connection.close`: what others do.
-/
namespace Switchboard

/-- What a connection reports. -/
inductive LinkEvent where
  | opened
  /-- A text, decoded and decompressed. -/
  | received (text : String)
  | closed (code : Option Nat) (reason : String)
  /-- It could not be made, broke, or received what could not be decoded. -/
  | failed (reason : String)
deriving DecidableEq, Repr

/-- What the transport gives to a reader. -/
inductive Inbound where
  | frame (f : Frame)
  | broken (failure : Failure)
  | ended
deriving DecidableEq, Repr

/-- Where the reader of a connection stands. -/
inductive Reading where
  | connecting
  | reading
  /-- The close frame was handed to the writer. -/
  | parting
  | done
deriving DecidableEq, Repr, Inhabited

/-- A connection. -/
structure Connection where
  url : String
  mode : Compression
  stage : Reading := .connecting
  /-- A last event was reported. -/
  finished : Bool := false
  /-- Frames can be handed over. -/
  offered : Bool := false
  /-- This side closed it. -/
  closing : Bool := false
  /-- The close frame that is still to be handed to the writer. -/
  farewell : Option Frame := none
  inflater : Inflater Deflate.Stream
  /-- The writer, from the moment when the connection was made. -/
  writer : Option Writer := none

namespace Connection

/-- A connection that is about to be made. -/
def new (url : String) (mode : Compression) : Connection :=
  { url, mode, inflater := .new .zlib mode }

/-- A connection that is pending or open and has not reported its last event. -/
def isLive (c : Connection) : Bool := !c.finished

/-- Hands something to the writer, if there is one. -/
def post (c : Connection) (l : Letter) : Connection := { c with writer := c.writer.map (·.post l) }

/-- The writer exists and is alive. -/
def writes (c : Connection) : Bool := c.writer.any (·.alive)

/-! ## What others do -/

/-- What comes of handing over a frame. -/
def sending (c : Connection) : Except Failure Unit :=
  if !c.offered then .error (.send "transport is not open")
  else if c.writes then .ok ()
  else .error (.send "actor not running")

/-- Hands over a frame. -/
def send (c : Connection) (f : Frame) : Connection :=
  match c.sending with
  | .ok () => c.post (.frame f false)
  | .error _ => c

/-- Closes the connection; the reader is told, and one that is done stays so. -/
def close (c : Connection) (code : Nat) (reason : String) : Connection :=
  { c with
    closing := true
    farewell := some (.closing code reason)
    stage := if c.finished then .done else c.stage }

/-! ## The reader -/

/-- Hands the close frame to the writer; without one, the writer stops at once. -/
def part (c : Connection) : Connection :=
  match c.farewell with
  | some f => { c.post (.frame f true) with offered := false, farewell := none, stage := .parting }
  | none => { c.post .stop with offered := false, stage := .done }

/-- The connection was made. If it was closed meanwhile, it ends without a word. -/
def connected (c : Connection) : Connection × List LinkEvent :=
  let c := { c with writer := some {} }
  if c.closing then (c.part, [])
  else ({ c with offered := true, stage := .reading }, [.opened])

/-- The connection could not be made. -/
def refused (c : Connection) (failure : Failure) : Connection × List LinkEvent :=
  ({ c with finished := true, stage := .done }, [.failed failure.message])

/-- The reader learns that the connection was closed. -/
def notice (c : Connection) : Connection :=
  match c.stage with
  | .connecting => { c with stage := .done }
  | .reading => c.part
  | _ => c

/-- The connection ended from the other side: this is its last event, and the writer stops. -/
def terminate (c : Connection) (e : LinkEvent) : Connection × List LinkEvent :=
  ({ c.post .stop with finished := true, offered := false, stage := .done }, [e])

/-- A close frame as an event. -/
def closedBy : Option CloseNotice → LinkEvent
  | some n => .closed (some n.code) n.reasonText
  | none => .closed none ""

/-- The reader takes what the transport gives. -/
def read (c : Connection) : Inbound → Connection × List LinkEvent
  | .ended => c.terminate (.closed none "stream ended")
  | .broken failure => c.terminate (.failed failure.message)
  | .frame (.close n) => c.terminate (closedBy n)
  | .frame (.ping payload) => (c.post (.frame (.pong payload) false), [])
  | .frame (.pong _) => (c, [])
  | .frame f =>
    let (inflater, result) := Inflater.push .zlib c.inflater f
    ({ c with inflater }, match result with
      | .ok (some text) => [.received text]
      | .ok none => []
      | .error failure => [.failed failure.message])

/-! ## The writer -/

/-- The writer handles what it was given first. A reader that waits for the close frame goes on, and
stops the writer. -/
def write (c : Connection) (broken : Option Failure) : Option (Connection × Delivery) := do
  let (writer, delivery) ← (← c.writer).turn c.closing broken
  let c := { c with writer := some writer }
  if c.stage = .parting && (writer.mail.isEmpty || !writer.alive) then
    return ({ c.post .stop with stage := .done }, delivery)
  else return (c, delivery)

@[simp] theorem finished_post (c : Connection) (l : Letter) :
    (c.post l).finished = c.finished := rfl

@[simp] theorem finished_close (c : Connection) (code : Nat) (reason : String) :
    (c.close code reason).finished = c.finished := rfl

end Connection

end Switchboard
