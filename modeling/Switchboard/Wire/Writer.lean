import Switchboard.Failure
import Switchboard.Wire.Frame

/-!
# The writing side of a connection

One task writes all frames of a connection, in the order in which they were handed over. Once the
connection is being closed it refuses everything but a close frame; somebody who waits for the
outcome learns of a refusal, and a refusal that nobody waits for ends the writer.

## Main definitions

* `refusal?`: why a frame is not written.
* `Writer`: what was handed over; `Writer.turn` handles the first of it.
-/
namespace Switchboard

/-- Something handed over to a writer. -/
inductive Letter where
  /-- A frame; `awaited` says that the sender waits for the outcome. -/
  | frame (frame : Frame) (awaited : Bool)
  /-- Nothing more will come. -/
  | stop
deriving DecidableEq, Repr

/-- The writing side of a connection. -/
structure Writer where
  mail : List Letter := []
  alive : Bool := true
deriving DecidableEq, Repr, Inhabited

/-- What became of a letter. -/
inductive Delivery where
  | written (frame : Frame)
  | refused (failure : Failure)
  | stopped
deriving DecidableEq, Repr

namespace Writer

/-- Why a frame is not written: the connection is being closed and it is no close frame, or the
transport is broken. -/
def refusal? (closing : Bool) (broken : Option Failure) (f : Frame) : Option Failure :=
  if closing && !f.isClose then some (.invalidState "writer stopped") else broken

/-- Hands something over. -/
def post (w : Writer) (l : Letter) : Writer := { w with mail := w.mail ++ [l] }

/-- The writer is gone, and what was handed over with it. -/
def gone : Writer := ⟨[], false⟩

/-- Handles the first letter; `none` when there is nothing to do. -/
def turn (w : Writer) (closing : Bool) (broken : Option Failure) : Option (Writer × Delivery) :=
  if !w.alive then none
  else
    match w.mail with
    | [] => none
    | .stop :: _ => some (gone, .stopped)
    | .frame f awaited :: rest =>
      match refusal? closing broken f with
      | none => some ({ w with mail := rest }, .written f)
      | some failure =>
        some (if awaited then { w with mail := rest } else gone, .refused failure)

@[simp] theorem refusal?_close (closing : Bool) (broken : Option Failure)
    (notice : Option CloseNotice) : refusal? closing broken (.close notice) = broken := by
  simp [refusal?, Frame.isClose]

end Writer

end Switchboard
