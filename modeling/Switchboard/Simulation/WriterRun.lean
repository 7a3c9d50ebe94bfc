import Switchboard.Wire.Writer

/-!
# A writer on its own

A writer that is asked to write and answers each time, with somebody who reads at the other end
until hanging up.

## Main definitions

* `WriterRun`: the writer, and what arrived since the last report.
* `WriterRun.write`, `WriterRun.stop`: what the writer is asked for.
-/
namespace Switchboard

/-- A writer with its reader. -/
structure WriterRun where
  writer : Writer := {}
  /-- The connection is being closed. -/
  closing : Bool := false
  /-- Nobody reads. -/
  hungUp : Bool := false
  /-- What arrived since the last report; nothing stands for the end. -/
  arrived : List (Option Frame) := []

namespace WriterRun

/-- What breaks the transport when nobody reads. -/
def broken? (r : WriterRun) : Option Failure :=
  if r.hungUp then some (.transport "mock_transport_write" "mock outbound channel closed") else none

/-- Something arrives, if somebody reads. -/
def arrive (r : WriterRun) (f : Option Frame) : WriterRun :=
  if r.hungUp then r else { r with arrived := r.arrived ++ [f] }

/-- Hands a letter to the writer, which handles it. -/
def hand (r : WriterRun) (l : Letter) : WriterRun × Except Failure Unit :=
  match (r.writer.post l).turn r.closing r.broken? with
  | none => (r, .error .notRunning)
  | some (writer, .written f) => ({ r with writer }.arrive (some f), .ok ())
  | some (writer, .refused failure) => ({ r with writer }, .error failure)
  | some (writer, .stopped) => ({ r with writer }.arrive none, .ok ())

/-- Asks for a frame to be written, and waits for the outcome. -/
def write (r : WriterRun) (f : Frame) : WriterRun × Except Failure Unit := r.hand (.frame f true)

/-- Stops the writer. -/
def stop (r : WriterRun) : WriterRun := (r.hand .stop).1

/-- Nobody reads any more. -/
def hangUp (r : WriterRun) : WriterRun := { r with hungUp := true }

/-- Begins the next report. -/
def reported (r : WriterRun) : WriterRun := { r with arrived := [] }

end WriterRun

end Switchboard
