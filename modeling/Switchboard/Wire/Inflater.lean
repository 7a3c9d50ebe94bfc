import Switchboard.Deflate.Stream
import Switchboard.Failure
import Switchboard.Wire.Compression
import Switchboard.Wire.Frame

/-!
# From data frames to texts

An inflater belongs to one connection. Text frames pass as they are, binary frames according to the
mode; in stream mode bytes are held back until they end in the mark of a flush, and then the whole
buffer goes through the decompressor, whose state lasts as long as the connection.

The decompressor is a parameter: all that the inflater knows of it is one call, which takes input
and room for output and says how much it consumed and what it produced.

## Main definitions

* `Decompressor`: the parameter; `Decompressor.zlib` is the one in use.
* `Inflater`: mode, bytes held back and decompressor.
* `Decompressor.drain`: the loop that takes a buffer through the decompressor.
* `Inflater.push`: one frame.
-/
namespace Switchboard

/-- What one call of a decompressor comes to. -/
inductive Inflation where
  /-- The data is corrupt. -/
  | failed
  /-- So many bytes were consumed, and these were produced. -/
  | moved (consumed : Nat) (produced : List UInt8)
deriving DecidableEq, Repr

/-- A decompressor with states `σ`. -/
structure Decompressor (σ : Type) where
  /-- The state before any input. -/
  start : σ
  /-- Offers input and room for output. -/
  feed : σ → List UInt8 → Nat → σ × Inflation

/-- The decompressor of zlib streams. All input is absorbed at once, up to the end of the stream;
output that finds no room waits for the next call. -/
def Decompressor.zlib : Decompressor Deflate.Stream where
  start := .start
  feed s input room :=
    let next := if s.isFinished then s else s.absorb input
    if next.isFailed then (next, .failed)
    else
      let consumed :=
        if s.isFinished then 0
        else if next.isFinished then input.length - next.bits.wholeBytes
        else input.length
      let (rest, produced) := next.deliver room
      (rest, .moved consumed produced)

namespace Decompressor

variable {σ : Type}

/-- Room for output in the beginning. -/
def initialRoom (input : List UInt8) : Nat := max (input.length * 4) 1024

/-- Room after it was filled. -/
def grow (room : Nat) : Nat := room + max room 1024

/-- Takes `input` through the decompressor: `out` is what came so far and `room` how much fits. The
loop ends when all input is consumed and the room is not filled, as output may wait otherwise.
`none` stands for a loop that never ends. -/
def drain (d : Decompressor σ) (engine : σ) (input out : List UInt8) (room : Nat) :
    Option (σ × Except Failure (List UInt8)) :=
  let room := if out.length = room then grow room else room
  match d.feed engine input (room - out.length) with
  | (engine, .failed) =>
    some (engine, .error (.decode "zlib stream: deflate decompression error"))
  | (engine, .moved consumed produced) =>
    let input := input.drop consumed
    let out := out ++ produced
    if input.isEmpty && out.length < room then some (engine, .ok out)
    else if consumed = 0 && produced.isEmpty then
      some (engine, .error (.decode "zlib stream made no progress"))
    else d |>.drain engine input out room
partial_fixpoint

end Decompressor

/-- The end of a flush, which marks the end of a message in a stream. -/
def flushMark : List UInt8 := [0x00, 0x00, 0xff, 0xff]

/-- Turns the data frames of one connection into texts. -/
structure Inflater (σ : Type) where
  mode : Compression
  /-- Bytes that wait for the end of their message. -/
  buffer : List UInt8
  engine : σ

namespace Inflater

variable {σ : Type}

/-- The inflater of a new connection. -/
def new (d : Decompressor σ) (mode : Compression) : Inflater σ := ⟨mode, [], d.start⟩

/-- Bytes as text. -/
def asText (bytes : List UInt8) : Except Failure String :=
  match Utf8.decode bytes with
  | .ok s => .ok s
  | .error e => .error (.decode ("utf-8: " ++ e.message))

/-- Takes the buffer through the decompressor and reads the output as text. A decompressor whose
loop never ends makes no progress either. -/
def inflateBuffer (d : Decompressor σ) (i : Inflater σ) : σ × Except Failure String :=
  match d.drain i.engine i.buffer [] (Decompressor.initialRoom i.buffer) with
  | some (engine, .ok bytes) => (engine, asText bytes)
  | some (engine, .error e) => (engine, .error e)
  | none => (i.engine, .error (.decode "zlib stream made no progress"))

/-- A payload that was compressed on its own. -/
def inflateWhole (bytes : List UInt8) : Except Failure String :=
  match Deflate.Stream.whole bytes with
  | .error true => .error (.decode "zlib payload: incomplete deflate stream")
  | .error false => .error (.decode "zlib payload: corrupt deflate stream")
  | .ok out =>
    match Utf8.decode out with
    | .ok s => .ok s
    | .error _ => .error (.decode "zlib payload: stream did not contain valid UTF-8")

/-- The bytes held back end a message. -/
def endsMessage (bytes : List UInt8) : Bool := flushMark.isSuffixOf bytes

/-- Takes one frame; no text means that it was held back or carries none. -/
def push (d : Decompressor σ) (i : Inflater σ) : Frame → Inflater σ × Except Failure (Option String)
  | .text bytes => (i, (asText bytes).map some)
  | .binary bytes =>
    match i.mode with
    | .none => (i, (asText bytes).map some)
    | .payload => (i, (inflateWhole bytes).map some)
    | .stream =>
      let i := { i with buffer := i.buffer ++ bytes }
      if endsMessage i.buffer then
        let (engine, result) := inflateBuffer d i
        ({ i with buffer := [], engine := engine }, result.map some)
      else (i, .ok none)
  | _ => (i, .ok none)

end Inflater

end Switchboard
