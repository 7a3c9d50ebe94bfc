/-!
# Reading bits

Compressed data is a stream of bits, the least significant bit of each byte first. A reader takes
bits from the front of what has arrived; it succeeds, finds the data corrupt, or runs short, in
which case the bits stay where they are until more arrive.

## Main definitions

* `Bits`: the bits not yet read and the number read so far.
* `Bits.Reader`: a reader, with its monad.
* `Bits.number`: an unsigned number of fixed width.
-/
namespace Switchboard.Deflate

/-- The bits of a byte, least significant first. -/
def bitsOfByte (b : UInt8) : List Bool := (List.range 8).map fun i => b.toNat.testBit i

/-- The bits of a byte string. -/
def bitsOfBytes (bytes : List UInt8) : List Bool := bytes.flatMap bitsOfByte

/-- Bits that have arrived and are not read, and how many were read before, modulo eight. -/
structure Bits where
  pending : List Bool
  phase : Nat
deriving DecidableEq, Repr

/-- What reading comes to. -/
inductive Outcome (α : Type) where
  | done (value : α) (rest : Bits)
  | short
  | corrupt

namespace Bits

/-- Nothing has arrived. -/
def empty : Bits := ⟨[], 0⟩

/-- More bytes arrive. -/
def append (b : Bits) (bytes : List UInt8) : Bits :=
  { b with pending := b.pending ++ bitsOfBytes bytes }

/-- The whole bytes that have arrived and are not read. -/
def wholeBytes (b : Bits) : Nat := b.pending.length / 8

/-- A reader of bits. -/
def Reader (α : Type) : Type := Bits → Outcome α

instance : Monad Reader where
  pure a := fun b => .done a b
  bind r f := fun b =>
    match r b with
    | .done a rest => f a rest
    | .short => .short
    | .corrupt => .corrupt

/-- The data can be no compressed stream. -/
def fail {α : Type} : Reader α := fun _ => .corrupt

/-- Reads one bit. -/
def bit : Reader Bool := fun b =>
  match b.pending with
  | [] => .short
  | x :: rest => .done x ⟨rest, (b.phase + 1) % 8⟩

/-- Reads a number of `width` bits, least significant first. -/
def number : Nat → Reader Nat
  | 0 => pure 0
  | width + 1 => do
    let low ← bit
    let high ← number width
    return (if low then 1 else 0) + 2 * high

/-- Drops the bits up to the next byte. -/
def align : Reader Unit := fun b =>
  let gap := (8 - b.phase) % 8
  if b.pending.length < gap then .short else .done () ⟨b.pending.drop gap, 0⟩

end Bits

end Switchboard.Deflate
