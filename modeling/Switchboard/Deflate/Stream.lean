import Switchboard.Deflate.Code

/-!
# A zlib stream in pieces

The compressed stream is decoded one item at a time: the header, the beginning of a block, one
symbol or stored run, the checksum. An item that runs short is tried again when more bytes have
arrived, so a stream may be cut anywhere. What is decoded stays in a history of 32 KiB at least, and
bytes that a match reaches for before the beginning of the stream are zero.

## Main definitions

* `Stream`: the state between pieces.
* `Stream.absorb`: decodes all that has arrived.
* `Stream.feed`: takes input and gives at most so many bytes of output.
* `Stream.whole`: a stream that is all there.
-/
namespace Switchboard.Deflate

/-- The item that is read next. -/
inductive Stage where
  | header
  | block
  | stored (left : Nat)
  | symbols (literals distances : Code)
  | checksum
  | finished
  | failed
deriving DecidableEq, Inhabited

/-- A stream between two pieces of input. -/
structure Stream where
  stage : Stage
  bits : Bits
  /-- The last block has begun. -/
  lastBlock : Bool
  /-- Bytes decoded, the older ones trimmed. -/
  history : Array UInt8
  /-- How many bytes of the history were given out. -/
  delivered : Nat
  /-- The two running sums of the checksum. -/
  low : Nat
  high : Nat
deriving DecidableEq

/-- How far back a match may reach. -/
def reach : Nat := 32768

/-- The modulus of the checksum. -/
def checksumModulus : Nat := 65521

/-- The effect of one item. -/
inductive Item where
  | stage (next : Stage)
  | begin (last : Bool) (next : Stage)
  | bytes (data : List UInt8) (next : Stage)
  | copy (length distance : Nat)

/-! ## Tables -/

/-- The lengths of the fixed code of literals. -/
def fixedLiteralLengths : List Nat :=
  List.replicate 144 8 ++ List.replicate 112 9 ++ List.replicate 24 7 ++ List.replicate 8 8

/-- The fixed code of literals and match lengths. -/
def fixedLiterals : Code := (Code.ofLengths? true fixedLiteralLengths).getD .empty

/-- The fixed code of distances. -/
def fixedDistances : Code := (Code.ofLengths? true (List.replicate 32 5)).getD .empty

/-- Base and extra bits of the match lengths, from symbol 257 on. -/
def lengthTable : List (Nat × Nat) :=
  [(3, 0), (4, 0), (5, 0), (6, 0), (7, 0), (8, 0), (9, 0), (10, 0), (11, 1), (13, 1), (15, 1),
    (17, 1), (19, 2), (23, 2), (27, 2), (31, 2), (35, 3), (43, 3), (51, 3), (59, 3), (67, 4),
    (83, 4), (99, 4), (115, 4), (131, 5), (163, 5), (195, 5), (227, 5), (258, 0)]

/-- Base and extra bits of the distances. -/
def distanceTable : List (Nat × Nat) :=
  [(1, 0), (2, 0), (3, 0), (4, 0), (5, 1), (7, 1), (9, 2), (13, 2), (17, 3), (25, 3), (33, 4),
    (49, 4), (65, 5), (97, 5), (129, 6), (193, 6), (257, 7), (385, 7), (513, 8), (769, 8),
    (1025, 9), (1537, 9), (2049, 10), (3073, 10), (4097, 11), (6145, 11), (8193, 12),
    (12289, 12), (16385, 13), (24577, 13)]

/-- The order in which the lengths of the code of code lengths are sent. -/
def codeLengthOrder : List Nat :=
  [16, 17, 18, 0, 8, 7, 9, 6, 10, 5, 11, 4, 12, 3, 13, 2, 14, 1, 15]

/-! ## Items -/

/-- The two header bytes: compression method, window size, no dictionary, a check modulo 31. -/
def readHeader : Bits.Reader Item := do
  let method ← Bits.number 8
  let flags ← Bits.number 8
  if (method * 256 + flags) % 31 = 0 ∧ flags.testBit 5 = false ∧ method % 16 = 8 ∧ method / 16 ≤ 7
  then return .stage .block
  else Bits.fail

/-- The lengths of a code, sent with runs; `left` bounds the number still to come. -/
def readLengths (code : Code) (previous : Option Nat) : Nat → Nat → Bits.Reader (List Nat)
  | _, 0 => pure []
  | 0, _ => Bits.fail
  | fuel + 1, left => do
    let symbol ← code.read
    if symbol < 16 then
      let rest ← readLengths code (some symbol) fuel (left - 1)
      return symbol :: rest
    else
      let (value, base, width) ←
        match symbol, previous with
        | 16, some n => pure (n, 3, 2)
        | 16, none => Bits.fail
        | 17, _ => pure (0, 3, 3)
        | _, _ => pure (0, 11, 7)
      let extra ← Bits.number width
      let run := base + extra
      if left < run then Bits.fail
      else
        let rest ← readLengths code (some value) fuel (left - run)
        return List.replicate run value ++ rest

/-- Reads `n` numbers of three bits. -/
def readTriples : Nat → Bits.Reader (List Nat)
  | 0 => pure []
  | n + 1 => do
    let first ← Bits.number 3
    let rest ← readTriples n
    return first :: rest

/-- Reads the two codes of a block that brings its own. -/
def readCodes : Bits.Reader (Code × Code) := do
  let literals := (← Bits.number 5) + 257
  let distances := (← Bits.number 5) + 1
  let lengths := (← Bits.number 4) + 4
  if 286 < literals ∨ 30 < distances then Bits.fail
  else
    let sent ← readTriples lengths
    let placed := codeLengthOrder.zip sent
    let table := (List.range 19).map fun i => ((placed.find? fun p => p.1 = i).map (·.2)).getD 0
    match Code.ofLengths? false table with
    | none => Bits.fail
    | some code =>
      let all ← readLengths code none (literals + distances) (literals + distances)
      match Code.ofLengths? true (all.take literals), Code.ofLengths? true (all.drop literals) with
      | some l, some d => return (l, d)
      | _, _ => Bits.fail

/-- The beginning of a block. -/
def readBlock : Bits.Reader Item := do
  let last ← Bits.bit
  let kind ← Bits.number 2
  match kind with
  | 0 =>
    Bits.align
    let size ← Bits.number 16
    let check ← Bits.number 16
    if size + check = 65535 then return .begin last (.stored size) else Bits.fail
  | 1 => return .begin last (.symbols fixedLiterals fixedDistances)
  | 2 =>
    let (literals, distances) ← readCodes
    return .begin last (.symbols literals distances)
  | _ => Bits.fail

/-- Reads a value given by a table of bases and extra bits. -/
def readFrom (table : List (Nat × Nat)) (index : Nat) : Bits.Reader Nat :=
  match table[index]? with
  | none => Bits.fail
  | some (base, width) => do
    let extra ← Bits.number width
    return base + extra

/-- One symbol of a compressed block. -/
def readSymbol (literals distances : Code) : Bits.Reader Item := do
  let symbol ← literals.read
  if symbol < 256 then return .bytes [UInt8.ofNat symbol] (.symbols literals distances)
  else if symbol = 256 then return .stage .block
  else
    let length ← readFrom lengthTable (symbol - 257)
    let code ← distances.read
    let distance ← readFrom distanceTable code
    return .copy length distance

/-- Reads `n` whole bytes. -/
def readBytes : Nat → Bits.Reader (List UInt8)
  | 0 => pure []
  | n + 1 => do
    let first ← Bits.number 8
    let rest ← readBytes n
    return UInt8.ofNat first :: rest

/-- The bytes of a stored run that are there, one at least. -/
def readStored (left : Nat) : Bits.Reader Item := fun b =>
  let n := min left (max b.wholeBytes 1)
  (do
    let data ← readBytes n
    return Item.bytes data (if left = n then .block else .stored (left - n)) : Bits.Reader Item) b

/-- The checksum, most significant byte first. -/
def readChecksum : Bits.Reader Nat := do
  Bits.align
  let a ← Bits.number 8
  let b ← Bits.number 8
  let c ← Bits.number 8
  let d ← Bits.number 8
  return ((a * 256 + b) * 256 + c) * 256 + d

namespace Stream

/-- Nothing has arrived. -/
def start : Stream :=
  { stage := .header, bits := Bits.empty, lastBlock := false, history := #[], delivered := 0,
    low := 1, high := 0 }

/-- One decoded byte. -/
def push (s : Stream) (b : UInt8) : Stream :=
  let low := (s.low + b.toNat) % checksumModulus
  { s with history := s.history.push b, low := low, high := (s.high + low) % checksumModulus }

/-- The byte `distance` back; zero before the beginning. -/
def back (s : Stream) (distance : Nat) : UInt8 :=
  if distance ≤ s.history.size then (s.history[s.history.size - distance]?).getD 0 else 0

/-- Repeats `length` bytes from `distance` back; what is written may be read again. -/
def copy (distance : Nat) : Nat → Stream → Stream
  | 0, s => s
  | length + 1, s => copy distance length (s.push (s.back distance))

/-- After a block comes the next, or the checksum. -/
def enter (s : Stream) (next : Stage) : Stream :=
  match next with
  | .block => { s with stage := if s.lastBlock then .checksum else .block }
  | .stored 0 => { s with stage := if s.lastBlock then .checksum else .block }
  | next => { s with stage := next }

/-- Carries out an item. -/
def apply (s : Stream) : Item → Stream
  | .stage next => s.enter next
  | .begin last next => { s with lastBlock := last }.enter next
  | .bytes data next => (data.foldl push s).enter next
  | .copy length distance => copy distance length s

/-- Reads one item; `none` if the bits run short or nothing is left to read. -/
def step? (s : Stream) : Option Stream :=
  let take (r : Bits.Reader Item) : Option Stream :=
    match r s.bits with
    | .done item rest => some ({ s with bits := rest }.apply item)
    | .short => none
    | .corrupt => some { s with stage := .failed }
  match s.stage with
  | .header => take readHeader
  | .block => take readBlock
  | .stored left => take (readStored left)
  | .symbols literals distances => take (readSymbol literals distances)
  | .checksum =>
    match readChecksum s.bits with
    | .done sum rest =>
      some { s with
        bits := rest
        stage := if sum = s.high * 65536 + s.low then .finished else .failed }
    | .short => none
    | .corrupt => some { s with stage := .failed }
  | .finished => none
  | .failed => none

/-- Reads items until none can be read; `fuel` bounds their number. -/
def run : Nat → Stream → Stream
  | 0, s => s
  | fuel + 1, s =>
    match s.step? with
    | some next => run fuel next
    | none => s

/-- The checksum was read and was right. -/
def isFinished (s : Stream) : Bool := s.stage matches .finished

/-- The data can be no zlib stream. -/
def isFailed (s : Stream) : Bool := s.stage matches .failed

/-- Decodes all that is there. Every item takes a bit at least. -/
def absorb (s : Stream) (input : List UInt8) : Stream :=
  let s := { s with bits := s.bits.append input }
  run (s.bits.pending.length + 1) s

/-- The bytes decoded and not given out. -/
def waiting (s : Stream) : Nat := s.history.size - s.delivered

/-- Gives out at most `room` bytes and forgets what no match can reach. -/
def deliver (s : Stream) (room : Nat) : Stream × List UInt8 :=
  let upTo := min s.history.size (s.delivered + room)
  let out := (s.history.extract s.delivered upTo).toList
  let surplus := upTo - reach
  ({ s with history := s.history.extract surplus s.history.size, delivered := upTo - surplus }, out)

/-- A stream that is all there: its bytes, if it ends well; otherwise whether it was cut short. -/
def whole (input : List UInt8) : Except Bool (List UInt8) :=
  let s := start.absorb input
  if s.isFinished then .ok s.history.toList
  else .error (!s.isFailed)

end Stream

end Switchboard.Deflate
