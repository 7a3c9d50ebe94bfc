/-!
# UTF-8

Bytes are read as a list of segments: characters, broken sequences and a sequence cut off by the
end. Strict decoding stops at the first segment that is no character and says where and how wide it
is; lossy decoding puts the replacement character in place of each.

## Main definitions

* `Utf8.segments`: what the bytes hold, in order.
* `Utf8.decode`, `Utf8.decodeLossy`: the two readings.
* `Utf8.encode`: the bytes of a text.
-/
namespace Switchboard.Utf8

/-- A stretch of bytes: one character, a sequence that no continuation can mend, or one that the end
of the input cuts off. -/
inductive Segment where
  | scalar (c : Char) (width : Nat)
  | broken (width : Nat)
  | cut (width : Nat)
deriving DecidableEq, Repr

namespace Segment

/-- How many bytes the segment spans. -/
def width : Segment → Nat
  | scalar _ w => w
  | broken w => w
  | cut w => w

end Segment

/-- A byte that may stand inside a sequence. -/
def isContinuation (b : UInt8) : Bool := 0x80 ≤ b && b ≤ 0xbf

/-- The six bits that a continuation byte carries. -/
def payload (b : UInt8) : Nat := b.toNat % 64

/-- The second bytes that may follow a lead byte of a three or four byte sequence: overlong forms,
surrogates and numbers past the last code point are excluded here. -/
def secondAllowed (lead b : UInt8) : Bool :=
  if lead = 0xe0 then 0xa0 ≤ b && b ≤ 0xbf
  else if lead = 0xed then 0x80 ≤ b && b ≤ 0x9f
  else if lead = 0xf0 then 0x90 ≤ b && b ≤ 0xbf
  else if lead = 0xf4 then 0x80 ≤ b && b ≤ 0x8f
  else isContinuation b

/-- The segment that begins with `lead`. -/
def leading (lead : UInt8) (rest : List UInt8) : Segment :=
  if lead < 0x80 then .scalar (Char.ofNat lead.toNat) 1
  else if 0xc2 ≤ lead && lead ≤ 0xdf then
    match rest with
    | [] => .cut 1
    | b :: _ =>
      if isContinuation b then .scalar (Char.ofNat (lead.toNat % 32 * 64 + payload b)) 2
      else .broken 1
  else if 0xe0 ≤ lead && lead ≤ 0xef then
    match rest with
    | [] => .cut 1
    | b :: more =>
      if secondAllowed lead b then
        match more with
        | [] => .cut 2
        | c :: _ =>
          if isContinuation c then
            .scalar (Char.ofNat ((lead.toNat % 16 * 64 + payload b) * 64 + payload c)) 3
          else .broken 2
      else .broken 1
  else if 0xf0 ≤ lead && lead ≤ 0xf4 then
    match rest with
    | [] => .cut 1
    | b :: more =>
      if secondAllowed lead b then
        match more with
        | [] => .cut 2
        | c :: last =>
          if isContinuation c then
            match last with
            | [] => .cut 3
            | d :: _ =>
              if isContinuation d then
                .scalar (Char.ofNat
                  (((lead.toNat % 8 * 64 + payload b) * 64 + payload c) * 64 + payload d)) 4
              else .broken 3
          else .broken 2
      else .broken 1
  else .broken 1

/-- The segments of a byte string, in order. -/
def segments : List UInt8 → List Segment
  | [] => []
  | lead :: rest => leading lead rest :: segments (rest.drop ((leading lead rest).width - 1))
termination_by bytes => bytes.length
decreasing_by simp only [List.length_drop, List.length_cons]; omega

/-- Why bytes are no text. -/
inductive Error where
  /-- A sequence of `width` bytes at `index` cannot be mended. -/
  | invalid (width index : Nat)
  /-- The input ends inside the sequence that begins at `index`. -/
  | incomplete (index : Nat)
deriving DecidableEq, Repr

/-- The wording of a decoding error. -/
def Error.message : Error → String
  | .invalid width index =>
    "invalid utf-8 sequence of " ++ toString width ++ " bytes from index " ++ toString index
  | .incomplete index => "incomplete utf-8 byte sequence from index " ++ toString index

/-- The characters of the segments, or the first that is none; `index` counts the bytes before. -/
def collect (index : Nat) : List Segment → Except Error (List Char)
  | [] => .ok []
  | .scalar c w :: rest => (collect (index + w) rest).map (c :: ·)
  | .broken w :: _ => .error (.invalid w index)
  | .cut _ :: _ => .error (.incomplete index)

/-- The text that the bytes encode. -/
def decodeChars (bytes : List UInt8) : Except Error (List Char) := collect 0 (segments bytes)

/-- The text that the bytes encode, as a string. -/
def decode (bytes : List UInt8) : Except Error String := (decodeChars bytes).map String.ofList

/-- The character shown in place of bytes that are no text. -/
def replacement : Char := '\ufffd'

/-- A segment as one character. -/
def Segment.lossy : Segment → Char
  | .scalar c _ => c
  | .broken _ => replacement
  | .cut _ => replacement

/-- The text of the bytes with the replacement character for every segment that is none. -/
def decodeLossy (bytes : List UInt8) : String :=
  String.ofList ((segments bytes).map Segment.lossy)

/-- The bytes of a text. -/
def encodeChars (cs : List Char) : List UInt8 := cs.flatMap String.utf8EncodeChar

/-- The bytes of a string. -/
def encode (s : String) : List UInt8 := encodeChars s.toList

end Switchboard.Utf8
