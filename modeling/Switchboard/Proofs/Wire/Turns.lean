import Switchboard.Proofs.Text.Encoding
import Switchboard.Wire.Inflater

/-!
# Turns of the loop

In a turn of the loop around a decompressor the room is widened if it was filled, and one call is
made. What that call moves settles whether another turn follows, and what the loop hands over if none
does. Other modules reason with the kinds of turns that there are and do not open the loop.

## Main definitions

* `Decompressor.widened`: the room of a turn.

## Main results

* `Decompressor.drain_of_room`: a turn that ends the loop.
* `Decompressor.drain_of_failed`, `Decompressor.drain_of_idle`: turns that end it with a failure.
* `Decompressor.drain_of_moved`: a turn that is followed by another one.
* `Inflater.asText_encode`, `Inflater.asText_of_forall_ne`: which bytes are read as a text.
* `Inflater.inflateBuffer_of_drain`: what the loop hands over is read as a text.
-/
namespace Switchboard

namespace Decompressor

variable {σ : Type} {d : Decompressor σ} {engine next : σ} {input out produced : List UInt8}
  {room consumed : Nat}

/-- The room of a turn: it is wider if it was filled. -/
def widened (out : List UInt8) (room : Nat) : Nat := if out.length = room then grow room else room

theorem length_lt_widened (h : out.length ≤ room) : out.length < widened out room := by
  simp only [widened, grow]
  split <;> omega

/-- A turn that consumes all input and leaves room is the last one. -/
theorem drain_of_room
    (hfeed : d.feed engine input (widened out room - out.length) =
      (next, .moved input.length produced))
    (hroom : (out ++ produced).length < widened out room) :
    d.drain engine input out room = some (next, .ok (out ++ produced)) := by
  rw [widened] at hfeed hroom
  rw [drain, hfeed]
  simp only [List.drop_length, List.isEmpty_nil, Bool.true_and, decide_eq_true hroom, if_true]

/-- A turn that fails ends the loop. -/
theorem drain_of_failed
    (hfeed : d.feed engine input (widened out room - out.length) = (next, .failed)) :
    d.drain engine input out room =
      some (next, .error (.decode "zlib stream: deflate decompression error")) := by
  rw [widened] at hfeed
  rw [drain, hfeed]

/-- A turn that moves nothing ends the loop, if there was something to move. -/
theorem drain_of_idle (hinput : input ≠ [])
    (hfeed : d.feed engine input (widened out room - out.length) = (next, .moved 0 [])) :
    d.drain engine input out room = some (next, .error (.decode "zlib stream made no progress")) := by
  rw [widened] at hfeed
  rw [drain, hfeed]
  simp [hinput]

/-- A turn that moves something is followed by another one, if it left input or filled the room. -/
theorem drain_of_moved
    (hfeed : d.feed engine input (widened out room - out.length) = (next, .moved consumed produced))
    (hmoved : consumed ≠ 0 ∨ produced ≠ [])
    (hleft : input.drop consumed ≠ [] ∨ (out ++ produced).length = widened out room) :
    d.drain engine input out room =
      d.drain next (input.drop consumed) (out ++ produced) (widened out room) := by
  rw [widened] at hfeed hleft
  rw [drain, hfeed, widened]
  have hstay : ((input.drop consumed).isEmpty && decide ((out ++ produced).length <
      if out.length = room then grow room else room)) = false := by
    rcases hleft with hleft | hleft
    · simp [hleft]
    · simp [hleft]
  have hmoves : (decide (consumed = 0) && produced.isEmpty) = false := by
    rcases hmoved with hmoved | hmoved <;> simp [hmoved]
  simp only [hstay, hmoves, Bool.false_eq_true, if_false]

end Decompressor

namespace Inflater

variable {σ : Type} {d : Decompressor σ} {i : Inflater σ} {next : σ}

/-- Bytes that are the encoding of a text are read as the text. -/
theorem asText_encode (text : String) : asText (Utf8.encode text) = .ok text := by
  simp [asText, Utf8.decode_eq_ok_iff.mpr rfl]

/-- Bytes that are the encoding of no text cannot be decoded. -/
theorem asText_of_forall_ne {bytes : List UInt8} (h : ∀ text, Utf8.encode text ≠ bytes) :
    ∃ reason, asText bytes = .error (.decode reason) := by
  cases hdecode : Utf8.decode bytes with
  | ok text => exact absurd (Utf8.decode_eq_ok_iff.mp hdecode) (h text)
  | error e => exact ⟨_, by rw [asText, hdecode]⟩

/-- What the loop hands over is read as a text. -/
theorem inflateBuffer_of_drain {result : Except Failure (List UInt8)}
    (h : d.drain i.engine i.buffer [] (Decompressor.initialRoom i.buffer) = some (next, result)) :
    inflateBuffer d i = (next, result.bind asText) := by
  rw [inflateBuffer, h]
  cases result <;> rfl

/-- A buffer of which one call gives all, with room to spare. -/
theorem inflateBuffer_of_feed {mode : Compression} {buffer out : List UInt8} {engine : σ}
    (hfeed : d.feed engine buffer (Decompressor.initialRoom buffer) =
      (next, .moved buffer.length out))
    (hroom : out.length < Decompressor.initialRoom buffer) :
    inflateBuffer d ⟨mode, buffer, engine⟩ = (next, asText out) := by
  have hempty : ([] : List UInt8).length ≠ Decompressor.initialRoom buffer :=
    Nat.ne_of_lt (Nat.lt_of_le_of_lt (Nat.zero_le _) hroom)
  have hwidened : Decompressor.widened [] (Decompressor.initialRoom buffer) =
      Decompressor.initialRoom buffer := if_neg hempty
  exact inflateBuffer_of_drain (Decompressor.drain_of_room (by rw [hwidened]; exact hfeed)
    (by rw [hwidened]; exact hroom))

end Inflater

end Switchboard
