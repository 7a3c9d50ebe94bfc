import Switchboard.Proofs.Deflate.Absorption
import Switchboard.Proofs.Wire.Fragments

/-!
# One message to a frame

A server compresses all messages of a connection in one stream and flushes it after each. What the
decompressor must keep to is a contract on single calls: what it gives is what was written, and it
leaves room for output only when it has consumed all input and given all that was flushed. From this
the loop around it gives a message for each frame, and leaves the decompressor where the next one
begins, whether or not the message is a text.

## Main definitions

* `Packet`: what a server writes between two flushes, and what comes of it.
* `Decompressor.Reaches`: the states a decompressor comes to as packets arrive one after the other.
* `Decompressor.Inflates`: the contract.

## Main results

* `Decompressor.Inflates.drain`: the loop hands over every byte.
* `Decompressor.zlib_inflates`: streams on which the decompressor in use keeps to the contract.
* `Inflater.pushAll_of_packets`: a stream, frame by frame.
-/
namespace Switchboard

open Deflate (Stream)

/-- What a server writes between two flushes of a stream. -/
structure Packet where
  /-- The bytes of the stream. -/
  wire : List UInt8
  /-- The bytes that they stand for. -/
  message : List UInt8

/-- The bytes that packets stand for. -/
def Packet.messages (ps : List Packet) : List UInt8 := ps.flatMap Packet.message

@[simp] theorem Packet.messages_nil : messages [] = [] := rfl

@[simp] theorem Packet.messages_concat (ps : List Packet) (p : Packet) :
    messages (ps ++ [p]) = messages ps ++ p.message := by simp [messages]

namespace Decompressor

variable {σ : Type} {d : Decompressor σ} {stream : List Packet}

/-- The packets `ps` arrived one after the other, each when all before it was given: the
decompressor is in state `s`, `input` is left of the last packet, and `given` is all that came. -/
inductive Reaches (d : Decompressor σ) :
    List Packet → σ → (input given : List UInt8) → Prop where
  | start : Reaches d [] d.start [] []
  | arrive {ps : List Packet} {s : σ} (p : Packet) :
      Reaches d ps s [] (Packet.messages ps) →
        Reaches d (ps ++ [p]) s p.wire (Packet.messages ps)
  | feed {ps : List Packet} {s next : σ} {input given produced : List UInt8} {room consumed : Nat} :
      Reaches d ps s input given → 0 < room →
        d.feed s input room = (next, .moved consumed produced) →
        Reaches d ps next (input.drop consumed) (given ++ produced)

/-- A call does what is right: it keeps to the input and to the room, what it gives is what was
written, and where it leaves room nothing more was to be had. -/
structure Moves (ps : List Packet) (input given : List UInt8) (room consumed : Nat)
    (produced : List UInt8) : Prop where
  consumed_le : consumed ≤ input.length
  length_le : produced.length ≤ room
  sound : given ++ produced <+: Packet.messages ps
  flushed : produced.length < room →
    consumed = input.length ∧ given ++ produced = Packet.messages ps

/-- The contract of a decompressor on a stream: fed with its packets, with room for output, it does
not fail and does what is right. -/
def Inflates (d : Decompressor σ) (stream : List Packet) : Prop :=
  ∀ ps, ps <+: stream → ∀ s input given, d.Reaches ps s input given → ∀ room, 0 < room →
    ∃ next consumed produced, d.feed s input room = (next, .moved consumed produced) ∧
      Moves ps input given room consumed produced

/-! ## The loop -/

/-- **The loop hands over every byte.** From any state that the packets lead to, with some output
already there, it ends without failure, has given all that was written, and has consumed the packet
to its end. -/
theorem Inflates.drain (hd : d.Inflates stream) {ps : List Packet} (hps : ps <+: stream)
    {engine : σ} {input before out : List UInt8} {room : Nat}
    (hreach : d.Reaches ps engine input (before ++ out)) (hlen : out.length ≤ room)
    (hroom : 0 < room) :
    ∃ next whole, d.drain engine input out room = some (next, .ok whole) ∧
      d.Reaches ps next [] (Packet.messages ps) ∧ before ++ whole = Packet.messages ps := by
  -- each turn but the last fills its room, so what is still to come gets less
  induction hleft : (Packet.messages ps).length - (before ++ out).length
    using Nat.strongRecOn generalizing engine input out room with
  | ind left ih =>
    have hlt := length_lt_widened hlen
    obtain ⟨next, consumed, produced, hfeed, hmoves⟩ :=
      hd ps hps engine input _ hreach (widened out room - out.length) (by omega)
    have hnext := hreach.feed (by omega) hfeed
    by_cases hfull : produced.length < widened out room - out.length
    · obtain ⟨rfl, hgiven⟩ := hmoves.flushed hfull
      have hspace : (out ++ produced).length < widened out room := by
        rw [List.length_append]
        omega
      refine ⟨next, out ++ produced, drain_of_room hfeed hspace, ?_, ?_⟩
      · rwa [List.drop_length, hgiven] at hnext
      · rw [← List.append_assoc, hgiven]
    · have hle := hmoves.length_le
      have hsome : produced ≠ [] := List.ne_nil_of_length_pos (by omega)
      have hspace : (out ++ produced).length = widened out room := by
        rw [List.length_append]
        omega
      have hbound := hmoves.sound.length_le
      rw [drain_of_moved hfeed (.inr hsome) (.inr hspace)]
      rw [List.append_assoc] at hnext
      refine ih _ ?_ hnext (Nat.le_of_eq hspace) (by omega) rfl
      simp only [List.length_append] at hleft hbound ⊢
      omega

/-! ## The decompressor in use -/

/-- The decompressor of zlib streams after some packets, of whose bytes `n` were given out. -/
def standing (ps : List Packet) (n : Nat) : Stream :=
  { (Packet.messages ps).foldl Stream.push .start with
    stage := if ps.isEmpty then .header else .block
    delivered := n }

/-- The decompressor decodes the stream packet by packet, and keeps all bytes within reach. -/
structure Absorbs (stream : List Packet) : Prop where
  length_le : (Packet.messages stream).length ≤ Deflate.reach
  absorb : ∀ ps p, ps ++ [p] <+: stream → (standing ps (Packet.messages ps).length).absorb p.wire =
    standing (ps ++ [p]) (Packet.messages ps).length

theorem Absorbs.length_le_of_isPrefix (h : Absorbs stream) {ps : List Packet}
    (hps : ps <+: stream) : (Packet.messages ps).length ≤ Deflate.reach := by
  obtain ⟨qs, rfl⟩ := hps
  have hlen := h.length_le
  rw [Packet.messages, List.flatMap_append, List.length_append] at hlen
  exact Nat.le_of_add_right_le hlen

theorem history_foldl_push (bytes : List UInt8) (s : Stream) :
    (bytes.foldl Stream.push s).history = s.history ++ bytes.toArray := by
  induction bytes generalizing s with
  | nil => simp
  | cons b bytes ih =>
    rw [List.foldl_cons, ih, Stream.push]
    simp

@[simp] theorem bits_standing (ps : List Packet) (n : Nat) :
    (standing ps n).bits = Deflate.Bits.empty :=
  (Stream.foldl_push_keeps _ _).2

@[simp] theorem history_standing (ps : List Packet) (n : Nat) :
    (standing ps n).history = (Packet.messages ps).toArray :=
  (history_foldl_push _ _).trans (by simp [Stream.start])

/-- With no bits left there is no item to read. -/
theorem settled_standing (ps : List Packet) (n : Nat) : (standing ps n).Settled := by
  rw [Stream.Settled, Stream.step?, bits_standing]
  cases ps <;> rfl

theorem deliver_standing {ps : List Packet} {given rest : List UInt8}
    (hlen : (Packet.messages ps).length ≤ Deflate.reach)
    (hrest : given ++ rest = Packet.messages ps) (room : Nat) :
    (standing ps given.length).deliver room =
      (standing ps (given ++ rest.take room).length, rest.take room) := by
  have hsize : (Packet.messages ps).length = given.length + rest.length := by
    rw [← hrest, List.length_append]
  have hup : min (Packet.messages ps).toArray.size (given.length + room) =
      (given ++ rest.take room).length := by
    simp only [List.size_toArray, List.length_append, List.length_take]
    omega
  have hsurplus : (given ++ rest.take room).length - Deflate.reach = 0 := by
    simp only [List.length_append, List.length_take]
    omega
  have hout : ((Packet.messages ps).toArray.extract given.length
      (given ++ rest.take room).length).toList = rest.take room := by
    simp [← hrest, List.extract_eq_take_drop]
  have hall : (Packet.messages ps).toArray.extract 0 (Packet.messages ps).toArray.size =
      (standing ps given.length).history := by simp
  simp only [Stream.deliver, history_standing]
  rw [show (standing ps given.length).delivered = given.length from rfl, hup, hsurplus, hout, hall]
  rfl

theorem isFinished_standing (ps : List Packet) (n : Nat) : (standing ps n).isFinished = false := by
  cases ps <;> rfl

theorem isFailed_standing (ps : List Packet) (n : Nat) : (standing ps n).isFailed = false := by
  cases ps <;> rfl

/-- The decompressor has taken up all that arrived, or does so with the next call. -/
structure Abreast (ps : List Packet) (s : Stream) (input given : List UInt8) : Prop where
  given_isPrefix : given <+: Packet.messages ps
  isFinished : s.isFinished = false
  absorb : s.absorb input = standing ps given.length
  eq_standing : input = [] → s = standing ps given.length

/-- One call. -/
theorem Abreast.feed {ps : List Packet} {s : Stream} {input given : List UInt8}
    (h : Abreast ps s input given) (hlen : (Packet.messages ps).length ≤ Deflate.reach)
    (room : Nat) :
    ∃ produced, zlib.feed s input room =
        (standing ps (given ++ produced).length, .moved input.length produced) ∧
      Moves ps input given room input.length produced := by
  obtain ⟨rest, hrest⟩ := h.given_isPrefix
  refine ⟨rest.take room, ?_, ?_⟩
  · simp [zlib, h.isFinished, h.absorb, isFailed_standing, isFinished_standing,
      deliver_standing hlen hrest]
  · refine ⟨Nat.le_refl _, List.length_take_le _ _, ?_, fun hroom => ⟨rfl, ?_⟩⟩
    · rw [← hrest]
      exact (List.prefix_append_right_inj given).mpr (List.take_prefix room rest)
    · rw [List.length_take] at hroom
      rw [List.take_of_length_le (by omega), hrest]

theorem Absorbs.abreast (h : Absorbs stream) {ps : List Packet} {s : Stream}
    {input given : List UInt8} (hreach : zlib.Reaches ps s input given) (hps : ps <+: stream) :
    Abreast ps s input given := by
  induction hreach with
  | start => exact ⟨List.prefix_refl _, rfl, (settled_standing [] 0).absorb_nil, fun _ => rfl⟩
  | @arrive ps s p hreach ih =>
    obtain rfl : s = standing ps _ := (ih ((List.prefix_append _ _).trans hps)).eq_standing rfl
    refine ⟨by simp, isFinished_standing _ _, h.absorb ps p hps, fun hwire => ?_⟩
    rw [← h.absorb ps p hps, hwire, (settled_standing _ _).absorb_nil]
  | @feed ps s next input given produced room consumed hreach hroom hfeed ih =>
    obtain ⟨out, hout, hmoves⟩ := (ih hps).feed (h.length_le_of_isPrefix hps) room
    rw [hout] at hfeed
    cases hfeed
    rw [List.drop_length]
    exact ⟨hmoves.sound, isFinished_standing _ _, (settled_standing _ _).absorb_nil, fun _ => rfl⟩

/-- **The decompressor in use** keeps to its contract on a stream that it decodes packet by
packet. -/
theorem zlib_inflates (h : Absorbs stream) : zlib.Inflates stream := by
  intro ps hps s input given hreach room _
  obtain ⟨produced, hfeed, hmoves⟩ :=
    (h.abreast hreach hps).feed (h.length_le_of_isPrefix hps) room
  exact ⟨_, _, _, hfeed, hmoves⟩

end Decompressor

namespace Inflater

variable {σ : Type} {d : Decompressor σ} {stream : List Packet}

/-- The frame that brings a packet. -/
def frame (p : Packet) : Frame := .binary p.wire

/-- One packet: its message is read as a text, and the decompressor stands where the next packet
begins. -/
theorem push_packet (hd : d.Inflates stream) {ps : List Packet} {p : Packet}
    (hps : ps ++ [p] <+: stream) (hflush : flushMark <:+ p.wire) {engine : σ}
    (hreach : d.Reaches ps engine [] (Packet.messages ps)) :
    ∃ next, push d ⟨.stream, [], engine⟩ (frame p) =
        (⟨.stream, [], next⟩, (asText p.message).map some) ∧
      d.Reaches (ps ++ [p]) next [] (Packet.messages (ps ++ [p])) := by
  have harrive : d.Reaches (ps ++ [p]) engine p.wire (Packet.messages ps ++ []) := by
    rw [List.append_nil]
    exact hreach.arrive p
  obtain ⟨next, whole, hdrain, hnext, hwhole⟩ := hd.drain hps harrive (Nat.zero_le _)
    (show 0 < Decompressor.initialRoom p.wire by rw [Decompressor.initialRoom]; omega)
  have hmessage : whole = p.message := by simpa using hwhole
  refine ⟨next, ?_, hnext⟩
  have hends : flushMark <:+ [] ++ p.wire := hflush
  rw [frame, push_of_endsMessage rfl hends]
  simp [inflateBuffer, hdrain, hmessage]

/-- The packets that follow others. -/
theorem pushAll_packets (hd : d.Inflates stream) (hflush : ∀ p ∈ stream, flushMark <:+ p.wire)
    {ps qs : List Packet} (hstream : ps ++ qs = stream) {engine : σ}
    (hreach : d.Reaches ps engine [] (Packet.messages ps)) :
    (pushAll d ⟨.stream, [], engine⟩ (qs.map frame)).2 =
      qs.map fun q => (asText q.message).map some := by
  induction qs generalizing ps engine with
  | nil => rfl
  | cons p qs ih =>
    have hps : (ps ++ [p]) ++ qs = stream := by simpa using hstream
    obtain ⟨next, hpush, hnext⟩ :=
      push_packet hd ⟨qs, hps⟩ (hflush p (by simp [← hstream])) hreach
    rw [List.map_cons, pushAll_cons, hpush, ih hps hnext, List.map_cons]

/-- **A stream, frame by frame.** If the decompressor keeps to its contract on a stream and every
packet ends in the mark of a flush, then of the frames that bring one packet each, every one gives
the text that its packet stands for, or a failure to decode if that is no text, whatever came
before. -/
theorem pushAll_of_packets (d : Decompressor σ) (stream : List Packet)
    (hflush : ∀ p ∈ stream, flushMark <:+ p.wire) (hd : d.Inflates stream) :
    (pushAll d (new d .stream) (stream.map frame)).2.length = stream.length ∧
    ∀ (n : Nat) p, stream[n]? = some p →
      (∀ text, Utf8.encode text = p.message →
        (pushAll d (new d .stream) (stream.map frame)).2[n]? = some (.ok (some text))) ∧
      ((∀ text, Utf8.encode text ≠ p.message) → ∃ reason,
        (pushAll d (new d .stream) (stream.map frame)).2[n]? = some (.error (.decode reason))) := by
  have hall : (pushAll d (new d .stream) (stream.map frame)).2 =
      stream.map fun p => (asText p.message).map some :=
    pushAll_packets hd hflush (List.nil_append stream) .start
  rw [hall]
  refine ⟨List.length_map _, fun n p hp => ⟨fun text htext => ?_, fun hnone => ?_⟩⟩
  · simp [hp, ← htext, asText_encode, Except.map]
  · obtain ⟨reason, hreason⟩ := asText_of_forall_ne hnone
    exact ⟨reason, by simp [hp, hreason, Except.map]⟩

/-- Three packets of one stream: bytes that are no text, a text that repeats some of them, and
nothing at all. -/
def mixed : List Packet :=
  [⟨[120, 218, 202, 200, 252, 15, 0, 0, 0, 255, 255], [104, 105, 255]⟩,
    ⟨[202, 200, 84, 0, 35, 0, 0, 0, 0, 255, 255], [104, 105, 32, 104, 105, 32, 104, 105]⟩,
    ⟨[0, 0, 0, 255, 255], []⟩]

theorem absorbs_mixed : Decompressor.Absorbs mixed := by
  refine ⟨by decide, fun ps p hps => ?_⟩
  obtain ⟨qs, hqs⟩ := hps
  rcases ps with _ | ⟨first, _ | ⟨second, _ | ⟨third, ps⟩⟩⟩ <;> simp [mixed] at hqs
  · obtain ⟨rfl, -⟩ := hqs
    decide +kernel
  · obtain ⟨rfl, rfl, -⟩ := hqs
    decide +kernel
  · obtain ⟨rfl, rfl, rfl, -⟩ := hqs
    decide +kernel

/-- A packet that is no text, before two that are. -/
theorem pushAll_of_packets_mixed :
    (∀ p ∈ mixed, flushMark <:+ p.wire) ∧ Decompressor.zlib.Inflates mixed ∧
    (∃ reason, (pushAll .zlib (new .zlib .stream) (mixed.map frame)).2[0]? =
      some (.error (.decode reason))) ∧
    (pushAll .zlib (new .zlib .stream) (mixed.map frame)).2[1]? = some (.ok (some "hi hi hi")) ∧
    (pushAll .zlib (new .zlib .stream) (mixed.map frame)).2[2]? = some (.ok (some "")) := by
  have hflush : ∀ p ∈ mixed, flushMark <:+ p.wire := by simp [mixed]; decide
  have hinflates := Decompressor.zlib_inflates absorbs_mixed
  have h := (pushAll_of_packets .zlib mixed hflush hinflates).2
  have hnone : ∀ text, Utf8.encode text ≠ [104, 105, 255] := fun text htext => by
    have := Utf8.decode_eq_ok_iff.mpr htext
    simp [Utf8.decode, Utf8.decodeChars, Utf8.segments, Utf8.leading, Utf8.Segment.width,
      Utf8.collect, Except.map] at this
  exact ⟨hflush, hinflates, (h 0 _ rfl).2 hnone, (h 1 _ rfl).1 _ (by decide),
    (h 2 _ rfl).1 _ (by decide)⟩

end Inflater

end Switchboard
