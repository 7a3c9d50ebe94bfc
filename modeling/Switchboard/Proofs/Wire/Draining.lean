import Switchboard.Proofs.Wire.Packets

/-!
# The end of the loop

A buffer goes through a decompressor in calls, each with room for output. What is relied on is said
of single calls: they keep to the input and to the room, and output waits only when the room was
filled; and all calls on one buffer together give so many bytes at most. Then the loop ends, whatever
the room at its beginning, and what it hands over is all that the buffer comes to.

## Main definitions

* `Decompressor.Fed`: what calls on a buffer come to.
* `Decompressor.Pending`: output waits in a state.
* `Decompressor.Fair`: what is relied on.
* `Decompressor.Ends`: the ends that the loop may have.

## Main results

* `Decompressor.Fair.turn`: one turn ends the loop, or leaves less to consume or to come.
* `Decompressor.Fair.drain_of_fed`: the loop ends in one of these, after so many calls at most.
* `Decompressor.fair_of_inflates`: the contract on a stream makes each of its packets fair.
* `Decompressor.zlib_fair`: the decompressor in use can be relied on.
* `Inflater.whole_of_buffer`: a buffer gives a failure to decode, or all of its output as a text.
* `Inflater.drain_of_frames`: whatever arrived before, the loop ends on the next buffer.
-/
namespace Switchboard

namespace Decompressor

variable {σ : Type} {d : Decompressor σ} {engine s next : σ}
  {input rest out given produced : List UInt8} {n most room consumed : Nat}

/-- After `n` calls on a buffer, all with room, the decompressor is in state `s`, `rest` is left of
the buffer, and `given` is all that came. -/
inductive Fed (d : Decompressor σ) (engine : σ) (input : List UInt8) :
    Nat → σ → (rest given : List UInt8) → Prop where
  | start : Fed d engine input 0 engine input []
  | call {n : Nat} {s next : σ} {rest given produced : List UInt8} {room consumed : Nat} :
      Fed d engine input n s rest given → 0 < room →
        d.feed s rest room = (next, .moved consumed produced) →
        Fed d engine input (n + 1) next (rest.drop consumed) (given ++ produced)

/-- Output waits: a call gives some without further input. -/
def Pending (d : Decompressor σ) (s : σ) : Prop :=
  ∃ room next consumed produced, 0 < room ∧
    d.feed s [] room = (next, .moved consumed produced) ∧ produced ≠ []

/-- What a call does that moves something: it keeps to the input and to the room, and it leaves
output waiting only when it has filled the room. -/
structure Keeps (d : Decompressor σ) (rest : List UInt8) (room : Nat) (next : σ) (consumed : Nat)
    (produced : List UInt8) : Prop where
  consumed_le : consumed ≤ rest.length
  length_le : produced.length ≤ room
  flushed : produced.length < room → ¬ d.Pending next

/-- What is relied on of the calls on a buffer: each of them keeps to what it was given, and all
together give `most` bytes at most. -/
structure Fair (d : Decompressor σ) (engine : σ) (input : List UInt8) (most : Nat) : Prop where
  keeps : ∀ n s rest given, d.Fed engine input n s rest given → ∀ room, 0 < room →
    ∀ next consumed produced, d.feed s rest room = (next, .moved consumed produced) →
      d.Keeps rest room next consumed produced
  length_le : ∀ n s rest given, d.Fed engine input n s rest given → given.length ≤ most

/-- The ends of the loop on a buffer, after `n` calls. -/
inductive Ends (d : Decompressor σ) (engine : σ) (input : List UInt8) :
    Nat → σ × Except Failure (List UInt8) → Prop where
  /-- All of the buffer was consumed, and all that it comes to was given. -/
  | drained {n : Nat} {s : σ} {out : List UInt8} (h : d.Fed engine input n s [] out)
      (hall : ¬ d.Pending s) : Ends d engine input n (s, .ok out)
  | corrupt {n : Nat} {s next : σ} {rest given : List UInt8} {room : Nat}
      (h : d.Fed engine input n s rest given) (hfeed : d.feed s rest room = (next, .failed)) :
      Ends d engine input (n + 1)
        (next, .error (.decode "zlib stream: deflate decompression error"))
  /-- With bytes of the buffer left and room for output, nothing was moved. -/
  | stuck {n : Nat} {s next : σ} {rest given : List UInt8} {room : Nat}
      (h : d.Fed engine input n s rest given) (hrest : rest ≠ []) (hroom : 0 < room)
      (hfeed : d.feed s rest room = (next, .moved 0 [])) :
      Ends d engine input (n + 1) (next, .error (.decode "zlib stream made no progress"))

/-! ## The loop -/

/-- Output that fills the room to the brim with the last byte is not the end yet: the next turn has
wider room and finds that there is no more. -/
theorem drain_of_brim {last : σ} (hroom : 0 < room)
    (hfeed : d.feed s rest room = (next, .moved rest.length produced))
    (hbrim : produced.length = room)
    (hagain : d.feed next [] (grow room - room) = (last, .moved 0 [])) :
    d.drain s rest [] room = some (last, .ok produced) := by
  have hfirst : widened [] room = room := if_neg (Nat.ne_of_lt hroom)
  have hsecond : widened produced room = grow room := if_pos hbrim
  have hturn : d.drain s rest [] room =
      d.drain next (rest.drop rest.length) ([] ++ produced) (widened [] room) :=
    drain_of_moved (by rw [hfirst]; exact hfeed)
      (.inr (List.ne_nil_of_length_pos (hbrim ▸ hroom))) (.inr (by rw [hfirst]; exact hbrim))
  rw [List.drop_length, List.nil_append, hfirst] at hturn
  have hend : d.drain next [] produced room = some (last, .ok (produced ++ [])) :=
    drain_of_room (by rw [hsecond, hbrim]; exact hagain)
      (by rw [List.append_nil]; exact length_lt_widened (Nat.le_of_eq hbrim))
  rw [hturn, hend, List.append_nil]

/-- **One turn** ends the loop, or is followed by one at which less is left to consume or may still
come. -/
theorem Fair.turn (h : d.Fair engine input most) (hfed : d.Fed engine input n s rest out)
    (hlen : out.length ≤ room) :
    (∃ result, d.drain s rest out room = some result ∧ d.Ends engine input (n + 1) result) ∨
      ∃ next rest' out', d.drain s rest out room = d.drain next rest' out' (widened out room) ∧
        d.Fed engine input (n + 1) next rest' out' ∧ out'.length ≤ widened out room ∧
        rest'.length + (most - out'.length) < rest.length + (most - out.length) := by
  have hlt := length_lt_widened hlen
  have hspace : 0 < widened out room - out.length := Nat.sub_pos_of_lt hlt
  cases hfeed : d.feed s rest (widened out room - out.length) with
  | mk next outcome =>
    cases outcome with
    | failed => exact .inl ⟨_, drain_of_failed hfeed, .corrupt hfed hfeed⟩
    | moved consumed produced =>
      have hkeeps := h.keeps n s rest out hfed _ hspace next consumed produced hfeed
      have hnext := hfed.call hspace hfeed
      have hconsumed := hkeeps.consumed_le
      have hroom : (out ++ produced).length ≤ widened out room := by
        have hproduced := hkeeps.length_le
        rw [List.length_append]
        omega
      by_cases hdone : rest.drop consumed = [] ∧ (out ++ produced).length < widened out room
      · obtain ⟨hnone, hless⟩ := hdone
        obtain rfl : consumed = rest.length :=
          Nat.le_antisymm hconsumed (List.drop_eq_nil_iff.mp hnone)
        refine .inl ⟨_, drain_of_room hfeed hless, .drained (hnone ▸ hnext) (hkeeps.flushed ?_)⟩
        rw [List.length_append] at hless
        omega
      · -- Here the decompressor filled the room or refused input: it matters whether it moved.
        have hleft : rest.drop consumed ≠ [] ∨ (out ++ produced).length = widened out room := by
          rw [Classical.not_and_iff_not_or_not] at hdone
          exact hdone.imp_right fun hno => Nat.le_antisymm hroom (Nat.not_lt.mp hno)
        by_cases hidle : consumed = 0 ∧ produced = []
        · obtain ⟨rfl, rfl⟩ := hidle
          have hrest : rest ≠ [] := by
            refine hleft.resolve_right fun hfull => ?_
            rw [List.append_nil] at hfull
            omega
          exact .inl ⟨_, drain_of_idle hrest hfeed, .stuck hfed hrest hspace hfeed⟩
        · have hmoved : consumed ≠ 0 ∨ produced ≠ [] := by
            rwa [Classical.not_and_iff_not_or_not] at hidle
          refine .inr ⟨_, _, _, drain_of_moved hfeed hmoved hleft, hnext, hroom, ?_⟩
          have hmost := h.length_le _ _ _ _ hnext
          rw [List.length_append] at hmost
          rw [List.length_drop, List.length_append]
          rcases hmoved with hmoved | hmoved
          · omega
          · have hpos := List.length_pos_iff.mpr hmoved
            omega

/-- **The loop ends** in one of the ways there are, from any point that calls on the buffer lead to.
Every turn but the last consumes or gives a byte, so there are only so many. -/
theorem Fair.drain_of_fed (h : d.Fair engine input most) (hfed : d.Fed engine input n s rest out)
    (hlen : out.length ≤ room) :
    ∃ n' result, d.drain s rest out room = some result ∧ d.Ends engine input n' result ∧
      n' ≤ n + (rest.length + (most - out.length)) + 1 := by
  induction hleft : rest.length + (most - out.length) using Nat.strongRecOn
    generalizing n s rest out room with
  | ind left ih =>
    rcases h.turn hfed hlen with ⟨result, hdrain, hends⟩ | ⟨next, rest', out', hdrain, hnext, hroom,
      hless⟩
    · exact ⟨n + 1, result, hdrain, hends, by omega⟩
    · rw [hleft] at hless
      obtain ⟨n', result, hlater, hends, hcount⟩ := ih _ hless hnext hroom rfl
      exact ⟨n', result, hdrain.trans hlater, hends, by omega⟩

/-! ## A stream packet by packet -/

variable {stream ps : List Packet} {p : Packet}

theorem Fed.reaches (h : d.Fed engine p.wire n s rest given)
    (hreach : d.Reaches ps engine [] (Packet.messages ps)) :
    d.Reaches (ps ++ [p]) s rest (Packet.messages ps ++ given) := by
  induction h with
  | start =>
    rw [List.append_nil]
    exact hreach.arrive p
  | call _ hroom hfeed ih =>
    rw [← List.append_assoc]
    exact ih.feed hroom hfeed

/-- **The contract on a stream** makes each of its packets fair: it gives its message and no more,
and nothing of it waits where room was left. -/
theorem fair_of_inflates (hd : d.Inflates stream) (hps : ps ++ [p] <+: stream)
    (hreach : d.Reaches ps engine [] (Packet.messages ps)) :
    d.Fair engine p.wire p.message.length where
  keeps := by
    intro n s rest given hfed room hroom next consumed produced hfeed
    have hreaches := hfed.reaches hreach
    obtain ⟨_, _, _, hcall, hmoves⟩ := hd _ hps s rest _ hreaches room hroom
    rw [hfeed] at hcall
    cases hcall
    refine ⟨hmoves.consumed_le, hmoves.length_le, fun hless => ?_⟩
    rintro ⟨room', next', consumed', produced', hroom', hfeed', hsome⟩
    -- More would be given than was written.
    obtain ⟨hall, hgiven⟩ := hmoves.flushed hless
    have hnext := hreaches.feed hroom hfeed
    rw [hall, List.drop_length] at hnext
    obtain ⟨_, _, _, hcall', hmoves'⟩ := hd _ hps next [] _ hnext room' hroom'
    rw [hfeed'] at hcall'
    cases hcall'
    have hle := hmoves'.sound.length_le
    rw [hgiven, List.length_append] at hle
    have hpos := List.length_pos_iff.mpr hsome
    omega
  length_le := by
    intro n s rest given hfed
    cases hfed with
    | start => exact Nat.zero_le _
    | @call n s _ rest given produced room consumed hfed hroom hfeed =>
      obtain ⟨_, _, _, hcall, hmoves⟩ := hd _ hps s rest _ (hfed.reaches hreach) room hroom
      rw [hfeed] at hcall
      cases hcall
      have hle := hmoves.sound.length_le
      rw [Packet.messages_concat, List.append_assoc] at hle
      simpa using hle

/-! ## The decompressor in use -/

open Deflate (Stream)

/-- All that arrived is taken up, unless the stream has ended. -/
def taken (s : Stream) (input : List UInt8) : Stream :=
  if s.isFinished then s else s.absorb input

/-- Nothing is left to be taken up. -/
def Calm (s : Stream) (rest : List UInt8) : Prop := s.isFinished = true ∨ s.Settled ∧ rest = []

theorem taken_of_calm {s : Stream} (h : Calm s rest) : taken s rest = s := by
  rcases h with h | ⟨h, rfl⟩
  · rw [taken, if_pos h]
  · rw [taken, h.absorb_nil, ite_self]

theorem Calm.nil {s : Stream} (h : Calm s rest) : Calm s [] := h.imp_right fun h => ⟨h.1, rfl⟩

theorem sound_taken {s : Stream} (h : s.Sound) (input : List UInt8) : (taken s input).Sound := by
  unfold taken
  split
  · exact h
  · exact (h.absorb input).1

/-- A call that moves something takes up all that arrived and gives out as much as fits. -/
theorem of_feed_zlib {s next : Stream}
    (h : zlib.feed s rest room = (next, .moved consumed produced)) :
    next = ((taken s rest).deliver room).1 ∧ produced = ((taken s rest).deliver room).2 ∧
      consumed ≤ rest.length ∧ ((taken s rest).isFinished = true ∨ consumed = rest.length) := by
  simp only [zlib] at h
  rw [← taken] at h
  split at h
  · cases h
  · cases h
    refine ⟨rfl, rfl, ?_, ?_⟩
    · split
      · exact Nat.zero_le _
      · split <;> omega
    · by_cases hfinished : s.isFinished = true
      · exact .inl (by rw [taken, if_pos hfinished]; exact hfinished)
      · by_cases hend : (taken s rest).isFinished = true
        · exact .inl hend
        · exact .inr (by rw [if_neg hfinished, if_neg hend])

/-- A call that fails has taken up all that arrived. -/
theorem of_feed_zlib_failed {s next : Stream} (h : zlib.feed s rest room = (next, .failed)) :
    next = taken s rest := by
  simp only [zlib] at h
  rw [← taken] at h
  split at h
  · exact (congrArg Prod.fst h).symm
  · cases h

/-- After a call that moves something nothing is left to be taken up. -/
theorem calm_of_feed {s next : Stream} (hs : s.Sound)
    (h : zlib.feed s rest room = (next, .moved consumed produced)) :
    next.Sound ∧ Calm next (rest.drop consumed) := by
  obtain ⟨rfl, -, -, hend⟩ := of_feed_zlib h
  refine ⟨(sound_taken hs rest).deliver room, ?_⟩
  by_cases hfinished : (taken s rest).isFinished = true
  · exact .inl (by rw [Stream.isFinished_deliver, hfinished])
  · obtain rfl := hend.resolve_left hfinished
    have hopen : s.isFinished ≠ true := fun hyes => by
      rw [taken, if_pos hyes] at hfinished
      exact hfinished hyes
    refine .inr ⟨Stream.Settled.deliver ?_ room, List.drop_length⟩
    rw [taken, if_neg hopen]
    exact (hs.absorb rest).2

/-- Output waits only if there are bytes that were decoded and not given out. -/
theorem waiting_of_pending {s : Stream} (hcalm : Calm s []) (h : zlib.Pending s) :
    s.waiting ≠ 0 := by
  obtain ⟨room, next, consumed, produced, -, hfeed, hsome⟩ := h
  obtain ⟨-, rfl, -, -⟩ := of_feed_zlib hfeed
  rw [taken_of_calm hcalm] at hsome
  have hpos := List.length_pos_iff.mpr hsome
  rw [Stream.length_deliver] at hpos
  omega

/-- What was given and what waits is what waits when the buffer has been taken up. -/
theorem Fed.waiting {s t : Stream} (hs : s.Sound) (h : zlib.Fed s input n t rest given) :
    t.Sound ∧ given.length + (taken t rest).waiting = (taken s input).waiting := by
  induction h with
  | start => exact ⟨hs, Nat.zero_add _⟩
  | call _ _ hfeed ih =>
    obtain ⟨ht, hsum⟩ := ih
    obtain ⟨hnext, hcalm⟩ := calm_of_feed ht hfeed
    obtain ⟨rfl, rfl, -, -⟩ := of_feed_zlib hfeed
    refine ⟨hnext, ?_⟩
    rw [taken_of_calm hcalm, List.length_append, Stream.length_deliver, Stream.waiting_deliver]
    omega

/-- **The decompressor in use** can be relied on in every state in which the item that is read next
is not empty: a buffer gives the bytes that it is decoded to. -/
theorem zlib_fair {s : Stream} (hs : s.Sound) (input : List UInt8) :
    zlib.Fair s input (taken s input).waiting where
  keeps := by
    intro n t rest given hfed room _ next consumed produced hfeed
    obtain ⟨-, hcalm⟩ := calm_of_feed (hfed.waiting hs).1 hfeed
    obtain ⟨hnext, rfl, hconsumed, -⟩ := of_feed_zlib hfeed
    refine ⟨hconsumed, ?_, fun hless hpending => waiting_of_pending hcalm.nil hpending ?_⟩
    · rw [Stream.length_deliver]
      exact Nat.min_le_right _ _
    · rw [Stream.length_deliver] at hless
      rw [hnext, Stream.waiting_deliver]
      omega
  length_le := by
    intro n t rest given hfed
    obtain ⟨-, hsum⟩ := hfed.waiting hs
    omega

/-- However the loop ends, the item that would be read next is not empty. -/
theorem Ends.sound {s t : Stream} {result : Except Failure (List UInt8)} (hs : s.Sound)
    (h : zlib.Ends s input n (t, result)) : t.Sound := by
  cases h with
  | drained h _ => exact (h.waiting hs).1
  | corrupt h hfeed =>
    obtain rfl := of_feed_zlib_failed hfeed
    exact sound_taken (h.waiting hs).1 _
  | stuck h _ _ hfeed => exact (calm_of_feed (h.waiting hs).1 hfeed).1

end Decompressor

namespace Inflater

variable {σ : Type} {d : Decompressor σ}

/-- Reading bytes gives a failure to decode, or the text whose encoding they are. -/
theorem asText_cases (bytes : List UInt8) :
    (∃ reason, asText bytes = .error (.decode reason)) ∨
      ∃ text, asText bytes = .ok text ∧ Utf8.encode text = bytes := by
  by_cases h : ∃ text, Utf8.encode text = bytes
  · obtain ⟨text, rfl⟩ := h
    exact .inr ⟨text, asText_encode text, rfl⟩
  · exact .inl (asText_of_forall_ne (not_exists.mp h))

/-- **A buffer to its end.** Let the calls on a buffer keep to the input and to the room, let output
wait only when the room was filled, and let them give so many bytes together at most. Then the loop
ends, whatever the room at its beginning, after no more calls than there are bytes to consume and to
give, and one. It ends with a failure to decode, or has consumed the whole buffer and was given all
that it comes to; then the inflater reads this as a text. -/
theorem whole_of_buffer (d : Decompressor σ) (engine : σ) (buffer : List UInt8) (most : Nat)
    (h : d.Fair engine buffer most) :
    (∀ room, ∃ n result, d.drain engine buffer [] room = some result ∧
      d.Ends engine buffer n result ∧ n ≤ buffer.length + most + 1) ∧
    ∀ mode, ∃ n next result, d.Ends engine buffer n (next, result) ∧
      n ≤ buffer.length + most + 1 ∧
      inflateBuffer d ⟨mode, buffer, engine⟩ = (next, result.bind asText) ∧
      ((∃ reason, result.bind asText = .error (.decode reason)) ∨
        ∃ out text, result = .ok out ∧ result.bind asText = .ok text ∧ Utf8.encode text = out) := by
  have hloop : ∀ room, ∃ n result, d.drain engine buffer [] room = some result ∧
      d.Ends engine buffer n result ∧ n ≤ buffer.length + most + 1 := fun room => by
    obtain ⟨n, result, hdrain, hends, hcount⟩ := h.drain_of_fed .start (Nat.zero_le room)
    exact ⟨n, result, hdrain, hends, by simpa using hcount⟩
  refine ⟨hloop, fun mode => ?_⟩
  obtain ⟨n, ⟨next, result⟩, hdrain, hends, hcount⟩ := hloop (Decompressor.initialRoom buffer)
  refine ⟨n, next, result, hends, hcount, inflateBuffer_of_drain hdrain, ?_⟩
  cases hends with
  | drained =>
    rename_i out _ _
    exact (asText_cases out).imp_right fun ⟨text, htext, hout⟩ => ⟨out, text, rfl, htext, hout⟩
  | corrupt => exact .inl ⟨_, rfl⟩
  | stuck => exact .inl ⟨_, rfl⟩

/-- Of these bytes come eight, the last of them with the last byte. -/
def brimful : List UInt8 := [120, 156, 202, 200, 84, 200, 0, 33, 0, 0, 0, 0, 255, 255]

/-- With room for eight bytes, the first call consumes the buffer and fills the room to the brim;
the loop makes another turn, which finds that there is no more. -/
theorem whole_of_buffer_brimful :
    Decompressor.zlib.Fair .start brimful 8 ∧
    (∃ first, Decompressor.zlib.feed .start brimful 8 =
      (first, .moved brimful.length [104, 105, 32, 104, 105, 32, 104, 105])) ∧
    ∃ n next, Decompressor.zlib.drain .start brimful [] 8 =
        some (next, .ok [104, 105, 32, 104, 105, 32, 104, 105]) ∧
      Decompressor.zlib.Ends .start brimful n (next, .ok [104, 105, 32, 104, 105, 32, 104, 105]) ∧
      n ≤ brimful.length + 8 + 1 := by
  have hfair : Decompressor.zlib.Fair .start brimful 8 := by
    have h := Decompressor.zlib_fair Deflate.Stream.sound_start brimful
    rwa [show (Decompressor.taken .start brimful).waiting = 8 by decide +kernel] at h
  have hfirst : (Decompressor.zlib.feed .start brimful 8).2 =
      .moved brimful.length [104, 105, 32, 104, 105, 32, 104, 105] := by decide +kernel
  have hsecond : (Decompressor.zlib.feed (Decompressor.zlib.feed .start brimful 8).1 [] 1024).2 =
      .moved 0 [] := by decide +kernel
  rcases hcall : Decompressor.zlib.feed .start brimful 8 with ⟨first, _⟩
  rw [hcall] at hfirst hsecond
  obtain rfl := hfirst
  rcases hagain : Decompressor.zlib.feed first [] 1024 with ⟨second, _⟩
  rw [hagain] at hsecond
  obtain rfl := hsecond
  have hturns := Decompressor.drain_of_brim (by decide) hcall rfl hagain
  obtain ⟨n, result, hdrain, hends, hcount⟩ :=
    (whole_of_buffer .zlib .start brimful 8 hfair).1 8
  obtain rfl : result = _ := Option.some.inj (hdrain.symm.trans hturns)
  exact ⟨hfair, ⟨first, rfl⟩, n, second, hturns, hends, hcount⟩

/-! ## Any frames -/

open Deflate (Stream)

/-- The loop never leaves the decompressor in use where a next one might not end. -/
theorem sound_inflateBuffer {i : Inflater Stream} (h : i.engine.Sound) :
    (inflateBuffer .zlib i).1.Sound := by
  obtain ⟨n, ⟨next, result⟩, hdrain, hends, -⟩ :=
    (Decompressor.zlib_fair h i.buffer).drain_of_fed .start (Nat.zero_le _)
  rw [inflateBuffer_of_drain hdrain]
  exact hends.sound h

theorem sound_push {i : Inflater Stream} (h : i.engine.Sound) (f : Frame) :
    (push .zlib i f).1.engine.Sound := by
  cases f with
  | binary bytes =>
    cases hmode : i.mode with
    | stream =>
      by_cases hends : flushMark <:+ i.buffer ++ bytes
      · rw [push_of_endsMessage hmode hends]
        exact sound_inflateBuffer (i := { i with buffer := i.buffer ++ bytes }) h
      · have hheld : ¬ flushMark <:+ i.buffer ++ held (.binary bytes) := hends
        rw [push_of_held hmode hheld]
        exact h
    | none | payload =>
      simp only [push, hmode]
      exact h
  | text | ping | pong | close => exact h

theorem sound_pushAll {i : Inflater Stream} (h : i.engine.Sound) (fs : List Frame) :
    (pushAll .zlib i fs).1.engine.Sound := by
  induction fs generalizing i with
  | nil => exact h
  | cons f fs ih => exact ih (sound_push h f)

/-- **The decompressor in use, after any frames.** Whatever arrived before, the loop ends on the next
buffer. -/
theorem drain_of_frames (mode : Compression) (fs : List Frame) (buffer : List UInt8) (room : Nat) :
    ∃ n result, Decompressor.zlib.drain (pushAll .zlib (new .zlib mode) fs).1.engine buffer [] room =
        some result ∧
      Decompressor.zlib.Ends (pushAll .zlib (new .zlib mode) fs).1.engine buffer n result := by
  obtain ⟨n, result, hdrain, hends, -⟩ :=
    (Decompressor.zlib_fair (sound_pushAll (i := new .zlib mode) Stream.sound_start fs)
      buffer).drain_of_fed .start (Nat.zero_le room)
  exact ⟨n, result, hdrain, hends⟩

end Inflater

end Switchboard
