import Switchboard.Proofs.Wire.Turns

/-!
# Messages in fragments

In stream mode bytes are held back until they end in the mark of a flush. So it does not matter into
how many binary frames a message is cut, as long as no frame but the last completes the mark, nor
what other frames come between: the last frame gives what the message gives in one piece.

## Main definitions

* `Inflater.pushAll`: frames one after the other.
* `Inflater.gathered`: the bytes of the binary frames among them.

## Main results

* `Inflater.pushAll_of_held`: frames that complete no message.
* `Inflater.not_isSuffixOf_pushAll`: what is held back never ends in the mark.
* `Inflater.push_of_fragments`: a message in fragments.
-/
namespace Switchboard

namespace Inflater

variable {σ : Type} {d : Decompressor σ} {i : Inflater σ}

/-- Takes frames one after the other: the inflater in the end and what each of them gave. -/
def pushAll (d : Decompressor σ) (i : Inflater σ) :
    List Frame → Inflater σ × List (Except Failure (Option String))
  | [] => (i, [])
  | f :: fs =>
    let (next, result) := push d i f
    let (last, results) := pushAll d next fs
    (last, result :: results)

theorem pushAll_cons (d : Decompressor σ) (i : Inflater σ) (f : Frame) (fs : List Frame) :
    pushAll d i (f :: fs) =
      ((pushAll d (push d i f).1 fs).1, (push d i f).2 :: (pushAll d (push d i f).1 fs).2) := rfl

/-- The bytes of a binary frame; other frames have none that could be held back. -/
def held : Frame → List UInt8
  | .binary bytes => bytes
  | _ => []

/-- The bytes of the binary frames. -/
def gathered (fs : List Frame) : List UInt8 := fs.flatMap held

/-- What a frame gives that completes no message: a text if it is one. -/
def aside : Frame → Except Failure (Option String)
  | .text bytes => (asText bytes).map some
  | _ => .ok none

/-- A frame other than a binary one gives the same at any time and leaves everything as it is. -/
theorem push_of_not_binary (d : Decompressor σ) (i : Inflater σ) {f : Frame}
    (hf : ∀ bytes, f ≠ .binary bytes) : push d i f = (i, aside f) := by
  cases f with
  | binary bytes => exact absurd rfl (hf bytes)
  | text | ping | pong | close => rfl

theorem endsMessage_iff {bytes : List UInt8} : endsMessage bytes = true ↔ flushMark <:+ bytes :=
  List.isSuffixOf_iff_suffix

/-- A frame that completes no message is held back. -/
theorem push_of_held (hmode : i.mode = .stream) {f : Frame}
    (h : ¬ flushMark <:+ i.buffer ++ held f) :
    push d i f = ({ i with buffer := i.buffer ++ held f }, aside f) := by
  cases f with
  | binary bytes =>
    have hends : endsMessage (i.buffer ++ bytes) = false :=
      Bool.eq_false_iff.mpr fun hends => h (endsMessage_iff.mp hends)
    simp [push, hmode, hends, held, aside]
  | text | ping | pong | close => simp [push, held, aside]

/-- Frames that complete no message are held back. -/
theorem pushAll_of_held (hmode : i.mode = .stream) {fs : List Frame}
    (h : ∀ xs, xs <+: fs → ¬ flushMark <:+ i.buffer ++ gathered xs) :
    pushAll d i fs = ({ i with buffer := i.buffer ++ gathered fs }, fs.map aside) := by
  induction fs generalizing i with
  | nil => simp [pushAll, gathered]
  | cons f fs ih =>
    have hfirst : ¬ flushMark <:+ i.buffer ++ held f := by
      simpa [gathered] using h [f] (by simp)
    have hrest : ∀ xs, xs <+: fs →
        ¬ flushMark <:+ (i.buffer ++ held f) ++ gathered xs := fun xs hxs => by
      simpa [gathered] using h (f :: xs) (List.cons_prefix_cons.mpr ⟨rfl, hxs⟩)
    have hmode' : ({ i with buffer := i.buffer ++ held f } : Inflater σ).mode = .stream := hmode
    rw [pushAll_cons, push_of_held hmode hfirst, ih hmode' hrest]
    simp [gathered]

/-- A frame that completes a message. -/
theorem push_of_endsMessage (hmode : i.mode = .stream) {bytes : List UInt8}
    (h : flushMark <:+ i.buffer ++ bytes) : push d i (.binary bytes) =
      (let whole := { i with buffer := i.buffer ++ bytes }
       ({ whole with buffer := [], engine := (inflateBuffer d whole).1 },
        (inflateBuffer d whole).2.map some)) := by
  simp [push, hmode, endsMessage_iff.mpr h]

/-- Bytes that are held back count as the beginning of the next frame. -/
theorem push_append (hmode : i.mode = .stream) (first rest : List UInt8) :
    push d { i with buffer := i.buffer ++ first } (.binary rest) =
      push d i (.binary (first ++ rest)) := by
  simp [push, hmode]

/-- After any frame, what is held back does not end in the mark if it did not before. -/
theorem not_isSuffixOf_push (f : Frame) (h : ¬ flushMark <:+ i.buffer) :
    ¬ flushMark <:+ (push d i f).1.buffer := by
  cases f with
  | binary bytes =>
    cases hmode : i.mode with
    | none | payload => simpa [push, hmode] using h
    | stream =>
      by_cases hends : flushMark <:+ i.buffer ++ bytes
      · rw [push_of_endsMessage hmode hends]
        exact (by decide : ¬ flushMark <:+ [])
      · have hheld : ¬ flushMark <:+ i.buffer ++ held (.binary bytes) := hends
        rw [push_of_held hmode hheld]
        exact hends
  | text | ping | pong | close => exact h

theorem not_isSuffixOf_pushAll (fs : List Frame) (h : ¬ flushMark <:+ i.buffer) :
    ¬ flushMark <:+ (pushAll d i fs).1.buffer := by
  induction fs generalizing i with
  | nil => exact h
  | cons f fs ih => exact ih (not_isSuffixOf_push f h)

/-- **A message in fragments.** With nothing held back, frames that complete no message give nothing
but the texts of the text frames, which a new inflater gives as well. A binary frame that completes
one then gives what all the bytes give in one frame, and leaves the same state. Whatever the frames
and what they come to, the bytes held back never end in the mark, and a text frame changes
nothing. -/
theorem push_of_fragments (d : Decompressor σ) {i : Inflater σ} (hmode : i.mode = .stream)
    (hbuffer : i.buffer = []) :
    (∀ (fs : List Frame) (last : List UInt8), (∀ xs, xs <+: fs → ¬ flushMark <:+ gathered xs) →
      flushMark <:+ gathered fs ++ last →
        (∀ (n : Nat) bytes, fs[n]? = some (.binary bytes) →
          (pushAll d i fs).2[n]? = some (.ok none)) ∧
        (∀ (n : Nat) f, fs[n]? = some f → (∀ bytes, f ≠ .binary bytes) →
          (pushAll d i fs).2[n]? = some (push d (new d .stream) f).2) ∧
        push d (pushAll d i fs).1 (.binary last) = push d i (.binary (gathered fs ++ last)) ∧
        (push d (pushAll d i fs).1 (.binary last)).1.buffer = []) ∧
    (∀ fs, ¬ flushMark <:+ (pushAll d i fs).1.buffer) ∧
    (∀ fs bytes, push d (pushAll d i fs).1 (.text bytes) =
      ((pushAll d i fs).1, (push d (new d .stream) (.text bytes)).2)) := by
  refine ⟨fun fs last hheld hends => ?_, fun fs => ?_, fun fs bytes => rfl⟩
  · have hall : pushAll d i fs = ({ i with buffer := i.buffer ++ gathered fs }, fs.map aside) :=
      pushAll_of_held hmode (by simpa [hbuffer] using hheld)
    have hends' : flushMark <:+ i.buffer ++ (gathered fs ++ last) := by rwa [hbuffer]
    rw [hall]
    refine ⟨fun n bytes hn => ?_, fun n f hn hf => ?_, push_append hmode _ _, ?_⟩
    · simp [hn, aside]
    · simp [hn, push_of_not_binary d (new d .stream) hf]
    · rw [push_append hmode, push_of_endsMessage hmode hends']
  · refine not_isSuffixOf_pushAll fs ?_
    rw [hbuffer]
    decide

/-- A word in a stream, with its flush. -/
def flushed : List UInt8 := [120, 156, 202, 200, 4, 0, 0, 0, 255, 255]

/-- The same but for the last byte, in two frames that share the mark of the flush with that byte. A
text and a ping come between. -/
def straddling : List Frame :=
  [.binary [120, 156, 202, 200, 4, 0, 0], .text [104, 109], .binary [0, 255], .ping []]

/-- The last byte gives the word, as one frame of all the bytes does, and the text that came between
is given at once. -/
theorem push_of_fragments_straddling :
    (∀ xs, xs <+: straddling → ¬ flushMark <:+ gathered xs) ∧
    gathered straddling ++ [255] = flushed ∧ flushMark <:+ flushed ∧
    (pushAll .zlib (new .zlib .stream) straddling).2[0]? = some (.ok none) ∧
    (pushAll .zlib (new .zlib .stream) straddling).2[1]? = some (.ok (some "hm")) ∧
    (pushAll .zlib (new .zlib .stream) straddling).2[2]? = some (.ok none) ∧
    push .zlib (pushAll .zlib (new .zlib .stream) straddling).1 (.binary [255]) =
      push .zlib (new .zlib .stream) (.binary flushed) ∧
    (push .zlib (new .zlib .stream) (.binary flushed)).2 = .ok (some "hi") := by
  have hheld : ∀ xs, xs <+: straddling → ¬ flushMark <:+ gathered xs := by
    intro xs hxs
    simp only [straddling, List.prefix_cons_iff, List.prefix_nil] at hxs
    rcases hxs with rfl | ⟨_, rfl, rfl | ⟨_, rfl, rfl | ⟨_, rfl, rfl | ⟨_, rfl, rfl⟩⟩⟩⟩ <;> decide
  have hends : flushMark <:+ gathered straddling ++ [255] := by decide
  obtain ⟨hbinary, hother, hlast, -⟩ :=
    (push_of_fragments Decompressor.zlib (i := new .zlib .stream) rfl rfl).1 _ _ hheld hends
  have htext : (push .zlib (new .zlib .stream) (.text [104, 109])).2 = .ok (some "hm") := by
    have hread : asText [104, 109] = .ok "hm" := asText_encode "hm"
    rw [push, hread]
    rfl
  refine ⟨hheld, rfl, hends, hbinary 0 _ rfl, ?_, hbinary 2 _ rfl, hlast, ?_⟩
  · rw [hother 1 (.text [104, 109]) rfl (by simp), htext]
  · -- One call takes the whole message in.
    have hcall : (Decompressor.zlib.feed .start flushed (Decompressor.initialRoom flushed)).2 =
        .moved flushed.length [104, 105] := by decide +kernel
    rcases hfeed : Decompressor.zlib.feed .start flushed (Decompressor.initialRoom flushed)
      with ⟨next, _⟩
    rw [hfeed] at hcall
    obtain rfl := hcall
    have hword : inflateBuffer .zlib ⟨.stream, flushed, .start⟩ = (next, asText [104, 105]) :=
      inflateBuffer_of_feed hfeed (by decide)
    have hmark : flushMark <:+ (new .zlib .stream).buffer ++ flushed := hends
    rw [push_of_endsMessage rfl hmark]
    change (inflateBuffer .zlib ⟨.stream, flushed, .start⟩).2.map some = .ok (some "hi")
    have hread : asText [104, 105] = .ok "hi" := asText_encode "hi"
    rw [hword, hread]
    rfl

end Inflater

end Switchboard
