import Switchboard.Proofs.Wire.Transports

/-!
# What there is to report of a connection

What a connection reports is settled by the other side. The course of events begins with the opening,
goes on with what the inflater makes of the frames, one by one, and ends with the end. All that this
side can do about it is to cut it short.

## Main definitions

* `Behaviour`: what the other side does.
* `Behaviour.course`: what there is to report of it.
* `Told`: what a connection may have reported, and whether that includes the last word.

## Main results

* `Told.isPrefix_course`: what was told is a first part of the course, all of it with the last word.
-/
namespace Switchboard

/-- What is reported of a data frame when the inflater comes to this. -/
def LinkEvent.ofPush : Except Failure (Option String) → List LinkEvent
  | .ok (some text) => [.received text]
  | .ok none => []
  | .error failure => [.failed failure.message]

theorem LinkEvent.length_ofPush (result : Except Failure (Option String)) :
    (LinkEvent.ofPush result).length ≤ 1 := by
  match result with
  | .ok (some text) => simp [ofPush]
  | .ok none => simp [ofPush]
  | .error failure => simp [ofPush]

theorem LinkEvent.opened_notMem_ofPush (result : Except Failure (Option String)) :
    .opened ∉ LinkEvent.ofPush result := by
  match result with
  | .ok (some text) => simp [ofPush]
  | .ok none => simp [ofPush]
  | .error failure => simp [ofPush]

namespace Inflater

/-- Takes one thing that the other side gives, after others of which something was reported. -/
def hear (s : Inflater Deflate.Stream × List LinkEvent) :
    Inbound → Inflater Deflate.Stream × List LinkEvent
  | .frame f => ((push .zlib s.1 f).1, s.2 ++ LinkEvent.ofPush (push .zlib s.1 f).2)
  | _ => s

/-- Takes things one by one; gives the inflater afterwards and what is reported of them. -/
def hearAll (mode : Compression) (items : List Inbound) :
    Inflater Deflate.Stream × List LinkEvent :=
  items.foldl hear (.new .zlib mode, [])

theorem hearAll_snoc (mode : Compression) (items : List Inbound) (i : Inbound) :
    hearAll mode (items ++ [i]) = hear (hearAll mode items) i := by
  simp [hearAll]

/-- More is reported of more. -/
theorem foldl_hear (items : List Inbound) (s : Inflater Deflate.Stream × List LinkEvent) :
    ∃ events, (items.foldl hear s).2 = s.2 ++ events := by
  induction items generalizing s with
  | nil => exact ⟨[], by simp⟩
  | cons i items ih =>
    obtain ⟨events, hevents⟩ := ih (hear s i)
    rw [List.foldl_cons, hevents]
    cases i with
    | frame f => exact ⟨LinkEvent.ofPush (push .zlib s.1 f).2 ++ events, by simp [hear]⟩
    | _ => exact ⟨events, rfl⟩

/-- What is reported of all is what is reported of the first of it, and more. -/
theorem exists_hearAll (mode : Compression) (items : List Inbound) (n : Nat) :
    ∃ more, (hearAll mode items).2 = (hearAll mode (items.take n)).2 ++ more := by
  obtain ⟨more, hmore⟩ := foldl_hear (items.drop n) (hearAll mode (items.take n))
  rw [hearAll, ← List.foldl_append, List.take_append_drop] at hmore
  exact ⟨more, hmore⟩

end Inflater

/-- What the other side of a connection does: it refuses the connection, or gives this. -/
structure Behaviour where
  obstacle : Option Failure := none
  items : List Inbound := []

namespace Behaviour

/-- What the other side gives before the end. -/
def heard (b : Behaviour) : List Inbound := b.items.takeWhile (·.last?.isNone)

/-- The end, if the other side comes to it. -/
def last? (b : Behaviour) : Option LinkEvent := b.items.findSome? Inbound.last?

/-- What a connection reports when nobody closes it on this side. -/
def course (b : Behaviour) (mode : Compression) : List LinkEvent :=
  match b.obstacle with
  | some failure => [.failed failure.message]
  | none => .opened :: (Inflater.hearAll mode b.heard).2 ++ b.last?.toList

section Items

-- A reader has taken `n` things, none of which was the end.
variable {b : Behaviour} {n : Nat} {i : Inbound} {e : LinkEvent} (hn : n ≤ b.heard.length)
include hn

/-- What comes next and is not the end is heard. -/
theorem heard_of_none (hi : b.items[n]? = some i) (hl : i.last? = none) :
    n < b.heard.length ∧ b.heard.take (n + 1) = b.heard.take n ++ [i] := by
  have hlt : n < b.heard.length := by
    unfold heard at *
    generalize b.items = items at *
    induction items generalizing n with
    | nil => simp at hi
    | cons x xs ih =>
      cases n with
      | zero =>
        obtain rfl : x = i := by simpa using hi
        simp [hl]
      | succ n =>
        cases hx : x.last? with
        | some e => simp [hx] at hn
        | none => simpa [hx] using ih (by simpa [hx] using hn) (by simpa using hi)
  have hget : b.heard[n]? = some i := by
    obtain ⟨rest, hrest⟩ : b.heard <+: b.items := List.takeWhile_prefix _
    rwa [← hrest, List.getElem?_append_left hlt] at hi
  exact ⟨hlt, by rw [List.take_add_one, hget, Option.toList_some]⟩

/-- What comes next and is the end comes after all that is heard. -/
theorem last?_of_some (hi : b.items[n]? = some i) (hl : i.last? = some e) :
    n = b.heard.length ∧ b.last? = some e := by
  unfold heard last? at *
  generalize b.items = items at *
  induction items generalizing n with
  | nil => simp at hi
  | cons x xs ih =>
    cases hx : x.last? with
    | some e' =>
      obtain rfl : n = 0 := by simpa [hx] using hn
      obtain rfl : x = i := by simpa using hi
      obtain rfl : e' = e := by simpa [hx] using hl
      simp [hx]
    | none =>
      cases n with
      | zero =>
        obtain rfl : x = i := by simpa using hi
        simp [hx] at hl
      | succ n => simpa [hx] using ih (by simpa [hx] using hn) (by simpa using hi)

/-- When nothing more comes there was no end. -/
theorem last?_of_none (hi : b.items[n]? = none) : n = b.heard.length ∧ b.last? = none := by
  unfold heard last? at *
  generalize b.items = items at *
  induction items generalizing n with
  | nil => simpa using hn
  | cons x xs ih =>
    cases n with
    | zero => simp at hi
    | succ n =>
      cases hx : x.last? with
      | some e => simp [hx] at hn
      | none => simpa [hx] using ih (by simpa [hx] using hn) (by simpa using hi)

end Items

end Behaviour

/-- What a connection may have reported, and whether that was all to the last word. -/
inductive Told (b : Behaviour) (mode : Compression) : List LinkEvent → Bool → Prop where
  | nothing : Told b mode [] false
  /-- It could not be made. -/
  | refused {failure : Failure} (h : b.obstacle = some failure) :
      Told b mode [.failed failure.message] true
  /-- It was made, and so many frames were read. -/
  | opened (h : b.obstacle = none) {n : Nat} (hn : n ≤ b.heard.length) :
      Told b mode (.opened :: (Inflater.hearAll mode (b.heard.take n)).2) false
  /-- It was made, all frames were read, and it ended. -/
  | ended (h : b.obstacle = none) {e : LinkEvent} (he : b.last? = some e) :
      Told b mode (.opened :: (Inflater.hearAll mode b.heard).2 ++ [e]) true

namespace Told

variable {b : Behaviour} {mode : Compression} {events : List LinkEvent} {whole : Bool}

theorem eq_course (h : Told b mode events true) : events = b.course mode := by
  cases h with
  | refused h => simp [Behaviour.course, h]
  | ended h he => simp [Behaviour.course, h, he]

theorem isPrefix_course (h : Told b mode events whole) : events <+: b.course mode := by
  cases whole with
  | true => exact h.eq_course ▸ List.prefix_rfl
  | false =>
    cases h with
    | nothing => exact List.nil_prefix
    | @opened h n hn =>
      obtain ⟨more, hmore⟩ := Inflater.exists_hearAll mode b.heard n
      exact ⟨more ++ b.last?.toList, by simp [Behaviour.course, h, hmore]⟩

/-- What was told says whether the last word was among it. -/
theorem not_both (h : Told b mode events true) (h' : Told b mode events false) : False := by
  have hends : b.obstacle = none → ∃ e, b.last? = some e := by
    cases h with
    | refused h => simp [h]
    | ended _ he => exact fun _ => ⟨_, he⟩
  have hcourse := h.eq_course
  cases h' with
  | nothing =>
    unfold Behaviour.course at hcourse
    split at hcourse <;> simp at hcourse
  | @opened hobstacle n hn =>
    obtain ⟨e, he⟩ := hends hobstacle
    obtain ⟨more, hmore⟩ := Inflater.exists_hearAll mode b.heard n
    have hlen := congrArg List.length hcourse
    simp [Behaviour.course, hobstacle, he, hmore] at hlen

theorem whole_unique {other : Bool} (h : Told b mode events whole) (h' : Told b mode events other) :
    whole = other := by
  cases whole <;> cases other
  · rfl
  · exact (not_both h' h).elim
  · exact (not_both h h').elim
  · rfl

/-- Nothing can be told after the last word. -/
theorem not_snoc (h : Told b mode events true) (e : LinkEvent) :
    ¬Told b mode (events ++ [e]) whole := by
  intro h'
  have hlen := h'.isPrefix_course.length_le
  rw [← h.eq_course, List.length_append, List.length_singleton] at hlen
  omega

end Told

end Switchboard
