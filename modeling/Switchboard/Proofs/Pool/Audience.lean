import Mathlib.Data.List.Basic
import Mathlib.Data.List.Induction
import Switchboard.Pool.Hub

/-!
# What subscribers hear

A channel keeps its last items, and a subscriber that is too slow loses those that are kept no more.
An `Audience` is a channel with what cannot be seen from it: everything that was published, whether
or not somebody listened, and for each subscriber how far it has come and what it was given. Items
have places, by the order in which they were published.

The items of a channel are numbered too, but only those that somebody listened to. So the numbers and
the places of items differ by what was published to nobody, which is the same for all that a
subscriber still has to hear: what is behind its number is what is behind its place.

## Main definitions

* `Broadcast.Logs`: the items of a channel.
* `Broadcast.Reads`: what a subscriber gets.
* `Posting`: something published, with the era of its publisher.
* `Ear`: what became of a subscriber.
* `Audience.post`, `Audience.turn`: something is published, and the turn of a subscriber.
* `Audience.Faithful`: what a subscriber hears is what was published, and what it misses was lost.

## Main results

* `Broadcast.reads_read`: what a subscriber gets is settled by its number.
* `Audience.sound_goes`: the invariant is preserved.
* `Audience.faithful_run`: what subscribers hear, in every system that publishes to a channel.
* `Audience.asks_drain`: to drain a channel is to ask again and again.
-/
namespace Switchboard

theorem le_powerOfTwoFrom (n : Nat) : n ≤ powerOfTwoFrom n := by
  unfold powerOfTwoFrom
  split
  · assumption
  · have hlt : n - 1 < 2 ^ (Nat.log2 (n - 1) + 1) := Nat.lt_log2_self
    have heq : Nat.pow 2 (Nat.log2 (n - 1) + 1) = 2 ^ (Nat.log2 (n - 1) + 1) := rfl
    omega

/-! ## Channels -/

namespace Broadcast

variable {α : Type} {b : Broadcast α} {log : List α} {j p : Nat}

/-- A channel that keeps the last `most` items, and nothing was published yet. -/
def keeping (most : Nat) : Broadcast α := ⟨.empty most, 0, [], false⟩

/-- The items that were numbered are those of `log`, and the last of them are kept. -/
structure Logs (b : Broadcast α) (log : List α) : Prop where
  published : b.published = log.length
  kept : b.kept.items = log.drop (log.length - b.kept.capacity)
  cursor : ∀ (j p : Nat), b.cursors[j]? = some (some p) → p ≤ log.length

theorem logs_keeping (most : Nat) : (keeping most : Broadcast α).Logs [] where
  published := rfl
  kept := by simp [keeping]
  cursor := by simp [keeping]

/-- Whoever listens is counted. -/
theorem listeners_ne_zero (h : b.cursors[j]? = some (some p)) : b.listeners ≠ 0 := by
  have hmem : some p ∈ b.cursors.filter Option.isSome :=
    List.mem_filter.mpr ⟨List.mem_of_getElem? h, rfl⟩
  exact Nat.ne_of_gt (List.length_pos_of_mem hmem)

@[simp] theorem cursors_publish (b : Broadcast α) (x : α) : (b.publish x).1.cursors = b.cursors := by
  unfold publish
  split <;> rfl

@[simp] theorem capacity_publish (b : Broadcast α) (x : α) :
    (b.publish x).1.kept.capacity = b.kept.capacity := by
  unfold publish
  split <;> rfl

/-- What is published to nobody gets no number. -/
theorem Logs.publish (h : b.Logs log) (x : α) :
    (b.publish x).1.Logs (if b.listeners = 0 then log else log ++ [x]) := by
  unfold Broadcast.publish
  split
  · exact h
  · refine ⟨by simp [h.published], ?_, fun j p hp => ?_⟩
    · rw [Recent.items_push, h.kept, Recent.capacity_push, List.length_drop, List.length_append,
        List.length_singleton, ← List.drop_append_of_le_length (by omega), List.drop_drop]
      congr 1
      omega
    · have hle := h.cursor j p hp
      simp
      omega

theorem Logs.subscribe (h : b.Logs log) : b.subscribe.1.Logs log where
  published := h.published
  kept := h.kept
  cursor := by
    intro j p hp
    have hp' : (b.cursors ++ [some b.published])[j]? = some (some p) := hp
    rw [List.getElem?_append] at hp'
    split at hp'
    · exact h.cursor j p hp'
    · obtain ⟨-, hp'⟩ : j - b.cursors.length = 0 ∧ b.published = p := by
        simpa [List.getElem?_singleton] using hp'
      exact Nat.le_of_eq (hp'.symm.trans h.published)

/-- A subscriber goes on from a number that was given. -/
theorem Logs.set (h : b.Logs log) (q : Option Nat) (hq : ∀ p, q = some p → p ≤ log.length) :
    Logs { b with cursors := b.cursors.set j q } log where
  published := h.published
  kept := h.kept
  cursor := by
    intro i p hp
    have hp' : (b.cursors.set j q)[i]? = some (some p) := hp
    rw [List.getElem?_set] at hp'
    split at hp'
    · split at hp'
      · exact hq p (Option.some.inj hp')
      · simp at hp'
    · exact h.cursor i p hp'

theorem Logs.close (h : b.Logs log) : b.close.Logs log := ⟨h.published, h.kept, h.cursor⟩

/-- What a subscriber gets whose number is `p`, and its number afterwards. -/
inductive Reads (b : Broadcast α) (log : List α) (p : Nat) : Nat → Reception α → Prop
  | item (x : α) (hnear : log.length ≤ p + b.kept.capacity) (hx : log[p]? = some x) :
    Reads b log p (p + 1) (.item x)
  | lagged (n : Nat) (hfar : p + b.kept.capacity < log.length)
      (hn : p + n + b.kept.capacity = log.length) : Reads b log p (p + n) (.lagged n)
  | rest (r : Reception α) (hr : r = .empty ∨ r = .closed) (hp : p = log.length) : Reads b log p p r

/-- What a subscriber gets is settled by its number. -/
theorem reads_read (h : b.Logs log) (hp : p ≤ log.length) :
    Reads b log p (b.read p).1 (b.read p).2 := by
  unfold read
  by_cases hfar : p < b.oldest
  · have holdest : b.oldest = log.length - b.kept.capacity := by rw [oldest, h.published]
    have hn : p + (b.oldest - p) = b.oldest := by omega
    rw [if_pos hfar]
    have hlagged : Reads b log p (p + (b.oldest - p)) (.lagged (b.oldest - p)) :=
      .lagged _ (by omega) (by omega)
    rwa [hn] at hlagged
  · have hnear : log.length ≤ p + b.kept.capacity := by
      rw [oldest, h.published] at hfar
      omega
    rw [if_neg hfar, h.published]
    by_cases hlt : p < log.length
    · have hitem : b.item? p = log[p]? := by
        rw [item?, h.published, h.kept, List.length_drop, List.getElem?_drop]
        congr 1
        omega
      rw [if_pos hlt, hitem, List.getElem?_eq_getElem hlt]
      exact .item _ hnear (List.getElem?_eq_getElem hlt)
    · rw [if_neg hlt]
      refine .rest _ ?_ (by omega)
      cases b.closed <;> simp

theorem receive_of_some (h : b.cursors[j]? = some (some p)) :
    b.receive j =
      ({ b with cursors := b.cursors.set j (some (b.read p).1) }, some (b.read p).2) := by
  simp [receive, h]

/-- A subscriber that left gets nothing. -/
theorem receive_of_none (h : ∀ p, b.cursors[j]? ≠ some (some p)) : b.receive j = (b, none) := by
  unfold receive
  split
  · next p hp => exact absurd hp (h p)
  · rfl

end Broadcast

/-! ## Subscribers -/

/-- Something that was published, with the era of its publisher. -/
structure Posting (α : Type) where
  era : Nat
  value : α

/-- What became of a subscriber. -/
structure Ear (α : Type) where
  /-- How much had been published when it subscribed. -/
  since : Nat
  /-- How far it has come. -/
  place : Nat := since
  /-- What its stream yielded, with the places, oldest first. A stream passes over the losses. -/
  heard : List (Nat × α) := []

namespace Ear

variable {α : Type} {e : Ear α} {posted : List (Posting α)}

/-- The subscriber gets something. -/
def takes (e : Ear α) : Option (Reception α) → Ear α
  | some (.item x) => { e with place := e.place + 1, heard := e.heard ++ [(e.place, x)] }
  | some (.lagged n) => { e with place := e.place + n }
  | _ => e

@[simp] theorem since_takes (e : Ear α) (r : Option (Reception α)) :
    (e.takes r).since = e.since := by
  unfold takes
  split <;> rfl

theorem heard_subset_takes (r : Option (Reception α)) : e.heard ⊆ (e.takes r).heard := by
  unfold takes
  split
  · exact List.subset_append_left _ _
  · exact List.Subset.refl _
  · exact List.Subset.refl _

/-- What was heard was published after the subscription, and is heard in the order in which it was
published, each item once. -/
structure Follows (posted : List (Posting α)) (e : Ear α) : Prop where
  since_le : e.since ≤ e.place
  place_le : e.place ≤ posted.length
  increasing : e.heard.Pairwise (·.1 < ·.1)
  heard : ∀ i x, (i, x) ∈ e.heard →
    e.since ≤ i ∧ i < e.place ∧ posted[i]?.map (·.value) = some x

/-- What a subscriber gets, by the place to which it has come. -/
inductive Meets (posted : List (Posting α)) (most : Nat) (e : Ear α) : Reception α → Prop
  | item (x : α) (hnear : posted.length ≤ e.place + most)
      (hx : posted[e.place]?.map (·.value) = some x) : Meets posted most e (.item x)
  | lagged (n : Nat) (hfar : e.place + most < posted.length)
      (hn : e.place + n + most = posted.length) : Meets posted most e (.lagged n)
  | rest (r : Reception α) (hr : r = .empty ∨ r = .closed) (hplace : e.place = posted.length) :
    Meets posted most e r

theorem follows_new (posted : List (Posting α)) :
    Follows posted { since := posted.length } where
  since_le := Nat.le_refl _
  place_le := Nat.le_refl _
  increasing := .nil
  heard := by simp

theorem Follows.post (h : e.Follows posted) (x : Posting α) : e.Follows (posted ++ [x]) where
  since_le := h.since_le
  place_le := by
    have hle := h.place_le
    simp
    omega
  increasing := h.increasing
  heard := by
    intro i y hmem
    obtain ⟨hsince, hplace, hvalue⟩ := h.heard i y hmem
    refine ⟨hsince, hplace, ?_⟩
    have hle := h.place_le
    rw [List.getElem?_append_left (by omega)]
    exact hvalue

theorem Follows.takes (h : e.Follows posted) {most : Nat} {r : Reception α}
    (hr : e.Meets posted most r) : (e.takes (some r)).Follows posted := by
  have hle := h.since_le
  cases hr with
  | item x hnear hx =>
    have hlt : e.place < posted.length := by
      obtain ⟨y, hy, -⟩ := Option.map_eq_some_iff.mp hx
      exact (List.getElem?_eq_some_iff.mp hy).1
    refine ⟨Nat.le_succ_of_le hle, hlt, ?_, fun i y hmem => ?_⟩
    · refine List.pairwise_append.mpr ⟨h.increasing, List.pairwise_singleton .., ?_⟩
      intro u hu v hv
      obtain rfl : v = (e.place, x) := by simpa using hv
      exact (h.heard u.1 u.2 hu).2.1
    · have hstep : (e.takes (some (.item x))).place = e.place + 1 := rfl
      rw [hstep]
      rcases List.mem_append.mp hmem with hold | hnew
      · obtain ⟨hsince, hplace, hvalue⟩ := h.heard i y hold
        exact ⟨hsince, by omega, hvalue⟩
      · obtain ⟨rfl, rfl⟩ : i = e.place ∧ y = x := by simpa using hnew
        exact ⟨hle, by omega, hx⟩
  | lagged n hfar hn =>
    have hstep : (e.takes (some (.lagged n))).place = e.place + n := rfl
    refine ⟨?_, ?_, h.increasing, fun i y hmem => ?_⟩
    · rw [hstep]
      exact Nat.le_add_right_of_le hle
    · rw [hstep]
      omega
    · obtain ⟨hsince, hplace, hvalue⟩ := h.heard i y hmem
      rw [hstep]
      exact ⟨hsince, by omega, hvalue⟩
  | rest r hr hplace => rcases hr with rfl | rfl <;> exact h

/-- What is passed over is passed over as lost: since then more has been published than is kept. -/
theorem passes {most : Nat} {r : Reception α}
    (hr : e.Meets posted most r) {i : Nat} (hi : i < (e.takes (some r)).place)
    (hnot : ∀ x, (i, x) ∉ (e.takes (some r)).heard) :
    i < e.place ∨ e.place ≤ i ∧ i + most < posted.length := by
  cases hr with
  | item x hnear hx =>
    refine .inl ?_
    have hlt : i < e.place + 1 := hi
    have hne : i ≠ e.place := by
      rintro rfl
      exact hnot x (List.mem_append_right _ (by simp))
    omega
  | lagged n hfar hn =>
    have hlt : i < e.place + n := hi
    omega
  | rest r hr hplace => rcases hr with rfl | rfl <;> exact .inl hi

end Ear

/-! ## A channel and its subscribers -/

/-- A channel, with what was published and what became of each subscriber. -/
structure Audience (α : Type) where
  channel : Broadcast α
  /-- Everything that was published, oldest first. -/
  posted : List (Posting α) := []
  /-- The subscribers, in order of subscription. -/
  ears : List (Ear α) := []

namespace Audience

/-- The turn of a subscriber, or of the last publisher. -/
inductive Turn where
  | subscribe
  | leave (j : Nat)
  /-- The stream of a subscriber asks. -/
  | ask (j : Nat)
  /-- Nobody publishes any more. -/
  | close

variable {α : Type} {a : Audience α} {most : Nat}

/-- Nobody has subscribed yet. -/
def empty (most : Nat) : Audience α := { channel := .keeping most }

/-- Something is published. -/
def post (a : Audience α) (x : Posting α) : Audience α :=
  { a with channel := (a.channel.publish x.value).1, posted := a.posted ++ [x] }

/-- A turn. -/
def turn (a : Audience α) : Turn → Audience α
  | .subscribe =>
    { a with channel := a.channel.subscribe.1, ears := a.ears ++ [{ since := a.posted.length }] }
  | .leave j => { a with channel := a.channel.unsubscribe j }
  | .ask j =>
    { a with
      channel := (a.channel.receive j).1
      ears := a.ears.modify j (·.takes (a.channel.receive j).2) }
  | .close => { a with channel := a.channel.close }

@[simp] theorem posted_turn (a : Audience α) (t : Turn) : (a.turn t).posted = a.posted := by
  cases t <;> rfl

/-- What may become of an audience in one step of whatever publishes to it. -/
inductive Goes (a : Audience α) : Audience α → Prop
  | idle : Goes a a
  | post (x : Posting α) : Goes a (a.post x)
  | turn (t : Turn) : Goes a (a.turn t)

/-- What is behind a number of the channel is what is behind a place. -/
def Abreast (posted : List (Posting α)) (log : List α) (p place : Nat) : Prop :=
  log.drop p = (posted.drop place).map (·.value)

theorem Abreast.add {posted : List (Posting α)} {log : List α} {p place : Nat}
    (h : Abreast posted log p place) (n : Nat) : Abreast posted log (p + n) (place + n) := by
  unfold Abreast at *
  rw [← List.drop_drop, ← List.drop_drop, h, ← List.map_drop]

/-- What holds of an audience between two steps. -/
structure Sound (most : Nat) (a : Audience α) : Prop where
  capacity : a.channel.kept.capacity = most
  length : a.channel.cursors.length = a.ears.length
  follows : ∀ e ∈ a.ears, e.Follows a.posted
  backed : ∃ log, a.channel.Logs log ∧ ∀ (j p : Nat) (e : Ear α), a.channel.cursors[j]? = some (some p) →
    a.ears[j]? = some e → Abreast a.posted log p e.place

theorem sound_empty (most : Nat) : (empty most : Audience α).Sound most where
  capacity := rfl
  length := rfl
  follows := by simp [empty]
  backed := ⟨[], Broadcast.logs_keeping most, by simp [empty, Broadcast.keeping]⟩

theorem sound_post (h : a.Sound most) (x : Posting α) : (a.post x).Sound most where
  capacity := by simp [post, h.capacity]
  length := by simp [post, h.length]
  follows := fun e he => (h.follows e he).post x
  backed := by
    obtain ⟨log, hlogs, habreast⟩ := h.backed
    refine ⟨_, hlogs.publish x.value, fun j p e hp he => ?_⟩
    have hp' : a.channel.cursors[j]? = some (some p) := by simpa [post] using hp
    -- The subscriber itself listens, so that the item gets a number.
    rw [if_neg (Broadcast.listeners_ne_zero hp')]
    have hnumber := hlogs.cursor j p hp'
    have hplace := (h.follows e (List.mem_of_getElem? he)).place_le
    have hold : log.drop p = (a.posted.drop e.place).map (·.value) := habreast j p e hp' he
    unfold Abreast post
    rw [List.drop_append_of_le_length hnumber, List.drop_append_of_le_length hplace, hold]
    simp

theorem sound_subscribe (h : a.Sound most) : (a.turn .subscribe).Sound most where
  capacity := h.capacity
  length := by simp [turn, Broadcast.subscribe, h.length]
  follows := by
    intro e he
    rcases List.mem_append.mp he with he | he
    · exact h.follows e he
    · obtain rfl : e = { since := a.posted.length } := by simpa using he
      exact Ear.follows_new a.posted
  backed := by
    obtain ⟨log, hlogs, habreast⟩ := h.backed
    refine ⟨log, hlogs.subscribe, fun j p e hp he => ?_⟩
    have hp' : (a.channel.cursors ++ [some a.channel.published])[j]? = some (some p) := hp
    have he' : (a.ears ++ [{ since := a.posted.length }])[j]? = some e := he
    rw [List.getElem?_append] at hp' he'
    rw [h.length] at hp'
    split at hp'
    · next hj =>
      rw [if_pos hj] at he'
      exact habreast j p e hp' he'
    · next hj =>
      rw [if_neg hj] at he'
      obtain ⟨-, rfl⟩ : j - a.ears.length = 0 ∧ a.channel.published = p := by
        simpa [List.getElem?_singleton] using hp'
      obtain ⟨-, rfl⟩ : j - a.ears.length = 0 ∧ ({ since := a.posted.length } : Ear α) = e := by
        simpa [List.getElem?_singleton] using he'
      unfold Abreast
      rw [hlogs.published, turn, List.drop_length, List.drop_length, List.map_nil]

theorem sound_leave (h : a.Sound most) (j : Nat) : (a.turn (.leave j)).Sound most where
  capacity := h.capacity
  length := by simp [turn, Broadcast.unsubscribe, h.length]
  follows := h.follows
  backed := by
    obtain ⟨log, hlogs, habreast⟩ := h.backed
    refine ⟨log, hlogs.set none (by simp), fun i p e hp he => ?_⟩
    have hp' : (a.channel.cursors.set j none)[i]? = some (some p) := hp
    rw [List.getElem?_set] at hp'
    split at hp'
    · split at hp' <;> simp at hp'
    · exact habreast i p e hp' he

/-- What a subscriber gets, and what follows for its number and its place. -/
theorem Sound.asked (h : a.Sound most) {j p : Nat} {e : Ear α} {log : List α}
    (hp : a.channel.cursors[j]? = some (some p)) (he : a.ears[j]? = some e)
    (hlogs : a.channel.Logs log) (habreast : Abreast a.posted log p e.place) :
    e.Meets a.posted most (a.channel.read p).2 ∧ (a.channel.read p).1 ≤ log.length ∧
      Abreast a.posted log (a.channel.read p).1
        (e.takes (some (a.channel.read p).2)).place := by
  have hnumber := hlogs.cursor j p hp
  have hplace := (h.follows e (List.mem_of_getElem? he)).place_le
  have hdrop : log.drop p = (a.posted.drop e.place).map (·.value) := habreast
  have hlengths : log.length - p = a.posted.length - e.place := by
    simpa using congrArg List.length hdrop
  have hreads := Broadcast.reads_read hlogs hnumber
  rw [← h.capacity]
  generalize a.channel.read p = answer at hreads ⊢
  obtain ⟨q, r⟩ := answer
  dsimp only at hreads ⊢
  cases hreads with
  | item x hnear hx =>
    have hlt := (List.getElem?_eq_some_iff.mp hx).1
    have hsame : a.posted[e.place]?.map (·.value) = some x := by
      have hhead := congrArg (·[0]?) hdrop
      simpa [hx] using hhead.symm
    exact ⟨.item x (by omega) hsame, hlt, habreast.add 1⟩
  | lagged n hfar hn => exact ⟨.lagged n (by omega) (by omega), by omega, habreast.add n⟩
  | rest _ hr hend =>
    have htakes : e.takes (some r) = e := by rcases hr with rfl | rfl <;> rfl
    rw [htakes]
    exact ⟨.rest r hr (by omega), hnumber, habreast⟩

/-- A subscriber that left asks for nothing, and one that listens goes on. -/
theorem Sound.turn_ask (h : a.Sound most) (j : Nat) :
    a.turn (.ask j) = a ∨ ∃ p e, a.channel.cursors[j]? = some (some p) ∧ a.ears[j]? = some e ∧
      a.turn (.ask j) = { a with
        channel := { a.channel with
          cursors := a.channel.cursors.set j (some (a.channel.read p).1) }
        ears := a.ears.set j (e.takes (some (a.channel.read p).2)) } := by
  by_cases hlive : ∃ p, a.channel.cursors[j]? = some (some p)
  · obtain ⟨p, hp⟩ := hlive
    have hlt : j < a.ears.length := h.length ▸ (List.getElem?_eq_some_iff.mp hp).1
    have he : a.ears[j]? = some a.ears[j] := List.getElem?_eq_getElem hlt
    refine .inr ⟨p, _, hp, he, ?_⟩
    rw [turn, Broadcast.receive_of_some hp, List.modify_eq_set_get _ hlt]
    rfl
  · have hnone := Broadcast.receive_of_none (b := a.channel) (j := j) fun p hp => hlive ⟨p, hp⟩
    have hears : a.ears.modify j (·.takes none) = a.ears := by
      refine List.ext_getElem? fun i => ?_
      rw [List.getElem?_modify]
      cases a.ears[i]? <;> simp [Ear.takes]
    exact .inl (by simp [turn, hnone, hears])

theorem sound_ask (h : a.Sound most) (j : Nat) : (a.turn (.ask j)).Sound most := by
  rcases h.turn_ask j with hsame | ⟨p, e, hp, he, hturn⟩
  · rwa [hsame]
  rw [hturn]
  obtain ⟨log, hlogs, habreast⟩ := h.backed
  obtain ⟨hmeets, hle, hnext⟩ := h.asked hp he hlogs (habreast j p e hp he)
  have hcursors := (List.getElem?_eq_some_iff.mp hp).1
  have hears := (List.getElem?_eq_some_iff.mp he).1
  refine ⟨h.capacity, by simpa using h.length, fun e' he' => ?_, log, ?_, fun i q e' hq he' => ?_⟩
  · rcases List.mem_or_eq_of_mem_set he' with hold | rfl
    · exact h.follows e' hold
    · exact (h.follows e (List.mem_of_getElem? he)).takes hmeets
  · exact hlogs.set _ fun q hq => Option.some.inj hq ▸ hle
  · by_cases hij : j = i
    · subst hij
      obtain rfl : (a.channel.read p).1 = q := by
        simpa [List.getElem?_set_self hcursors] using hq
      obtain rfl : e.takes (some (a.channel.read p).2) = e' := by
        simpa [List.getElem?_set_self hears] using he'
      exact hnext
    · exact habreast i q e' (by simpa [List.getElem?_set_ne hij] using hq)
        (by simpa [List.getElem?_set_ne hij] using he')

theorem sound_turn (h : a.Sound most) (t : Turn) : (a.turn t).Sound most := by
  cases t with
  | subscribe => exact sound_subscribe h
  | leave j => exact sound_leave h j
  | ask j => exact sound_ask h j
  | close =>
    obtain ⟨log, hlogs, habreast⟩ := h.backed
    exact ⟨h.capacity, h.length, h.follows, log, hlogs.close, habreast⟩

/-- Every step preserves the invariant. -/
theorem sound_goes (h : a.Sound most) {a' : Audience α} (hg : a.Goes a') : a'.Sound most := by
  cases hg with
  | idle => exact h
  | post x => exact sound_post h x
  | turn t => exact sound_turn h t

/-- What a step does to a subscriber: it subscribes, or is left as it is, or gets something. -/
theorem Sound.ear_goes (h : a.Sound most) {a' : Audience α} (hg : a.Goes a') {j : Nat} {e : Ear α}
    (he : a'.ears[j]? = some e) :
    (a.ears.length = j ∧ a'.ears.length = j + 1 ∧ e = { since := a.posted.length }) ∨
      ∃ e₀, a.ears[j]? = some e₀ ∧
        (e = e₀ ∨ ∃ r, e₀.Meets a.posted most r ∧ e = e₀.takes (some r)) := by
  cases hg with
  | idle => exact .inr ⟨e, he, .inl rfl⟩
  | post x => exact .inr ⟨e, he, .inl rfl⟩
  | turn t =>
    cases t with
    | subscribe =>
      have he' : (a.ears ++ [{ since := a.posted.length }])[j]? = some e := he
      rw [List.getElem?_append] at he'
      split at he'
      · exact .inr ⟨e, he', .inl rfl⟩
      · next hj =>
        obtain ⟨hzero, rfl⟩ : j - a.ears.length = 0 ∧ ({ since := a.posted.length } : Ear α) = e := by
          simpa [List.getElem?_singleton] using he'
        have hlength : a.ears.length = j := by omega
        exact .inl ⟨hlength, by simp [turn, hlength], rfl⟩
    | leave i => exact .inr ⟨e, he, .inl rfl⟩
    | ask i =>
      rcases h.turn_ask i with hsame | ⟨p, e₀, hp, he₀, hturn⟩
      · exact .inr ⟨e, hsame ▸ he, .inl rfl⟩
      · rw [hturn] at he
        obtain ⟨log, hlogs, habreast⟩ := h.backed
        obtain ⟨hmeets, -⟩ := h.asked hp he₀ hlogs (habreast i p e₀ hp he₀)
        by_cases hij : i = j
        · subst hij
          have hlt := (List.getElem?_eq_some_iff.mp he₀).1
          obtain rfl : e₀.takes (some (a.channel.read p).2) = e := by
            simpa [List.getElem?_set_self hlt] using he
          exact .inr ⟨e₀, he₀, .inr ⟨_, hmeets, rfl⟩⟩
        · exact .inr ⟨e, by simpa [List.getElem?_set_ne hij] using he, .inl rfl⟩
    | close => exact .inr ⟨e, he, .inl rfl⟩

/-! ## Systems that publish to a channel -/

variable {μ : Type}

/-- Before the subscriber `j` had come to the place `i`, as many later items were published as the
channel keeps. Here `past` is the audience after a schedule. -/
def Outrun (past : List μ → Audience α) (most : Nat) (moves : List μ) (j i : Nat) : Prop :=
  ∃ before after e, moves = before ++ after ∧ (past before).ears[j]? = some e ∧ e.place ≤ i ∧
    i + most < (past before).posted.length

theorem Outrun.append {past : List μ → Audience α} {moves : List μ} {j i : Nat}
    (h : Outrun past most moves j i) (more : List μ) : Outrun past most (moves ++ more) j i := by
  obtain ⟨before, after, e, rfl, hrest⟩ := h
  exact ⟨before, after ++ more, e, by simp, hrest⟩

/-- What the subscriber `j` of a channel hears, where `past` is the audience after a schedule. -/
structure Faithful (past : List μ → Audience α) (most : Nat) (moves : List μ) (j : Nat)
    (e : Ear α) : Prop where
  /-- It hears what is published after it subscribed. -/
  subscribed : ∃ before x after, moves = before ++ x :: after ∧ (past before).ears.length = j ∧
    (past (before ++ [x])).ears.length = j + 1 ∧ e.since = (past before).posted.length
  /-- In the order in which it was published, and each item once. -/
  follows : e.Follows (past moves).posted
  /-- It has missed an item only if as many later ones as the channel keeps were published before it
  had come that far. -/
  lost : ∀ i, e.since ≤ i → i < e.place → (∀ x, (i, x) ∉ e.heard) → Outrun past most moves j i
  /-- So it has missed nothing if it never was further behind than that. -/
  complete : (∀ before after e', moves = before ++ after → (past before).ears[j]? = some e' →
      (past before).posted.length ≤ e'.place + most) →
    ∀ i, e.since ≤ i → i < e.place → ∃ x, (i, x) ∈ e.heard
  /-- As long as it listens it gets the next item if it asks, or goes on with the oldest that is
  kept; there is nothing for it only if it has come to the end. -/
  next : ∀ p, (past moves).channel.cursors[j]? = some (some p) →
    ∃ r, ((past moves).channel.receive j).2 = some r ∧ e.Meets (past moves).posted most r

section Run

-- Whatever publishes to the channel: in each step at most one thing happens to the audience.
variable {σ : Type} {step : σ → μ → σ} {pick : σ → Audience α} {s : σ}
  (hstep : ∀ s x, (pick s).Goes (pick (step s x))) (hs : pick s = empty most)
include hstep hs

theorem sound_run (moves : List μ) : (pick (moves.foldl step s)).Sound most := by
  induction moves using List.reverseRecOn with
  | nil =>
    rw [List.foldl_nil, hs]
    exact sound_empty most
  | append_singleton moves x ih =>
    rw [List.foldl_append]
    exact sound_goes ih (hstep _ x)

theorem subscribed_run (moves : List μ) {j : Nat} {e : Ear α}
    (he : (pick (moves.foldl step s)).ears[j]? = some e) :
    ∃ before x after, moves = before ++ x :: after ∧
      (pick (before.foldl step s)).ears.length = j ∧
      (pick ((before ++ [x]).foldl step s)).ears.length = j + 1 ∧
      e.since = (pick (before.foldl step s)).posted.length := by
  induction moves using List.reverseRecOn generalizing e with
  | nil => simp [hs, empty] at he
  | append_singleton moves x ih =>
    have hsound := sound_run hstep hs moves
    have hg : (pick (moves.foldl step s)).Goes (pick ((moves ++ [x]).foldl step s)) := by
      rw [List.foldl_append]
      exact hstep _ x
    rcases hsound.ear_goes hg he with ⟨hlength, hnext, rfl⟩ | ⟨e₀, he₀, hchange⟩
    · exact ⟨moves, x, [], rfl, hlength, hnext, rfl⟩
    · obtain ⟨before, y, after, rfl, hbefore, hafter, hsince⟩ := ih he₀
      refine ⟨before, y, after ++ [x], by simp, hbefore, hafter, ?_⟩
      rcases hchange with rfl | ⟨r, -, rfl⟩
      · exact hsince
      · rw [Ear.since_takes]
        exact hsince

theorem lost_run (moves : List μ) {j : Nat} {e : Ear α}
    (he : (pick (moves.foldl step s)).ears[j]? = some e) {i : Nat} (hsince : e.since ≤ i)
    (hi : i < e.place) (hnot : ∀ x, (i, x) ∉ e.heard) :
    Outrun (fun moves => pick (moves.foldl step s)) most moves j i := by
  induction moves using List.reverseRecOn generalizing e with
  | nil => simp [hs, empty] at he
  | append_singleton moves x ih =>
    have hsound := sound_run hstep hs moves
    have hg : (pick (moves.foldl step s)).Goes (pick ((moves ++ [x]).foldl step s)) := by
      rw [List.foldl_append]
      exact hstep _ x
    rcases hsound.ear_goes hg he with ⟨-, -, rfl⟩ | ⟨e₀, he₀, rfl | ⟨r, hmeets, rfl⟩⟩
    · exact absurd hi (Nat.not_lt.mpr hsince)
    · exact (ih he₀ hsince hi hnot).append [x]
    · rw [Ear.since_takes] at hsince
      -- The place was passed in an earlier step, or it is passed over in this one.
      rcases Ear.passes hmeets hi hnot with hi₀ | ⟨hplace, hfar⟩
      · have hnot₀ : ∀ y, (i, y) ∉ e₀.heard := fun y hy => hnot y (Ear.heard_subset_takes _ hy)
        exact (ih he₀ hsince hi₀ hnot₀).append [x]
      · exact ⟨moves, [x], e₀, rfl, he₀, hplace, hfar⟩

/-- **Subscribers hear faithfully**, whatever publishes to the channel. -/
theorem faithful_run (moves : List μ) {j : Nat} {e : Ear α}
    (he : (pick (moves.foldl step s)).ears[j]? = some e) :
    Faithful (fun moves => pick (moves.foldl step s)) most moves j e where
  subscribed := subscribed_run hstep hs moves he
  follows := (sound_run hstep hs moves).follows e (List.mem_of_getElem? he)
  lost := fun _ hsince hi hnot => lost_run hstep hs moves he hsince hi hnot
  complete := by
    intro hnear i hsince hi
    refine Classical.byContradiction fun hnot => ?_
    obtain ⟨before, after, e', hmoves, he', hplace, hfar⟩ :=
      lost_run hstep hs moves he hsince hi fun x hx => hnot ⟨x, hx⟩
    have hle : (pick (before.foldl step s)).posted.length ≤ e'.place + most :=
      hnear before after e' hmoves he'
    have hlost : i + most < (pick (before.foldl step s)).posted.length := hfar
    omega
  next := by
    intro p hp
    have hsound := sound_run hstep hs moves
    obtain ⟨log, hlogs, habreast⟩ := hsound.backed
    exact ⟨_, by rw [Broadcast.receive_of_some hp],
      (hsound.asked hp he hlogs (habreast j p e hp he)).1⟩

end Run

/-! ## Draining -/

/-- To receive all there is now is to ask again and again. -/
theorem asks_receiveAll (j fuel : Nat) {e : Ear α} (he : a.ears[j]? = some e) :
    ∃ n e', ((List.replicate n (Turn.ask j)).foldl turn a).channel = (a.channel.receiveAll j fuel).1 ∧
      ((List.replicate n (Turn.ask j)).foldl turn a).posted = a.posted ∧
      ((List.replicate n (Turn.ask j)).foldl turn a).ears[j]? = some e' ∧
      e'.heard.map (·.2) =
        e.heard.map (·.2) ++ (a.channel.receiveAll j fuel).2.1.filterMap Reception.item? := by
  induction fuel generalizing a e with
  | zero => exact ⟨0, e, rfl, rfl, he, by simp [Broadcast.receiveAll]⟩
  | succ fuel ih =>
    have hask : (a.turn (.ask j)).ears[j]? = some (e.takes (a.channel.receive j).2) := by
      simp [turn, he]
    have hchannel : (a.turn (.ask j)).channel = (a.channel.receive j).1 := rfl
    obtain ⟨n, e', hn, hposted, he', hheard⟩ := ih hask
    rw [hchannel] at hn hheard
    generalize hr : a.channel.receive j = answer at *
    obtain ⟨b, r⟩ := answer
    match r with
    | some (.item x) =>
      refine ⟨n + 1, e', ?_, hposted, he', ?_⟩
      · simpa [Broadcast.receiveAll, hr, List.replicate_succ] using hn
      · simpa [Broadcast.receiveAll, hr, Ear.takes, Reception.item?] using hheard
    | some (.lagged m) =>
      refine ⟨n + 1, e', ?_, hposted, he', ?_⟩
      · simpa [Broadcast.receiveAll, hr, List.replicate_succ] using hn
      · simpa [Broadcast.receiveAll, hr, Ear.takes, List.filterMap_cons, Reception.item?] using hheard
    | some .closed | some .empty | none =>
      refine ⟨1, e, ?_, rfl, hask, ?_⟩
      · simpa [Broadcast.receiveAll, hr] using hchannel
      · simp [Broadcast.receiveAll, hr]

/-- A stream that is drained yields what its subscriber hears that asks again and again. -/
theorem asks_drain (j : Nat) {e : Ear α} (he : a.ears[j]? = some e) :
    ∃ n e', ((List.replicate n (Turn.ask j)).foldl turn a).channel = (a.channel.drain j).1 ∧
      ((List.replicate n (Turn.ask j)).foldl turn a).ears[j]? = some e' ∧
      e'.heard.map (·.2) = e.heard.map (·.2) ++ (a.channel.drain j).2.1 := by
  obtain ⟨n, e', hchannel, -, he', hheard⟩ := asks_receiveAll j a.channel.drainTurns he
  exact ⟨n, e', hchannel, he', hheard⟩

end Audience

end Switchboard
