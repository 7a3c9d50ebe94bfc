import Switchboard.Proofs.Pool.Audience
import Switchboard.Proofs.Session.Memory

/-!
# The streams of a pool

All sessions of a pool publish to one hub, each as it goes on, and subscribers come and go and ask
whenever they want. A `Forum` is a pool with its hub and its subscribers. What a session asks for is
done effect by effect, and anything can happen in between; a session handles its next input when all
of that is done.

A session numbers the eras of its events: one ends where the session forgets the session at the
server. The events of an era have increasing numbers, in the order in which the session accepts them,
and nothing between the session and the ear of a subscriber changes the order.

## Main definitions

* `Session.Voices`: what a step publishes, and what it remembers of it.
* `Forum`: the sessions of a pool, their hub, and its subscribers.
* `Forum.move`, `Forum.run`: one move, and a schedule of moves.
* `Forum.spoken`: the events of a session, published or on their way to the hub.
* `Forum.Rising`: the invariant.

## Main results

* `Forum.exists_hub_begin`: the hub keeps at least as much as it is asked to.
* `Forum.rising_move`: every move preserves the invariant.
* `Forum.streams_of_run`: what the subscribers of a pool hear, for every schedule.
-/
namespace Switchboard

/-! ## What a step publishes -/

namespace Session

variable {c : Config} {m : Moment} {s : Session} {i : Input} {r : Session × List Effect}

/-- What a step publishes, and what the session remembers of it. -/
inductive Voices (s : Session) (i : Input) (r : Session × List Effect) : Prop where
  | nothing (hp : published r.2 = []) (hd : s.discards i = false) (hq : r.1.sequence = s.sequence)
  | discard (hp : published r.2 = []) (hd : s.discards i = true)
  /-- One event, with a number greater than the last. -/
  | event (kind : String) (q : Nat) (data : Json) (hp : published r.2 = [⟨s.shard.id, kind, q, data⟩])
      (hd : s.discards i = false) (hlast : ∀ p, s.sequence = some p → p < q)
      (hq : r.1.sequence = some q)

theorem lt_of_accepts {q : Nat} (h : s.accepts q = true) : ∀ p, s.sequence = some p → p < q := by
  intro p hp
  simpa [accepts, Turn.isReplay, hp] using (Bool.and_eq_true_iff.mp h).2

theorem voices_happens (h : Happens c m s i r) : Voices s i r := by
  have hsequence : ∀ {t : Session}, t.memory = s.memory → t.sequence = s.sequence :=
    fun h => congrArg Memory.sequence h
  cases recalls_happens h with
  | quiet hd hquiet => exact .nothing (select_of_mute hquiet.mute) hd (hsequence hquiet.memory)
  | say before k p hd hm _ _ _ hb ha =>
    refine .nothing ?_ hd (hsequence hm)
    simp [select_of_mute hb, select_of_mute ha, Effect.published?]
  | blank hd hquiet => exact .discard (select_of_mute hquiet.mute) hd
  | accept k text kind q data hi _ ht ha =>
    refine .event kind q data (published_accept ..) ?_ (lt_of_accepts ha) ?_
    · simp [hi, discards, ht]
    · have hmemory := memory_accept (s := s.heard m) kind q data
      have hq := congrArg Memory.sequence hmemory
      cases hw : welcome? kind data <;> simpa [hw, memory] using hq

end Session

/-! ## The pool -/

/-- The sessions of a pool, their hub, and its subscribers. -/
structure Forum where
  sessions : Nat → Session
  /-- How often each session has forgotten the session at the server. -/
  eras : Nat → Nat
  /-- What each session asked for and was not done yet, oldest first. -/
  outbox : Nat → List (Posting Session.Effect)
  events : Audience Event
  notices : Audience Notice

namespace Forum

/-- What goes on in a pool. -/
inductive Move where
  /-- A session handles an input. -/
  | handle (k : Nat) (m : Session.Moment) (i : Session.Input)
  /-- The first of what a session asked for is done. -/
  | perform (k : Nat)
  /-- The turn of a subscriber to the events. -/
  | events (t : Audience.Turn)
  /-- The turn of a subscriber to the notices. -/
  | notices (t : Audience.Turn)

/-- A pool of `count` shards at the beginning, with a hub that keeps so many events and notices. -/
def begin (c : Config) (count : Nat) (now : Instant) (events notices : Nat) : Forum where
  sessions k := .new c ⟨k, count⟩ now
  eras _ := 0
  outbox _ := []
  events := .empty events
  notices := .empty notices

/-- Of what a session asked for, so much is still to be done. -/
def owing (f : Forum) (k : Nat) (es : List (Posting Session.Effect)) : Forum :=
  { f with outbox := fun j => if j = k then es else f.outbox j }

/-- A session has handled an input. -/
def handled (c : Config) (f : Forum) (k : Nat) (m : Session.Moment) (i : Session.Input) : Forum :=
  let r := Session.step c (f.sessions k) m i
  let era := f.eras k + ((f.sessions k).discards i).toNat
  { f.owing k (r.2.map (⟨era, ·⟩)) with
    sessions := fun j => if j = k then r.1 else f.sessions j
    eras := fun j => if j = k then era else f.eras j }

/-- The hub gets what a session publishes; the rest is not for it. -/
def done (f : Forum) (k : Nat) (x : Posting Session.Effect) : Forum :=
  match x.value with
  | .publish e => { f with events := f.events.post ⟨x.era, e⟩ }
  | .announce h => { f with notices := f.notices.post ⟨x.era, ⟨k, h⟩⟩ }
  | _ => f

/-- One move. A session handles nothing while there is something to be done for it. -/
def move (c : Config) (f : Forum) : Move → Forum
  | .handle k m i =>
    match f.outbox k with
    | [] => f.handled c k m i
    | _ :: _ => f
  | .perform k =>
    match f.outbox k with
    | [] => f
    | x :: rest => (f.owing k rest).done k x
  | .events t => { f with events := f.events.turn t }
  | .notices t => { f with notices := f.notices.turn t }

/-- A schedule of moves. -/
def run (c : Config) (f : Forum) (moves : List Move) : Forum := moves.foldl (move c) f

/-- The hub of the pool. -/
def hub (f : Forum) : Hub := ⟨f.events.channel, f.notices.channel⟩

/-- The hub of a pool keeps at least as much as it is asked to. -/
theorem exists_hub_begin (c : Config) (count : Nat) (now : Instant) (capacity : Nat) :
    ∃ most, capacity ≤ most ∧ (begin c count now most most).hub = .new capacity :=
  ⟨_, Nat.le_trans (Nat.le_max_left _ 1) (le_powerOfTwoFrom _), rfl⟩

variable {c : Config} {f : Forum}

/-! ## What happens to the audiences -/

theorem events_done (f : Forum) (k : Nat) (x : Posting Session.Effect) :
    (f.done k x).events = match x.value with
      | .publish e => f.events.post ⟨x.era, e⟩
      | _ => f.events := by
  unfold done
  cases x.value <;> rfl

theorem notices_done (f : Forum) (k : Nat) (x : Posting Session.Effect) :
    (f.done k x).notices = match x.value with
      | .announce h => f.notices.post ⟨x.era, ⟨k, h⟩⟩
      | _ => f.notices := by
  unfold done
  cases x.value <;> rfl

theorem outbox_owing (f : Forum) (k : Nat) (es : List (Posting Session.Effect)) (j : Nat) :
    (f.owing k es).outbox j = if j = k then es else f.outbox j := rfl

@[simp] theorem sessions_done (f : Forum) (k : Nat) (x : Posting Session.Effect) :
    (f.done k x).sessions = f.sessions := by
  unfold done
  cases x.value <;> rfl

@[simp] theorem eras_done (f : Forum) (k : Nat) (x : Posting Session.Effect) :
    (f.done k x).eras = f.eras := by
  unfold done
  cases x.value <;> rfl

@[simp] theorem outbox_done (f : Forum) (k : Nat) (x : Posting Session.Effect) :
    (f.done k x).outbox = f.outbox := by
  unfold done
  cases x.value <;> rfl

theorem events_goes (f : Forum) (x : Move) : f.events.Goes (f.move c x).events := by
  cases x with
  | handle k m i =>
    rw [move]
    split <;> exact .idle
  | perform k =>
    rw [move]
    split
    · exact .idle
    · rw [events_done]
      split
      · exact .post _
      · exact .idle
  | events t => exact .turn t
  | notices t => exact .idle

theorem notices_goes (f : Forum) (x : Move) : f.notices.Goes (f.move c x).notices := by
  cases x with
  | handle k m i =>
    rw [move]
    split <;> exact .idle
  | perform k =>
    rw [move]
    split
    · exact .idle
    · rw [notices_done]
      split
      · exact .post _
      · exact .idle
  | events t => exact .idle
  | notices t => exact .turn t

/-! ## The order of the events of a shard -/

/-- The event that an effect publishes. -/
def event? (x : Posting Session.Effect) : Option (Posting Event) :=
  x.value.published?.map (⟨x.era, ·⟩)

theorem posted_done (f : Forum) (k : Nat) (x : Posting Session.Effect) :
    (f.done k x).events.posted = f.events.posted ++ (event? x).toList := by
  obtain ⟨era, value⟩ := x
  cases value <;> simp [done, event?, Session.Effect.published?, Audience.post]

/-- The events of a session, published or on their way to the hub, oldest first. -/
def spoken (f : Forum) (k : Nat) : List (Posting Event) :=
  f.events.posted.filter (·.value.shard = k) ++ (f.outbox k).filterMap event?

/-- The one is before the other, if both are of one era. -/
def Before (x y : Posting Event) : Prop := x.era = y.era → x.value.sequence < y.value.sequence

/-- The events of a session, which is in an era: their numbers increase within each era, and the
session remembers the last of its own. -/
structure Increasing (s : Session) (era : Nat) (line : List (Posting Event)) : Prop where
  era_le : ∀ x ∈ line, x.era ≤ era
  last : ∀ x ∈ line, x.era = era → ∃ q, s.sequence = some q ∧ x.value.sequence ≤ q
  pairwise : line.Pairwise Before

/-- A step of the session. -/
theorem Increasing.voices {s : Session} {era : Nat} {line : List (Posting Event)}
    (h : Increasing s era line) {i : Session.Input} {r : Session × List Session.Effect}
    (hv : Session.Voices s i r) :
    Increasing r.1 (era + (s.discards i).toNat)
      (line ++ (Session.published r.2).map (⟨era + (s.discards i).toNat, ·⟩)) := by
  cases hv with
  | nothing hp hd hq =>
    rw [hp, hd]
    simpa using ⟨h.era_le, hq ▸ h.last, h.pairwise⟩
  | discard hp hd =>
    -- What was published is of earlier eras.
    rw [hp, hd, List.map_nil, List.append_nil]
    refine ⟨fun x hx => Nat.le_succ_of_le (h.era_le x hx), fun x hx hera => ?_, h.pairwise⟩
    have hle := h.era_le x hx
    simp at hera
    omega
  | event kind q data hp hd hlast hq =>
    rw [hp, hd]
    have hbelow : ∀ x ∈ line, x.era = era → x.value.sequence < q := by
      intro x hx hera
      obtain ⟨p, hp, hle⟩ := h.last x hx hera
      exact Nat.lt_of_le_of_lt hle (hlast p hp)
    refine ⟨fun x hx => ?_, fun x hx hera => ⟨q, hq, ?_⟩, ?_⟩
    · rcases List.mem_append.mp hx with hx | hx
      · exact h.era_le x hx
      · obtain rfl : x = ⟨era, ⟨s.shard.id, kind, q, data⟩⟩ := by simpa using hx
        exact Nat.le_refl _
    · rcases List.mem_append.mp hx with hx | hx
      · exact Nat.le_of_lt (hbelow x hx hera)
      · obtain rfl : x = ⟨era, ⟨s.shard.id, kind, q, data⟩⟩ := by simpa using hx
        exact Nat.le_refl _
    · refine List.pairwise_append.mpr ⟨h.pairwise, by simp, fun x hx y hy hera => ?_⟩
      obtain rfl : y = ⟨era, ⟨s.shard.id, kind, q, data⟩⟩ := by simpa using hy
      exact hbelow x hx hera

/-- What holds of what the sessions of a pool publish. -/
structure Rising (f : Forum) : Prop where
  shard : ∀ k, (f.sessions k).shard.id = k
  own : ∀ k, ∀ x ∈ (f.outbox k).filterMap event?, x.value.shard = k
  increasing : ∀ k, Increasing (f.sessions k) (f.eras k) (f.spoken k)

theorem rising_begin (c : Config) (count : Nat) (now : Instant) (events notices : Nat) :
    (begin c count now events notices).Rising where
  shard := fun _ => rfl
  own := by simp [begin]
  increasing := fun k => by
    have hnone : (begin c count now events notices).spoken k = [] := rfl
    rw [hnone]
    exact ⟨by simp, by simp, .nil⟩

theorem filterMap_event? (era : Nat) (es : List Session.Effect) :
    (es.map fun e => (⟨era, e⟩ : Posting Session.Effect)).filterMap event? =
      (Session.published es).map (⟨era, ·⟩) := by
  rw [List.filterMap_map, Session.published, Session.select, List.map_filterMap]
  rfl

theorem Rising.handled (h : f.Rising) {k : Nat} (hnone : f.outbox k = []) (m : Session.Moment)
    (i : Session.Input) : (f.handled c k m i).Rising := by
  have hvoices := Session.voices_happens (Session.happens_step c (f.sessions k) m i)
  have hshard := Session.shard_step c (f.sessions k) m i
  generalize hr : Session.step c (f.sessions k) m i = r at hvoices hshard
  have houtbox : (f.handled c k m i).outbox k =
      r.2.map (⟨f.eras k + ((f.sessions k).discards i).toNat, ·⟩) := by simp [Forum.handled, owing, hr]
  have hspoken : (f.handled c k m i).spoken k = f.spoken k ++
      (Session.published r.2).map (⟨f.eras k + ((f.sessions k).discards i).toNat, ·⟩) := by
    rw [spoken, houtbox, filterMap_event?, spoken, hnone, List.filterMap_nil, List.append_nil]
    rfl
  refine ⟨fun j => ?_, fun j x hx => ?_, fun j => ?_⟩ <;> by_cases hj : j = k
  · subst hj
    simpa [Forum.handled, hr, hshard] using h.shard j
  · simpa [Forum.handled, hj] using h.shard j
  · subst hj
    rw [houtbox, filterMap_event?] at hx
    obtain ⟨e, he, rfl⟩ := List.mem_map.mp hx
    cases hvoices with
    | nothing hp => simp [hp] at he
    | discard hp => simp [hp] at he
    | event kind q data hp =>
      obtain rfl : e = ⟨(f.sessions j).shard.id, kind, q, data⟩ := by simpa [hp] using he
      exact h.shard j
  · exact h.own j x (by simpa [Forum.handled, owing, hj] using hx)
  · subst hj
    rw [hspoken]
    simpa [Forum.handled, hr] using (h.increasing j).voices hvoices
  · have hsame : (f.handled c k m i).spoken j = f.spoken j := by
      simp [spoken, Forum.handled, owing, hj]
    rw [hsame]
    simpa [Forum.handled, hj] using h.increasing j

/-- What is done stays spoken as it was. -/
theorem Rising.performed (h : f.Rising) {k : Nat} {x : Posting Session.Effect}
    {rest : List (Posting Session.Effect)} (hx : f.outbox k = x :: rest) :
    ((f.owing k rest).done k x).Rising := by
  have hhead : (f.outbox k).filterMap event? = (event? x).toList ++ rest.filterMap event? := by
    rw [hx]
    cases he : event? x <;> simp [he]
  have hown : ∀ y ∈ (event? x).toList, y.value.shard = k := fun y hy =>
    h.own k y (hhead ▸ List.mem_append_left _ hy)
  have hspoken : ∀ j, ((f.owing k rest).done k x).spoken j = f.spoken j := by
    intro j
    have hposted : (f.owing k rest).events.posted = f.events.posted := rfl
    rw [spoken, posted_done, outbox_done, outbox_owing, hposted, List.filter_append]
    by_cases hj : j = k
    · subst hj
      have hkept : (event? x).toList.filter (·.value.shard = j) = (event? x).toList :=
        List.filter_eq_self.mpr fun y hy => by simpa using hown y hy
      rw [hkept, if_pos rfl, spoken, hhead, List.append_assoc]
    · have hgone : (event? x).toList.filter (·.value.shard = j) = [] :=
        List.filter_eq_nil_iff.mpr fun y hy => by simp [hown y hy, Ne.symm hj]
      rw [hgone, if_neg hj, List.append_nil, spoken]
  refine ⟨fun j => ?_, fun j y hy => ?_, fun j => ?_⟩
  · rw [sessions_done]
    exact h.shard j
  · rw [outbox_done, outbox_owing] at hy
    by_cases hj : j = k
    · subst hj
      rw [if_pos rfl] at hy
      exact h.own j y (hhead ▸ List.mem_append_right _ hy)
    · rw [if_neg hj] at hy
      exact h.own j y hy
  · rw [hspoken, sessions_done, eras_done]
    exact h.increasing j

/-- Every move preserves the invariant. -/
theorem rising_move (h : f.Rising) (x : Move) : (f.move c x).Rising := by
  cases x with
  | handle k m i =>
    rw [move]
    split
    · next hnone => exact h.handled hnone m i
    · exact h
  | perform k =>
    rw [move]
    split
    · exact h
    · next x rest hx => exact h.performed hx
  | events t =>
    have hposted : (f.move c (.events t)).events.posted = f.events.posted :=
      Audience.posted_turn f.events t
    refine ⟨h.shard, h.own, fun k => ?_⟩
    have hspoken : (f.move c (.events t)).spoken k = f.spoken k := by
      rw [spoken, hposted]
      rfl
    rw [hspoken]
    exact h.increasing k
  | notices t => exact ⟨h.shard, h.own, h.increasing⟩

theorem rising_run (h : f.Rising) (moves : List Move) : (f.run c moves).Rising := by
  induction moves generalizing f with
  | nil => exact h
  | cons x rest ih => exact ih (rising_move h x)

/-- Of two events of one shard that were published, the later one has the greater number, if both
are of one era. -/
theorem Rising.pairwise (h : f.Rising) :
    f.events.posted.Pairwise fun x y => x.value.shard = y.value.shard → Before x y := by
  rw [List.pairwise_iff_getElem]
  intro i j hi hj hij hshard
  have hline := (h.increasing f.events.posted[j].value.shard).pairwise
  have hfilter := (List.pairwise_append.mp hline).1
  rw [List.pairwise_filter, List.pairwise_iff_getElem] at hfilter
  exact hfilter i j hi hj hij (by simpa using hshard) (by simp)

/-! ## Streams -/

/-- The era of an event that was published. -/
def eraOf (f : Forum) (place : Nat) : Option Nat := f.events.posted[place]?.map (·.era)

/-- The events that a subscriber hears of one shard and one era have increasing numbers. -/
theorem Rising.heard (h : f.Rising) {e : Ear Event} (he : e.Follows f.events.posted) :
    e.heard.Pairwise fun u v => u.2.shard = v.2.shard → f.eraOf u.1 = f.eraOf v.1 →
      u.2.sequence < v.2.sequence := by
  refine he.increasing.imp_of_mem ?_
  intro u v hu hv hlt hshard hera
  obtain ⟨x, hx, hxvalue⟩ := Option.map_eq_some_iff.mp (he.heard u.1 u.2 hu).2.2
  obtain ⟨y, hy, hyvalue⟩ := Option.map_eq_some_iff.mp (he.heard v.1 v.2 hv).2.2
  obtain ⟨hi, rfl⟩ := List.getElem?_eq_some_iff.mp hx
  obtain ⟨hj, rfl⟩ := List.getElem?_eq_some_iff.mp hy
  rw [← hxvalue, ← hyvalue] at hshard ⊢
  refine List.pairwise_iff_getElem.mp h.pairwise u.1 v.1 hi hj hlt hshard ?_
  simpa [eraOf, hx, hy] using hera

/-- **The streams of a pool are faithful.** For every number of shards, whatever comes to them, and
for every schedule of what they publish and of what the subscribers do: a subscriber hears what is
published after it subscribed, in that order, and misses an item only if as many later ones as are
kept were published before it had come that far. So the events of a shard reach it with increasing
numbers, from one time that the session forgets the session at the server to the next. -/
theorem streams_of_run (c : Config) (count : Nat) (now : Instant) (events notices : Nat)
    (moves : List Move) :
    let past := fun moves => (begin c count now events notices).run c moves
    (∀ j e, (past moves).events.ears[j]? = some e →
      Audience.Faithful (fun moves => (past moves).events) events moves j e ∧
        e.heard.Pairwise fun u v => u.2.shard = v.2.shard →
          (past moves).eraOf u.1 = (past moves).eraOf v.1 → u.2.sequence < v.2.sequence) ∧
      ∀ j e, (past moves).notices.ears[j]? = some e →
        Audience.Faithful (fun moves => (past moves).notices) notices moves j e := by
  intro past
  refine ⟨fun j e he => ?_, fun j e he => ?_⟩
  · have hfaithful := Audience.faithful_run events_goes rfl moves he
    exact ⟨hfaithful, (rising_run (rising_begin c count now events notices) moves).heard
      hfaithful.follows⟩
  · exact Audience.faithful_run notices_goes rfl moves he

/-- A moment at which everything can be sent. -/
def calm : Session.Moment := ⟨0, true, .ok (), 0⟩

/-- A session handles an input, and all that it asks for is done. -/
def acts (k : Nat) (i : Session.Input) : List Move :=
  .handle k calm i :: List.replicate 3 (.perform k)

/-- A session accepts an event of the given number. -/
def accepts (k : Nat) (number : String) : List Move :=
  acts k (.inbound 1 (.received ("\x7b\"op\":0,\"t\":\"A\",\"s\":" ++ number ++ ",\"d\":1\x7d")))

/-- Two shards, and a subscriber that hears the first event and then sleeps for three more, one of
which is that of the other shard. -/
def slow : List Move :=
  .events .subscribe ::
    (acts 0 .start ++ acts 0 (.inbound 1 .opened) ++ acts 1 .start ++ acts 1 (.inbound 1 .opened) ++
      accepts 0 "5" ++ [.events (.ask 0)] ++ accepts 0 "6" ++ accepts 1 "2" ++ accepts 0 "7" ++
      [.events (.ask 0), .events (.ask 0), .events (.ask 0)])

/-- The subscriber misses the second event, as two later ones were published before it asked. -/
theorem streams_of_run_slow :
    ∃ e, ((begin {} 2 0 2 2).run {} slow).events.ears[0]? = some e ∧
      e.heard.map (fun u => (u.1, u.2.shard, u.2.sequence)) = [(0, 0, 5), (2, 1, 2), (3, 0, 7)] ∧
      Audience.Faithful (fun moves => ((begin {} 2 0 2 2).run {} moves).events) 2 slow 0 e ∧
      Audience.Outrun (fun moves => ((begin {} 2 0 2 2).run {} moves).events) 2 slow 0 1 := by
  obtain ⟨e, he, hall⟩ := Option.map_eq_some_iff.mp (show
    (((begin {} 2 0 2 2).run {} slow).events.ears[0]?.map fun e =>
      (e.since, e.place, e.heard.map fun u => (u.1, u.2.shard, u.2.sequence))) =
        some (0, 4, [(0, 0, 5), (2, 1, 2), (3, 0, 7)]) by decide +kernel)
  obtain ⟨hsince, hplace, hheard⟩ : e.since = 0 ∧ e.place = 4 ∧
      e.heard.map (fun u => (u.1, u.2.shard, u.2.sequence)) = _ := by simpa using hall
  have hfaithful := ((streams_of_run {} 2 0 2 2 slow).1 0 e he).1
  refine ⟨e, he, hheard, hfaithful, hfaithful.lost 1 (by omega) (by omega) fun x hx => ?_⟩
  have hmem := List.mem_map_of_mem (f := fun u => (u.1, u.2.shard, u.2.sequence)) hx
  rw [hheard] at hmem
  simp at hmem

end Forum

end Switchboard
