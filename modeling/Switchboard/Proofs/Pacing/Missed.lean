import Mathlib.Data.List.DropRight
import Mathlib.Data.List.Induction
import Switchboard.Pacing.Heartbeat

/-!
# A tracker of heartbeats and its history

A tracker keeps a counter, a flag and the times of what came last. All of them can be read off what
happened to it: `Heartbeat.after_eq_ofHistory`. An acknowledgement or a reset ends a round, and what
counts is the part of the round from its first heartbeat on.

## Main definitions

* `Heartbeat.Mark`: what happens to a tracker; `Heartbeat.after` is the tracker after it.
* `Heartbeat.round`, `Heartbeat.outstanding`, `Heartbeat.overdue`: what a history comes to.
* `Heartbeat.Disciplined`: a heartbeat is sent on each tick that asks for one, and on no other
  occasion.
* `Heartbeat.Answers`: what a tracker answers, by its history.

## Main results

* `Heartbeat.ofHistory_concat`: one thing more that happens.
* `Heartbeat.Disciplined.tick`: the ticks that find a connection dead, under discipline.
* `Heartbeat.answers_of_countP_le`: the answers of a tracker, for all histories.
-/
namespace Switchboard

namespace Heartbeat

/-- What happens to a tracker. -/
inductive Mark where
  /-- One interval went by. -/
  | tick
  /-- A heartbeat was sent. -/
  | sent (now : Instant)
  /-- An acknowledgement came. -/
  | acked (now : Instant)
  /-- Everything but the grace is forgotten. -/
  | reset
  /-- The interval is known. -/
  | setInterval (interval : Span)
deriving DecidableEq

namespace Mark

/-- Nothing is outstanding any more. -/
def clears : Mark → Bool
  | acked _ | reset => true
  | _ => false

def isTick : Mark → Bool
  | tick => true
  | _ => false

/-- When a heartbeat was sent. -/
def sent? : Mark → Option Instant
  | sent now => some now
  | _ => none

/-- When an acknowledgement came. -/
def acked? : Mark → Option Instant
  | acked now => some now
  | _ => none

def interval? : Mark → Option Span
  | setInterval interval => some interval
  | _ => none

end Mark

/-- The tracker after one thing that happens. -/
def mark (h : Heartbeat) : Mark → Heartbeat
  | .tick => h.tick.1
  | .sent now => h.sent now
  | .acked now => (h.acked now).1
  | .reset => h.reset
  | .setInterval interval => h.setInterval interval

/-- The tracker after all that happened to it. -/
def after (grace : Nat) (history : List Mark) : Heartbeat := history.foldl mark (new grace)

/-! ## Histories -/

/-- What happened since the last acknowledgement or reset. -/
def round (history : List Mark) : List Mark := history.rtakeWhile (! ·.clears)

/-- What happened since the last reset. -/
def era (history : List Mark) : List Mark := history.rtakeWhile (· ≠ .reset)

/-- The round from its first heartbeat on. -/
def outstanding (history : List Mark) : List Mark := (round history).dropWhile (·.sent?.isNone)

/-- The ticks of the round that found a heartbeat of it. -/
def overdue (history : List Mark) : Nat := (outstanding history).countP Mark.isTick

/-- What was told last. -/
def last {α : Type} (f : Mark → Option α) (history : List Mark) : Option α :=
  history.reverse.findSome? f

/-- The tracker that a history comes to. -/
def ofHistory (grace : Nat) (history : List Mark) : Heartbeat where
  grace := max grace 1
  interval := last Mark.interval? (era history)
  awaiting := outstanding history ≠ []
  missed := min (overdue history) mostMissed
  lastSent := last Mark.sent? (era history)
  lastAck := last Mark.acked? (era history)

variable {grace : Nat} {history : List Mark} {x : Mark}

@[simp] theorem last_nil {α : Type} (f : Mark → Option α) : last f [] = none := rfl

@[simp] theorem last_concat {α : Type} (f : Mark → Option α) (history : List Mark) (x : Mark) :
    last f (history ++ [x]) = (f x).or (last f history) := by
  cases hx : f x <;> simp [last, hx]

theorem round_concat (history : List Mark) (x : Mark) :
    round (history ++ [x]) = if x.clears then [] else round history ++ [x] := by
  cases hx : x.clears <;> simp [round, hx]

theorem era_concat (history : List Mark) (x : Mark) :
    era (history ++ [x]) = if x = .reset then [] else era history ++ [x] := by
  by_cases hx : x = .reset <;> simp [era, hx]

/-- Where a heartbeat is outstanding everything is of interest, else only a heartbeat is. -/
theorem outstanding_concat (history : List Mark) {x : Mark} (hx : x.clears = false) :
    outstanding (history ++ [x]) =
      if outstanding history = [] ∧ x.sent? = none then [] else outstanding history ++ [x] := by
  have hround : round (history ++ [x]) = round history ++ [x] := by simp [round_concat, hx]
  rw [outstanding, hround, List.dropWhile_append, ← outstanding]
  cases hs : x.sent? <;> by_cases he : outstanding history = [] <;> simp [hs, he]

theorem outstanding_of_clears (history : List Mark) {x : Mark} (hx : x.clears = true) :
    outstanding (history ++ [x]) = [] := by
  simp [outstanding, round_concat, hx]

theorem overdue_eq_zero (h : outstanding history = []) : overdue history = 0 := by
  simp [overdue, h]

theorem overdue_tick (history : List Mark) :
    overdue (history ++ [.tick]) = if outstanding history = [] then 0 else overdue history + 1 := by
  rw [overdue, outstanding_concat history rfl]
  by_cases he : outstanding history = [] <;> simp [overdue, he, Mark.sent?, Mark.isTick]

/-- Only ticks count. -/
theorem overdue_concat (history : List Mark) {x : Mark} (hx : x.clears = false)
    (ht : x.isTick = false) : overdue (history ++ [x]) = overdue history := by
  rw [overdue, outstanding_concat history hx]
  split
  case isTrue h => simp [overdue, h.1]
  case isFalse _ => simp [overdue, ht]

/-- **One thing more** that happens. -/
theorem ofHistory_concat (grace : Nat) (history : List Mark) (x : Mark) :
    (ofHistory grace history).mark x = ofHistory grace (history ++ [x]) := by
  cases x with
  | tick =>
    have hout := outstanding_concat history (x := .tick) rfl
    by_cases he : outstanding history = []
    · simp [mark, tick, ofHistory, era_concat, hout, he, overdue_eq_zero,
        Mark.interval?, Mark.sent?, Mark.acked?]
    · -- The counter stops at its end, and so does the count of the history.
      have hcount : min (min (overdue history) mostMissed + 1) mostMissed =
          min (overdue history + 1) mostMissed := by omega
      simp only [mark, tick, ofHistory, he, ne_eq, not_false_eq_true, decide_true, if_true, hcount]
      split <;> simp [era_concat, overdue_tick, hout, he, Mark.interval?, Mark.sent?, Mark.acked?]
  | sent now =>
    have hout := outstanding_concat history (x := .sent now) rfl
    have hcount := overdue_concat history (x := .sent now) rfl rfl
    simp [mark, sent, ofHistory, era_concat, hout, hcount, Mark.interval?, Mark.sent?, Mark.acked?]
  | acked now =>
    have hout := outstanding_of_clears history (x := .acked now) rfl
    simp [mark, acked, ofHistory, era_concat, hout, overdue_eq_zero, Mark.interval?, Mark.sent?,
      Mark.acked?]
  | reset =>
    have hout := outstanding_of_clears history (x := .reset) rfl
    simp [mark, reset, ofHistory, era_concat, hout, overdue_eq_zero]
  | setInterval span =>
    have hout := outstanding_concat history (x := .setInterval span) rfl
    have hcount := overdue_concat history (x := .setInterval span) rfl rfl
    by_cases he : outstanding history = [] <;>
      simp [mark, setInterval, ofHistory, era_concat, hout, hcount, he, Mark.interval?, Mark.sent?,
        Mark.acked?]

/-- **A tracker is what its history comes to.** -/
theorem after_eq_ofHistory (grace : Nat) (history : List Mark) :
    after grace history = ofHistory grace history := by
  induction history using List.reverseRecOn with
  | nil => rfl
  | append_singleton history x ih =>
    rw [← ofHistory_concat, ← ih]
    simp [after]

/-! ## Answers -/

theorem overdue_le_countP (history : List Mark) : overdue history ≤ history.countP Mark.isTick :=
  (((round history).dropWhile_sublist _).trans
    (List.rtakeWhile_suffix _ history).sublist).countP_le

/-- A tick that finds no heartbeat of the round asks for one. -/
theorem tick_of_outstanding_eq_nil (grace : Nat) (h : outstanding history = []) :
    (after grace history).tick.2 = .send := by
  rw [after_eq_ofHistory]
  simp [tick, ofHistory, h]

/-- Where the counter has not reached its end, a tick tells how many have found a heartbeat of the
round. -/
theorem tick_of_history (grace : Nat) {history : List Mark}
    (hfew : overdue (history ++ [.tick]) ≤ mostMissed) :
    (after grace history).tick.2 =
      if outstanding history ≠ [] ∧ max grace 1 ≤ overdue (history ++ [.tick]) then
        .dead (overdue (history ++ [.tick]))
      else .send := by
  by_cases he : outstanding history = []
  · simp [tick_of_outstanding_eq_nil grace he, he]
  · rw [after_eq_ofHistory]
    rw [overdue_tick, if_neg he] at hfew ⊢
    have hcount : min (min (overdue history) mostMissed + 1) mostMissed = overdue history + 1 := by
      omega
    simp only [tick, ofHistory, he, hcount, ne_eq, not_false_eq_true, decide_true, if_true,
      true_and]
    split <;> rfl

/-- What came last in a round came last of all, if it is not of an earlier round. -/
theorem last_era (history : List Mark) (h : outstanding history ≠ []) :
    last Mark.sent? (era history) = last Mark.sent? (round history) := by
  induction history using List.reverseRecOn with
  | nil => rfl
  | append_singleton history x ih =>
    cases hx : x.clears with
    | true => exact absurd (outstanding_of_clears history hx) h
    | false =>
      -- Neither the round nor the era ends here, so both go on with this mark.
      have hreset : x ≠ .reset := by
        rintro rfl
        cases hx
      rw [era_concat, if_neg hreset, round_concat, hx, if_neg (by simp), last_concat, last_concat]
      cases hs : x.sent? with
      | some now => rfl
      | none =>
        rw [outstanding_concat history hx] at h
        have hout : outstanding history ≠ [] := fun he => h (if_pos ⟨he, hs⟩)
        rw [ih hout]

/-- A round without a heartbeat has no time of one. -/
theorem last_round_eq_none (h : outstanding history = []) :
    last Mark.sent? (round history) = none := by
  refine List.findSome?_eq_none_iff.mpr fun x hx => ?_
  simpa using List.dropWhile_eq_nil_iff.mp h x (by simpa using hx)

theorem acked_of_history (grace : Nat) (history : List Mark) (now : Instant) :
    ((after grace history).acked now).2 =
      (last Mark.sent? (round history)).map (now - ·) := by
  rw [after_eq_ofHistory]
  by_cases he : outstanding history = []
  · simp [acked, ofHistory, he, last_round_eq_none]
  · simp [acked, ofHistory, he, last_era history he]

/-! ## Discipline -/

/-- A heartbeat is sent on each tick that asks for one, and on no other occasion. -/
inductive Disciplined (grace : Nat) : List Mark → Prop where
  | nil : Disciplined grace []
  | beat {history : List Mark} (h : Disciplined grace history)
      (hs : (after grace history).tick.2 = .send) (now : Instant) :
    Disciplined grace (history ++ [.tick, .sent now])
  /-- A tick that finds the connection dead sends nothing. -/
  | dead {history : List Mark} (h : Disciplined grace history) {missed : Nat}
      (hd : (after grace history).tick.2 = .dead missed) : Disciplined grace (history ++ [.tick])
  | other {history : List Mark} (h : Disciplined grace history) {x : Mark}
      (ht : x.isTick = false) (hs : x.sent? = none) : Disciplined grace (history ++ [x])

/-- The ticks of the round. -/
def beats (history : List Mark) : Nat := (round history).countP Mark.isTick

theorem beats_concat (history : List Mark) {x : Mark} (hx : x.clears = false) :
    beats (history ++ [x]) = beats history + if x.isTick then 1 else 0 := by
  rw [beats, round_concat, hx, if_neg (by simp), List.countP_append]
  cases hx : x.isTick <;> simp [beats, hx]

theorem beats_of_clears (history : List Mark) {x : Mark} (hx : x.clears = true) :
    beats (history ++ [x]) = 0 := by
  simp [beats, round_concat, hx]

/-- Under discipline the first tick of a round sends a heartbeat, and all others find it. -/
theorem Disciplined.outstanding_overdue (h : Disciplined grace history) :
    (outstanding history = [] ↔ beats history = 0) ∧ overdue history = beats history - 1 := by
  induction h with
  | nil => exact ⟨by simp [outstanding, beats, round], rfl⟩
  | @beat history _ _ now ih =>
    have hbeats : beats (history ++ [.tick, .sent now]) = beats history + 1 := by
      rw [List.append_cons, beats_concat _ rfl, beats_concat _ rfl]
      rfl
    have hout : outstanding (history ++ [.tick, .sent now]) ≠ [] := by
      rw [List.append_cons, outstanding_concat _ rfl]
      simp [Mark.sent?]
    refine ⟨by simp [hbeats, hout], ?_⟩
    rw [hbeats, List.append_cons, overdue_concat _ rfl rfl, overdue_tick]
    -- The first tick of the round finds nothing; it is the one that does not count.
    split
    case isTrue he => simp [ih.1.mp he]
    case isFalse he =>
      have hpos : beats history ≠ 0 := fun hb => he (ih.1.mpr hb)
      rw [ih.2]
      omega
  | @dead history _ missed hd ih =>
    have he : outstanding history ≠ [] := by
      intro he
      rw [tick_of_outstanding_eq_nil grace he] at hd
      cases hd
    have hpos : beats history ≠ 0 := fun hb => he (ih.1.mpr hb)
    have hbeats : beats (history ++ [.tick]) = beats history + 1 := beats_concat _ rfl
    have hout : outstanding (history ++ [.tick]) ≠ [] := by
      rw [outstanding_concat _ rfl]
      simp [he]
    refine ⟨by simp [hbeats, hout], ?_⟩
    rw [hbeats, overdue_tick, if_neg he, ih.2]
    omega
  | @other history _ x ht hs ih =>
    cases hx : x.clears with
    | true =>
      have hout := outstanding_of_clears history hx
      exact ⟨by simp [hout, beats_of_clears history hx],
        by rw [overdue_eq_zero hout, beats_of_clears history hx]⟩
    | false =>
      have hbeats : beats (history ++ [x]) = beats history := by simp [beats_concat _ hx, ht]
      rw [hbeats, overdue_concat _ hx ht, outstanding_concat _ hx, ← ih.1]
      exact ⟨by by_cases he : outstanding history = [] <;> simp [he, hs], ih.2⟩

/-- So the ticks of the round are as many as find its first heartbeat when one more comes. -/
theorem Disciplined.overdue_tick (h : Disciplined grace history) :
    overdue (history ++ [.tick]) = beats history := by
  obtain ⟨hout, hcount⟩ := h.outstanding_overdue
  rw [Heartbeat.overdue_tick]
  split
  case isTrue he => rw [hout.mp he]
  case isFalse he =>
    have hpos : beats history ≠ 0 := fun hb => he (hout.mpr hb)
    omega

/-- **Under discipline** a tick finds the connection dead when as many ticks of the round went
before it as the grace has, and it tells their number. -/
theorem Disciplined.tick (h : Disciplined grace history) (hfew : beats history ≤ mostMissed) :
    (after grace history).tick.2 =
      if beats history < max grace 1 then .send else .dead (beats history) := by
  by_cases he : outstanding history = []
  · rw [tick_of_outstanding_eq_nil grace he, if_pos]
    rw [h.outstanding_overdue.1.mp he]
    omega
  · rw [tick_of_history grace (by rwa [h.overdue_tick]), h.overdue_tick]
    by_cases hg : beats history < max grace 1
    · rw [if_pos hg, if_neg fun hdead => Nat.not_le_of_lt hg hdead.2]
    · rw [if_neg hg, if_pos ⟨he, Nat.le_of_not_lt hg⟩]

theorem beats_le_countP (history : List Mark) : beats history ≤ history.countP Mark.isTick :=
  (List.rtakeWhile_suffix _ history).sublist.countP_le

/-- What a tracker answers is what its history comes to. -/
structure Answers (grace : Nat) (history : List Mark) : Prop where
  tracker : after grace history = ofHistory grace history
  /-- What is missed are the ticks of the round that found a heartbeat of it. -/
  missed : (after grace history).missed = overdue history
  /-- A tick finds the connection dead when it is one of them and they are as many as the grace;
  else it asks for a heartbeat. -/
  tick : ∀ past, history = past ++ [.tick] → (after grace past).tick.2 =
    if outstanding past ≠ [] ∧ max grace 1 ≤ overdue history then .dead (overdue history) else .send
  /-- An acknowledgement tells the time since the last heartbeat of the round, if there is one. -/
  acked : ∀ now, ((after grace history).acked now).2 =
    (last Mark.sent? (round history)).map (now - ·)
  /-- Under discipline all ticks of a round but the first find its first heartbeat, so a tick finds
  the connection dead when as many went before it in the round as the grace has. -/
  disciplined : ∀ past, history = past ++ [.tick] → Disciplined grace past →
    overdue history = beats past ∧ (after grace past).tick.2 =
      if beats past < max grace 1 then .send else .dead (beats past)

/-- **A tracker equals its history**, as long as the ticks of the history can be counted. -/
theorem answers_of_countP_le (grace : Nat) {history : List Mark}
    (hfew : history.countP Mark.isTick ≤ mostMissed) : Answers grace history where
  tracker := after_eq_ofHistory grace history
  missed := by
    rw [after_eq_ofHistory]
    exact Nat.min_eq_left (Nat.le_trans (overdue_le_countP history) hfew)
  tick := by
    rintro past rfl
    exact tick_of_history grace (Nat.le_trans (overdue_le_countP _) hfew)
  acked := acked_of_history grace history
  disciplined := by
    rintro past rfl h
    refine ⟨h.overdue_tick, h.tick (Nat.le_trans (beats_le_countP past) (Nat.le_trans ?_ hfew))⟩
    exact (List.sublist_append_left past [.tick]).countP_le

end Heartbeat

end Switchboard
