import Mathlib.Data.List.Induction
import Switchboard.Pacing.Window

/-!
# What a limit on admissions grants

The windows of a limit are not those of a clock: each is opened by the grant that finds none open.
So the grants of any attempts fall into rounds, one for each window, and a round has no more grants
than there are places. Who is refused learns to the instant when the next round can begin, and
leaves the limit as it is.

## Main definitions

* `Window.asked`, `Window.answers`, `Window.granted`: what attempts come to, one after the other.
* `Window.Round`: the grants of one window; `Window.Rounds` says how rounds follow each other.
* `Window.Stands`: the invariant between a limit and the rounds so far.

## Main results

* `Window.Stands.tryAcquire`: what one attempt comes to.
* `Window.Rounds.countP_le`: an interval as long as a window has the grants of two at most.
* `Window.law_of_attempts`: the law, for all attempts in the order of time.
-/
namespace Switchboard

namespace Window

/-! ## Attempts -/

/-- The limit after attempts, one after the other. -/
def asked (w : Window) (times : List Instant) : Window :=
  times.foldl (fun w now => (w.tryAcquire now).1) w

/-- What attempts are told. -/
def answers (w : Window) : List Instant → List (Except Span Unit)
  | [] => []
  | now :: rest => (w.tryAcquire now).2 :: answers (w.tryAcquire now).1 rest

/-- The instant of an attempt, if the answer grants it. -/
def grant (now : Instant) : Except Span Unit → List Instant
  | .ok () => [now]
  | .error _ => []

/-- The attempts that are granted. -/
def granted (w : Window) : List Instant → List Instant
  | [] => []
  | now :: rest => grant now (w.tryAcquire now).2 ++ granted (w.tryAcquire now).1 rest

variable {w : Window} {places : Nat} {span : Span} {now : Instant} {times : List Instant}

theorem asked_concat (w : Window) (times : List Instant) (now : Instant) :
    w.asked (times ++ [now]) = ((w.asked times).tryAcquire now).1 := by
  simp [asked]

theorem granted_concat (w : Window) (times : List Instant) (now : Instant) :
    w.granted (times ++ [now]) =
      w.granted times ++ grant now ((w.asked times).tryAcquire now).2 := by
  induction times generalizing w with
  | nil => simp [granted, asked]
  | cons t rest ih => simp [granted, ih, asked]

theorem granted_sublist (w : Window) (times : List Instant) :
    (w.granted times).Sublist times := by
  induction times generalizing w with
  | nil => exact List.Sublist.refl _
  | cons t rest ih =>
    rw [granted]
    cases (w.tryAcquire t).2 with
    | ok _ => exact (ih _).cons_cons t
    | error _ => exact (ih _).cons t

/-- What an attempt comes to, where there are places. -/
inductive Tries (w : Window) (now : Instant) : Window × Except Span Unit → Prop where
  /-- A window is opened. -/
  | begins (he : w.isExpired now = true) :
    Tries w now ({ w with opened := some now, remaining := w.places - 1 }, .ok ())
  /-- A place of the open window is taken. -/
  | takes (he : w.isExpired now = false) (hleft : w.remaining ≠ 0) :
    Tries w now ({ w with remaining := w.remaining - 1 }, .ok ())
  /-- The open window has no place left. -/
  | refused (he : w.isExpired now = false) (hleft : w.remaining = 0) :
    Tries w now (w, .error (w.untilReset now))

theorem tries_tryAcquire (hpos : 0 < w.places) (now : Instant) :
    Tries w now (w.tryAcquire now) := by
  have hplaces : w.places ≠ 0 := Nat.ne_of_gt hpos
  cases he : w.isExpired now with
  | true => simpa [tryAcquire, refreshed, he, hplaces] using Tries.begins he
  | false =>
    by_cases hleft : w.remaining = 0
    · simpa [tryAcquire, refreshed, he, hplaces, hleft] using Tries.refused he hleft
    · simpa [tryAcquire, refreshed, he, hplaces, hleft] using Tries.takes he hleft

/-- Without places nothing is granted, and nothing changes. -/
theorem tryAcquire_of_places_eq_zero (h : w.places = 0) (now : Instant) :
    w.tryAcquire now = (w, .error w.span) := by
  simp [tryAcquire, h]

/-- A refusal changes nothing. -/
theorem tryAcquire_of_error {wait : Span} (h : (w.tryAcquire now).2 = .error wait) :
    (w.tryAcquire now).1 = w := by
  rcases Nat.eq_zero_or_pos w.places with hzero | hpos
  · rw [tryAcquire_of_places_eq_zero hzero]
  · have htries := tries_tryAcquire hpos now
    generalize w.tryAcquire now = result at htries h ⊢
    cases htries with
    | refused _ _ => rfl
    | _ => cases h

/-! ## Rounds -/

/-- The grants of one window: the one that opened it, and those after it. -/
structure Round where
  opening : Instant
  later : List Instant
deriving DecidableEq

/-- All grants of a round. -/
def Round.grants (r : Round) : List Instant := r.opening :: r.later

/-- The grants of rounds, one round after the other. -/
def grantsOf (rounds : List Round) : List Instant := rounds.flatMap Round.grants

@[simp] theorem grantsOf_nil : grantsOf [] = [] := rfl

@[simp] theorem grantsOf_cons (r : Round) (rounds : List Round) :
    grantsOf (r :: rounds) = r.opening :: (r.later ++ grantsOf rounds) := rfl

@[simp] theorem grantsOf_append (rounds more : List Round) :
    grantsOf (rounds ++ more) = grantsOf rounds ++ grantsOf more := List.flatMap_append

/-- Rounds of windows with so many places and of such a span. -/
structure Rounds (places : Nat) (span : Span) (rounds : List Round) : Prop where
  /-- A window opens when those before it are over. -/
  apart : rounds.Pairwise fun a b => a.opening + span ≤ b.opening
  within : ∀ r ∈ rounds, ∀ t ∈ r.later, r.opening ≤ t ∧ t < r.opening + span
  few : ∀ r ∈ rounds, r.grants.length ≤ places

theorem rounds_nil : Rounds places span [] := ⟨List.Pairwise.nil, by simp, by simp⟩

theorem rounds_concat {rounds : List Round} {r : Round} :
    Rounds places span (rounds ++ [r]) ↔
      Rounds places span rounds ∧ (∀ a ∈ rounds, a.opening + span ≤ r.opening) ∧
        (∀ t ∈ r.later, r.opening ≤ t ∧ t < r.opening + span) ∧ r.grants.length ≤ places := by
  constructor
  · rintro ⟨hapart, hwithin, hfew⟩
    obtain ⟨hbefore, -, hlast⟩ := List.pairwise_append.mp hapart
    refine ⟨⟨hbefore, fun a ha => hwithin a (List.mem_append_left _ ha), fun a ha =>
      hfew a (List.mem_append_left _ ha)⟩, fun a ha => hlast a ha r (by simp), ?_, ?_⟩
    · exact hwithin r (by simp)
    · exact hfew r (by simp)
  · rintro ⟨⟨hapart, hwithin, hfew⟩, hlast, hr, hplaces⟩
    refine ⟨List.pairwise_append.mpr ⟨hapart, by simp, by simpa using hlast⟩, ?_, ?_⟩
    · rintro a ha
      rcases List.mem_append.mp ha with ha | ha
      · exact hwithin a ha
      · rwa [List.mem_singleton.mp ha]
    · rintro a ha
      rcases List.mem_append.mp ha with ha | ha
      · exact hfew a ha
      · rwa [List.mem_singleton.mp ha]

section Count

variable {rounds : List Round} {r : Round} {p : Instant → Bool}

theorem Rounds.tail (h : Rounds places span (r :: rounds)) : Rounds places span rounds where
  apart := (List.pairwise_cons.mp h.apart).2
  within a ha := h.within a (List.mem_cons_of_mem _ ha)
  few a ha := h.few a (List.mem_cons_of_mem _ ha)

theorem countP_grantsOf_cons (r : Round) (rounds : List Round) (p : Instant → Bool) :
    (grantsOf (r :: rounds)).countP p = r.grants.countP p + (grantsOf rounds).countP p :=
  List.countP_append

/-- The grants of a round come before its window is over. -/
theorem Rounds.lt_of_mem_grants (h : Rounds places span rounds) (hspan : 0 < span) (hr : r ∈ rounds)
    {t : Instant} (ht : t ∈ r.grants) : t < r.opening + span := by
  rcases List.mem_cons.mp ht with rfl | hlater
  · exact Nat.lt_add_of_pos_right hspan
  · exact (h.within r hr t hlater).2

/-- Those of later rounds do not. -/
theorem Rounds.le_of_mem (h : Rounds places span (r :: rounds)) {t : Instant}
    (ht : t ∈ grantsOf rounds) : r.opening + span ≤ t := by
  obtain ⟨a, ha, hta⟩ := List.mem_flatMap.mp ht
  have hopening := (List.pairwise_cons.mp h.apart).1 a ha
  rcases List.mem_cons.mp hta with rfl | hlater
  · exact hopening
  · exact Nat.le_trans hopening (h.within a (List.mem_cons_of_mem _ ha) t hlater).1

/-- Before the first window is over there are the grants of its round only. -/
theorem Rounds.countP_le_of_lt (h : Rounds places span (r :: rounds))
    (hp : ∀ t, p t = true → t < r.opening + span) :
    (grantsOf (r :: rounds)).countP p ≤ places := by
  have hnone : (grantsOf rounds).countP p = 0 := by
    refine List.countP_eq_zero.mpr fun t ht hpt => ?_
    exact Nat.not_le_of_lt (hp t hpt) (h.le_of_mem ht)
  rw [countP_grantsOf_cons, hnone, Nat.add_zero]
  exact Nat.le_trans List.countP_le_length (h.few r List.mem_cons_self)

/-- A window has the grants of its round, and no others. -/
theorem Rounds.countP_window (h : Rounds places span rounds) (hr : r ∈ rounds) :
    (grantsOf rounds).countP (fun t => r.opening ≤ t ∧ t < r.opening + span) ≤ places := by
  induction rounds with
  | nil => simp at hr
  | cons a rest ih =>
    rcases List.mem_cons.mp hr with rfl | hr
    · exact h.countP_le_of_lt fun t ht => by simpa using (of_decide_eq_true ht).2
    · have hopening := (List.pairwise_cons.mp h.apart).1 r hr
      have hnone : a.grants.countP (fun t => r.opening ≤ t ∧ t < r.opening + span) = 0 := by
        refine List.countP_eq_zero.mpr fun t ht hpt => ?_
        obtain ⟨hle, hlt⟩ := of_decide_eq_true hpt
        have hspan : 0 < span := by lia
        have hbefore := h.lt_of_mem_grants hspan List.mem_cons_self ht
        lia
      rw [countP_grantsOf_cons, hnone, Nat.zero_add]
      exact ih h.tail hr

/-- **Grants at most a window apart** are those of two rounds at most. -/
theorem Rounds.countP_le (h : Rounds places span rounds) (hspan : 0 < span)
    (hp : ∀ t u, p t = true → p u = true → u ≤ t + span) :
    (grantsOf rounds).countP p ≤ 2 * places := by
  induction rounds with
  | nil => simp
  | cons r rounds ih =>
    rw [countP_grantsOf_cons]
    by_cases hnone : r.grants.countP p = 0
    · rw [hnone, Nat.zero_add]
      exact ih h.tail
    · obtain ⟨t, ht, hpt⟩ := List.countP_pos_iff.mp (Nat.pos_of_ne_zero hnone)
      have hearly := h.lt_of_mem_grants hspan List.mem_cons_self ht
      have hfirst : r.grants.countP p ≤ places :=
        Nat.le_trans List.countP_le_length (h.few r List.mem_cons_self)
      -- The next window, if there is one, lasts beyond everything that is close to this grant.
      have hrest : (grantsOf rounds).countP p ≤ places := by
        cases rounds with
        | nil => simp
        | cons a rest =>
          have hopening := (List.pairwise_cons.mp h.apart).1 a List.mem_cons_self
          refine h.tail.countP_le_of_lt fun u hu => ?_
          have hclose := hp t u hpt hu
          lia
      lia

/-- With a single place, a round is one grant. -/
theorem Rounds.grantsOf_eq_map (h : Rounds 1 span rounds) :
    grantsOf rounds = rounds.map (·.opening) := by
  induction rounds with
  | nil => rfl
  | cons r rounds ih =>
    have hlater : r.later = [] := by simpa [Round.grants] using h.few r List.mem_cons_self
    simp [hlater, ih h.tail]

theorem Rounds.pairwise_grantsOf (h : Rounds 1 span rounds) :
    (grantsOf rounds).Pairwise (· + span ≤ ·) := by
  rw [h.grantsOf_eq_map, List.pairwise_map]
  exact h.apart

end Count

/-! ## The limit and the rounds so far -/

/-- A limit after rounds, the last of which is that of the window that was opened last. -/
inductive Stands (places : Nat) (span : Span) (w : Window) : List Round → Prop where
  /-- No window was opened. -/
  | fresh (hplaces : w.places = places) (hspan : w.span = span) (hopened : w.opened = none)
      (hleft : w.remaining = places) : Stands places span w []
  | within (earlier : List Round) (r : Round) (hplaces : w.places = places) (hspan : w.span = span)
      (hopened : w.opened = some r.opening) (hleft : w.remaining + r.grants.length = places)
      (hrounds : Rounds places span (earlier ++ [r])) : Stands places span w (earlier ++ [r])

variable {rounds : List Round}

theorem stands_new (scope : String) (places : Nat) (span : Span) :
    (new scope places span).Stands places span [] := .fresh rfl rfl rfl rfl

theorem Stands.sound (h : w.Stands places span rounds) : Rounds places span rounds := by
  cases h with
  | fresh _ _ _ _ => exact rounds_nil
  | within _ _ _ _ _ _ hrounds => exact hrounds

theorem Stands.places_eq (h : w.Stands places span rounds) : w.places = places := by
  cases h <;> assumption

theorem Stands.span_eq (h : w.Stands places span rounds) : w.span = span := by
  cases h <;> assumption

/-- Where the window of a round is over, none is open. -/
theorem Stands.isExpired_of_le (h : w.Stands places span rounds)
    (hover : ∀ t ∈ grantsOf rounds, t + span ≤ now) : w.isExpired now = true := by
  cases h with
  | fresh _ _ hopened _ => simp [isExpired, hopened]
  | within earlier r _ hspan hopened _ _ =>
    have hle := hover r.opening (by simp)
    simp only [isExpired, hopened, hspan, decide_eq_true_eq]
    lia

/-- An open window is that of the last round, and not over yet. -/
theorem Stands.exists_open (h : w.Stands places span rounds) (he : w.isExpired now = false) :
    ∃ earlier r, rounds = earlier ++ [r] ∧ w.opened = some r.opening ∧
      w.remaining + r.grants.length = places ∧ now < r.opening + span := by
  cases h with
  | fresh _ _ hopened _ => simp [isExpired, hopened] at he
  | within earlier r _ hspan hopened hleft _ =>
    have hlt : now - r.opening < span := by simpa [isExpired, hopened, hspan] using he
    exact ⟨earlier, r, rfl, hopened, hleft, by lia⟩

/-- A window that is opened when none is open begins a round. -/
theorem Stands.begins (h : w.Stands places span rounds) (hpos : 0 < places)
    (hnow : ∀ t ∈ grantsOf rounds, t ≤ now) (he : w.isExpired now = true) :
    Stands places span { w with opened := some now, remaining := w.places - 1 }
      (rounds ++ [⟨now, []⟩]) := by
  have hleft : w.places - 1 + 1 = places := by
    rw [h.places_eq]
    exact Nat.sub_add_cancel hpos
  refine .within rounds ⟨now, []⟩ h.places_eq h.span_eq rfl hleft ?_
  refine rounds_concat.mpr ⟨h.sound, fun a ha => ?_, by simp, hpos⟩
  cases h with
  | fresh _ _ _ _ => simp at ha
  | within earlier r _ hspan hopened _ hrounds =>
    have hover : r.opening + span ≤ now := by
      have hidle : span ≤ now - r.opening := by simpa [isExpired, hopened, hspan] using he
      have hle := hnow r.opening (by simp)
      lia
    rcases List.mem_append.mp ha with ha | ha
    · exact Nat.le_trans ((rounds_concat.mp hrounds).2.1 a ha) (by lia)
    · rwa [List.mem_singleton.mp ha]

/-- A place that is taken of an open window goes to the last round. -/
theorem Stands.takes {earlier : List Round} {r : Round}
    (h : w.Stands places span (earlier ++ [r])) (hopened : w.opened = some r.opening)
    (hopen : r.opening ≤ now ∧ now < r.opening + span) (hleft : w.remaining ≠ 0)
    (hplaces : w.remaining + r.grants.length = places) :
    Stands places span { w with remaining := w.remaining - 1 }
      (earlier ++ [⟨r.opening, r.later ++ [now]⟩]) := by
  obtain ⟨hbefore, hapart, hwithin, -⟩ := rounds_concat.mp h.sound
  have hlength : w.remaining - 1 + (r.opening :: (r.later ++ [now])).length = places := by
    simp only [Round.grants, List.length_cons, List.length_append, List.length_nil] at hplaces ⊢
    lia
  refine .within earlier ⟨r.opening, r.later ++ [now]⟩ h.places_eq h.span_eq hopened hlength ?_
  refine rounds_concat.mpr ⟨hbefore, hapart, fun t ht => ?_, ?_⟩
  · rcases List.mem_append.mp ht with ht | ht
    · exact hwithin t ht
    · rwa [List.mem_singleton.mp ht]
  · exact Nat.le_trans (Nat.le_add_left _ _) (Nat.le_of_eq hlength)

/-- **One attempt** keeps the invariant; if it is granted, its instant is a grant of the last
round. -/
theorem Stands.tryAcquire (h : w.Stands places span rounds) (hpos : 0 < places)
    (hnow : ∀ t ∈ grantsOf rounds, t ≤ now) :
    ∃ next, Stands places span (w.tryAcquire now).1 next ∧
      grantsOf next = grantsOf rounds ++ grant now (w.tryAcquire now).2 := by
  have htries := tries_tryAcquire (w := w) (by rwa [h.places_eq]) now
  generalize w.tryAcquire now = result at htries ⊢
  cases htries with
  | begins he => exact ⟨_, h.begins hpos hnow he, by simp [grant]⟩
  | takes he hleft =>
    obtain ⟨earlier, r, rfl, hopened, hplaces, hlt⟩ := h.exists_open he
    have hle : r.opening ≤ now := hnow r.opening (by simp)
    exact ⟨_, h.takes hopened ⟨hle, hlt⟩ hleft hplaces, by simp [grant]⟩
  | refused he hleft => exact ⟨rounds, h, by simp [grant]⟩

/-- After any attempts in the order of time, the limit stands where its rounds have brought it. -/
theorem exists_stands (scope : String) (hpos : 0 < places) (span : Span)
    (hsorted : times.Pairwise (· ≤ ·)) :
    ∃ rounds, Stands places span ((new scope places span).asked times) rounds ∧
      grantsOf rounds = (new scope places span).granted times := by
  induction times using List.reverseRecOn with
  | nil => exact ⟨[], stands_new scope places span, rfl⟩
  | append_singleton times now ih =>
    obtain ⟨hbefore, -, hlast⟩ := List.pairwise_append.mp hsorted
    obtain ⟨rounds, hstands, hgrants⟩ := ih hbefore
    have hnow : ∀ t ∈ grantsOf rounds, t ≤ now := fun t ht =>
      hlast t ((granted_sublist _ _).mem (hgrants ▸ ht)) now (by simp)
    rw [asked_concat, granted_concat, ← hgrants]
    exact hstands.tryAcquire hpos hnow

/-- What is granted falls into rounds, places or not. -/
theorem exists_rounds (scope : String) (places : Nat) (span : Span)
    (hsorted : times.Pairwise (· ≤ ·)) :
    ∃ rounds, Rounds places span rounds ∧
      grantsOf rounds = (new scope places span).granted times := by
  rcases Nat.eq_zero_or_pos places with rfl | hpos
  · refine ⟨[], rounds_nil, ?_⟩
    clear hsorted
    induction times with
    | nil => rfl
    | cons now rest ih =>
      rw [granted, tryAcquire_of_places_eq_zero rfl]
      exact ih
  · obtain ⟨rounds, hstands, hgrants⟩ := exists_stands scope hpos span hsorted
    exact ⟨rounds, hstands.sound, hgrants⟩

/-! ## What a refusal says -/

/-- A refusal that leaves the limit as it is, and names the wait until a place is free to the
instant. -/
structure Exact (w : Window) (now : Instant) (wait : Span) : Prop where
  unchanged : (w.tryAcquire now).1 = w
  pos : 0 < wait
  le : wait ≤ w.span
  /-- However often it is tried meanwhile, it is refused, with what is left of the wait. -/
  meanwhile : ∀ later : List Instant, (∀ t ∈ later, now ≤ t ∧ t < now + wait) →
    w.asked later = w ∧ w.answers later = later.map fun t => .error (now + wait - t)
  /-- When the wait is over, it is granted. -/
  after : (w.tryAcquire (now + wait)).2 = .ok ()

/-- A window without a place left refuses until it is over. -/
theorem tryAcquire_of_full {opening : Instant} (hpos : 0 < w.places)
    (hopened : w.opened = some opening) (hleft : w.remaining = 0)
    (hnow : opening ≤ now ∧ now < opening + w.span) :
    w.tryAcquire now = (w, .error (opening + w.span - now)) := by
  have he : w.isExpired now = false := by
    simp only [isExpired, hopened, decide_eq_false_iff_not]
    lia
  have hwait : w.untilReset now = opening + w.span - now := by
    simp only [untilReset, hopened]
    lia
  simp [tryAcquire, refreshed, he, Nat.ne_of_gt hpos, hleft, hwait]

theorem tryAcquire_of_isExpired (hpos : 0 < w.places) (he : w.isExpired now = true) :
    (w.tryAcquire now).2 = .ok () := by
  simp [tryAcquire, refreshed, he, Nat.ne_of_gt hpos]

theorem asked_of_full {opening : Instant} (hpos : 0 < w.places)
    (hopened : w.opened = some opening) (hleft : w.remaining = 0)
    (hlater : ∀ t ∈ times, opening ≤ t ∧ t < opening + w.span) :
    w.asked times = w ∧ w.answers times = times.map fun t => .error (opening + w.span - t) := by
  induction times with
  | nil => exact ⟨rfl, rfl⟩
  | cons t rest ih =>
    have hrest := ih fun u hu => hlater u (List.mem_cons_of_mem _ hu)
    have hfull := tryAcquire_of_full hpos hopened hleft (hlater t List.mem_cons_self)
    constructor
    · simpa [asked, hfull] using hrest.1
    · simpa [answers, hfull] using hrest.2

/-- **A refusal is exact**, and it comes only when the last round has all that the places allow. -/
theorem Stands.refuses (h : w.Stands places span rounds) (hpos : 0 < places)
    (hnow : ∀ t ∈ grantsOf rounds, t ≤ now) {wait : Span}
    (hwait : (w.tryAcquire now).2 = .error wait) :
    w.Exact now wait ∧ ∃ earlier r, rounds = earlier ++ [r] ∧ r.grants.length = places ∧
      now + wait = r.opening + span := by
  have hplaces : 0 < w.places := by rwa [h.places_eq]
  have htries := tries_tryAcquire hplaces now
  generalize hresult : w.tryAcquire now = result at htries hwait
  cases htries with
  | begins _ => cases hwait
  | takes _ _ => cases hwait
  | refused he hleft =>
    obtain ⟨earlier, r, rfl, hopened, hcount, hlt⟩ := h.exists_open he
    have hle : r.opening ≤ now := hnow r.opening (by simp)
    have hspan := h.span_eq
    have hend : now + wait = r.opening + w.span := by
      have huntil : w.untilReset now = wait := by simpa using hwait
      simp only [untilReset, hopened] at huntil
      lia
    refine ⟨⟨by rw [hresult], by lia, by lia, fun later hlater => ?_, ?_⟩, earlier, r, rfl, ?_, ?_⟩
    · rw [hend]
      exact asked_of_full hplaces hopened hleft fun t ht => by
        have := hlater t ht
        lia
    · refine tryAcquire_of_isExpired hplaces ?_
      simp only [isExpired, hopened, decide_eq_true_eq]
      lia
    · simpa [hleft] using hcount
    · rw [hend, hspan]

/-! ## The law -/

/-- No interval that is half-open and as long as a window has more than the grants of two. -/
theorem Rounds.countP_interval_le (h : Rounds places span rounds) (start : Instant) :
    (grantsOf rounds).countP (fun t => start ≤ t ∧ t < start + span) ≤ 2 * places := by
  rcases Nat.eq_zero_or_pos span with rfl | hspan
  · have hnone : (grantsOf rounds).countP (fun t => start ≤ t ∧ t < start + 0) = 0 :=
      List.countP_eq_zero.mpr fun t _ => by simp
    exact Nat.le_trans (Nat.le_of_eq hnone) (Nat.zero_le _)
  · refine h.countP_le hspan fun t u ht hu => ?_
    have ht := of_decide_eq_true ht
    have hu := of_decide_eq_true hu
    lia

/-- A full round fills its window. -/
theorem Rounds.countP_window_eq {r : Round} (h : Rounds places span rounds) (hspan : 0 < span)
    (hr : r ∈ rounds) (hfull : r.grants.length = places) :
    (grantsOf rounds).countP (fun t => r.opening ≤ t ∧ t < r.opening + span) = places := by
  refine Nat.le_antisymm (h.countP_window hr) ?_
  have hinside : r.grants.countP (fun t => r.opening ≤ t ∧ t < r.opening + span) = places := by
    rw [← hfull, List.countP_eq_length]
    intro t ht
    rcases List.mem_cons.mp ht with rfl | hlater
    · simpa using hspan
    · simpa using h.within r hr t hlater
  rw [← hinside]
  exact (List.sublist_flatten_of_mem (List.mem_map_of_mem hr)).countP_le

/-- **The law of a limit.** Of any attempts in the order of time, those that are granted fall into
windows: each is opened by a grant, they do not overlap, and none has more grants than there are
places. So an interval as long as a window has the grants of two at most, and with a single place
grants are a window apart. When all grants are a window ago, or there were none, the next attempt is
granted. A refusal changes nothing, names the wait exactly, and comes only when the window that is
open is full. -/
theorem law_of_attempts (scope : String) (hpos : 0 < places) (span : Span)
    (hsorted : times.Pairwise (· ≤ ·)) :
    let w := (new scope places span).asked times
    let grants := (new scope places span).granted times
    (∃ rounds, grants = grantsOf rounds ∧ Rounds places span rounds ∧
        ∀ r ∈ rounds, grants.countP (fun t => r.opening ≤ t ∧ t < r.opening + span) ≤ places) ∧
      (∀ start, grants.countP (fun t => start ≤ t ∧ t < start + span) ≤ 2 * places) ∧
      (0 < span → ∀ start,
        grants.countP (fun t => start ≤ t ∧ t ≤ start + span) ≤ 2 * places) ∧
      (places = 1 → grants.Pairwise (· + span ≤ ·)) ∧
      ∀ now, (∀ t ∈ times, t ≤ now) →
        ((∀ t ∈ grants, t + span ≤ now) → (w.tryAcquire now).2 = .ok ()) ∧
        ∀ wait, (w.tryAcquire now).2 = .error wait →
          w.Exact now wait ∧ ∃ opening ∈ grants, now + wait = opening + span ∧
            grants.countP (fun t => opening ≤ t ∧ t < opening + span) = places := by
  intro w grants
  obtain ⟨rounds, hstands, hgrants⟩ := exists_stands scope hpos span hsorted
  have hrounds := hstands.sound
  rw [show grants = grantsOf rounds from hgrants.symm]
  refine ⟨⟨rounds, rfl, hrounds, fun r hr => hrounds.countP_window hr⟩,
    hrounds.countP_interval_le, fun hspan start => ?_, ?_, fun now hnow => ⟨fun hover => ?_,
      fun wait hwait => ?_⟩⟩
  · refine hrounds.countP_le hspan fun t u ht hu => ?_
    have ht := of_decide_eq_true ht
    have hu := of_decide_eq_true hu
    lia
  · rintro rfl
    exact hrounds.pairwise_grantsOf
  · exact tryAcquire_of_isExpired (by rwa [hstands.places_eq]) (hstands.isExpired_of_le hover)
  · have hle : ∀ t ∈ grantsOf rounds, t ≤ now := fun t ht =>
      hnow t ((granted_sublist _ _).mem (hgrants ▸ ht))
    obtain ⟨hexact, earlier, r, rfl, hfull, hend⟩ := hstands.refuses hpos hle hwait
    have hspan : 0 < span := by
      have hshort := hexact.le
      rw [hstands.span_eq] at hshort
      exact Nat.lt_of_lt_of_le hexact.pos hshort
    exact ⟨hexact, r.opening, by simp, hend, hrounds.countP_window_eq hspan (by simp) hfull⟩

/-- Two places in a window of twenty: the third attempt is refused, and so is the next, which is
told to wait for the end of the window. -/
theorem law_of_attempts_three :
    (new "route" 2 20).granted [0, 3, 5] = [0, 3] ∧
      ((new "route" 2 20).asked [0, 3, 5]).Exact 7 13 :=
  ⟨by decide, ((law_of_attempts "route" (by decide : 0 < 2) 20
    (by decide : [0, 3, 5].Pairwise (· ≤ ·))).2.2.2.2 7 (by decide)).2 13 (by rfl) |>.1⟩

end Window

end Switchboard
