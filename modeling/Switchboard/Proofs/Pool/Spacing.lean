import Mathlib.Data.List.MinMax
import Mathlib.Data.List.Perm.Subperm
import Mathlib.Tactic.Ring
import Switchboard.Pool.Admission

/-!
# How admissions to identify are spaced

A lane admits one handshake per interval, whoever asks and in whatever order, and the lanes do not
know of each other. Gates that wait together for one lane poll it: each sleeps as long as its
refusal said, and asks again. No interval passes in which none of them is admitted.

## Main definitions

* `Admission.Request`: a shard asks for a place; `Admission.replies` is what requests are told.
* `Admission.Crowd`: gates that wait for one lane; `Crowd.orderly` says that no gate is late.

## Main results

* `Admission.pairwise_granted`, `Admission.replies_filter`, `Admission.countP_granted_le`: spacing.
* `Admission.Crowd.Paced.ask`: what the turn of a gate preserves.
* `Admission.spacing_of_requests`: all of it, and that gates are admitted one interval apart.
-/
namespace Switchboard

namespace Window

/-- A window with a single place, which is taken if the window was opened. -/
structure Single (span : Span) (w : Window) : Prop where
  places : w.places = 1
  length : w.span = span
  taken : w.opened ≠ none → w.remaining = 0

/-- The window that an admission opens. -/
def openedAt (w : Window) (now : Instant) : Window := { w with opened := some now, remaining := 0 }

variable {span : Span} {w : Window} {now : Instant}

theorem single_new (scope : String) (span : Span) : (Window.new scope 1 span).Single span :=
  ⟨rfl, rfl, fun h => absurd rfl h⟩

theorem Single.openedAt (h : w.Single span) (now : Instant) : (w.openedAt now).Single span :=
  ⟨h.places, h.length, fun _ => rfl⟩

theorem Single.tryAcquire_of_expired (h : w.Single span) (he : w.isExpired now = true) :
    w.tryAcquire now = (w.openedAt now, .ok ()) := by
  simp [tryAcquire, refreshed, Window.openedAt, h.places, he]

theorem Single.tryAcquire_of_open (h : w.Single span) (he : w.isExpired now = false) :
    w.tryAcquire now = (w, .error (w.untilReset now)) := by
  have htaken : w.remaining = 0 := by
    apply h.taken
    intro hnone
    simp [isExpired, hnone] at he
  simp [tryAcquire, refreshed, h.places, he, htaken]

/-- Asking leaves a window with a single place. -/
theorem Single.tryAcquire (h : w.Single span) (now : Instant) :
    (w.tryAcquire now).1.Single span := by
  cases he : w.isExpired now with
  | true => simpa [h.tryAcquire_of_expired he] using h.openedAt now
  | false => simpa [h.tryAcquire_of_open he] using h

/-- Who is admitted comes a whole span after the admission before. -/
theorem Single.expired (h : w.Single span) {opened : Instant} (ho : w.opened = some opened) :
    w.isExpired now = true ↔ span ≤ now - opened := by
  simp [isExpired, ho, h.length]

end Window

namespace Admission

/-! ## Requests in time -/

/-- A shard of a coordinator with so many lanes asks for a place. -/
structure Request where
  time : Instant
  identity : String
  shard : Nat
  lanes : Nat

namespace Request

/-- The lane in which a place is asked for. -/
def lane (r : Request) : Lane := .ofShard r.identity r.shard r.lanes

end Request

/-- What requests are told, one after the other. -/
def replies (a : Admission) : List Request → List (Request × Except Span Unit)
  | [] => []
  | r :: rest => (r, (a.acquire r.lane r.time).2) :: replies (a.acquire r.lane r.time).1 rest

/-- The requests that are granted. -/
def granted (a : Admission) (requests : List Request) : List Request :=
  (a.replies requests).filterMap fun p => if p.2.isOk then some p.1 else none

variable {a b : Admission} {lane : Lane}

theorem answer_acquire (a : Admission) (lane : Lane) (now : Instant) :
    (a.acquire lane now).2 = ((a.window lane).tryAcquire now).2 := rfl

/-- What a lane answers depends on its window only. -/
theorem acquire_congr (h : a.window lane = b.window lane) (now : Instant) :
    (a.acquire lane now).2 = (b.acquire lane now).2 ∧
      (a.acquire lane now).1.window lane = (b.acquire lane now).1.window lane := by
  rw [answer_acquire, answer_acquire, window_acquire_self, window_acquire_self, h]
  exact ⟨rfl, rfl⟩

/-- Requests for other lanes do not matter. -/
theorem replies_filter (h : a.window lane = b.window lane) (requests : List Request) :
    (a.replies requests).filter (·.1.lane = lane) =
      b.replies (requests.filter (·.lane = lane)) := by
  induction requests generalizing a b with
  | nil => rfl
  | cons r rest ih =>
    by_cases hr : r.lane = lane
    · subst hr
      obtain ⟨hanswer, hwindow⟩ := acquire_congr h r.time
      simp [replies, hanswer, ih hwindow]
    · have hwindow : (a.acquire r.lane r.time).1.window lane = b.window lane :=
        (window_acquire_of_ne a (Ne.symm hr) r.time).trans h
      simp [replies, hr, ih hwindow]

/-! ## One interval apart -/

/-- Each lane has one place per interval. -/
def Spaced (interval : Span) (a : Admission) : Prop := ∀ lane, (a.window lane).Single interval

variable {interval : Span} {requests : List Request} {r : Request}

theorem spaced_new (interval : Span) : (new interval).Spaced interval :=
  fun _ => Window.single_new _ _

theorem Spaced.acquire (h : a.Spaced interval) (lane : Lane) (now : Instant) :
    (a.acquire lane now).1.Spaced interval := by
  intro other
  by_cases ho : other = lane
  · subst ho
    rw [window_acquire_self]
    exact (h other).tryAcquire now
  · rw [window_acquire_of_ne a ho]
    exact h other

/-- A place is granted when the window has expired, and opens the next one. -/
theorem Spaced.granted_of_expired (h : a.Spaced interval) (rest : List Request)
    (he : (a.window r.lane).isExpired r.time = true) :
    a.granted (r :: rest) = r :: (a.acquire r.lane r.time).1.granted rest ∧
      ((a.acquire r.lane r.time).1.window r.lane).opened = some r.time := by
  have hasked := (h r.lane).tryAcquire_of_expired he
  constructor
  · simp [granted, replies, answer_acquire, hasked, Except.isOk, Except.toBool]
  · simp [window_acquire_self, hasked, Window.openedAt]

/-- A refusal changes no window. -/
theorem Spaced.granted_of_open (h : a.Spaced interval) (rest : List Request)
    (he : (a.window r.lane).isExpired r.time = false) :
    a.granted (r :: rest) = (a.acquire r.lane r.time).1.granted rest ∧
      (a.acquire r.lane r.time).1.window r.lane = a.window r.lane := by
  have hasked := (h r.lane).tryAcquire_of_open he
  constructor
  · simp [granted, replies, answer_acquire, hasked, Except.isOk, Except.toBool]
  · simp [window_acquire_self, hasked]

/-- What is granted after an admission of its lane comes a whole interval later. -/
theorem le_of_mem_granted (h : a.Spaced interval) {opened : Instant}
    (ho : (a.window lane).opened = some opened) (hlate : ∀ r ∈ requests, opened ≤ r.time)
    (hsorted : requests.Pairwise (·.time ≤ ·.time)) (hr : r ∈ a.granted requests)
    (hlane : r.lane = lane) : opened + interval ≤ r.time := by
  induction requests generalizing a opened with
  | nil => simp [granted, replies] at hr
  | cons q rest ih =>
    obtain ⟨hq, hrest⟩ := List.pairwise_cons.mp hsorted
    have hopened := hlate q List.mem_cons_self
    have hnext := h.acquire q.lane q.time
    have hlate' : ∀ r ∈ rest, opened ≤ r.time := fun r hr => hlate r (List.mem_cons_of_mem _ hr)
    cases he : (a.window q.lane).isExpired q.time with
    | false =>
      obtain ⟨heq, hwindow⟩ := h.granted_of_open rest he
      rw [heq] at hr
      refine ih hnext ?_ hlate' hrest hr
      by_cases hql : lane = q.lane
      · rw [hql, hwindow, ← hql, ho]
      · rw [window_acquire_of_ne a hql, ho]
    | true =>
      obtain ⟨heq, hwindow⟩ := h.granted_of_expired rest he
      rw [heq] at hr
      by_cases hql : lane = q.lane
      · -- The lane admits anew: a span has passed, and the window of the rest opens here.
        subst hql
        have hpassed := ((h q.lane).expired ho).mp he
        rcases List.mem_cons.mp hr with rfl | hr
        · lia
        · have hlater := ih hnext hwindow hq hrest hr
          lia
      · rcases List.mem_cons.mp hr with rfl | hr
        · exact absurd hlane.symm hql
        · refine ih hnext ?_ hlate' hrest hr
          rw [window_acquire_of_ne a hql, ho]

/-- Admissions of one lane are an interval apart. -/
theorem pairwise_granted (h : a.Spaced interval) (hsorted : requests.Pairwise (·.time ≤ ·.time)) :
    (a.granted requests).Pairwise fun r s => r.lane = s.lane → r.time + interval ≤ s.time := by
  induction requests generalizing a with
  | nil => exact List.Pairwise.nil
  | cons r rest ih =>
    obtain ⟨hr, hrest⟩ := List.pairwise_cons.mp hsorted
    have hnext := h.acquire r.lane r.time
    cases he : (a.window r.lane).isExpired r.time with
    | false =>
      rw [(h.granted_of_open rest he).1]
      exact ih hnext hrest
    | true =>
      obtain ⟨heq, hwindow⟩ := h.granted_of_expired rest he
      rw [heq, List.pairwise_cons]
      refine ⟨fun s hs hlane => ?_, ih hnext hrest⟩
      exact le_of_mem_granted hnext hwindow hr hrest hs hlane.symm

theorem granted_subset (a : Admission) (requests : List Request) :
    a.granted requests ⊆ requests := by
  intro s hs
  induction requests generalizing a with
  | nil => simp [granted, replies] at hs
  | cons r rest ih =>
    simp only [granted, replies, List.filterMap_cons] at hs
    split at hs
    · exact List.mem_cons_of_mem _ (ih _ hs)
    case h_2 q hq =>
      rcases List.mem_cons.mp hs with rfl | hs
      · have hsame : r = s := by
          split at hq
          · exact Option.some.inj hq
          · simp at hq
        simp [hsame]
      · exact List.mem_cons_of_mem _ (ih _ hs)

/-- In an interval an identity has an admission for each of its lanes at most. -/
theorem countP_granted_le (h : a.Spaced interval) (hsorted : requests.Pairwise (·.time ≤ ·.time))
    {identity : String} {lanes : Nat} (hpos : 0 < lanes)
    (hlanes : ∀ r ∈ requests, r.identity = identity → r.lanes = lanes) (start : Instant) :
    (a.granted requests).countP (fun r =>
      r.identity = identity ∧ start ≤ r.time ∧ r.time < start + interval) ≤ lanes := by
  rw [List.countP_eq_length_filter]
  generalize hin : (a.granted requests).filter (fun r =>
    r.identity = identity ∧ start ≤ r.time ∧ r.time < start + interval) = inside
  have hmem : ∀ r ∈ inside, r ∈ requests ∧ r.identity = identity ∧ start ≤ r.time ∧
      r.time < start + interval := by
    intro r hr
    rw [← hin, List.mem_filter] at hr
    exact ⟨granted_subset a requests hr.1, by simpa using hr.2⟩
  have hlane : ∀ r ∈ inside, r.lane = ⟨identity, r.shard % lanes⟩ := by
    intro r hr
    obtain ⟨hreq, hid, -⟩ := hmem r hr
    simp [Request.lane, Lane.ofShard, hid, hlanes r hreq hid, Nat.max_eq_left hpos]
  have hapart : (inside.map fun r => r.shard % lanes).Nodup := by
    refine List.pairwise_map.mpr (List.Pairwise.imp_of_mem ?_
      (hin ▸ (pairwise_granted h hsorted).filter _))
    intro r s hr hs hspaced heq
    have hbetween := hspaced (by rw [hlane r hr, hlane s hs, heq])
    have hfirst := (hmem r hr).2.2
    have hsecond := (hmem s hs).2.2
    lia
  have hbound : (inside.map fun r => r.shard % lanes) ⊆ List.range lanes := by
    intro n hn
    obtain ⟨r, -, rfl⟩ := List.mem_map.mp hn
    exact List.mem_range.mpr (Nat.mod_lt _ hpos)
  simpa using (List.Nodup.subperm hapart hbound).length_le

/-! ## Gates that wait together -/

/-- Gates that wait for one lane. -/
structure Crowd where
  admission : Admission
  /-- The gates that wait, with the instant at which each asks next. -/
  waiting : List (Nat × Instant)
  /-- The gates that were admitted, with the instant at which each was. -/
  admitted : List (Nat × Instant)

namespace Crowd

/-- So many gates begin to wait at an instant. -/
def enter (a : Admission) (gates : Nat) (now : Instant) : Crowd :=
  ⟨a, (List.range gates).map (·, now), []⟩

/-- A gate asks, and sleeps if it was refused. -/
def ask (lane : Lane) (q : Crowd) (p : Nat × Instant) : Crowd :=
  let (admission, answer) := q.admission.acquire lane p.2
  match answer with
  | .ok () => ⟨admission, q.waiting.erase p, q.admitted ++ [p]⟩
  | .error wait => ⟨admission, (p.1, p.2 + pause wait) :: q.waiting.erase p, q.admitted⟩

/-- A gate is next: nobody is to ask before it. -/
def isNext (q : Crowd) (p : Nat × Instant) : Bool := p ∈ q.waiting && q.waiting.all (p.2 ≤ ·.2)

/-- Gates ask one after the other. -/
def run (lane : Lane) (q : Crowd) (turns : List (Nat × Instant)) : Crowd := turns.foldl (ask lane) q

/-- No gate asks while another one is late. -/
def orderly (lane : Lane) : Crowd → List (Nat × Instant) → Bool
  | _, [] => true
  | q, p :: rest => q.isNext p && orderly lane (q.ask lane p) rest

variable {q : Crowd} {p : Nat × Instant} {now : Instant} {gates turns : Nat}

theorem isNext_iff : q.isNext p = true ↔ p ∈ q.waiting ∧ ∀ o ∈ q.waiting, p.2 ≤ o.2 := by
  simp [isNext]

/-- While somebody waits, somebody is next. -/
theorem exists_isNext (h : q.waiting ≠ []) : ∃ p, q.isNext p = true := by
  obtain ⟨p, hp⟩ : ∃ p, q.waiting.argmin (·.2) = some p :=
    Option.ne_none_iff_exists'.mp fun hnone => h (List.argmin_eq_none.mp hnone)
  exact ⟨p, isNext_iff.mpr ⟨List.argmin_mem hp, fun o ho => List.le_of_mem_argmin ho hp⟩⟩

/-- The instant of the next admission, if one takes place in every interval since `now`. -/
def due (interval : Span) (now : Instant) (q : Crowd) : Instant :=
  now + q.admitted.length * interval

/-- How many gates ask before the next admission. -/
def early (interval : Span) (now : Instant) (q : Crowd) : Nat :=
  q.waiting.countP fun p => p.2 ≠ q.due interval now

/-- One gate was admitted in every interval since the gates came, and the others wake up in time for
the next admission, after one refusal at most. -/
structure Paced (lane : Lane) (interval : Span) (now : Instant) (gates turns : Nat) (q : Crowd) :
    Prop where
  single : (q.admission.window lane).Single interval
  opened : ∀ opened, (q.admission.window lane).opened = some opened →
    opened + interval = q.due interval now
  times : q.admitted.map (·.2) = (List.range q.admitted.length).map (now + · * interval)
  wakes : ∀ p ∈ q.waiting,
    p.2 = q.due interval now ∨ (q.admission.window lane).opened = some p.2
  all : ((q.admitted ++ q.waiting).map (·.1)).Perm (List.range gates)
  count : 2 * (turns + q.early interval now) + q.waiting.length * (q.waiting.length + 1) =
    gates * (gates + 1)

theorem paced_enter (hunused : Table.get? lane a.windows = none) (gates : Nat) (now : Instant) :
    Paced lane a.interval now gates 0 (enter a gates now) := by
  have hwindow : a.window lane = .new "identify" 1 a.interval := by simp [window, hunused]
  have hdue : (enter a gates now).due a.interval now = now := by simp [due, enter]
  have hwaits : ∀ p ∈ (enter a gates now).waiting, p.2 = now := by
    intro p hp
    obtain ⟨n, -, rfl⟩ := List.mem_map.mp hp
    rfl
  have hearly : (enter a gates now).early a.interval now = 0 := by
    refine List.countP_eq_zero.mpr fun p hp => ?_
    simp [hdue, hwaits p hp]
  have hsame : (enter a gates now).admission = a := rfl
  constructor
  · rw [hsame, hwindow]
    exact Window.single_new _ _
  · intro opened ho
    rw [hsame, hwindow] at ho
    cases ho
  · rfl
  · intro p hp
    exact .inl ((hwaits p hp).trans hdue.symm)
  · simp [enter, Function.comp_def]
  · rw [hearly]
    simp [enter]

/-- A gate that asks too early is refused, and wakes up for the next admission. -/
theorem Paced.ask_early (h : Paced lane interval now gates turns q)
    (hms : Span.millisecond ≤ interval) (hp : p ∈ q.waiting)
    (ho : (q.admission.window lane).opened = some p.2) :
    Paced lane interval now gates (turns + 1) (q.ask lane p) := by
  have hpos : 0 < interval := Nat.lt_of_lt_of_le (by decide) hms
  have hdue := h.opened p.2 ho
  have hopen : (q.admission.window lane).isExpired p.2 = false := by
    simpa [Window.isExpired, ho, h.single.length] using Nat.ne_of_gt hpos
  have hasked := h.single.tryAcquire_of_open hopen
  have hwait : (q.admission.window lane).untilReset p.2 = interval := by
    simp [Window.untilReset, ho, h.single.length]
  have hask : q.ask lane p = ⟨(q.admission.acquire lane p.2).1,
      (p.1, q.due interval now) :: q.waiting.erase p, q.admitted⟩ := by
    simp [Crowd.ask, acquire, hasked, hwait, pause, Nat.max_eq_left hms, hdue]
  have hwindow : (q.admission.acquire lane p.2).1.window lane = q.admission.window lane := by
    rw [window_acquire_self, hasked]
  have hperm := List.perm_cons_erase hp
  have hafter : (q.ask lane p).due interval now = q.due interval now := by
    rw [hask]
    rfl
  have hearly : q.early interval now = (q.ask lane p).early interval now + 1 := by
    have hlater : p.2 ≠ q.due interval now := by lia
    rw [early, early, hafter, hask, hperm.countP_eq,
      List.countP_cons_of_pos (by simpa using hlater), List.countP_cons_of_neg (by simp)]
  rw [hask]
  constructor
  · rw [hwindow]
    exact h.single
  · intro opened hopened
    rw [hwindow] at hopened
    exact h.opened opened hopened
  · exact h.times
  · intro o ho
    rw [hwindow]
    rcases List.mem_cons.mp ho with rfl | ho
    · exact .inl rfl
    · exact h.wakes o (List.mem_of_mem_erase ho)
  · refine List.Perm.trans ?_ h.all
    simpa using (hperm.symm.map (·.1)).append_left (q.admitted.map (·.1))
  · rw [hask] at hearly
    have hlength : q.waiting.length = (q.waiting.erase p).length + 1 := hperm.length_eq
    have hcount := h.count
    rw [hearly, hlength] at hcount
    rw [List.length_cons, ← hcount]
    ring

/-- When the next admission is due, the gate that asks first is admitted, and the others are early
for the one after it. -/
theorem Paced.ask_due (h : Paced lane interval now gates turns q)
    (hms : Span.millisecond ≤ interval) (hp : p ∈ q.waiting) (hdue : p.2 = q.due interval now)
    (hnext : ∀ o ∈ q.waiting, p.2 ≤ o.2) :
    Paced lane interval now gates (turns + 1) (q.ask lane p) := by
  have hpos : 0 < interval := Nat.lt_of_lt_of_le (by decide) hms
  have hwaits : ∀ o ∈ q.waiting, o.2 = q.due interval now := by
    intro o ho
    rcases h.wakes o ho with hsame | hopened
    · exact hsame
    · have hbefore := h.opened o.2 hopened
      have hfirst := hnext o ho
      lia
  have hexpired : (q.admission.window lane).isExpired p.2 = true := by
    cases ho : (q.admission.window lane).opened with
    | none => simp [Window.isExpired, ho]
    | some opened =>
      have hlast := h.opened opened ho
      rw [h.single.expired ho]
      lia
  have hasked := h.single.tryAcquire_of_expired hexpired
  have hask : q.ask lane p =
      ⟨(q.admission.acquire lane p.2).1, q.waiting.erase p, q.admitted ++ [p]⟩ := by
    simp [Crowd.ask, acquire, hasked]
  have hwindow : (q.admission.acquire lane p.2).1.window lane =
      (q.admission.window lane).openedAt p.2 := by
    rw [window_acquire_self, hasked]
  have hafter : (q.ask lane p).due interval now = q.due interval now + interval := by
    simp [hask, due, Nat.succ_mul, Nat.add_assoc]
  have hperm := List.perm_cons_erase hp
  have hearly : q.early interval now = 0 := by
    refine List.countP_eq_zero.mpr fun o ho => ?_
    simp [hwaits o ho]
  have hearly' : (q.ask lane p).early interval now = (q.waiting.erase p).length := by
    rw [early, hafter, hask, List.countP_eq_length]
    intro o ho
    have hsame := hwaits o (List.mem_of_mem_erase ho)
    simp only [ne_eq, decide_not, Bool.not_eq_true', decide_eq_false_iff_not]
    lia
  constructor
  · rw [hask, hwindow]
    exact h.single.openedAt p.2
  · intro opened hopened
    rw [hask, hwindow] at hopened
    obtain rfl : p.2 = opened := Option.some.inj hopened
    rw [hafter, hdue]
  · rw [hask]
    simp [List.range_succ, h.times, hdue, due]
  · intro o ho
    rw [hask] at ho ⊢
    rw [hwindow]
    exact .inr (congrArg some (hdue.trans (hwaits o (List.mem_of_mem_erase ho)).symm))
  · rw [hask]
    refine List.Perm.trans ?_ h.all
    simpa using (hperm.symm.map (·.1)).append_left (q.admitted.map (·.1))
  · have hlength : q.waiting.length = (q.waiting.erase p).length + 1 := hperm.length_eq
    have hcount := h.count
    rw [hearly, hlength] at hcount
    rw [hearly', hask, ← hcount]
    change _ + (q.waiting.erase p).length * ((q.waiting.erase p).length + 1) = _
    ring

/-- The turn of a gate. -/
theorem Paced.ask (h : Paced lane interval now gates turns q)
    (hms : Span.millisecond ≤ interval) (hnext : q.isNext p = true) :
    Paced lane interval now gates (turns + 1) (q.ask lane p) := by
  obtain ⟨hp, hfirst⟩ := isNext_iff.mp hnext
  rcases h.wakes p hp with hdue | ho
  · exact h.ask_due hms hp hdue hfirst
  · exact h.ask_early hms hp ho

theorem Paced.run (h : Paced lane interval now gates turns q)
    (hms : Span.millisecond ≤ interval) (schedule : List (Nat × Instant))
    (horderly : orderly lane q schedule = true) :
    Paced lane interval now gates (turns + schedule.length) (q.run lane schedule) := by
  induction schedule generalizing q turns with
  | nil => exact h
  | cons p rest ih =>
    obtain ⟨hnext, hrest⟩ : q.isNext p = true ∧ orderly lane (q.ask lane p) rest = true := by
      simpa [orderly] using horderly
    have hrun := ih (h.ask hms hnext) hrest
    rwa [Nat.add_assoc, Nat.add_comm 1] at hrun

end Crowd

/-- **How admissions are spaced.**

In any order of requests, from whatever coordinators, admissions of one lane are an interval apart
at least; what a lane answers is what it would answer to its own requests alone; and so an identity
has an admission for each of its lanes at most in any interval.

Gates that begin to wait for an unused lane at one instant are admitted at that instant and then
once in every interval, whichever of those that wake up at the same time asks first: while any of
them waits, one is next, and there is no turn left when each has been refused once for every gate
that was admitted before it. -/
theorem spacing_of_requests (interval : Span) :
    (∀ requests : List Request, requests.Pairwise (·.time ≤ ·.time) →
      ((new interval).granted requests).Pairwise
        (fun r s => r.lane = s.lane → r.time + interval ≤ s.time) ∧
      (∀ lane, ((new interval).replies requests).filter (·.1.lane = lane) =
        (new interval).replies (requests.filter (·.lane = lane))) ∧
      ∀ identity lanes start, 0 < lanes →
        (∀ r ∈ requests, r.identity = identity → r.lanes = lanes) →
        ((new interval).granted requests).countP (fun r =>
          r.identity = identity ∧ start ≤ r.time ∧ r.time < start + interval) ≤ lanes) ∧
    ∀ (a : Admission) (lane : Lane) (gates : Nat) (now : Instant) (schedule : List (Nat × Instant)),
      a.interval = interval → Table.get? lane a.windows = none → Span.millisecond ≤ interval →
      Crowd.orderly lane (.enter a gates now) schedule = true →
      let q := (Crowd.enter a gates now).run lane schedule
      q.admitted.map (·.2) =
        (List.range (gates - q.waiting.length)).map (fun n => now + n * interval) ∧
      ((q.admitted ++ q.waiting).map (·.1)).Perm (List.range gates) ∧
      (q.waiting ≠ [] → ∃ p, q.isNext p = true) ∧
      schedule.length ≤ gates * (gates + 1) / 2 := by
  refine ⟨fun requests hsorted => ⟨?_, ?_, ?_⟩, ?_⟩
  · exact pairwise_granted (spaced_new interval) hsorted
  · exact fun lane => replies_filter rfl requests
  · intro identity lanes start hpos hlanes
    exact countP_granted_le (spaced_new interval) hsorted hpos hlanes start
  · intro a lane gates now schedule hinterval hunused hms horderly q
    subst hinterval
    have hpaced : Crowd.Paced lane a.interval now gates (0 + schedule.length) q :=
      (Crowd.paced_enter hunused gates now).run hms schedule horderly
    have hadmitted : q.admitted.length = gates - q.waiting.length := by
      have hlength := hpaced.all.length_eq
      simp only [List.length_map, List.length_append, List.length_range] at hlength
      omega
    refine ⟨hadmitted ▸ hpaced.times, hpaced.all, Crowd.exists_isNext, ?_⟩
    have hcount := hpaced.count
    omega

/-- Two coordinators share the lanes of an identity: the place that is free is granted to whoever
asks first. Three gates wait for the lane of somebody else. -/
theorem spacing_of_requests_shared :
    let ms := Span.millisecond
    let requests : List Request := [⟨0, "app", 0, 2⟩, ⟨0, "app", 3, 2⟩, ⟨2 * ms, "app", 2, 2⟩,
      ⟨3 * ms, "bot", 0, 1⟩, ⟨5 * ms, "app", 4, 2⟩, ⟨5 * ms, "app", 0, 2⟩]
    let a := ((new (5 * ms)).acquire ⟨"app", 0⟩ 0).1
    let schedule := [(1, 7), (2, 7), (0, 7), (0, 7 + 5 * ms), (2, 7 + 5 * ms), (2, 7 + 10 * ms)]
    let q := (Crowd.enter a 3 7).run ⟨"bot", 0⟩ schedule
    requests.Pairwise (·.time ≤ ·.time) ∧
      ((new (5 * ms)).granted requests).countP (fun r =>
        r.identity = "app" ∧ 2 * ms ≤ r.time ∧ r.time < 2 * ms + 5 * ms) ≤ 2 ∧
      Table.get? ⟨"bot", 0⟩ a.windows = none ∧
      Crowd.orderly ⟨"bot", 0⟩ (.enter a 3 7) schedule = true ∧ q.waiting = [] ∧
      q.admitted.map (·.2) = [7, 7 + 5 * ms, 7 + 10 * ms] := by
  intro ms requests a schedule q
  have hsorted : requests.Pairwise (·.time ≤ ·.time) := by decide
  have hunused : Table.get? ⟨"bot", 0⟩ a.windows = none := by decide
  have horderly : Crowd.orderly ⟨"bot", 0⟩ (.enter a 3 7) schedule = true := by decide
  have hdone : q.waiting = [] := by decide
  obtain ⟨hrequests, hgates⟩ := spacing_of_requests (5 * ms)
  obtain ⟨-, -, hcount⟩ := hrequests requests hsorted
  obtain ⟨htimes, -, -, -⟩ := hgates a ⟨"bot", 0⟩ 3 7 schedule rfl hunused (by decide) horderly
  refine ⟨hsorted, hcount "app" 2 (2 * ms) (by decide) (by decide), hunused, horderly, hdone, ?_⟩
  rw [htimes]
  decide

end Admission

end Switchboard
