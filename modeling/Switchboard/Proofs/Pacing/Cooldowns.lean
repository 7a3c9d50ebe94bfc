import Mathlib.Data.List.Induction
import Mathlib.Data.Set.Basic
import Mathlib.Order.Bounds.Defs
import Switchboard.Proofs.Dispatch.Pause
import Switchboard.Simulation.CooldownRun

/-!
# A pause and those who wait for its end

A pause is forgotten by whoever finds it over, and still it can be read as if nothing was ever
forgotten: it lasts to the latest of all instants that it was extended to. Who waits for its end
looks at the beginning and whenever it seems over. In the meantime others may extend it, also at the
very instant of a look, before or after it.

## Main definitions

* `Cooldown.Use`: what is done with a pause; `Cooldown.left` is what is left of it if nothing is
  forgotten.
* `Cooldown.Waits`: a wait, with all that others do meanwhile.
* `Cooldown.Heard`: what was heard of before a look.

## Main results

* `Cooldown.Recalls.remaining`: a look, and what it forgets.
* `Cooldown.Waits.courses`: where a wait stands, for all interleavings.
* `CooldownRun.isLeast_wait`: when a wait that is carried out is over.
* `Cooldown.pause_of_triggers`: the pause and the waits, after all that was done before.
-/
namespace Switchboard

namespace Cooldown

variable {c : Cooldown} {now : Instant}

/-! ## A pause that is over -/

theorem over_of_le {u : Instant} (hu : c.until? = some u) (hle : u ≤ now) : c.Over now :=
  fun v hv => by
    rw [hu] at hv
    exact Option.some.inj hv ▸ hle

theorem Over.remaining {time : Instant} (h : c.Over time) : (c.remaining now).1.Over time := by
  rcases c.over_or_lt now with hover | ⟨u, hu, hlt⟩
  · simp [remaining_of_over hover, Over, Cooldown.none]
  · rwa [remaining_of_lt hu hlt]

theorem over_trigger {ending : Instant} :
    (c.trigger ending).Over now ↔ c.Over now ∧ ending ≤ now := by
  cases hc : c.until? with
  | none => simp [Over, Cooldown.trigger, hc]
  | some u => simp [Over, Cooldown.trigger, hc]

theorem over_foldl_trigger {planned : List (Instant × Instant)} :
    (planned.foldl (fun c p => c.trigger p.2) c).Over now ↔
      c.Over now ∧ ∀ p ∈ planned, p.2 ≤ now := by
  induction planned generalizing c with
  | nil => simp
  | cons p planned ih => simp [ih, over_trigger, and_assoc]

/-! ## Looks -/

/-- What is done with a pause. -/
inductive Use where
  | trigger (ending : Instant)
  /-- Somebody looks what is left, or whether there is any. -/
  | look (now : Instant)
deriving DecidableEq

namespace Use

def ending? : Use → Option Instant
  | trigger ending => some ending
  | look _ => .none

def look? : Use → Option Instant
  | trigger _ => .none
  | look now => some now

end Use

/-- The pause after one use. -/
def use (c : Cooldown) : Use → Cooldown
  | .trigger ending => c.trigger ending
  | .look now => (c.remaining now).1

/-- The pause after all uses. -/
def after (uses : List Use) : Cooldown := uses.foldl use .none

/-- The instants that a pause was extended to. -/
def endings (uses : List Use) : List Instant := uses.filterMap Use.ending?

/-- The instants of the looks. -/
def looks (uses : List Use) : List Instant := uses.filterMap Use.look?

/-- What is left of a pause that lasts to the latest of some instants. -/
def left (endings : List Instant) (now : Instant) : Option Span :=
  match endings.max? with
  | some latest => if now < latest then some (latest - now) else .none
  | .none => .none

/-- A pause that lasts as long as if nothing was forgotten, from some instant on. -/
structure Recalls (c : Cooldown) (endings : List Instant) (now : Instant) : Prop where
  holds : ∀ e ∈ endings, c.Holds e now
  known : ∀ u, c.until? = some u → u ∈ endings

theorem recalls_none (now : Instant) : Cooldown.none.Recalls [] now :=
  ⟨by simp, by simp [Cooldown.none]⟩

theorem Recalls.mono {endings : List Instant} (h : c.Recalls endings now) {later : Instant}
    (hle : now ≤ later) : c.Recalls endings later :=
  ⟨fun e he => (h.holds e he).mono hle, h.known⟩

/-- From then on a pause is over when all that it recalls is past. -/
theorem Recalls.over_iff {endings : List Instant} (h : c.Recalls endings now) :
    c.Over now ↔ ∀ e ∈ endings, e ≤ now :=
  ⟨fun hover e he => (h.holds e he).le_of_over hover, fun hle u hu => hle u (h.known u hu)⟩

theorem Recalls.trigger {endings : List Instant} (h : c.Recalls endings now) (ending : Instant) :
    (c.trigger ending).Recalls (endings ++ [ending]) now := by
  refine ⟨fun e he => ?_, fun u hu => ?_⟩
  · rcases List.mem_append.mp he with he | he
    · exact (h.holds e he).trigger ending
    · rw [List.mem_singleton.mp he]
      exact holds_trigger c ending now
  · cases hc : c.until? with
    | none =>
      obtain rfl : ending = u := by simpa [Cooldown.trigger, hc] using hu
      simp
    | some v =>
      obtain rfl : max v ending = u := by simpa [Cooldown.trigger, hc] using hu
      rcases Nat.le_total v ending with hle | hle
      · simp [Nat.max_eq_right hle]
      · simp [Nat.max_eq_left hle, h.known v hc]

/-- **A look** shows what is left, and what it forgets is over. -/
theorem Recalls.remaining {endings : List Instant} (h : c.Recalls endings now) :
    (c.remaining now).2 = left endings now ∧ (c.remaining now).1.Recalls endings now := by
  rcases c.over_or_lt now with hover | ⟨u, hu, hlt⟩
  · have hle : ∀ e ∈ endings, e ≤ now := fun e he => (h.holds e he).le_of_over hover
    rw [remaining_of_over hover]
    refine ⟨?_, fun e he => .inl (hle e he), by simp [Cooldown.none]⟩
    cases hmax : endings.max? with
    | none => simp [left, hmax]
    | some latest =>
      have hlatest := hle latest (List.max?_mem hmax)
      simp [left, hmax, Nat.not_lt_of_le hlatest]
  · rw [remaining_of_lt hu hlt]
    refine ⟨?_, h⟩
    have hmax : endings.max? = some u := by
      refine List.max?_eq_some_iff.mpr ⟨h.known u hu, fun e he => ?_⟩
      rcases h.holds e he with hle | ⟨v, hv, hle⟩
      · exact Nat.le_trans hle (Nat.le_of_lt hlt)
      · rw [hu] at hv
        rwa [Option.some.inj hv]
    simp [left, hmax, hlt]

/-- **After any uses**, the looks of which are in the order of time, the pause is as if nothing was
forgotten. -/
theorem recalls_after {uses : List Use} (hsorted : (looks uses ++ [now]).Pairwise (· ≤ ·)) :
    (after uses).Recalls (endings uses) now := by
  induction uses using List.reverseRecOn generalizing now with
  | nil => exact recalls_none now
  | append_singleton uses x ih =>
    have hafter : after (uses ++ [x]) = (after uses).use x := by simp [after]
    rw [hafter]
    cases x with
    | trigger ending =>
      have hlooks : looks (uses ++ [.trigger ending]) = looks uses := by simp [looks, Use.look?]
      have hendings : endings (uses ++ [.trigger ending]) = endings uses ++ [ending] := by
        simp [endings, Use.ending?]
      rw [hlooks] at hsorted
      rw [hendings]
      exact (ih hsorted).trigger ending
    | look time =>
      have hlooks : looks (uses ++ [.look time]) = looks uses ++ [time] := by
        simp [looks, Use.look?]
      have hendings : endings (uses ++ [.look time]) = endings uses := by
        simp [endings, Use.ending?]
      rw [hlooks] at hsorted
      obtain ⟨hbefore, -, hlast⟩ := List.pairwise_append.mp hsorted
      rw [hendings]
      exact (ih hbefore).remaining.2.mono (hlast time (by simp) now (by simp))

/-! ## Waits -/

/-- Where a wait stands. -/
inductive Stage where
  /-- The next look is at an instant. -/
  | sleeping (due : Instant)
  /-- The pause was found over at an instant. -/
  | done (time : Instant)
deriving DecidableEq

/-- A pause, and somebody who waits for its end. -/
structure Wait where
  cooldown : Cooldown
  stage : Stage
deriving DecidableEq

/-- What goes on while somebody waits. -/
inductive Turn where
  /-- Another task extends the pause. -/
  | trigger (ending : Instant)
  /-- Another task looks. -/
  | look
  /-- The one that waits looks: it sleeps for what is left, if anything is. -/
  | check
deriving DecidableEq

namespace Wait

/-- A wait after one more thing that goes on. -/
def step (w : Wait) (now : Instant) : Turn → Wait
  | .trigger ending => { w with cooldown := w.cooldown.trigger ending }
  | .look => { w with cooldown := (w.cooldown.remaining now).1 }
  | .check =>
    match w.cooldown.remaining now with
    | (cooldown, .none) => ⟨cooldown, .done now⟩
    | (cooldown, some left) => ⟨cooldown, .sleeping (now + left)⟩

end Wait

/-- A wait that begins at `start`, with all that goes on meanwhile, in the order in which it does:
the one that waits looks when its sleep is over, not earlier and not later, and so it does nothing
but wait until then. -/
inductive Waits (c : Cooldown) (start : Instant) : List (Instant × Turn) → Wait → Prop where
  | start : Waits c start [] ⟨c, .sleeping start⟩
  | turn {events : List (Instant × Turn)} {w : Wait} (h : Waits c start events w) {now : Instant}
      {x : Turn} (hstart : start ≤ now) (hsorted : ∀ y ∈ events, y.1 ≤ now)
      (hdue : ∀ due, w.stage = .sleeping due → now ≤ due)
      (hcheck : x = .check → w.stage = .sleeping now) :
    Waits c start (events ++ [(now, x)]) (w.step now x)

/-- The pause was extended to `ending` before a wait began or, if it looks at `time`, before it does
so then. -/
def Heard (past : List Instant) (events : List (Instant × Turn)) (time ending : Instant) : Prop :=
  ending ∈ past ∨ ∃ before now after, events = before ++ (now, .trigger ending) :: after ∧
    (now < time ∨ (time, .check) ∈ after)

/-- The instants that others have extended the pause to. -/
def extensions (events : List (Instant × Turn)) : List Instant :=
  events.filterMap fun x => match x.2 with
    | .trigger ending => some ending
    | _ => .none

variable {start time e : Instant} {past : List Instant} {events : List (Instant × Turn)} {w : Wait}
  {x : Turn}

theorem extensions_concat (events : List (Instant × Turn)) (now : Instant) (x : Turn) :
    extensions (events ++ [(now, x)]) = extensions events ++ extensions [(now, x)] :=
  List.filterMap_append

theorem exists_of_mem_extensions (h : e ∈ extensions events) :
    ∃ before now after, events = before ++ (now, .trigger e) :: after := by
  obtain ⟨⟨now, x⟩, hx, he⟩ := List.mem_filterMap.mp h
  obtain ⟨before, after, rfl⟩ := List.append_of_mem hx
  cases x with
  | trigger ending =>
    obtain rfl : ending = e := by simpa using he
    exact ⟨before, now, after, rfl⟩
  | _ => simp at he

theorem mem_of_heard (h : Heard past events time e) : e ∈ past ++ extensions events := by
  rcases h with h | ⟨before, now, after, rfl, -⟩
  · exact List.mem_append_left _ h
  · simp [extensions]

/-- What was heard of stays so. -/
theorem Heard.append (h : Heard past events time e) (more : List (Instant × Turn)) :
    Heard past (events ++ more) time e := by
  rcases h with h | ⟨before, now, after, rfl, hheard⟩
  · exact .inl h
  · exact .inr ⟨before, now, after ++ more, by simp,
      hheard.imp_right (List.mem_append_left _ ·)⟩

/-- Later than all that went on, everything was heard of. -/
theorem heard_of_lt (he : e ∈ past ++ extensions events) (hsorted : ∀ y ∈ events, y.1 ≤ now)
    (hlt : now < time) : Heard past events time e := by
  rcases List.mem_append.mp he with he | he
  · exact .inl he
  · obtain ⟨before, t, after, rfl⟩ := exists_of_mem_extensions he
    have hle : t ≤ now := hsorted (t, .trigger e) (by simp)
    exact .inr ⟨before, t, after, rfl, .inl (Nat.lt_of_le_of_lt hle hlt)⟩

/-- A look has heard of all that went on before it. -/
theorem heard_check (he : e ∈ past ++ extensions events) :
    Heard past (events ++ [(now, .check)]) now e := by
  rcases List.mem_append.mp he with he | he
  · exact .inl he
  · obtain ⟨before, t, after, rfl⟩ := exists_of_mem_extensions he
    exact .inr ⟨before, t, after ++ [(now, .check)], by simp, .inr (by simp)⟩

/-- What others do later is not heard of at an instant before. -/
theorem heard_of_concat (h : Heard past (events ++ [(now, x)]) time e) (hle : time ≤ now)
    (hx : x ≠ .check) : Heard past events time e := by
  rcases h with h | ⟨before, t, after, heq, hheard⟩
  · exact .inl h
  · rcases List.eq_nil_or_concat' after with rfl | ⟨rest, last, rfl⟩
    · obtain ⟨-, hlast⟩ := List.append_inj' heq rfl
      obtain ⟨rfl, -⟩ : now = t ∧ x = .trigger e := by simpa using hlast
      rcases hheard with hlt | hmem
      · exact absurd hlt (Nat.not_lt_of_le hle)
      · simp at hmem
    · obtain ⟨hevents, hlast⟩ := List.append_inj'
        (heq.trans (List.append_assoc before ((t, .trigger e) :: rest) [last]).symm) rfl
      obtain rfl : (now, x) = last := by simpa using hlast
      refine .inr ⟨before, t, rest, hevents, hheard.imp_right fun hmem => ?_⟩
      rcases List.mem_append.mp hmem with hmem | hmem
      · exact hmem
      · exact absurd (by simpa using hmem) (fun heq : time = now ∧ .check = x => hx heq.2.symm)

/-! ### One turn -/

theorem Wait.step_check_of_over (h : w.cooldown.Over now) :
    w.step now .check = ⟨Cooldown.none, .done now⟩ := by
  simp [step, remaining_of_over h]

theorem Wait.step_check_of_lt {u : Instant} (hu : w.cooldown.until? = some u) (hlt : now < u) :
    w.step now .check = ⟨w.cooldown, .sleeping u⟩ := by
  simp [step, remaining_of_lt hu hlt, Nat.add_sub_cancel' (Nat.le_of_lt hlt)]

theorem Recalls.step (h : w.cooldown.Recalls past now) (x : Turn) :
    (w.step now x).cooldown.Recalls (past ++ extensions [(now, x)]) now := by
  cases x with
  | trigger ending => exact h.trigger ending
  | look => simpa [extensions, Wait.step] using h.remaining.2
  | check =>
    have hnext := h.remaining.2
    simp only [Wait.step, extensions, List.filterMap_cons_none, List.filterMap_nil,
      List.append_nil]
    split <;> simp_all

/-- All that a wait has come to recalls what was done. -/
theorem Waits.recalls (h : Waits c start events w) (hc : c.Recalls past start)
    {later : Instant} (hstart : start ≤ later) (hsorted : ∀ y ∈ events, y.1 ≤ later) :
    w.cooldown.Recalls (past ++ extensions events) later := by
  induction h generalizing later with
  | start => simpa [extensions] using hc.mono hstart
  | @turn events w _ now x hbefore hearlier _ _ ih =>
    have hnow := (ih hbefore hearlier).step x
    rw [extensions_concat, ← List.append_assoc]
    exact hnow.mono (hsorted (now, x) (by simp))

/-- Up to an instant, something was heard of that reaches beyond. -/
def Pending (past : List Instant) (start : Instant) (events : List (Instant × Turn))
    (time : Instant) : Prop :=
  ∀ t, start ≤ t → t < time → ∃ e, Heard past events t e ∧ t < e

/-- Where a wait stands that began at `start`: it sleeps while the pause is known to last, and is
done at the first instant at which it is not. -/
def Course (past : List Instant) (start : Instant) (events : List (Instant × Turn)) : Stage → Prop
  | .sleeping due => start ≤ due ∧ Pending past start events due
  | .done time => (time, .check) ∈ events ∧ start ≤ time ∧
      (∀ e, Heard past events time e → e ≤ time) ∧ Pending past start events time

theorem Pending.append (h : Pending past start events time) (more : List (Instant × Turn)) :
    Pending past start (events ++ more) time := fun t hstart hlt =>
  (h t hstart hlt).imp fun _ he => ⟨he.1.append more, he.2⟩

/-- What others do leaves a wait where it stands. -/
theorem Course.others {stage : Stage} (h : Course past start events stage)
    (hsorted : ∀ y ∈ events, y.1 ≤ now) (hx : x ≠ .check) :
    Course past start (events ++ [(now, x)]) stage := by
  cases stage with
  | sleeping due => exact ⟨h.1, h.2.append _⟩
  | done time =>
    obtain ⟨hcheck, hstart, hover, hpending⟩ := h
    refine ⟨List.mem_append_left _ hcheck, hstart, fun e he => ?_, hpending.append _⟩
    exact hover e (heard_of_concat he (hsorted _ hcheck) hx)

/-- A look in time finds the pause over, or how long it lasts as far as is known. -/
theorem Course.check (h : Course past start events (.sleeping now))
    (hc : w.cooldown.Recalls (past ++ extensions events) now)
    (hsorted : ∀ y ∈ events, y.1 ≤ now) :
    Course past start (events ++ [(now, .check)]) (w.step now .check).stage := by
  obtain ⟨hstart, hpending⟩ := h
  rcases w.cooldown.over_or_lt now with hover | ⟨u, hu, hlt⟩
  · rw [Wait.step_check_of_over hover]
    refine ⟨by simp, hstart, fun e he => ?_, hpending.append _⟩
    have hmem : e ∈ past ++ extensions events := by
      simpa [extensions] using mem_of_heard he
    exact (hc.holds e hmem).le_of_over hover
  · rw [Wait.step_check_of_lt hu hlt]
    refine ⟨Nat.le_trans hstart (Nat.le_of_lt hlt), fun t hfrom hto => ?_⟩
    have hknown := hc.known u hu
    -- Before this look the former sleep tells, at it the look itself, and after it the clock.
    rcases Nat.lt_trichotomy t now with hbefore | rfl | hafter
    · exact hpending.append _ t hfrom hbefore
    · exact ⟨u, heard_check hknown, hto⟩
    · exact ⟨u, (heard_of_lt hknown hsorted hafter).append _, hto⟩

/-- **Where a wait stands**, whatever others do and however their turns fall between its own. -/
theorem Waits.courses (h : Waits c start events w) (hc : c.Recalls past start) :
    Course past start events w.stage := by
  induction h with
  | start => exact ⟨Nat.le_refl _, fun t hfrom hto => absurd hto (Nat.not_lt_of_le hfrom)⟩
  | @turn events w h now x hstart hsorted _ hcheck ih =>
    by_cases hx : x = .check
    · subst hx
      rw [hcheck rfl] at ih
      exact ih.check (h.recalls hc hstart hsorted) hsorted
    · have hstage : (w.step now x).stage = w.stage := by
        cases x <;> first | rfl | exact absurd rfl hx
      rw [hstage]
      exact ih.others hsorted hx

/-! ### How often a wait looks -/

/-- The looks of the one that waits. -/
def checks (events : List (Instant × Turn)) : Nat := events.countP (·.2 = .check)

theorem checks_concat (events : List (Instant × Turn)) (now : Instant) (x : Turn) :
    checks (events ++ [(now, x)]) = checks events + if x = .check then 1 else 0 := by
  rw [checks, List.countP_append]
  by_cases hx : x = .check <;> simp [checks, hx]

/-- A wait looks once for each extension, once when it begins, and once when it is over. While the
pause lasts longer than it is to sleep, it owes a look to an extension. -/
def Looked (events : List (Instant × Turn)) (w : Wait) : Prop :=
  match w.stage with
  | .sleeping due => checks events ≤ (extensions events).length + 1 ∧
      (w.cooldown.Over due ∨ checks events ≤ (extensions events).length)
  | .done _ => checks events ≤ (extensions events).length + 2

theorem Looked.step (h : Looked events w) (hcheck : x = .check → w.stage = .sleeping now) :
    Looked (events ++ [(now, x)]) (w.step now x) := by
  obtain ⟨cooldown, stage⟩ := w
  simp only [Looked, checks_concat, extensions_concat, List.length_append]
  cases x with
  | trigger ending =>
    cases stage with
    | sleeping due => exact ⟨Nat.le_succ_of_le h.1, .inr h.1⟩
    | done time => exact Nat.le_succ_of_le h
  | look =>
    cases stage with
    | sleeping due => exact ⟨h.1, h.2.imp_left fun hover => hover.remaining⟩
    | done time => exact h
  | check =>
    obtain rfl : stage = .sleeping now := hcheck rfl
    rcases cooldown.over_or_lt now with hover | ⟨u, hu, hlt⟩
    · rw [Wait.step_check_of_over hover]
      exact Nat.succ_le_succ h.1
    · -- A sleep lasts as long as the pause did: that was extended since, or this is the first look.
      have howed : checks events ≤ (extensions events).length :=
        h.2.resolve_left fun hover => Nat.not_lt_of_le (hover u hu) hlt
      rw [Wait.step_check_of_lt hu hlt]
      exact ⟨Nat.succ_le_succ howed, .inl (over_of_le hu (Nat.le_refl u))⟩

theorem Waits.looked (h : Waits c start events w) : Looked events w := by
  induction h with
  | start => exact ⟨Nat.zero_le _, .inr (Nat.zero_le _)⟩
  | turn _ _ _ _ hcheck ih => exact ih.step hcheck

theorem Looked.checks_le (h : Looked events w) :
    checks events ≤ (extensions events).length + 2 := by
  obtain ⟨cooldown, stage⟩ := w
  cases stage with
  | sleeping due => exact Nat.le_succ_of_le h.1
  | done time => exact h

end Cooldown

/-! ## Waits that are carried out -/

namespace CooldownRun

variable {r : CooldownRun} {fuel : Nat}

/-- The instants at which the pause is over for who looks before what else happens then. -/
def ends (r : CooldownRun) : Set Instant :=
  {x | r.now ≤ x ∧ r.cooldown.Over x ∧ ∀ p ∈ r.planned, p.1 < x → p.2 ≤ x}

/-- A sleep to the end of the pause passes over none of them. -/
theorem ends_moveBefore {u : Instant} (hu : r.cooldown.until? = some u) (hlt : r.now < u) :
    (r.moveBefore u).ends = r.ends := by
  ext x
  simp only [ends, moveBefore, Set.mem_ofPred_eq, Cooldown.over_foldl_trigger, List.mem_filter,
    decide_eq_true_eq]
  constructor
  · rintro ⟨hx, ⟨hover, hsoon⟩, hlate⟩
    refine ⟨Nat.le_trans (Nat.le_of_lt hlt) hx, hover, fun p hp hpx => ?_⟩
    by_cases hpu : p.1 < u
    · exact hsoon p ⟨hp, hpu⟩
    · exact hlate p ⟨hp, Nat.le_of_not_lt hpu⟩ hpx
  · rintro ⟨-, hover, hplanned⟩
    have hx : u ≤ x := hover u hu
    exact ⟨hx, ⟨hover, fun p hp => hplanned p hp.1 (Nat.lt_of_lt_of_le hp.2 hx)⟩,
      fun p hp hpx => hplanned p hp.1 hpx⟩

/-- A wait that is carried out looks as any wait does; while it sleeps, the clock moves on. -/
theorem waitTurns_succ (r : CooldownRun) (fuel : Nat) :
    r.waitTurns (fuel + 1) =
      match (Cooldown.Wait.mk r.cooldown (.sleeping r.now)).step r.now .check with
      | ⟨cooldown, .done _⟩ => { r with cooldown }
      | ⟨cooldown, .sleeping due⟩ => waitTurns (moveBefore { r with cooldown } due) fuel := by
  rw [waitTurns, Cooldown.Wait.step]
  rcases r.cooldown.remaining r.now with ⟨cooldown, left⟩
  cases left <;> rfl

theorem waitTurns_of_over (h : r.cooldown.Over r.now) :
    r.waitTurns (fuel + 1) = { r with cooldown := .none } := by
  rw [waitTurns_succ, Cooldown.Wait.step_check_of_over h]

theorem waitTurns_of_lt {u : Instant} (hu : r.cooldown.until? = some u) (hlt : r.now < u) :
    r.waitTurns (fuel + 1) = (r.moveBefore u).waitTurns fuel := by
  rw [waitTurns_succ, Cooldown.Wait.step_check_of_lt hu hlt]

/-- Who finds the pause over finds it so at the first instant at which it is. -/
theorem isLeast_of_over (h : r.cooldown.Over r.now) (hplanned : ∀ p ∈ r.planned, r.now ≤ p.1) :
    IsLeast r.ends r.now :=
  ⟨⟨Nat.le_refl _, h, fun p hp hlt => absurd hlt (Nat.not_lt_of_le (hplanned p hp))⟩,
    fun _ hx => hx.1⟩

/-- Each look but two follows an extension, so the looks are enough. -/
theorem isLeast_waitTurns (hplanned : ∀ p ∈ r.planned, r.now ≤ p.1)
    (hfuel : r.planned.length + 2 ≤ fuel) : IsLeast r.ends (r.waitTurns fuel).now := by
  induction fuel generalizing r with
  | zero => omega
  | succ fuel ih =>
    rcases r.cooldown.over_or_lt r.now with hover | ⟨u, hu, hlt⟩
    · rw [waitTurns_of_over hover]
      exact isLeast_of_over hover hplanned
    · have hlate : ∀ p ∈ (r.moveBefore u).planned, (r.moveBefore u).now ≤ p.1 := by
        intro p hp
        exact of_decide_eq_true (List.mem_filter.mp hp).2
      rw [waitTurns_of_lt hu hlt, ← ends_moveBefore hu hlt]
      by_cases hsoon : ∃ p ∈ r.planned, p.1 < u
      · obtain ⟨p, hp, hpu⟩ := hsoon
        have hless : (r.moveBefore u).planned.length < r.planned.length :=
          List.length_filter_lt_length_iff_exists.mpr ⟨p, hp, by simpa using hpu⟩
        exact ih hlate (by omega)
      · -- Nobody extends the pause before it seems over, so it is.
        have hover : (r.moveBefore u).cooldown.Over u := by
          refine Cooldown.over_foldl_trigger.mpr
            ⟨Cooldown.over_of_le hu (Nat.le_refl u), fun p hp => ?_⟩
          obtain ⟨hp, hpu⟩ := List.mem_filter.mp hp
          exact absurd ⟨p, hp, by simpa using hpu⟩ hsoon
        obtain ⟨fuel, rfl⟩ : ∃ n, fuel = n + 1 := ⟨fuel - 1, by omega⟩
        rw [waitTurns_of_over hover]
        exact isLeast_of_over hover hlate

/-- **A wait that is carried out** is over at the first instant that no extension before it reaches
beyond. -/
theorem isLeast_wait (hplanned : ∀ p ∈ r.planned, r.now ≤ p.1) : IsLeast r.ends r.wait.now :=
  isLeast_waitTurns hplanned (Nat.le_refl _)

end CooldownRun

/-! ## Pauses -/

namespace Cooldown

/-- No extension makes a pause shorter. -/
theorem getD_remaining_le (c : Cooldown) (ending now : Instant) :
    (c.remaining now).2.getD 0 ≤ ((c.trigger ending).remaining now).2.getD 0 := by
  rcases c.over_or_lt now with hover | ⟨u, hu, hlt⟩
  · simp [remaining_of_over hover]
  · have hmax : (c.trigger ending).until? = some (max u ending) := by simp [Cooldown.trigger, hu]
    have hle : u ≤ max u ending := Nat.le_max_left u ending
    rw [remaining_of_lt hu hlt, remaining_of_lt hmax (Nat.lt_of_lt_of_le hlt hle)]
    exact Nat.sub_le_sub_right hle now

/-- **A pause lasts to the latest of its triggers**, after any uses the looks of which are in the
order of time. A look shows what is left to the latest of all that triggered it, although others
have forgotten it meanwhile, and no trigger makes it shorter. A wait that begins then sleeps only as
long as something it has heard of reaches beyond; it is done at the first instant at which nothing
does that was heard of before its look then. So it is, however the turns of others fall between its
own, and it looks at most twice more than they trigger the pause. -/
theorem pause_of_triggers {uses : List Use} {start : Instant}
    (hsorted : (looks uses ++ [start]).Pairwise (· ≤ ·)) :
    ((after uses).remaining start).2 = left (endings uses) start ∧
      (after uses).isActive start = (left (endings uses) start).isSome ∧
      (∀ ending, ((after uses).remaining start).2.getD 0 ≤
        (((after uses).trigger ending).remaining start).2.getD 0) ∧
      (∀ events w, Waits (after uses) start events w →
        (∀ due, w.stage = .sleeping due → ∀ t, start ≤ t → t < due →
          ∃ e, Heard (endings uses) events t e ∧ t < e) ∧
        (∀ time, w.stage = .done time → (time, .check) ∈ events ∧
          IsLeast {t | start ≤ t ∧ ∀ e, Heard (endings uses) events t e → e ≤ t} time) ∧
        checks events ≤ (extensions events).length + 2) ∧
      ∀ planned : List (Instant × Instant), (∀ p ∈ planned, start ≤ p.1) →
        IsLeast {t | start ≤ t ∧ (∀ e ∈ endings uses, e ≤ t) ∧
          ∀ p ∈ planned, p.1 < t → p.2 ≤ t}
          (CooldownRun.mk start (after uses) planned).wait.now := by
  have hrecalls := recalls_after hsorted
  have hlook := hrecalls.remaining.1
  refine ⟨hlook, by rw [isActive, hlook], fun ending => getD_remaining_le _ ending start,
    fun events w hw => ?_, fun planned hplanned => ?_⟩
  · have hcourse := hw.courses hrecalls
    refine ⟨fun due hdue => ?_, fun time htime => ?_, hw.looked.checks_le⟩
    · rw [hdue] at hcourse
      exact hcourse.2
    · rw [htime] at hcourse
      obtain ⟨hcheck, hstart, hover, hpending⟩ := hcourse
      refine ⟨hcheck, ⟨hstart, hover⟩, fun t ⟨hfrom, hpast⟩ => Nat.le_of_not_lt fun hlt => ?_⟩
      obtain ⟨e, he, hbeyond⟩ := hpending t hfrom hlt
      exact Nat.not_lt_of_le (hpast e he) hbeyond
  · have hends : (CooldownRun.mk start (after uses) planned).ends =
        {t | start ≤ t ∧ (∀ e ∈ endings uses, e ≤ t) ∧ ∀ p ∈ planned, p.1 < t → p.2 ≤ t} := by
      ext t
      refine and_congr_right fun hfrom => and_congr_left' ?_
      exact (hrecalls.mono hfrom).over_iff
    rw [← hends]
    exact CooldownRun.isLeast_wait hplanned

/-- A pause to two, which another task extends to four meanwhile. -/
theorem pause_of_triggers_extended :
    ((after [.trigger 2, .look 0, .trigger 1]).remaining 1).2 = some 1 ∧
      IsLeast {t : Instant | 1 ≤ t ∧ (∀ e ∈ [2, 1], e ≤ t) ∧
        ∀ p ∈ [((1 : Instant), (4 : Instant))], p.1 < t → p.2 ≤ t} 4 :=
  have h := pause_of_triggers (by decide :
    (looks [.trigger 2, .look 0, .trigger 1] ++ [1]).Pairwise (· ≤ ·))
  ⟨h.1, h.2.2.2.2 [(1, 4)] (by decide)⟩

end Cooldown

end Switchboard
