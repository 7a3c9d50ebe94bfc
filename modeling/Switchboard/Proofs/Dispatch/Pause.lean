import Switchboard.Proofs.Dispatch.Steps

/-!
# Refusals for everybody

A refusal that is for all routes begins a pause, if the call that reads it may still be attempted
again: then no request of any route begins before the wait is over, whatever happens in between. The
refusal that uses up the budget of its call begins none.

## Main definitions

* `Cooldown.Holds`: everybody is held off until an instant.

## Main results

* `Dispatcher.holds_step`: no event ends a pause early.
* `Dispatcher.execute_of_global`: when requests begin after a refusal for everybody.
-/
namespace Switchboard

namespace Cooldown

/-- Everybody is held off until `ending`, or that is past at `now`. -/
def Holds (c : Cooldown) (ending now : Instant) : Prop :=
  ending ≤ now ∨ ∃ u, c.until? = some u ∧ ending ≤ u

variable {c : Cooldown} {ending now : Instant}

theorem Holds.mono (h : c.Holds ending now) {later : Instant} (hle : now ≤ later) :
    c.Holds ending later := h.imp_left (Nat.le_trans · hle)

theorem Holds.le_of_over (h : c.Holds ending now) (hc : c.Over now) : ending ≤ now := by
  rcases h with h | ⟨u, hu, hle⟩
  · exact h
  · exact Nat.le_trans hle (hc u hu)

/-- A pause begins that lasts until then. -/
theorem holds_trigger (c : Cooldown) (ending now : Instant) :
    (c.trigger ending).Holds ending now := by
  refine .inr ⟨_, rfl, ?_⟩
  cases c.until? with
  | none => exact Nat.le_refl _
  | some u => exact Nat.le_max_right _ _

/-- A pause is never made shorter. -/
theorem Holds.trigger (h : c.Holds ending now) (other : Instant) :
    (c.trigger other).Holds ending now := by
  rcases h with h | ⟨u, hu, hle⟩
  · exact .inl h
  · refine .inr ⟨max u other, by simp [Cooldown.trigger, hu], ?_⟩
    exact Nat.le_trans hle (Nat.le_max_left _ _)

/-- One that is forgotten was over. -/
theorem Holds.forgotten (h : c.Holds ending now) (hc : c.Over now) :
    Cooldown.none.Holds ending now := .inl (h.le_of_over hc)

end Cooldown

namespace Dispatcher

variable {d : Dispatcher} {now ending : Instant}

/-- No event ends a pause early. -/
theorem holds_happens {e : Event} {r : Dispatcher × List DispatchEffect} (h : Happens d now e r)
    (hc : d.cooldown.Holds ending now) : r.1.cooldown.Holds ending now := by
  cases h with
  | queue _ _ _ _ hover => exact hc.forgotten hover
  | execute _ _ _ _ hover _ => exact hc.forgotten hover
  | stall _ _ _ _ hover _ => exact hc.forgotten hover
  | pauses _ _ _ _ _ _ _ _ => exact hc.trigger _
  | pause other => exact hc.trigger other
  | _ => exact hc

/-- The request that an effect begins, with its worker. -/
def begun? : Instant × DispatchEffect → Option (Instant × WorkerId × Request)
  | (time, .execute w q) => some (time, w, q)
  | _ => none

/-- The requests that begin, each with its instant and its worker. -/
def begun (es : List (Instant × DispatchEffect)) : List (Instant × WorkerId × Request) :=
  es.filterMap begun?

theorem mem_begun {es : List (Instant × DispatchEffect)} {time : Instant} {w : WorkerId}
    {q : Request} : (time, w, q) ∈ begun es ↔ (time, .execute w q) ∈ es := by
  simp only [begun, List.mem_filterMap]
  constructor
  · rintro ⟨⟨t, e⟩, he, hq⟩
    cases e with
    | execute v q' =>
      obtain ⟨rfl, rfl, rfl⟩ : t = time ∧ v = w ∧ q' = q := by simpa [begun?] using hq
      exact he
    | _ => simp [begun?] at hq
  · intro h
    exact ⟨_, h, rfl⟩

/-- While everybody is held off, no request begins. -/
theorem le_of_execute_run {events : List (Instant × Event)} (hc : d.cooldown.Holds ending now)
    (hnow : ∀ x ∈ events, now ≤ x.1) (hmono : events.Pairwise (·.1 ≤ ·.1)) :
    ∀ x ∈ begun (d.run events).2, ending ≤ x.1 := by
  rintro ⟨time, v, q⟩ hq
  rw [mem_begun] at hq
  induction events generalizing d now with
  | nil => simp [run] at hq
  | cons x rest ih =>
    obtain ⟨t, e⟩ := x
    have hfirst : now ≤ t := hnow (t, e) (by simp)
    have hheld : d.cooldown.Holds ending t := hc.mono hfirst
    have hstep := happens_step d t e
    rw [List.pairwise_cons] at hmono
    simp only [run, List.mem_append, List.mem_map, Prod.mk.injEq] at hq
    rcases hq with ⟨_, heffect, rfl, rfl⟩ | hq
    · exact hheld.le_of_over (execute_of_happens hstep heffect).1
    · exact ih (holds_happens hstep hheld) (fun y hy => hmono.1 y hy) hmono.2 hq

/-- **Requests after a refusal for everybody**, read at `now` by a worker whose request it answers.

If the budget of the call allows another attempt, no request begins in any run from there before the
wait is over, which is an hour at most. If it does not, nobody is held off. -/
theorem execute_of_global (d : Dispatcher) (now : Instant) (w : WorkerId) (worker : Worker)
    (p : Progress) (b : BucketId) (clock : Option Span) (draw : Float) (r : Response)
    (hw : d.workers[w]? = some worker) (hp : worker.progress = some p)
    (hs : p.stage = .sending b) (hr : r.isTooMany = true)
    (hg : ((Limits.ofHeaders r.headers clock).withBody r.body).isGlobal = true) :
    let wait := ((Limits.ofHeaders r.headers clock).withBody r.body).effectiveWait
    let after := (d.step now (.receive w clock draw (.response r))).1
    if p.tries.refusals < d.policy.maxRateLimitRetries then
      ∀ events : List (Instant × Event), (∀ x ∈ events, now ≤ x.1) →
        events.Pairwise (·.1 ≤ ·.1) →
        ∀ x ∈ begun (after.run events).2, now + min wait longestWait ≤ x.1
    else after.cooldown = d.cooldown := by
  intro wait after
  have hstep := happens_step d now (.receive w clock draw (.response r))
  have hafter : (d.step now (.receive w clock draw (.response r))).1 = after := rfl
  clear_value after
  generalize d.step now (.receive w clock draw (.response r)) = result at hstep hafter
  subst hafter
  by_cases hbudget : p.tries.refusals < d.policy.maxRateLimitRetries
  · rw [if_pos hbudget]
    intro events hnow hmono
    have hheld : result.1.cooldown.Holds (deadlineAfter now wait) now := by
      cases hstep with
      | stray _ _ _ _ hno => exact absurd hs (hno worker p b hw hp)
      | done hw' hp' _ hj =>
        obtain ⟨rfl, rfl⟩ := progress_unique hw hp hw' hp'
        simp [Tries.judge_of_isTooMany hr hbudget] at hj
      | retry hw' hp' _ hj =>
        obtain ⟨rfl, rfl⟩ := progress_unique hw hp hw' hp'
        simp [Tries.judge_of_isTooMany hr hbudget] at hj
      | pauses _ _ _ _ _ _ hl _ =>
        subst hl
        exact Cooldown.holds_trigger ..
      | blocks _ _ _ _ _ _ hl hg' =>
        subst hl
        simp [hg] at hg'
    exact le_of_execute_run hheld hnow hmono
  · rw [if_neg hbudget]
    cases hstep with
    | pauses _ hw' hp' _ _ hbudget' _ _ =>
      obtain ⟨rfl, rfl⟩ := progress_unique hw hp hw' hp'
      exact absurd hbudget' hbudget
    | _ => rfl

/-! ### Two calls and a refusal -/

/-- A refusal for everybody that names no wait. -/
def refusal : Response := ⟨429, [("x-ratelimit-global", [Utf8.encode "true"])], []⟩

/-- A worker goes on four times at an instant. -/
def turns (time : Instant) (w : WorkerId) : List (Instant × Event) :=
  List.replicate 4 (time, .proceed w)

/-- Calls on two routes are submitted, and the request of the first begins. -/
def underWay : List (Instant × Event) :=
  [(0, .submit 0 ⟨"GET", ["a"]⟩ ⟨"GET", "/a", none⟩ none),
    (0, .submit 1 ⟨"GET", ["b"]⟩ ⟨"GET", "/b", none⟩ none)] ++ turns 0 0

/-- With one refusal allowed, the request of the other route begins when the second is over. -/
theorem execute_of_global_allowed :
    let d := ((new ⟨0, 1, 0, 0⟩ 0 0).run underWay).1
    let after := (d.step 0 (.receive 0 none 0 (.response refusal))).1
    let events := turns 0 1 ++ turns Span.second 1
    (∃ worker p, d.workers[0]? = some worker ∧ worker.progress = some p ∧
      p.stage = .sending 0 ∧ p.tries.refusals < d.policy.maxRateLimitRetries) ∧
      (∀ x ∈ begun (after.run events).2, Span.second ≤ x.1) ∧
      begun (after.run events).2 = [(Span.second, 1, ⟨"GET", "/b", none⟩)] := by
  intro d after events
  have hready : (d.workers[0]?.bind (·.progress)).any (fun p =>
      p.stage = .sending 0 && decide (p.tries.refusals < d.policy.maxRateLimitRetries)) = true := by
    decide +kernel
  have hwait : min ((Limits.ofHeaders refusal.headers none).withBody refusal.body).effectiveWait
      longestWait = Span.second := by decide +kernel
  have hbegun : begun (after.run events).2 = [(Span.second, 1, ⟨"GET", "/b", none⟩)] := by
    decide +kernel
  obtain ⟨worker, p, hw, hp, hs, hbudget⟩ : ∃ worker p, d.workers[0]? = some worker ∧
      worker.progress = some p ∧ p.stage = .sending 0 ∧
      p.tries.refusals < d.policy.maxRateLimitRetries := by
    cases hw : d.workers[0]? with
    | none => simp [hw] at hready
    | some worker =>
      cases hp : worker.progress with
      | none => simp [hw, hp] at hready
      | some p => exact ⟨worker, p, rfl, hp, by simpa [hw, hp] using hready⟩
  have hbegins := execute_of_global d 0 0 worker p 0 none 0 refusal hw hp hs (by decide +kernel)
    (by decide +kernel)
  simp only [if_pos hbudget, hwait] at hbegins
  refine ⟨⟨worker, p, hw, hp, hs, hbudget⟩, fun x hx => ?_, hbegun⟩
  have hle := hbegins events (by simp) (by decide +kernel) x hx
  rwa [Nat.zero_add] at hle

/-- With none allowed, the request of the other route begins at once, while the refusal asks
everybody to wait a second. -/
theorem execute_of_global_spent :
    let d := ((new ⟨0, 0, 0, 0⟩ 0 0).run underWay).1
    let after := (d.step 0 (.receive 0 none 0 (.response refusal))).1
    let limits := (Limits.ofHeaders refusal.headers none).withBody refusal.body
    (d.workers[0]?.bind Worker.stage?) = some (.sending 0) ∧
      refusal.isTooMany = true ∧ limits.isGlobal = true ∧ limits.effectiveWait = Span.second ∧
      begun (after.run (turns 0 1)).2 = [(0, 1, ⟨"GET", "/b", none⟩)] := by
  decide +kernel

end Dispatcher

end Switchboard
