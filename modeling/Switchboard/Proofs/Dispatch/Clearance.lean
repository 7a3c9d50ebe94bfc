import Switchboard.Proofs.Dispatch.Eviction

/-!
# What a dispatcher keeps

A dispatcher lists workers for routes, and its registry keeps the ways from routes and from tokens
to buckets. The two sides do not get out of step: a route that has a worker leads to a bucket. So
when the calls are over and the last window with them, one sweep removes everything, although routes
may have moved between buckets and left others behind, and several tokens may lead to one.

## Main definitions

* `Dispatcher.Housed`: a route that has a worker leads to a bucket.

## Main results

* `Dispatcher.housed_happens`: every step keeps it so.
* `Dispatcher.cleared_of_run`: what a sweep leaves when nothing is left to do.
-/
namespace Switchboard

namespace Registry

variable {r r' : Registry} {ρ : Route} {b id : BucketId} {now : Instant}

/-! ## Routes stay -/

theorem isSome_routes_resolve (other : Route) (now : Instant)
    (h : (Table.get? ρ r.routes).isSome) :
    (Table.get? ρ (r.resolve other now).1.routes).isSome := by
  by_cases heq : ρ = other
  · rw [heq, get?_routes_resolve]
    rfl
  · rwa [get?_routes_resolve_of_ne heq]

theorem isSome_routes_update (other : Route) (id : BucketId) (limits : Limits) (now : Instant)
    (h : (Table.get? ρ r.routes).isSome) :
    (Table.get? ρ (r.update other id limits now).1.routes).isSome := by
  cases htoken : limits.token with
  | none => rwa [update_of_none htoken]
  | some token =>
    rw [get?_routes_update htoken]
    split
    case isTrue => rfl
    case isFalse => exact h

/-! ## The time after which a bucket is idle -/

@[simp] theorem idleAfter_resolve (r : Registry) (ρ : Route) (now : Instant) :
    (r.resolve ρ now).1.idleAfter = r.idleAfter := by
  unfold resolve
  split <;> rfl

@[simp] theorem idleAfter_update (r : Registry) (ρ : Route) (id : BucketId) (limits : Limits)
    (now : Instant) : (r.update ρ id limits now).1.idleAfter = r.idleAfter := by
  unfold update
  split <;> rfl

theorem idleAfter_reserve (h : r.reserve id now = .ok r') : r'.idleAfter = r.idleAfter := by
  rcases reserve_ok h with ⟨-, rfl⟩ | ⟨x, y, -, -, rfl⟩ <;> rfl

/-! ## A sweep when all is idle -/

/-- When all buckets to which anything leads are idle, nothing is left of the ways to them. -/
theorem evict_of_isIdle (h : ∀ b, r.LeadsTo b → r.isIdle b now = true) :
    (r.evict now).1.routes = [] ∧ (r.evict now).1.tokens = [] ∧
      (r.evict now).2 = Table.keys r.routes := by
  have hroutes : ∀ p ∈ r.routes, r.isIdle p.2 now = true := fun p hp => h p.2 (.inl ⟨p.1, hp⟩)
  have htokens : ∀ p ∈ r.tokens, r.isIdle p.2 now = true := fun p hp => h p.2 (.inr ⟨p.1, hp⟩)
  refine ⟨?_, ?_, ?_⟩
  · exact List.filter_eq_nil_iff.mpr fun p hp => by simp [hroutes p hp]
  · exact List.filter_eq_nil_iff.mpr fun p hp => by simp [htokens p hp]
  · rw [evict, List.filter_eq_self.mpr hroutes, Table.keys]

end Registry

namespace Dispatcher

variable {d : Dispatcher} {now : Instant} {ρ : Route} {e : Event}
  {r : Dispatcher × List DispatchEffect}

/-- Only a sweep takes the way to a bucket from a route. -/
theorem isSome_routes_registers (h : Registers d now e r) (he : e ≠ .sweep)
    (hρ : (Table.get? ρ d.registry.routes).isSome) :
    (Table.get? ρ r.1.registry.routes).isSome := by
  cases h with
  | counts hlike _ _ => rwa [hlike.routes]
  | resolves _ hlike _ _ =>
    rw [hlike.routes]
    exact Registry.isSome_routes_resolve _ now hρ
  | reserves _ _ _ hr _ _ _ => rwa [(Registry.sameWays_reserve hr).routes]
  | learns _ _ _ _ _ hways _ _ =>
    rw [hways.routes]
    exact Registry.isSome_routes_update _ _ _ now hρ
  | evicts hsweep _ _ _ => exact absurd hsweep he

theorem idleAfter_freed (r : Registry) (now : Instant) (ts : List Ticket) :
    (freed r now ts).idleAfter = r.idleAfter := by
  induction ts generalizing r with
  | nil => rfl
  | cons t rest ih => exact ih _

theorem idleAfter_learned (d : Dispatcher) (now : Instant) (ρ : Route) (b : BucketId)
    (limits : Limits) (answer : Answer) :
    (d.learned now ρ b limits answer).idleAfter = d.registry.idleAfter := by
  cases answer with
  | lost f => rfl
  | response x => cases hx : x.isTooMany <;> simp [learned, hx]

theorem idleAfter_happens (h : Happens d now e r) :
    r.1.registry.idleAfter = d.registry.idleAfter := by
  cases h with
  | assign _ _ _ _ _ _ _ => exact Registry.idleAfter_resolve ..
  | hire _ _ _ _ _ => exact Registry.idleAfter_resolve ..
  | queue _ _ _ _ _ => exact Registry.idleAfter_resolve ..
  | execute _ _ _ _ _ hr => exact Registry.idleAfter_reserve hr
  | done _ _ _ _ => exact idleAfter_learned ..
  | retry _ _ _ _ => exact idleAfter_learned ..
  | blocks _ _ _ _ _ _ _ _ => exact Registry.idleAfter_update ..
  | crash _ => exact idleAfter_freed ..
  | giveUp _ _ _ => exact idleAfter_freed ..
  | _ => rfl

/-! ## Workers and their routes -/

/-- A route that has a worker leads to a bucket. -/
def Housed (d : Dispatcher) : Prop :=
  ∀ ρ w, (ρ, w) ∈ d.roster → (Table.get? ρ d.registry.routes).isSome

theorem housed_new (policy : RetryPolicy) (timeout idle : Span) :
    (new policy timeout idle).Housed := by
  simp [Housed, new]

/-- A sweep that takes the way to a bucket from a route takes its worker, too. -/
theorem Housed.sweep (h : d.Housed) (hk : d.registry.Keyed) (now : Instant) :
    ({ d with
        registry := (d.registry.evict now).1
        roster := d.roster.filter fun p => !(d.registry.evict now).2.contains p.1 } :
      Dispatcher).Housed := by
  intro ρ w hmem
  obtain ⟨hlisted, hstays⟩ := List.mem_filter.mp hmem
  obtain ⟨b, hb⟩ := Option.isSome_iff_exists.mp (h ρ w hlisted)
  have hbusy : d.registry.isIdle b now = false := by
    rw [← Bool.not_eq_true]
    intro hidle
    have hgone : ρ ∈ (d.registry.evict now).2 := (hk.mem_evict now ρ).mpr ⟨b, hb, hidle⟩
    simp [hgone] at hstays
  show (Table.get? ρ (d.registry.evict now).1.routes).isSome = true
  rw [hk.get?_routes_evict, hb]
  simp [hbusy]

/-- **Every step** keeps the ways of the routes that have workers. -/
theorem housed_happens (h : Happens d now e r) (hk : d.registry.Keyed) (hh : d.Housed) :
    r.1.Housed := by
  by_cases he : e = .sweep
  · subst he
    cases h
    exact hh.sweep hk now
  have hkept : ∀ {ρ w}, (ρ, w) ∈ d.roster → (Table.get? ρ r.1.registry.routes).isSome :=
    fun hmem => isSome_routes_registers (registers_happens h) he (hh _ _ hmem)
  have hsame : r.1.roster = d.roster → r.1.Housed := fun hroster ρ w hmem => hkept (hroster ▸ hmem)
  have hshifts := shifts_happens h
  cases hshifts with
  | founds id route request timeout _ _ hroster _ =>
    intro ρ w hmem
    rcases Table.mem_put (hroster ▸ hmem) with hnew | hmem
    · obtain ⟨rfl, rfl⟩ := Prod.mk.inj hnew
      rw [routes_of_submit h, Registry.get?_routes_resolve]
      rfl
    · exact hkept hmem
  | sweeps _ _ _ => exact absurd rfl he
  | same _ _ _ hroster _ => exact hsame hroster
  | moves _ _ _ _ _ _ hroster _ => exact hsame hroster
  | ends _ _ _ _ _ hroster _ => exact hsame hroster
  | takes _ _ _ _ hroster _ => exact hsame hroster
  | leaves _ _ _ _ _ hroster _ => exact hsame hroster
  | dies _ _ hroster _ => exact hsame hroster
  | joins _ _ _ _ _ _ _ _ hroster _ => exact hsame hroster
  | forgets _ _ hroster _ => exact hsame hroster

theorem housed_run (ht : d.Tended) (hh : d.Housed) (events : List (Instant × Event)) :
    (d.run events).1.Tended ∧ (d.run events).1.Housed ∧
      (d.run events).1.registry.idleAfter = d.registry.idleAfter := by
  induction events generalizing d with
  | nil => exact ⟨ht, hh, rfl⟩
  | cons x rest ih =>
    obtain ⟨now, e⟩ := x
    have hstep := happens_step d now e
    obtain ⟨htended, hhoused, hidle⟩ :=
      ih (tended_happens hstep ht) (housed_happens hstep ht.keyed hh)
    exact ⟨htended, hhoused, hidle.trans (idleAfter_happens hstep)⟩

/-! ## When nothing is left to do -/

/-- A bucket without calls is idle when its window is over and it was not used for long enough. -/
theorem Accounted.isIdle (h : d.Accounted) (hdone : ∀ worker ∈ d.workers, worker.tickets = [])
    {b : BucketId} (hb : d.registry.LeadsTo b)
    (hover : ∀ x, d.registry.bucket? b = some x →
      (∀ reset, x.resetAt = some reset → reset ≤ now) ∧
        x.lastUsed + d.registry.idleAfter ≤ now) : d.registry.isIdle b now = true := by
  have hlt : b < d.registry.buckets.length := h.sound.leads b hb
  have hx : d.registry.bucket? b = some d.registry.buckets[b] := List.getElem?_eq_getElem hlt
  obtain ⟨hreset, hlong⟩ := hover _ hx
  have hcalls : callsOn d.workers b = 0 := by
    have hnone : d.workers.flatMap Worker.tickets = [] := List.flatMap_eq_nil_iff.mpr hdone
    rw [callsOn, hnone, List.countP_nil]
  have hpending : d.registry.buckets[b].pending = 0 := by
    have hcount := h.pending b
    rwa [hcalls, Registry.pendingOn, hx] at hcount
  have hopen : d.registry.buckets[b].resetAt.all (decide <| · ≤ now) = true := by
    cases hr : d.registry.buckets[b].resetAt with
    | none => rfl
    | some reset => simpa using hreset reset hr
  simp only [Registry.isIdle, hx, Option.any_some, Bucket.isIdle, hpending, hopen]
  simpa using Nat.le_sub_of_add_le' hlong

/-- **A dispatcher keeps nothing**, in every run.

A route that has a worker leads to a bucket. And when no call is left, a sweep at which the windows
of all buckets are over and their last uses long enough ago leaves no worker, no route and no token,
and says how many routes there were. -/
theorem cleared_of_run (policy : RetryPolicy) (timeout idle : Span)
    (events : List (Instant × Event)) :
    let d := ((new policy timeout idle).run events).1
    (∀ ρ w, (ρ, w) ∈ d.roster → ∃ b, Table.get? ρ d.registry.routes = some b) ∧
    ((∀ worker ∈ d.workers, worker.tickets = []) → ∀ now,
      (∀ b x, d.registry.LeadsTo b → d.registry.bucket? b = some x →
        (∀ reset, x.resetAt = some reset → reset ≤ now) ∧ x.lastUsed + idle ≤ now) →
      let r := d.step now .sweep
      r.1.roster = [] ∧ r.1.registry.routes = [] ∧ r.1.registry.tokens = [] ∧
        (Table.keys d.registry.routes).Nodup ∧
        ∀ n, .swept n ∈ r.2 ↔ n = (Table.keys d.registry.routes).length) := by
  intro d
  obtain ⟨htended, hhoused, hidle⟩ := housed_run (tended_new policy timeout idle)
    (housed_new policy timeout idle) events
  refine ⟨fun ρ w hmem => Option.isSome_iff_exists.mp (hhoused ρ w hmem), ?_⟩
  intro hdone now hover
  have hall : ∀ b, d.registry.LeadsTo b → d.registry.isIdle b now = true := by
    intro b hb
    refine htended.accounted.isIdle hdone hb fun x hx => ?_
    rw [hidle]
    exact hover b x hb hx
  obtain ⟨hroutes, htokens, hgone⟩ := Registry.evict_of_isIdle hall
  have hroster : d.roster.filter (fun p => !(d.registry.evict now).2.contains p.1) = [] := by
    refine List.filter_eq_nil_iff.mpr fun p hp => ?_
    obtain ⟨b, hb⟩ := Option.isSome_iff_exists.mp (hhoused p.1 p.2 hp)
    have hmem : p.1 ∈ (d.registry.evict now).2 := by
      rw [hgone]
      exact List.mem_map.mpr ⟨_, Table.mem_of_get? hb, rfl⟩
    simp [hmem]
  have hsweep : d.step now .sweep = _ := step_of_happens Happens.sweep
  rw [hsweep]
  refine ⟨hroster, hroutes, htokens, htended.keyed.routes, fun n => ?_⟩
  simp [hgone]

/-- The calls on two routes are over; the server has the same bucket for both. -/
def merged : List (Instant × Event) :=
  underWay ++ [(0, .receive 0 none 0 (.response (answerUnder 200 "x")))] ++ turns 0 1 ++
    [(0, .receive 1 none 0 (.response (answerUnder 200 "x")))]

/-- A sweep retires both routes, of which one has left its bucket behind. -/
theorem cleared_of_run_merged :
    let d := ((new ⟨0, 0, 0, 0⟩ 0 Span.second).run merged).1
    (∀ worker ∈ d.workers, worker.tickets = []) ∧
      (∀ b x, d.registry.LeadsTo b → d.registry.bucket? b = some x →
        (∀ reset, x.resetAt = some reset → reset ≤ Span.second) ∧
          x.lastUsed + Span.second ≤ Span.second) ∧
      d.registry.routes.map (·.2) = [0, 0] ∧ d.registry.buckets.length = 2 ∧
      (d.step Span.second .sweep).1.roster = [] ∧ .swept 2 ∈ (d.step Span.second .sweep).2 := by
  intro d
  have hdone : ∀ worker ∈ d.workers, worker.tickets = [] := by decide +kernel
  have hbuckets : ∀ x ∈ d.registry.buckets, x.resetAt = none ∧ x.lastUsed = 0 := by decide +kernel
  have hover : ∀ b x, d.registry.LeadsTo b → d.registry.bucket? b = some x →
      (∀ reset, x.resetAt = some reset → reset ≤ Span.second) ∧
        x.lastUsed + Span.second ≤ Span.second := by
    intro b x _ hx
    obtain ⟨hreset, hused⟩ := hbuckets x (List.mem_of_getElem? hx)
    simp [hreset, hused]
  have hroutes : d.registry.routes.map (·.2) = [0, 0] := by decide +kernel
  obtain ⟨-, hcleared⟩ := cleared_of_run ⟨0, 0, 0, 0⟩ 0 Span.second merged
  obtain ⟨hroster, -, -, -, hswept⟩ := hcleared hdone Span.second hover
  refine ⟨hdone, hover, hroutes, by decide +kernel, hroster, (hswept 2).mpr ?_⟩
  rw [Table.keys, List.length_map, ← List.length_map (f := (·.2)), hroutes]
  rfl

end Dispatcher

end Switchboard
