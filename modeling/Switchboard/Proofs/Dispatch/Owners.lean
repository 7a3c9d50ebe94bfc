import Switchboard.Proofs.Dispatch.Calls

/-!
# Whose calls are whose

All calls of a route are with one worker, the one that is listed for the route, in the order in
which they were submitted. That holds through any run in which sweeps retire the route only when no
call of it is left.

## Main definitions

* `Dispatcher.Rostered`: workers are listed for their routes, and calls wait for room only when a
  mailbox is full.
* `Dispatcher.Owned`: all calls of a route are with the worker that is listed for it.

## Main results

* `Dispatcher.route_shifts`: a worker keeps its route.
* `Dispatcher.rostered_shifts`, `Dispatcher.owned_shifts`: what steps preserve.
-/
namespace Switchboard

namespace Dispatcher

variable {d d' : Dispatcher} {now : Instant} {w : WorkerId} {worker other : Worker} {ρ : Route}

theorem getElem?_retire {workers : List Worker} (ws : List WorkerId) {v : WorkerId} {u : Worker}
    (hu : workers[v]? = some u) :
    ∃ retiring, (retire workers ws)[v]? = some { u with retiring } := by
  induction ws generalizing workers u with
  | nil => exact ⟨u.retiring, hu⟩
  | cons w rest ih =>
    have hmodify : (workers.modify w ({ · with retiring := true }))[v]? =
        some { u with retiring := if w = v then true else u.retiring } := by
      rw [List.getElem?_modify, hu]
      split <;> rfl
    obtain ⟨retiring, hretire⟩ := ih hmodify
    exact ⟨retiring, hretire⟩

/-! ## The roster -/

/-- A change to one worker that keeps its route keeps all routes. -/
theorem route_put (hw : d.workers[w]? = some worker) (hroute : other.route = worker.route)
    {v : WorkerId} {u : Worker} (hu : d.workers[v]? = some u) :
    ∃ u', (d.put w other).workers[v]? = some u' ∧ u'.route = u.route := by
  have hlt : w < d.workers.length := (List.getElem?_eq_some_iff.mp hw).1
  by_cases heq : w = v
  · subst heq
    obtain rfl : worker = u := Option.some.inj (hw.symm.trans hu)
    exact ⟨other, by simp [Dispatcher.put, hlt], hroute⟩
  · exact ⟨u, by simpa [Dispatcher.put, List.getElem?_set_ne heq] using hu, rfl⟩

/-- A worker keeps its number and its route. -/
theorem route_shifts {e : Event} {r : Dispatcher × List DispatchEffect} (h : Shifts d now r e)
    {v : WorkerId} {u : Worker} (hu : d.workers[v]? = some u) :
    ∃ u', r.1.workers[v]? = some u' ∧ u'.route = u.route := by
  cases h with
  | same _ _ hworkers _ _ => exact ⟨u, hworkers ▸ hu, rfl⟩
  | moves _ _ hw _ hworkers _ _ _ => exact hworkers ▸ route_put hw (by rfl) hu
  | ends _ _ hw _ hworkers _ _ => exact hworkers ▸ route_put hw (by rfl) hu
  | takes hw _ _ hworkers _ _ => exact hworkers ▸ route_put hw (by rfl) hu
  | leaves hw _ _ _ hworkers _ _ => exact hworkers ▸ route_put hw (by rfl) hu
  | dies hw hworkers _ _ => exact hworkers ▸ route_put hw (by rfl) hu
  | joins _ _ _ _ _ hw _ hworkers _ _ => exact hworkers ▸ route_put hw (Worker.route_accept _) hu
  | founds _ _ _ _ _ hworkers _ _ =>
    refine ⟨u, ?_, rfl⟩
    rw [hworkers, List.getElem?_append_left (List.getElem?_eq_some_iff.mp hu).1, hu]
  | forgets id hworkers _ _ =>
    exact ⟨u.forget id, by rw [hworkers, List.getElem?_map, hu]; rfl, rfl⟩
  | sweeps hworkers _ _ =>
    obtain ⟨retiring, hretire⟩ := getElem?_retire (d.retired now) hu
    exact ⟨{ u with retiring }, hworkers ▸ hretire, rfl⟩

/-- Workers are listed for their routes, and calls wait for room only when a mailbox is full. -/
structure Rostered (d : Dispatcher) : Prop where
  listed : ∀ ρ v, (ρ, v) ∈ d.roster → ∃ worker, d.workers[v]? = some worker ∧ worker.route = ρ
  packed : Every d.workers fun _ worker => worker.Packed

theorem rostered_new (policy : RetryPolicy) (timeout idle : Span) :
    (new policy timeout idle).Rostered := by
  constructor <;> simp [new, Every]

theorem packed_shifts {e : Event} {r : Dispatcher × List DispatchEffect} (h : Shifts d now r e)
    (hp : Every d.workers fun _ worker => worker.Packed) :
    Every r.1.workers fun _ worker => worker.Packed := by
  cases h with
  | same _ _ hworkers _ _ => exact hworkers ▸ hp
  | moves _ _ hw _ hworkers _ _ _ =>
    have hpacked := hp _ _ hw
    exact hworkers ▸ hp.put hpacked
  | ends _ _ hw _ hworkers _ _ =>
    have hpacked := hp _ _ hw
    exact hworkers ▸ hp.put hpacked
  | takes hw _ hm hworkers _ _ => exact hworkers ▸ hp.put (Worker.packed_takes (hp _ _ hw) hm)
  | leaves hw _ _ _ hworkers _ _ =>
    have hpacked := hp _ _ hw
    exact hworkers ▸ hp.put hpacked
  | dies _ hworkers _ _ => exact hworkers ▸ hp.put (by simp [Worker.Packed])
  | joins _ _ _ _ _ hw _ hworkers _ _ =>
    exact hworkers ▸ hp.put (Worker.packed_accept (hp _ _ hw) _)
  | founds _ _ _ _ _ hworkers _ _ =>
    exact hworkers ▸ hp.append (Worker.packed_accept (by simp [Worker.Packed]) _)
  | forgets id hworkers _ _ =>
    exact hworkers ▸ hp.map fun _ _ hpacked => Worker.packed_forget hpacked id
  | sweeps hworkers _ _ => exact hworkers ▸ hp.retire _ fun _ _ hpacked => hpacked

/-- Every step keeps the roster. -/
theorem rostered_shifts {e : Event} {r : Dispatcher × List DispatchEffect} (h : Shifts d now r e)
    (hr : d.Rostered) : r.1.Rostered := by
  refine ⟨fun ρ v hv => ?_, packed_shifts h hr.packed⟩
  have hbefore : (ρ, v) ∈ d.roster → ∃ u, r.1.workers[v]? = some u ∧ u.route = ρ := by
    intro hmem
    obtain ⟨u, hu, rfl⟩ := hr.listed ρ v hmem
    exact route_shifts h hu
  cases h with
  | same _ _ _ hroster _ => exact hbefore (hroster ▸ hv)
  | moves _ _ _ _ _ _ hroster _ => exact hbefore (hroster ▸ hv)
  | ends _ _ _ _ _ hroster _ => exact hbefore (hroster ▸ hv)
  | takes _ _ _ _ hroster _ => exact hbefore (hroster ▸ hv)
  | leaves _ _ _ _ _ hroster _ => exact hbefore (hroster ▸ hv)
  | dies _ _ hroster _ => exact hbefore (hroster ▸ hv)
  | joins _ _ _ _ _ _ _ _ hroster _ => exact hbefore (hroster ▸ hv)
  | founds _ _ _ _ _ hworkers hroster _ =>
    rcases Table.mem_put (hroster ▸ hv) with hv | hv
    · obtain ⟨rfl, rfl⟩ := Prod.mk.inj hv
      exact ⟨_, hworkers ▸ List.getElem?_concat_length, Worker.route_accept _⟩
    · exact hbefore hv
  | forgets _ _ hroster _ => exact hbefore (hroster ▸ hv)
  | sweeps _ hroster _ => exact hbefore (List.mem_filter.mp (hroster ▸ hv)).1

/-! ## The owner of the calls of a route -/

/-- All calls of a route are with the worker that is listed for it. -/
def Owned (d : Dispatcher) (ρ : Route) : Prop :=
  Every d.workers fun v worker => worker.route = ρ → worker.tickets ≠ [] →
    Table.get? ρ d.roster = some v ∧ worker.alive = true

theorem owned_new (policy : RetryPolicy) (timeout idle : Span) (ρ : Route) :
    (new policy timeout idle).Owned ρ := by
  simp [Owned, new, Every]

/-- Two workers with calls of a route are one. -/
theorem Owned.unique (h : d.Owned ρ) {v w : WorkerId} {worker other : Worker}
    (hv : d.workers[v]? = some worker) (hw : d.workers[w]? = some other)
    (hroute : worker.route = ρ) (hroute' : other.route = ρ) (ht : worker.tickets ≠ [])
    (ht' : other.tickets ≠ []) : v = w := by
  have hlisted := (h v worker hv hroute ht).1
  rw [(h w other hw hroute' ht').1] at hlisted
  exact (Option.some.inj hlisted).symm

/-- A step that finds no call of a route when it retires the route. -/
def Spares (d : Dispatcher) (now : Instant) (ρ : Route) (e : Event) : Prop :=
  e = .sweep → ρ ∈ (d.registry.evict now).2 →
    Every d.workers fun _ worker => worker.route = ρ → worker.tickets = []

/-- A worker that has no further call, and stays alive while it has one. -/
theorem Owned.put (h : d.Owned ρ) (hw : d.workers[w]? = some worker)
    (hroute : other.route = worker.route)
    (ht : other.tickets ≠ [] → worker.tickets ≠ [] ∧ other.alive = worker.alive) :
    (d.put w other).Owned ρ := by
  refine Every.put h fun hρ hne => ?_
  obtain ⟨hbefore, halive⟩ := ht hne
  rw [halive]
  exact h w worker hw (hroute ▸ hρ) hbefore

theorem owned_shifts {e : Event} {r : Dispatcher × List DispatchEffect} (h : Shifts d now r e)
    (hr : d.Rostered) (ho : d.Owned ρ) (hspares : d.Spares now ρ e) : r.1.Owned ρ := by
  have hput : ∀ {w worker other}, d.workers[w]? = some worker →
      r.1.workers = (d.put w other).workers → r.1.roster = d.roster →
      other.route = worker.route →
      (other.tickets ≠ [] → worker.tickets ≠ [] ∧ other.alive = worker.alive) → r.1.Owned ρ := by
    intro w worker other hw hworkers hroster hroute ht
    have howned := ho.put hw hroute ht
    rw [Owned, hworkers, hroster]
    exact howned
  cases h with
  | same _ _ hworkers hroster _ =>
    rw [Owned, hworkers, hroster]
    exact ho
  | moves _ _ hw hp hworkers _ hroster _ =>
    exact hput hw hworkers hroster rfl fun _ => ⟨Worker.tickets_ne_nil hp, rfl⟩
  | ends _ _ hw hp hworkers hroster _ =>
    exact hput hw hworkers hroster rfl fun _ => ⟨Worker.tickets_ne_nil hp, rfl⟩
  | takes hw hp hm hworkers hroster _ =>
    refine hput hw hworkers hroster rfl fun hne => ⟨?_, rfl⟩
    rwa [Worker.tickets_takes hp hm] at hne
  | @leaves w worker hw hp hm _ hworkers hroster _ =>
    refine hput hw hworkers hroster rfl fun hne => absurd ?_ hne
    -- Nothing waits for room in an empty mailbox.
    have hempty : worker.overflow = [] := by
      by_contra hover
      have hroom := hr.packed w worker hw hover
      simp [hm, mailboxRoom] at hroom
    simp [Worker.tickets, Worker.running, hp, hm, hempty]
  | dies hw hworkers hroster _ =>
    exact hput hw hworkers hroster rfl fun hne => absurd rfl hne
  | joins id route request timeout hlisted hw halive hworkers hroster _ =>
    rw [Owned, hworkers, hroster]
    refine Every.put ho fun hρ _ => ?_
    obtain ⟨u, hu, hroute⟩ := hr.listed _ _ (Table.mem_of_get? hlisted)
    obtain rfl := Option.some.inj (hw.symm.trans hu)
    rw [Worker.route_accept, hroute] at hρ
    exact ⟨hρ ▸ hlisted, by rw [Worker.alive_accept, halive]⟩
  | founds id route request timeout hno hworkers hroster _ =>
    rw [Owned, hworkers, hroster]
    refine Every.append (fun v u hv hρ hne => ?_) fun hρ _ => ?_
    · obtain ⟨hlisted, halive⟩ := ho v u hv hρ hne
      by_cases hsame : ρ = route
      · subst hsame
        exact absurd halive (by simp [hno v u hlisted hv])
      · rw [Table.get?_put_of_ne hsame]
        exact ⟨hlisted, halive⟩
    · rw [Worker.route_accept] at hρ
      obtain rfl : route = ρ := hρ
      exact ⟨Table.get?_put_self .., Worker.alive_accept _⟩
  | forgets id hworkers hroster _ =>
    rw [Owned, hworkers, hroster]
    exact Every.map ho fun v u hu hρ hne => hu hρ (Worker.tickets_forget_ne_nil hne)
  | sweeps hworkers hroster _ =>
    rw [Owned, hworkers, hroster]
    have howned : Every d.workers fun v worker => worker.route = ρ → worker.tickets ≠ [] →
        Table.get? ρ (d.roster.filter fun p => !(d.registry.evict now).2.contains p.1) = some v ∧
          worker.alive = true := by
      intro v u hv hρ hne
      have hkept : ρ ∉ (d.registry.evict now).2 := fun hmem => hne (hspares rfl hmem v u hv hρ)
      rw [Table.get?_filter_key (f := fun ρ => !(d.registry.evict now).2.contains ρ)
        (by simpa using hkept)]
      exact ho v u hv hρ hne
    exact howned.retire _ fun _ _ hu => hu

end Dispatcher

end Switchboard
