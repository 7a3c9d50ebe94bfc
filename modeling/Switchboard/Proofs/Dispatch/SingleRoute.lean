import Switchboard.Proofs.Dispatch.Pending

/-!
# Calls of one route

When all calls are of one route, one bucket at most is in use: the bucket to which the route leads.
A sweep that retires the route finds no call, so that one worker has all calls at any time.

## Main definitions

* `Dispatcher.Event.On`: an event submits calls of one route only.
* `Dispatcher.Solo`: what holds of a dispatcher all of whose calls are of one route.

## Main results

* `Dispatcher.solo_happens`: every step on the route preserves it.
-/
namespace Switchboard

/-- Who uses a bucket has a call. -/
theorem Worker.Uses.exists_ticket {worker : Worker} {b : BucketId} (h : worker.Uses b) :
    ∃ t, t ∈ worker.tickets := by
  rcases h with h | ⟨t, ht, -⟩
  · cases hp : worker.progress with
    | none => simp [Worker.stage?, hp] at h
    | some p => exact ⟨p.ticket, by simp [Worker.tickets, Worker.running, hp]⟩
  · exact ⟨t, ht⟩

namespace Dispatcher

variable {d : Dispatcher} {now : Instant} {ρ : Route} {b : BucketId}

/-- The calls that an event submits are of one route. -/
def Event.On (ρ : Route) (e : Event) : Prop :=
  ∀ id route request timeout, e = .submit id route request timeout → route = ρ

/-- What holds of a dispatcher all of whose calls are of one route. -/
structure Solo (d : Dispatcher) (ρ : Route) : Prop where
  rostered : d.Rostered
  owned : d.Owned ρ
  accounted : d.Accounted
  routed : Every d.workers fun _ worker => worker.route = ρ
  /-- Only the bucket of the route is in use. -/
  leads : ∀ b, d.registry.LeadsTo b → d.registry.routes = [(ρ, b)]
  used : Using d.workers fun b => d.registry.routes = [(ρ, b)]

theorem solo_new (policy : RetryPolicy) (timeout idle : Span) (ρ : Route) :
    (new policy timeout idle).Solo ρ where
  rostered := rostered_new policy timeout idle
  owned := owned_new policy timeout idle ρ
  accounted := accounted_new policy timeout idle
  routed := by simp [new, Every]
  leads := by simp [new, Registry.new, Registry.LeadsTo]
  used := by simp [new, Using, Every]

/-- Workers are made for the routes of calls. -/
theorem routed_shifts {e : Event} {r : Dispatcher × List DispatchEffect} (h : Shifts d now r e)
    (he : e.On ρ) (hr : Every d.workers fun _ worker => worker.route = ρ) :
    Every r.1.workers fun _ worker => worker.route = ρ := by
  have hput : ∀ {w worker other}, d.workers[w]? = some worker →
      r.1.workers = (d.put w other).workers → other.route = worker.route →
      Every r.1.workers fun _ worker => worker.route = ρ := by
    intro w worker other hw hworkers hroute
    rw [hworkers]
    exact Every.put hr (hroute.trans (hr w worker hw))
  cases h with
  | same _ _ hworkers _ _ => exact hworkers ▸ hr
  | moves _ _ hw _ hworkers _ _ _ => exact hput hw hworkers rfl
  | ends _ _ hw _ hworkers _ _ => exact hput hw hworkers rfl
  | takes hw _ _ hworkers _ _ => exact hput hw hworkers rfl
  | leaves hw _ _ _ hworkers _ _ => exact hput hw hworkers rfl
  | dies hw hworkers _ _ => exact hput hw hworkers rfl
  | joins _ _ _ _ _ hw _ hworkers _ _ => exact hput hw hworkers (Worker.route_accept _)
  | founds id route request timeout _ hworkers _ _ =>
    rw [hworkers]
    exact Every.append hr ((Worker.route_accept _).trans (he id route request timeout rfl))
  | forgets _ hworkers _ _ => exact hworkers ▸ Every.map hr fun _ _ hroute => hroute
  | sweeps hworkers _ _ => exact hworkers ▸ Every.retire hr _ fun _ _ hroute => hroute

namespace Solo

variable (h : d.Solo ρ)
include h

/-- No bucket in use is idle while the route has a call. -/
theorem not_idle {w : WorkerId} {worker : Worker} (hw : d.workers[w]? = some worker)
    (hb : worker.Uses b) (now : Instant) : d.registry.isIdle b now = false := by
  obtain ⟨t, ht⟩ := hb.exists_ticket
  have hroutes := h.used w worker hw b hb
  rw [h.used w worker hw t.bucket (Worker.uses_of_ticket ht)] at hroutes
  obtain rfl : t.bucket = b := by simpa using hroutes
  exact h.accounted.not_idle hw ht now

/-- A sweep that retires the route finds no call. -/
theorem spares (now : Instant) (e : Event) : d.Spares now ρ e := by
  intro _ hmem w worker hw _
  obtain ⟨⟨route, b⟩, hfilter, -⟩ := List.mem_map.mp hmem
  obtain ⟨hroute, hidle⟩ := List.mem_filter.mp hfilter
  have hroutes := h.leads b (.inl ⟨route, hroute⟩)
  by_contra hne
  obtain ⟨t, ht⟩ := List.exists_mem_of_ne_nil _ hne
  have huses := Worker.uses_of_ticket ht
  rw [h.used w worker hw t.bucket huses] at hroutes
  obtain rfl : t.bucket = b := by simpa using hroutes
  rw [h.not_idle hw huses now] at hidle
  exact absurd hidle (by simp)

/-- Without a way to a bucket, none is in use. -/
theorem routes_eq_nil (hnone : Table.get? ρ d.registry.routes = none) :
    d.registry.routes = [] := by
  cases hroutes : d.registry.routes with
  | nil => rfl
  | cons p rest =>
    have hlead := h.leads p.2 (.inl ⟨p.1, by simp [hroutes]⟩)
    rw [hlead] at hnone
    simp [Table.get?] at hnone

/-- What is learned from an answer is learned about the bucket of the route. -/
theorem target_update (hb : d.registry.routes = [(ρ, b)]) (limits : Limits) (now : Instant) :
    (d.registry.update ρ b limits now).2 = b := by
  cases htoken : limits.token with
  | none => simp [Registry.update, htoken]
  | some token =>
    cases hget : Table.get? token d.registry.tokens with
    | none => simp [Registry.update, htoken, hget]
    | some c =>
      have hlead := h.leads c (.inr ⟨token, Table.mem_of_get? hget⟩)
      rw [hb] at hlead
      obtain rfl : b = c := by simpa using hlead
      simp [Registry.update, htoken, hget]

theorem routes_update (hb : d.registry.routes = [(ρ, b)]) (limits : Limits) (now : Instant) :
    (d.registry.update ρ b limits now).1.routes = [(ρ, b)] := by
  have htarget := h.target_update hb limits now
  cases htoken : limits.token with
  | none => simpa [Registry.update, htoken] using hb
  | some token =>
    simp only [Registry.update, htoken] at htarget ⊢
    simp [htarget, hb, Table.put]

/-- The routes that a step resolves are the one. -/
theorem route_eq {e : Event} (he : e.On ρ) {route : Route}
    (hroute : (∃ id request timeout, e = .submit id route request timeout) ∨
      ∃ (v : WorkerId) (worker : Worker), d.workers[v]? = some worker ∧ worker.route = route) :
    route = ρ := by
  rcases hroute with ⟨id, request, timeout, heq⟩ | ⟨v, worker, hv, hroute⟩
  · exact he id route request timeout heq
  · exact hroute.symm.trans (h.routed v worker hv)

/-- One worker at most has calls. -/
theorem unique {v w : WorkerId} {worker other : Worker} (hv : d.workers[v]? = some worker)
    (hw : d.workers[w]? = some other) (ht : worker.tickets ≠ []) (ht' : other.tickets ≠ []) :
    v = w :=
  h.owned.unique hv hw (h.routed v worker hv) (h.routed w other hw) ht ht'

end Solo

/-- One bucket at most is in use, after every step. -/
theorem solo_registers {e : Event} {r : Dispatcher × List DispatchEffect}
    (h : Registers d now e r) (he : e.On ρ) (hs : d.Solo ρ) :
    (∀ b, r.1.registry.LeadsTo b → r.1.registry.routes = [(ρ, b)]) ∧
      Using r.1.workers fun b => r.1.registry.routes = [(ρ, b)] := by
  have hsame : d.registry.SameWays r.1.registry →
      Using r.1.workers (fun b => d.registry.routes = [(ρ, b)]) →
      (∀ b, r.1.registry.LeadsTo b → r.1.registry.routes = [(ρ, b)]) ∧
        Using r.1.workers fun b => r.1.registry.routes = [(ρ, b)] := by
    intro hways hused
    rw [hways.routes]
    exact ⟨fun b hb => hs.leads b (hways.leadsTo hb), hused⟩
  cases h with
  | counts hlike huse _ => exact hsame hlike.toSameWays (huse _ hs.used)
  | @resolves route hroute hlike huse _ =>
    obtain rfl : route = ρ := hs.route_eq he hroute
    cases hget : Table.get? route d.registry.routes with
    | some id =>
      rw [Registry.resolve_of_get? hget] at hlike huse
      refine hsame hlike.toSameWays (huse _ hs.used ?_)
      exact hs.leads id (.inl ⟨route, Table.mem_of_get? hget⟩)
    | none =>
      -- The bucket that is made now is the only one in use.
      have hempty := hs.routes_eq_nil hget
      have hunused : ∀ b, d.registry.routes ≠ [(route, b)] := by simp [hempty]
      have hnew : (d.registry.resolve route now).2 = d.registry.buckets.length := by
        rw [Registry.resolve_of_none hget]
      have hroutes : r.1.registry.routes = [(route, d.registry.buckets.length)] := by
        rw [hlike.routes, Registry.resolve_of_none hget, hempty]
        rfl
      rw [hroutes]
      refine ⟨fun b hb => ?_, huse _ (hs.used.imp fun b hb => absurd hb (hunused b)) (by rw [hnew])⟩
      rcases Registry.leadsTo_resolve (hlike.leadsTo hb) with hb | rfl
      · exact absurd (hs.leads b hb) (hunused b)
      · rw [hnew]
  | reserves _ _ _ hr huse _ _ => exact hsame (Registry.sameWays_reserve hr) (huse _ hs.used)
  | @learns w clock draw answer worker p b limits _ hw hp hstage _ hways huse _ =>
    have hb : d.registry.routes = [(ρ, b)] := hs.used.stage hw hp (by rw [hstage]; rfl)
    obtain rfl : worker.route = ρ := hs.routed w worker hw
    have hroutes : r.1.registry.routes = d.registry.routes :=
      hways.routes.trans ((hs.routes_update hb limits now).trans hb.symm)
    rw [hroutes]
    refine ⟨fun c hc => ?_, huse _ hs.used⟩
    rcases Registry.leadsTo_update (hways.leadsTo hc) with hc | rfl
    · exact hs.leads c hc
    · exact hb
  | evicts _ hr huse _ =>
    have hkept : ∀ b, d.registry.routes = [(ρ, b)] ∧ d.registry.isIdle b now = false →
        r.1.registry.routes = [(ρ, b)] := by
      rintro b ⟨hb, hidle⟩
      rw [hr]
      simp [Registry.evict, hb, hidle]
    refine ⟨fun b hb => ?_, (huse _ fun w worker hw b hb => ?_).imp hkept⟩
    · obtain ⟨hb, hidle⟩ := Registry.leadsTo_evict (hr ▸ hb)
      exact hkept b ⟨hs.leads b hb, hidle⟩
    · exact ⟨hs.used w worker hw b hb, hs.not_idle hw hb now⟩

/-- Every step that submits calls of the route only preserves what holds of it. -/
theorem solo_happens {e : Event} {r : Dispatcher × List DispatchEffect} (h : Happens d now e r)
    (he : e.On ρ) (hs : d.Solo ρ) : r.1.Solo ρ where
  rostered := rostered_shifts (shifts_happens h) hs.rostered
  owned := owned_shifts (shifts_happens h) hs.rostered hs.owned (hs.spares now e)
  accounted := accounted_happens h hs.accounted
  routed := routed_shifts (shifts_happens h) he hs.routed
  leads := (solo_registers (registers_happens h) he hs).1
  used := (solo_registers (registers_happens h) he hs).2

end Dispatcher

end Switchboard
