import Switchboard.Proofs.Dispatch.Pause
import Switchboard.Proofs.Dispatch.Pending
import Switchboard.Proofs.Dispatch.Tokens

/-!
# Eviction and live work

A sweep retires the routes of idle buckets. A call counts as pending on the bucket that its route
had when the call was submitted, and that bucket is not idle until the call is over. So a route is
not retired while it leads to a bucket on which a call is pending; in particular, not while it has a
call left and no answer leads it to another bucket.

An answer that names the token of another bucket does lead it there. What is left of its calls is
pending on the old bucket then, and the new one may become idle under a request of the route: the
next call goes to a second worker, whose requests do not wait for those of the first.

## Main definitions

* `Dispatcher.Incident`: a step, or something that others do with the registry.
* `Dispatcher.Busy`: calls of a route are left.
* `Dispatcher.Spared`: no sweep of a run retires a route with calls left.
* `Dispatcher.Steady`: no answer of a run leads a route with calls left to another bucket.

## Main results

* `Dispatcher.tended_meets`: what every incident preserves.
* `Dispatcher.moored_meets`: what every incident preserves that leads a busy route nowhere else.
* `Dispatcher.retired_of_run`: which routes are not retired, and who has their calls.
-/
namespace Switchboard

namespace Registry

variable {r r' : Registry} {b : BucketId} {ρ : Route}

/-- A route that led to a bucket leads to another one. -/
def Reroutes (ρ : Route) (r r' : Registry) : Prop :=
  (Table.get? ρ r.routes).isSome ∧ (Table.get? ρ r'.routes).isSome ∧
    Table.get? ρ r'.routes ≠ Table.get? ρ r.routes

instance (ρ : Route) (r r' : Registry) : Decidable (Reroutes ρ r r') :=
  inferInstanceAs (Decidable (_ ∧ _ ∧ _))

/-- A route keeps its bucket, gets another one, or is evicted with it. -/
theorem Keyed.way_perform (h : r.Keyed) (hb : Table.get? ρ r.routes = some b) (deed : Deed) :
    Table.get? ρ (r.perform deed).routes = some b ∨ Reroutes ρ r (r.perform deed) ∨
      ∃ now, r.isIdle b now = true := by
  by_cases hquiet : deed.isQuiet = true
  · exact .inl (get?_routes_perform hquiet hb)
  cases deed with
  | update route id limits now =>
    by_cases hsame : Table.get? ρ (r.perform (.update route id limits now)).routes = some b
    · exact .inl hsame
    refine .inr (.inl ⟨by simp [hb], ?_, by rwa [hb]⟩)
    cases htoken : limits.token with
    | none => simp [Registry.perform, update_of_none htoken, hb]
    | some token =>
      rw [Registry.perform, get?_routes_update htoken, hb]
      split <;> rfl
  | evict now =>
    rw [Registry.perform, h.get?_routes_evict, hb]
    by_cases hidle : r.isIdle b now = true
    · exact .inr (.inr ⟨now, hidle⟩)
    · exact .inl (by simp [hidle])
  | _ => exact absurd rfl hquiet

/-- Others than the dispatcher can do it: it counts no call, and it is about a bucket that there
is. -/
def Deed.isOpen (r : Registry) : Deed → Bool
  | .hold _ | .release _ _ => false
  | .update _ id _ _ | .reserve id _ | .apply id _ _ | .block id _ => id < r.buckets.length
  | .resolve _ _ | .evict _ => true

theorem leadsTo_perform {deed : Deed} (hopen : deed.isOpen r = true)
    (h : ∀ b, r.LeadsTo b → b < r.buckets.length) :
    r.buckets.length ≤ (r.perform deed).buckets.length ∧
      ∀ b, (r.perform deed).LeadsTo b → b < (r.perform deed).buckets.length := by
  by_cases hlocal : deed.isLocal = true
  · have hways := sameWays_perform (r := r) hlocal
    rw [hways.length]
    exact ⟨Nat.le_refl _, fun b hb => h b (hways.leadsTo hb)⟩
  cases deed with
  | resolve ρ now =>
    have hle := r.length_buckets_resolve ρ now
    refine ⟨hle, ?_⟩
    intro b hb
    rcases leadsTo_resolve hb with hb | rfl
    · exact Nat.lt_of_lt_of_le (h b hb) hle
    · exact resolve_lt h ρ now
  | update ρ id limits now =>
    have hid : id < r.buckets.length := by simpa [Deed.isOpen] using hopen
    simp only [perform, length_buckets_update]
    refine ⟨Nat.le_refl _, ?_⟩
    intro b hb
    rcases leadsTo_update hb with hb | rfl
    · exact h b hb
    · exact hid
  | evict now =>
    refine ⟨Nat.le_refl _, ?_⟩
    intro b hb
    exact h b (leadsTo_evict hb).1
  | _ => exact absurd rfl hlocal

/-- What others do leaves the pending calls alone. -/
theorem pendingOn_perform {deed : Deed} (hopen : deed.isOpen r = true) (b : BucketId) :
    (r.perform deed).pendingOn b = r.pendingOn b := by
  cases deed with
  | resolve ρ now => exact pendingOn_resolve ..
  | update ρ id limits now => exact pendingOn_update ..
  | apply id limits now => exact pendingOn_modify_of_pending fun _ => rfl
  | block id ending => exact pendingOn_block ..
  | evict now => rfl
  | reserve id now =>
    cases hr : r.reserve id now with
    | ok r' =>
      simp only [perform, hr]
      exact pendingOn_reserve hr b
    | error ending =>
      simp only [perform, hr]
      rfl
  | hold _ => simp [Deed.isOpen] at hopen
  | release _ _ => simp [Deed.isOpen] at hopen

end Registry

namespace Dispatcher

open Registry (Deed Reroutes)

variable {d : Dispatcher} {now : Instant} {w : WorkerId} {worker other : Worker} {ρ : Route}

/-! ## Incidents -/

/-- A step of a dispatcher, or something that others do with its registry. -/
inductive Incident where
  | event (now : Instant) (e : Event)
  | deed (deed : Deed)

/-- The dispatcher after an incident; what others cannot do changes nothing. -/
def meets (d : Dispatcher) : Incident → Dispatcher
  | .event now e => (d.step now e).1
  | .deed deed =>
    if deed.isOpen d.registry then { d with registry := d.registry.perform deed } else d

/-- The dispatcher after several incidents. -/
def meetsAll (d : Dispatcher) (incidents : List Incident) : Dispatcher := incidents.foldl meets d

/-- Calls of a route are left. -/
def Busy (d : Dispatcher) (ρ : Route) : Prop :=
  ∃ worker ∈ d.workers, worker.route = ρ ∧ worker.tickets ≠ []

instance (d : Dispatcher) (ρ : Route) : Decidable (d.Busy ρ) :=
  inferInstanceAs (Decidable (∃ worker ∈ d.workers, _))

theorem busy_of (hw : d.workers[w]? = some worker) (hρ : worker.route = ρ)
    (ht : worker.tickets ≠ []) : d.Busy ρ := ⟨worker, List.mem_of_getElem? hw, hρ, ht⟩

/-- No sweep of a run retires a route with calls left. -/
def Spared (ρ : Route) : Dispatcher → List Incident → Prop
  | _, [] => True
  | d, .event now .sweep :: rest =>
    ¬ (d.Busy ρ ∧ ρ ∈ (d.registry.evict now).2) ∧ Spared ρ (d.step now .sweep).1 rest
  | d, incident :: rest => Spared ρ (d.meets incident) rest

/-- No incident of a run leads a route with calls left to another bucket. -/
def Steady (ρ : Route) : Dispatcher → List Incident → Prop
  | _, [] => True
  | d, incident :: rest =>
    ¬ (Reroutes ρ d.registry (d.meets incident).registry ∧ (d.meets incident).Busy ρ) ∧
      Steady ρ (d.meets incident) rest

instance decidableSteady (ρ : Route) : ∀ d incidents, Decidable (Steady ρ d incidents)
  | _, [] => .isTrue trivial
  | d, incident :: rest =>
    have := decidableSteady ρ (d.meets incident) rest
    inferInstanceAs (Decidable (_ ∧ _))

/-! ## What becomes of tickets and ways -/

/-- The calls that a worker has after an event are calls that it had, or one that was submitted. -/
def Traced (d : Dispatcher) (now : Instant) (e : Event) (v : WorkerId) (u : Worker) : Prop :=
  ∀ t ∈ u.tickets,
    (∃ worker, d.workers[v]? = some worker ∧ worker.route = u.route ∧ t ∈ worker.tickets) ∨
      ∃ id request timeout, e = .submit id u.route request timeout ∧
        t = d.ticket now id u.route request

/-- Calls come from submissions. -/
theorem traced_shifts {e : Event} {r : Dispatcher × List DispatchEffect} (h : Shifts d now r e)
    (hr : d.Rostered) : Every r.1.workers (d.Traced now e) := by
  have hkept : Every d.workers (d.Traced now e) := by
    intro v u hu t ht
    exact .inl ⟨u, hu, rfl, ht⟩
  have hless : ∀ {w worker other}, d.workers[w]? = some worker →
      r.1.workers = (d.put w other).workers → other.route = worker.route →
      (∀ t ∈ other.tickets, t ∈ worker.tickets) → Every r.1.workers (d.Traced now e) := by
    intro w worker other hw hworkers hroute hmem
    rw [hworkers]
    apply hkept.put
    intro t ht
    exact .inl ⟨worker, hw, hroute.symm, hmem t ht⟩
  cases h with
  | same _ _ hworkers _ _ => rwa [hworkers]
  | moves _ _ hw hp hworkers ht _ _ =>
    apply hless hw hworkers rfl
    intro t hmem
    simpa [Worker.tickets, Worker.running, hp, ht] using hmem
  | ends _ _ hw hp hworkers _ _ =>
    apply hless hw hworkers rfl
    intro t hmem
    simp only [Worker.tickets, Worker.running, hp, List.mem_append] at hmem ⊢
    tauto
  | takes hw hp hm hworkers _ _ =>
    apply hless hw hworkers rfl
    rw [Worker.tickets_takes hp hm]
    exact fun _ ht => ht
  | leaves hw _ _ _ hworkers _ _ => exact hless hw hworkers rfl fun _ ht => ht
  | dies hw hworkers _ _ =>
    apply hless hw hworkers rfl
    simp [Worker.tickets, Worker.running]
  | joins id route request timeout hlisted hw _ hworkers _ _ =>
    rw [hworkers]
    apply hkept.put
    intro t ht
    obtain ⟨u, hu, hroute⟩ := hr.listed _ _ (Table.mem_of_get? hlisted)
    obtain rfl := Option.some.inj (hw.symm.trans hu)
    rw [Worker.route_accept, hroute]
    rcases Worker.mem_tickets_accept ht with ht | rfl
    · exact .inl ⟨_, hw, hroute, ht⟩
    · exact .inr ⟨id, request, timeout, rfl, rfl⟩
  | founds id route request timeout _ hworkers _ _ =>
    rw [hworkers]
    apply hkept.append
    intro t ht
    rw [Worker.route_accept]
    rcases Worker.mem_tickets_accept ht with ht | rfl
    · simp [Worker.tickets, Worker.running] at ht
    · exact .inr ⟨id, request, timeout, rfl, rfl⟩
  | forgets id hworkers _ _ =>
    rw [hworkers]
    intro v u hu t ht
    obtain ⟨worker, hw, rfl⟩ := Option.map_eq_some_iff.mp ((List.getElem?_map ..).symm.trans hu)
    refine .inl ⟨worker, hw, rfl, ?_⟩
    simp only [Worker.tickets, Worker.running, Worker.forget, List.mem_append, List.mem_filter]
      at ht ⊢
    tauto
  | sweeps hworkers _ _ =>
    rw [hworkers]
    exact hkept.retire _ fun _ _ hu => hu

/-- A step leaves the ways to buckets alone, or does one thing with the registry. -/
theorem ways_registers {e : Event} {r : Dispatcher × List DispatchEffect}
    (h : Registers d now e r) : d.registry.SameWays r.1.registry ∨
      ∃ deed, (d.registry.perform deed).SameWays r.1.registry := by
  cases h with
  | counts hlike _ _ => exact .inl hlike.toSameWays
  | @resolves ρ _ hlike _ _ => exact .inr ⟨.resolve ρ now, hlike.toSameWays⟩
  | reserves _ _ _ hr _ _ _ => exact .inl (Registry.sameWays_reserve hr)
  | @learns _ _ _ _ worker _ b limits _ _ _ _ _ hways _ _ =>
    exact .inr ⟨.update worker.route b limits now, hways⟩
  | evicts _ hr _ _ =>
    rw [hr]
    exact .inr ⟨.evict now, (Registry.Like.refl _).toSameWays⟩

/-- A route whose call is submitted leads to the bucket on which the call is pending. -/
theorem routes_of_submit {id : TicketId} {request : Request} {timeout : Option Span}
    {r : Dispatcher × List DispatchEffect} (h : Happens d now (.submit id ρ request timeout) r) :
    r.1.registry.routes = (d.registry.resolve ρ now).1.routes := by
  cases h <;> rfl

/-! ## What every incident preserves -/

/-- What holds of a dispatcher, whatever happens. -/
structure Tended (d : Dispatcher) : Prop where
  rostered : d.Rostered
  accounted : d.Accounted
  keyed : d.registry.Keyed

theorem tended_new (policy : RetryPolicy) (timeout idle : Span) :
    (new policy timeout idle).Tended where
  rostered := rostered_new policy timeout idle
  accounted := accounted_new policy timeout idle
  keyed := Registry.keyed_new idle

theorem keyed_registers {e : Event} {r : Dispatcher × List DispatchEffect}
    (h : Registers d now e r) (hk : d.registry.Keyed) : r.1.registry.Keyed := by
  rcases ways_registers h with hways | ⟨deed, hways⟩
  · exact hk.of_sameWays hways
  · exact (hk.perform deed).of_sameWays hways

theorem tended_happens {e : Event} {r : Dispatcher × List DispatchEffect} (h : Happens d now e r)
    (ht : d.Tended) : r.1.Tended where
  rostered := rostered_shifts (shifts_happens h) ht.rostered
  accounted := accounted_happens h ht.accounted
  keyed := keyed_registers (registers_happens h) ht.keyed

/-- What others do with the registry. -/
theorem Tended.perform (h : d.Tended) {deed : Deed} (hopen : deed.isOpen d.registry = true) :
    ({ d with registry := d.registry.perform deed } : Dispatcher).Tended where
  rostered := ⟨h.rostered.listed, h.rostered.packed⟩
  accounted := by
    obtain ⟨hle, hleads⟩ := Registry.leadsTo_perform hopen h.accounted.sound.leads
    refine ⟨⟨hleads, h.accounted.sound.used.imp ?_⟩, ?_⟩
    · intro b hb
      exact Nat.lt_of_lt_of_le hb hle
    · intro b
      exact (Registry.pendingOn_perform hopen b).trans (h.accounted.pending b)
  keyed := h.keyed.perform deed

theorem tended_meets (h : d.Tended) (incident : Incident) : (d.meets incident).Tended := by
  cases incident with
  | event now e => exact tended_happens (happens_step d now e) h
  | deed deed =>
    by_cases hopen : deed.isOpen d.registry = true
    · rw [meets, if_pos hopen]
      exact h.perform hopen
    · rwa [meets, if_neg hopen]

theorem tended_run (h : d.Tended) (incidents : List Incident) : (d.meetsAll incidents).Tended := by
  induction incidents generalizing d with
  | nil => exact h
  | cons incident rest ih =>
    apply ih
    exact tended_meets h incident

/-- A route is not retired while it leads to a bucket on which a call is pending. -/
theorem Tended.notMem_evict (h : d.Tended) (hw : d.workers[w]? = some worker) {t : Ticket}
    (ht : t ∈ worker.tickets) (hb : Table.get? ρ d.registry.routes = some t.bucket)
    (now : Instant) : ρ ∉ (d.registry.evict now).2 := by
  intro hmem
  obtain ⟨b, hget, hidle⟩ := (h.keyed.mem_evict now ρ).mp hmem
  obtain rfl : t.bucket = b := Option.some.inj (hb.symm.trans hget)
  rw [h.accounted.not_idle hw ht] at hidle
  exact absurd hidle (by simp)

/-- A sweep leaves the worker of a route that it does not retire in its place. -/
theorem get?_roster_sweep (h : ρ ∉ (d.registry.evict now).2) :
    Table.get? ρ (d.step now .sweep).1.roster = Table.get? ρ d.roster := by
  have hroster : (d.step now .sweep).1.roster =
      d.roster.filter fun p => !(d.registry.evict now).2.contains p.1 := by
    simp only [step, Dispatcher.sweep, foldl_modifyWorker]
  rw [hroster, Table.get?_filter_key (f := fun ρ => !(d.registry.evict now).2.contains ρ)
    (by simpa using h)]

/-! ## Routes that are spared -/

theorem spares_of (h : ¬ (d.Busy ρ ∧ ρ ∈ (d.registry.evict now).2)) (e : Event) :
    d.Spares now ρ e := by
  intro _ hmem v u hu hρ
  by_contra hne
  exact h ⟨busy_of hu hρ hne, hmem⟩

/-- While no sweep retires a route with calls left, one worker has them all. -/
theorem owned_run (h : d.Tended) (ho : d.Owned ρ) {incidents : List Incident}
    (hspared : Spared ρ d incidents) : (d.meetsAll incidents).Owned ρ := by
  induction incidents generalizing d with
  | nil => exact ho
  | cons incident rest ih =>
    have hnext : (d.meets incident).Owned ρ ∧ Spared ρ (d.meets incident) rest := by
      cases incident with
      | deed deed =>
        refine ⟨?_, hspared⟩
        rw [meets]
        split
        · exact ho
        · exact ho
      | event now e =>
        have hshifts := shifts_happens (happens_step d now e)
        cases e with
        | sweep =>
          obtain ⟨hkept, hrest⟩ := hspared
          exact ⟨owned_shifts hshifts h.rostered ho (spares_of hkept _), hrest⟩
        | _ =>
          refine ⟨owned_shifts hshifts h.rostered ho ?_, hspared⟩
          intro heq
          simp at heq
    apply ih
    · exact tended_meets h incident
    · exact hnext.1
    · exact hnext.2

/-! ## Routes that are led nowhere else -/

/-- The calls of a route are pending on the bucket to which it leads. -/
def Moored (d : Dispatcher) (ρ : Route) : Prop :=
  Every d.workers fun _ worker => worker.route = ρ → ∀ t ∈ worker.tickets,
    Table.get? ρ d.registry.routes = some t.bucket

theorem Moored.notMem_evict (h : d.Moored ρ) (ht : d.Tended) (hbusy : d.Busy ρ) (now : Instant) :
    ρ ∉ (d.registry.evict now).2 := by
  obtain ⟨worker, hmem, hρ, hne⟩ := hbusy
  obtain ⟨w, hw⟩ := List.mem_iff_getElem?.mp hmem
  obtain ⟨t, hticket⟩ := List.exists_mem_of_ne_nil _ hne
  exact ht.notMem_evict hw hticket (h w worker hw hρ t hticket) now

/-- A route keeps the bucket on which a call of it is pending, if it is led to no other. -/
theorem Moored.way (h : d.Moored ρ) (ht : d.Tended) (hw : d.workers[w]? = some worker)
    (hρ : worker.route = ρ) {t : Ticket} (hmem : t ∈ worker.tickets) (deed : Deed)
    (hsteady : ¬ Reroutes ρ d.registry (d.registry.perform deed)) :
    Table.get? ρ (d.registry.perform deed).routes = some t.bucket := by
  rcases ht.keyed.way_perform (h w worker hw hρ t hmem) deed with hway | hway | ⟨now, hidle⟩
  · exact hway
  · exact absurd hway hsteady
  · rw [ht.accounted.not_idle hw hmem] at hidle
    exact absurd hidle (by simp)

theorem moored_happens {e : Event} {r : Dispatcher × List DispatchEffect} (h : Happens d now e r)
    (ht : d.Tended) (hm : d.Moored ρ)
    (hsteady : ¬ (Reroutes ρ d.registry r.1.registry ∧ r.1.Busy ρ)) : r.1.Moored ρ := by
  intro w worker hw hρ t hmem
  have hbusy : r.1.Busy ρ := busy_of hw hρ (List.ne_nil_of_mem hmem)
  rcases traced_shifts (shifts_happens h) ht.rostered w worker hw t hmem with
    ⟨before, hbefore, hroute, hmem⟩ | ⟨id, request, timeout, rfl, rfl⟩
  · rw [hρ] at hroute
    rcases ways_registers (registers_happens h) with hways | ⟨deed, hways⟩
    · rw [hways.routes]
      exact hm w before hbefore hroute t hmem
    · rw [hways.routes]
      apply hm.way ht hbefore hroute hmem
      intro hreroutes
      rw [Reroutes, ← hways.routes] at hreroutes
      exact hsteady ⟨hreroutes, hbusy⟩
  · rw [hρ] at h ⊢
    rw [routes_of_submit h]
    exact Registry.get?_routes_resolve d.registry ρ now

/-- **Every incident** that does not lead a route with calls left to another bucket leaves these
calls pending on the bucket to which it leads. -/
theorem moored_meets (ht : d.Tended) (hm : d.Moored ρ) {incident : Incident}
    (hsteady : ¬ (Reroutes ρ d.registry (d.meets incident).registry ∧
      (d.meets incident).Busy ρ)) : (d.meets incident).Moored ρ := by
  cases incident with
  | event now e => exact moored_happens (happens_step d now e) ht hm hsteady
  | deed deed =>
    by_cases hopen : deed.isOpen d.registry = true
    · rw [meets, if_pos hopen] at hsteady ⊢
      intro w worker hw hρ t hmem
      apply hm.way ht hw hρ hmem
      intro hreroutes
      exact hsteady ⟨hreroutes, busy_of hw hρ (List.ne_nil_of_mem hmem)⟩
    · rwa [meets, if_neg hopen]

/-- A route that is led to no other bucket while it has calls left is not retired, either. -/
theorem moored_run (ht : d.Tended) (hm : d.Moored ρ) {incidents : List Incident}
    (hsteady : Steady ρ d incidents) :
    Spared ρ d incidents ∧ (d.meetsAll incidents).Moored ρ := by
  induction incidents generalizing d with
  | nil => exact ⟨trivial, hm⟩
  | cons incident rest ih =>
    obtain ⟨hfirst, hrest⟩ := hsteady
    obtain ⟨hspared, hmoored⟩ := ih (tended_meets ht incident) (moored_meets ht hm hfirst) hrest
    refine ⟨?_, hmoored⟩
    cases incident with
    | deed deed => exact hspared
    | event now e =>
      cases e with
      | sweep =>
        refine ⟨?_, hspared⟩
        rintro ⟨hbusy, hmem⟩
        exact hm.notMem_evict ht hbusy now hmem
      | _ => exact hspared

/-- **Eviction and live work**, in every run of a dispatcher, whatever others do with its registry.

A route is not retired while it leads to a bucket on which a call is pending. If no sweep has
retired it with calls left, all of these are with one worker, which is alive and listed for the
route. And if nothing has led it to another bucket with calls left, then no sweep has retired it so,
none does, and its worker keeps its place. -/
theorem retired_of_run (policy : RetryPolicy) (timeout idle : Span) (incidents : List Incident)
    (ρ : Route) :
    let start := new policy timeout idle
    let d := start.meetsAll incidents
    (∀ (w : WorkerId) (worker : Worker) (t : Ticket) (now : Instant),
      d.workers[w]? = some worker → t ∈ worker.tickets →
      Table.get? ρ d.registry.routes = some t.bucket →
      ρ ∉ (d.registry.evict now).2 ∧
        Table.get? ρ (d.step now .sweep).1.roster = Table.get? ρ d.roster) ∧
    (Spared ρ start incidents → ∀ (w : WorkerId) (worker : Worker),
      d.workers[w]? = some worker → worker.route = ρ → worker.tickets ≠ [] →
      Table.get? ρ d.roster = some w ∧ worker.alive = true ∧
        ∀ (v : WorkerId) (other : Worker), d.workers[v]? = some other → other.route = ρ →
          other.tickets ≠ [] → v = w) ∧
    (Steady ρ start incidents → Spared ρ start incidents ∧
      ∀ now, d.Busy ρ → ρ ∉ (d.registry.evict now).2 ∧
        Table.get? ρ (d.step now .sweep).1.roster = Table.get? ρ d.roster) := by
  intro start d
  have hstart : start.Tended := tended_new policy timeout idle
  have htended : d.Tended := tended_run hstart incidents
  refine ⟨?_, ?_, ?_⟩
  · intro w worker t now hw ht hb
    have hkept := htended.notMem_evict hw ht hb now
    exact ⟨hkept, get?_roster_sweep hkept⟩
  · intro hspared w worker hw hρ hne
    have howned : d.Owned ρ := owned_run hstart (owned_new policy timeout idle ρ) hspared
    obtain ⟨hlisted, halive⟩ := howned w worker hw hρ hne
    refine ⟨hlisted, halive, ?_⟩
    intro v other hv hρ' hne'
    exact howned.unique hv hw hρ' hρ hne' hne
  · intro hsteady
    have hmoored : start.Moored ρ := by simp [Moored, start, new, Every]
    obtain ⟨hspared, hd⟩ := moored_run hstart hmoored hsteady
    refine ⟨hspared, ?_⟩
    intro now hbusy
    have hkept := hd.notMem_evict htended hbusy now
    exact ⟨hkept, get?_roster_sweep hkept⟩

/-! ### Two routes and a sweep -/

/-- Steps, and nothing that others do. -/
def alone (events : List (Instant × Event)) : List Incident := events.map fun x => .event x.1 x.2

/-- An answer that names the token of a bucket. -/
def answerUnder (status : Nat) (token : String) : Response :=
  ⟨status, [("x-ratelimit-bucket", [Utf8.encode token])], []⟩

/-- The call on one of two routes is over, the call on the other waits for its turn, and somebody
holds its bucket closed for a while. -/
def waiting : List Incident :=
  alone (underWay ++ [(0, .receive 0 none 0 (.response (answerUnder 200 "x")))]) ++
    [.deed (.block 1 (2 * Span.second)), .event (4 * Span.second) .sweep]

/-- The sweep retires the first route, and no sweep retires the other. -/
theorem retired_of_run_waiting :
    let d := (new ⟨0, 1, 0, 0⟩ 0 Span.second).meetsAll waiting
    Table.get? ⟨"GET", ["a"]⟩ d.roster = none ∧
      Steady ⟨"GET", ["b"]⟩ (new ⟨0, 1, 0, 0⟩ 0 Span.second) waiting ∧
      d.Busy ⟨"GET", ["b"]⟩ ∧ Table.get? ⟨"GET", ["b"]⟩ d.roster = some 1 ∧
      ∀ now, ⟨"GET", ["b"]⟩ ∉ (d.registry.evict now).2 ∧
        Table.get? ⟨"GET", ["b"]⟩ (d.step now .sweep).1.roster = some 1 := by
  intro d
  have hrun := retired_of_run ⟨0, 1, 0, 0⟩ 0 Span.second waiting ⟨"GET", ["b"]⟩
  have hretired : Table.get? ⟨"GET", ["a"]⟩ d.roster = none := by decide +kernel
  have hstays : Steady ⟨"GET", ["b"]⟩ (new ⟨0, 1, 0, 0⟩ 0 Span.second) waiting := by
    decide +kernel
  have hroute : Table.get? ⟨"GET", ["b"]⟩ d.registry.routes = some 1 := by decide +kernel
  have hworker : d.workers[1]?.map (fun u => (u.route, u.tickets.map (·.bucket))) =
      some (⟨"GET", ["b"]⟩, [1]) := by decide +kernel
  have hd : (new ⟨0, 1, 0, 0⟩ 0 Span.second).meetsAll waiting = d := rfl
  clear_value d
  subst hd
  obtain ⟨hpending, hspared, hsteady⟩ := hrun
  obtain ⟨worker, hw, heq⟩ := Option.map_eq_some_iff.mp hworker
  obtain ⟨hρ, htickets⟩ := Prod.mk.inj heq
  obtain ⟨t, ht, hbucket⟩ : ∃ t ∈ worker.tickets, t.bucket = 1 := by
    rw [← List.mem_map, htickets]
    exact List.mem_singleton_self 1
  have hne : worker.tickets ≠ [] := List.ne_nil_of_mem ht
  have hlisted := (hspared (hsteady hstays).1 1 worker hw hρ hne).1
  refine ⟨hretired, hstays, busy_of hw hρ hne, hlisted, ?_⟩
  intro now
  obtain ⟨hkept, hroster⟩ := hpending 1 worker t now hw ht (by rw [hroute, hbucket])
  exact ⟨hkept, hroster.trans hlisted⟩

/-- The second route is refused under the token of the first, and comes back a second later. -/
def ledAway : List (Instant × Event) :=
  underWay ++ [(0, .receive 0 none 0 (.response (answerUnder 200 "x")))] ++ turns 0 1 ++
    [(0, .receive 1 none 0 (.response (answerUnder 429 "x")))] ++ turns 0 1 ++
    turns Span.second 1

/-- An answer that leads a route to the bucket of another one, with a call left: a sweep retires the
route under its request, and a second worker begins one of the same route. -/
theorem retired_of_run_ledAway :
    let d := (new ⟨0, 1, 0, 0⟩ 0 Span.second).meetsAll (alone ledAway)
    let now := 2 * Span.second
    let after := d.meetsAll (alone ([(now, .sweep),
      (now, .submit 2 ⟨"GET", ["b"]⟩ ⟨"GET", "/b", none⟩ none)] ++ turns now 2))
    d.Busy ⟨"GET", ["b"]⟩ ∧ ⟨"GET", ["b"]⟩ ∈ (d.registry.evict now).2 ∧
      Table.get? ⟨"GET", ["b"]⟩ (d.step now .sweep).1.roster = none ∧
      after.workers.map (·.route) =
        [⟨"GET", ["a"]⟩, ⟨"GET", ["b"]⟩, ⟨"GET", ["b"]⟩] ∧
      after.stageAt 1 = some (.sending 0) ∧ after.stageAt 2 = some (.sending 2) := by
  decide +kernel

end Dispatcher

end Switchboard
