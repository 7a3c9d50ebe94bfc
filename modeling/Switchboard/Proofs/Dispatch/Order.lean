import Mathlib.Data.List.Nodup
import Switchboard.Proofs.Dispatch.Lines
import Switchboard.Proofs.Dispatch.Owners

/-!
# The order of requests

The requests of a route come in groups, one for each call in the order in which the calls were
submitted; a group has all attempts at its call, and may be empty. Two requests are never under way
under one bucket.

Chronicles are runs with what has to be known of the past: the calls that were submitted, the
attempts that were begun, and those that are under way. An attempt is under way from its beginning
to the answer that its worker receives, or to the end of that worker.

## Main definitions

* `Grouped`: attempts at calls, group by group.
* `Chronicle`: a dispatcher with its past.
* `Chronicle.Keeps`: no sweep retires a route.

## Main results

* `Chronicle.exclusive_next`: what one step does to the requests under way.
* `Chronicle.ordered_next`: what one step does to the order of a route.
* `Chronicle.order_of_run`: both, for all runs.
-/
namespace Switchboard

/-! ## Groups -/

/-- Attempts at calls, group by group: for each call in turn all attempts at it, any number of
them. -/
def Grouped {α : Type} (calls attempts : List α) : Prop :=
  ∃ counts : List Nat, counts.length = calls.length ∧
    attempts = (calls.zip counts).flatMap fun x => List.replicate x.2 x.1

namespace Grouped

variable {α : Type} {calls attempts : List α}

theorem nil : Grouped ([] : List α) [] := ⟨[], rfl, rfl⟩

/-- Calls that were not attempted so far. -/
theorem append (h : Grouped calls attempts) (more : List α) : Grouped (calls ++ more) attempts := by
  obtain ⟨counts, hlength, rfl⟩ := h
  refine ⟨counts ++ List.replicate more.length 0, by simp [hlength], ?_⟩
  rw [List.zip_append hlength.symm, List.flatMap_append]
  have hnone : (more.zip (List.replicate more.length 0)).flatMap
      (fun x => List.replicate x.2 x.1) = [] := by
    rw [List.flatMap_eq_nil_iff]
    rintro ⟨call, n⟩ hx
    obtain rfl : n = 0 := List.eq_of_mem_replicate (List.of_mem_zip hx).2
    rfl
  rw [hnone, List.append_nil]

/-- One more attempt at the last call. -/
theorem attempt {call : α} (h : Grouped (calls ++ [call]) attempts) :
    Grouped (calls ++ [call]) (attempts ++ [call]) := by
  obtain ⟨counts, hlength, rfl⟩ := h
  obtain ⟨front, n, rfl⟩ : ∃ front n, counts = front ++ [n] := by
    rcases List.eq_nil_or_concat counts with rfl | ⟨front, n, rfl⟩
    · simp at hlength
    · exact ⟨front, n, List.concat_eq_append⟩
  have hfront : calls.length = front.length := by simpa using hlength.symm
  refine ⟨front ++ [n + 1], by simp [hfront], ?_⟩
  simp [List.zip_append hfront, List.replicate_succ']

end Grouped

/-! ## Chronicles -/

/-- A dispatcher with its past. -/
structure Chronicle where
  dispatcher : Dispatcher
  /-- The calls that were submitted, with their routes. -/
  submitted : List (Route × TicketId × Request) := []
  /-- The attempts that were begun. -/
  attempts : List Attempt := []
  /-- The attempts that are under way. -/
  underWay : List Attempt := []

namespace Dispatcher

/-- The call that an event submits, with its route. -/
def Event.submission? : Event → Option (Route × TicketId × Request)
  | .submit id route request _ => some (route, id, request)
  | _ => none

/-- A step begins one attempt at most, of a worker that has the bucket to itself. -/
theorem attempts_of_happens {d : Dispatcher} {now : Instant} {e : Event}
    {r : Dispatcher × List DispatchEffect} (h : Happens d now e r) :
    d.attempts r.2 = [] ∨ ∃ w worker p b, d.workers[w]? = some worker ∧
      worker.progress = some p ∧ p.stage = .reserving b ∧ r.1.stageAt w = some (.sending b) ∧
      d.attempts r.2 = [⟨w, b, worker.route, p.ticket.call⟩] := by
  cases shifts_happens h with
  | moves _ _ hw hp hworkers ht hroster ha =>
    refine ha.imp_right ?_
    rintro ⟨b, hs, hs', ha⟩
    refine ⟨_, _, _, b, hw, hp, hs, ?_, ha⟩
    rw [stageAt, hworkers]
    refine (stageAt_put hw _ _).trans ?_
    simp [Worker.stage?, hs']
  | same _ _ _ _ ha => exact .inl ha
  | ends _ _ _ _ _ _ ha => exact .inl ha
  | takes _ _ _ _ _ ha => exact .inl ha
  | leaves _ _ _ _ _ _ ha => exact .inl ha
  | dies _ _ _ ha => exact .inl ha
  | joins _ _ _ _ _ _ _ _ _ ha => exact .inl ha
  | founds _ _ _ _ _ _ _ ha => exact .inl ha
  | forgets _ _ _ ha => exact .inl ha
  | sweeps _ _ ha => exact .inl ha

end Dispatcher

open Dispatcher

namespace Chronicle

/-- A dispatcher at its beginning. -/
def begin (policy : RetryPolicy) (timeout idle : Span) : Chronicle :=
  { dispatcher := .new policy timeout idle }

/-- One more event. -/
def next (c : Chronicle) (now : Instant) (e : Dispatcher.Event) : Chronicle where
  dispatcher := (c.dispatcher.step now e).1
  submitted := c.submitted ++ e.submission?.toList
  attempts := c.attempts ++ c.dispatcher.attempts (c.dispatcher.step now e).2
  underWay := c.underWay.filter (fun a => !e.ends a.worker) ++
    c.dispatcher.attempts (c.dispatcher.step now e).2

/-- More events. -/
def run (c : Chronicle) (events : List (Instant × Dispatcher.Event)) : Chronicle :=
  events.foldl (fun c x => c.next x.1 x.2) c

/-- The calls that were submitted on a route. -/
def callsOf (c : Chronicle) (ρ : Route) : List (TicketId × Request) :=
  c.submitted.filterMap fun x => if x.1 = ρ then some x.2 else none

/-- The calls of a route that were attempted, once for each attempt. -/
def attemptsOf (c : Chronicle) (ρ : Route) : List (TicketId × Request) :=
  c.attempts.filterMap fun a => if a.route = ρ then some a.call else none

/-- No sweep retires a route. -/
def Keeps (ρ : Route) : Chronicle → List (Instant × Dispatcher.Event) → Prop
  | _, [] => True
  | c, (now, e) :: rest =>
    (e = .sweep → ρ ∉ (c.dispatcher.registry.evict now).2) ∧ Keeps ρ (c.next now e) rest

variable {c : Chronicle} {now : Instant} {e : Dispatcher.Event} {ρ : Route}

/-- Without sweeps no route is retired. -/
theorem keeps_of_ne_sweep {events : List (Instant × Dispatcher.Event)}
    (h : ∀ x ∈ events, x.2 ≠ .sweep) : Keeps ρ c events := by
  induction events generalizing c with
  | nil => trivial
  | cons x rest ih =>
    exact ⟨fun hx => absurd hx (h x (by simp)), ih fun y hy => h y (List.mem_cons_of_mem _ hy)⟩

/-! ## Requests under way -/

/-- What holds of the requests under way. -/
structure Exclusive (c : Chronicle) : Prop where
  orderly : c.dispatcher.Orderly
  sending : ∀ a ∈ c.underWay, c.dispatcher.stageAt a.worker = some (.sending a.bucket)
  routed : ∀ a ∈ c.underWay, ∃ worker, c.dispatcher.workers[a.worker]? = some worker ∧
    worker.route = a.route
  nodup : (c.underWay.map (·.bucket)).Nodup

theorem exclusive_begin (policy : RetryPolicy) (timeout idle : Span) :
    (begin policy timeout idle).Exclusive :=
  ⟨orderly_new policy timeout idle, by simp [begin], by simp [begin], by simp [begin]⟩

/-- A bucket under which a request begins has none under way. -/
theorem exclusive_next (h : c.Exclusive) (now : Instant) (e : Dispatcher.Event) :
    (c.next now e).Exclusive := by
  have hstep := happens_step c.dispatcher now e
  have hshifts := shifts_happens hstep
  have hkept : ∀ a ∈ c.underWay.filter (fun a => !e.ends a.worker),
      (c.next now e).dispatcher.stageAt a.worker = some (.sending a.bucket) := by
    intro a ha
    obtain ⟨hmem, hends⟩ := List.mem_filter.mp ha
    exact sending_happens hstep (h.sending a hmem) (by simpa using hends)
  have hrouted : ∀ a ∈ c.underWay.filter (fun a => !e.ends a.worker),
      ∃ worker, (c.next now e).dispatcher.workers[a.worker]? = some worker ∧
        worker.route = a.route := by
    intro a ha
    obtain ⟨worker, hw, hroute⟩ := h.routed a (List.mem_filter.mp ha).1
    obtain ⟨worker', hw', hsame⟩ := route_shifts hshifts hw
    exact ⟨worker', hw', hsame.trans hroute⟩
  have hnodup : ((c.underWay.filter (fun a => !e.ends a.worker)).map (·.bucket)).Nodup :=
    h.nodup.sublist (List.filter_sublist.map _)
  rcases attempts_of_happens hstep with ha | ⟨w, worker, p, b, hw, hp, hs, hafter, ha⟩
  · have hunderWay : (c.next now e).underWay = c.underWay.filter (fun a => !e.ends a.worker) := by
      simp [next, ha]
    refine ⟨orderly_happens hstep h.orderly, ?_, ?_, ?_⟩ <;> rw [hunderWay]
    · exact hkept
    · exact hrouted
    · exact hnodup
  · have hunderWay : (c.next now e).underWay =
        c.underWay.filter (fun a => !e.ends a.worker) ++ [⟨w, b, worker.route, p.ticket.call⟩] := by
      simp [next, ha]
    have hreserving : c.dispatcher.stageAt w = some (.reserving b) := by
      rw [stageAt_of_progress hw hp, hs]
    refine ⟨orderly_happens hstep h.orderly, ?_, ?_, ?_⟩
    · intro a hmem
      rw [hunderWay, List.mem_append, List.mem_singleton] at hmem
      rcases hmem with hmem | rfl
      · exact hkept a hmem
      · exact hafter
    · intro a hmem
      rw [hunderWay, List.mem_append, List.mem_singleton] at hmem
      rcases hmem with hmem | rfl
      · exact hrouted a hmem
      · exact route_shifts hshifts hw
    · rw [hunderWay, List.map_append, List.nodup_append]
      refine ⟨hnodup, by simp, ?_⟩
      intro b' hb' b'' hb'' hsame
      obtain rfl : b'' = b := by simpa using hb''
      subst hsame
      obtain ⟨a, hmem, rfl⟩ := List.mem_map.mp hb'
      -- Both workers would be the first in the line of the bucket.
      have hsending := h.sending a (List.mem_filter.mp hmem).1
      have hfirst := h.orderly.head a.worker a.bucket (by rw [hsending]; rfl)
      have hother := h.orderly.head w a.bucket (by rw [hreserving]; rfl)
      obtain rfl : w = a.worker := Option.some.inj (hother.symm.trans hfirst)
      rw [hsending] at hreserving
      simp at hreserving

theorem exclusive_run (h : c.Exclusive) (events : List (Instant × Dispatcher.Event)) :
    (c.run events).Exclusive := by
  induction events generalizing c with
  | nil => exact h
  | cons x rest ih => exact ih (exclusive_next h x.1 x.2)

/-- Where all calls of a route are with one worker, one request for them is under way at most. -/
theorem Exclusive.unique (h : c.Exclusive) (ho : c.dispatcher.Owned ρ) {a b : Attempt}
    (ha : a ∈ c.underWay) (hb : b ∈ c.underWay) (hroute : a.route = ρ) (hroute' : b.route = ρ) :
    a = b := by
  have hbusy : ∀ {a worker}, a ∈ c.underWay → c.dispatcher.workers[a.worker]? = some worker →
      worker.tickets ≠ [] := by
    intro a worker hmem hw hnone
    obtain ⟨u, p, hu, hp, -⟩ := exists_of_stageAt (h.sending a hmem)
    obtain rfl : worker = u := Option.some.inj (hw.symm.trans hu)
    exact Worker.tickets_ne_nil hp hnone
  obtain ⟨worker, hw, hworker⟩ := h.routed a ha
  obtain ⟨other, hv, hother⟩ := h.routed b hb
  have hsame : a.worker = b.worker :=
    ho.unique hw hv (hworker.trans hroute) (hother.trans hroute') (hbusy ha hw) (hbusy hb hv)
  have hsending := h.sending a ha
  rw [hsame, h.sending b hb] at hsending
  have hbucket : b.bucket = a.bucket := by simpa using hsending
  exact List.inj_on_of_nodup_map h.nodup ha hb hbucket.symm

/-! ## The calls of a route -/

/-- The call that a worker carries out is the last of those that were taken up, and the calls that
wait with it are among those that were not, in the same order. -/
structure Stands (past future : List (TicketId × Request)) (worker : Worker) : Prop where
  current : ∀ p, worker.progress = some p → past.getLast? = some p.ticket.call
  waiting : ((worker.mailbox ++ worker.overflow).map Ticket.call).Sublist future

theorem stands_of_tickets {past future : List (TicketId × Request)} {worker : Worker}
    (h : worker.tickets = []) : Stands past future worker := by
  simp only [Worker.tickets, Worker.running, List.append_eq_nil_iff] at h
  obtain ⟨⟨hprogress, hmailbox⟩, hoverflow⟩ := h
  refine ⟨fun p hp => ?_, by simp [hmailbox, hoverflow]⟩
  simp [hp] at hprogress

/-- What holds of the calls of a route: the attempts come in groups, for the calls that were taken
up, and the worker that has the others has them in their order. -/
structure Ordered (c : Chronicle) (ρ : Route) : Prop where
  rostered : c.dispatcher.Rostered
  owned : c.dispatcher.Owned ρ
  account : ∃ past future, c.callsOf ρ = past ++ future ∧ Grouped past (c.attemptsOf ρ) ∧
    Every c.dispatcher.workers fun _ worker => worker.route = ρ → Stands past future worker

theorem ordered_begin (policy : RetryPolicy) (timeout idle : Span) (ρ : Route) :
    (begin policy timeout idle).Ordered ρ where
  rostered := rostered_new policy timeout idle
  owned := owned_new policy timeout idle ρ
  account := ⟨[], [], rfl, .nil, by simp [begin, Dispatcher.new, Every]⟩

theorem callsOf_next (c : Chronicle) (now : Instant) (e : Dispatcher.Event) (ρ : Route) :
    (c.next now e).callsOf ρ =
      c.callsOf ρ ++ e.submission?.toList.filterMap fun x => if x.1 = ρ then some x.2 else none :=
  List.filterMap_append

theorem attemptsOf_next (c : Chronicle) (now : Instant) (e : Dispatcher.Event) (ρ : Route) :
    (c.next now e).attemptsOf ρ = c.attemptsOf ρ ++
      (c.dispatcher.attempts (c.dispatcher.step now e).2).filterMap fun a =>
        if a.route = ρ then some a.call else none :=
  List.filterMap_append

theorem submission?_eq_none (h : e.isSubmit = false) : e.submission? = none := by
  cases e <;> simp_all [Dispatcher.Event.isSubmit, Dispatcher.Event.submission?]

/-- A step that does not retire the route keeps its calls in order. -/
theorem ordered_next (h : c.Ordered ρ) {now : Instant} {e : Dispatcher.Event}
    (hkeeps : e = .sweep → ρ ∉ (c.dispatcher.registry.evict now).2) :
    (c.next now e).Ordered ρ := by
  have hshifts := shifts_happens (happens_step c.dispatcher now e)
  have hspares : c.dispatcher.Spares now ρ e := fun he hmem => absurd hmem (hkeeps he)
  refine ⟨rostered_shifts hshifts h.rostered, owned_shifts hshifts h.rostered h.owned hspares, ?_⟩
  obtain ⟨past, future, hcalls, hgrouped, hevery⟩ := h.account
  have hnext : (c.next now e).dispatcher = (c.dispatcher.step now e).1 := rfl
  have hcallsNext := callsOf_next c now e ρ
  have hattemptsNext := attemptsOf_next c now e ρ
  rw [hnext]
  generalize c.dispatcher.step now e = r at hshifts hattemptsNext
  -- Nothing is submitted and no request begins.
  have hquiet : e.isSubmit = false → c.dispatcher.attempts r.2 = [] →
      (c.next now e).callsOf ρ = past ++ future ∧
        Grouped past ((c.next now e).attemptsOf ρ) := by
    intro hs ha
    rw [hcallsNext, hattemptsNext, submission?_eq_none hs, ha]
    simpa using ⟨hcalls, hgrouped⟩
  -- A further call is the last one of its route.
  have hsubmitted : ∀ {id route request timeout}, e = .submit id route request timeout →
      c.dispatcher.attempts r.2 = [] →
      (c.next now e).callsOf ρ =
          past ++ (future ++ if route = ρ then [(id, request)] else []) ∧
        Grouped past ((c.next now e).attemptsOf ρ) := by
    intro id route request timeout he ha
    rw [hcallsNext, hattemptsNext, he, ha]
    refine ⟨?_, by simpa using hgrouped⟩
    by_cases hρ : route = ρ <;> simp [Dispatcher.Event.submission?, hcalls, hρ]
  have hmore : ∀ more, Every c.dispatcher.workers fun _ worker => worker.route = ρ →
      Stands past (future ++ more) worker := fun more => hevery.imp fun _ _ hu hρ =>
    ⟨(hu hρ).current, (hu hρ).waiting.trans (List.sublist_append_left _ _)⟩
  cases hshifts with
  | same _ hs hworkers _ ha =>
    obtain ⟨hcalls', hgrouped'⟩ := hquiet hs ha
    exact ⟨past, future, hcalls', hgrouped', hworkers ▸ hevery⟩
  | @moves _ hs w worker p p' hw hp hworkers ht _ ha =>
    have hevery' : Every r.1.workers fun _ worker => worker.route = ρ →
        Stands past future worker := by
      refine hworkers ▸ hevery.put fun hρ => ⟨?_, (hevery _ _ hw hρ).waiting⟩
      intro q hq
      obtain rfl : p' = q := Option.some.inj hq
      rw [ht]
      exact (hevery _ _ hw hρ).current p hp
    rcases ha with ha | ⟨b, -, -, ha⟩
    · obtain ⟨hcalls', hgrouped'⟩ := hquiet hs ha
      exact ⟨past, future, hcalls', hgrouped', hevery'⟩
    · have hcalls' : (c.next now e).callsOf ρ = past ++ future := by
        rw [hcallsNext, submission?_eq_none hs]
        simpa using hcalls
      refine ⟨past, future, hcalls', ?_, hevery'⟩
      rw [hattemptsNext, ha]
      by_cases hρ : worker.route = ρ
      · -- The attempt is at the call that was taken up last.
        obtain ⟨front, rfl⟩ := List.getLast?_eq_some_iff.mp ((hevery _ _ hw hρ).current p hp)
        simpa [hρ] using hgrouped.attempt
      · simpa [hρ] using hgrouped
  | ends _ hs hw hp hworkers _ ha =>
    obtain ⟨hcalls', hgrouped'⟩ := hquiet hs ha
    refine ⟨past, future, hcalls', hgrouped', hworkers ▸ hevery.put fun hρ => ?_⟩
    exact ⟨by simp, (hevery _ _ hw hρ).waiting⟩
  | @takes w worker t rest hw hp hm hworkers _ ha =>
    obtain ⟨hcalls', hgrouped'⟩ := hquiet rfl ha
    by_cases hρ : worker.route = ρ
    · have hwaiting := (hevery _ _ hw hρ).waiting
      rw [hm, List.cons_append, List.map_cons, List.cons_sublist_iff] at hwaiting
      obtain ⟨skipped, later, rfl, hmem, hlater⟩ := hwaiting
      obtain ⟨before, after, rfl⟩ := List.append_of_mem hmem
      refine ⟨past ++ (before ++ [t.call]), after ++ later, ?_, hgrouped'.append _, ?_⟩
      · simp [hcalls']
      · rw [hworkers]
        refine every_put (fun v u hne hv hroute => stands_of_tickets ?_) fun _ => ⟨?_, ?_⟩
        · -- All calls of the route are with the worker that takes up the next one.
          by_contra ht
          have hcall : worker.tickets ≠ [] := by simp [Worker.tickets, hm]
          exact hne (h.owned.unique hv hw hroute hρ ht hcall)
        · intro p hp'
          obtain rfl := Option.some.inj hp'
          simp
        · rw [Worker.waiting_takes]
          exact hlater.trans (List.sublist_append_right _ _)
    · refine ⟨past, future, hcalls', hgrouped', hworkers ▸ hevery.put fun hroute => ?_⟩
      exact absurd hroute hρ
  | leaves hw hp hm _ hworkers _ ha =>
    obtain ⟨hcalls', hgrouped'⟩ := hquiet rfl ha
    refine ⟨past, future, hcalls', hgrouped', hworkers ▸ hevery.put fun hρ => ?_⟩
    exact ⟨(hevery _ _ hw hρ).current, (hevery _ _ hw hρ).waiting⟩
  | dies hw hworkers _ ha =>
    obtain ⟨hcalls', hgrouped'⟩ := hquiet rfl ha
    exact ⟨past, future, hcalls', hgrouped', hworkers ▸ hevery.put fun _ => stands_of_tickets rfl⟩
  | @joins id route request _ w worker hlisted hw _ hworkers _ ha =>
    obtain ⟨u, hu, hroute⟩ := h.rostered.listed _ _ (Table.mem_of_get? hlisted)
    obtain rfl : worker = u := Option.some.inj (hw.symm.trans hu)
    have hpacked := h.rostered.packed _ _ hw
    obtain ⟨hcalls', hgrouped'⟩ := hsubmitted rfl ha
    refine ⟨past, _, hcalls', hgrouped', hworkers ▸ Every.put (hmore _) fun hρ => ?_⟩
    rw [Worker.route_accept] at hρ
    refine ⟨?_, ?_⟩
    · rw [Worker.progress_accept]
      exact (hevery _ _ hw hρ).current
    · rw [Worker.waiting_accept hpacked, List.map_append, if_pos (hroute.symm.trans hρ)]
      exact (hevery _ _ hw hρ).waiting.append (List.Sublist.refl _)
  | founds id route request _ hno hworkers _ ha =>
    obtain ⟨hcalls', hgrouped'⟩ := hsubmitted rfl ha
    refine ⟨past, _, hcalls', hgrouped', hworkers ▸ Every.append (hmore _) fun hρ => ?_⟩
    rw [Worker.route_accept] at hρ
    obtain rfl : route = ρ := hρ
    refine ⟨by simp, ?_⟩
    rw [Worker.waiting_accept (by simp [Worker.Packed]), if_pos rfl]
    exact List.sublist_append_right _ _
  | forgets id hworkers _ ha =>
    obtain ⟨hcalls', hgrouped'⟩ := hquiet rfl ha
    refine ⟨past, future, hcalls', hgrouped', hworkers ▸ hevery.map fun _ u hu hρ => ?_⟩
    refine ⟨(hu hρ).current, List.Sublist.trans (List.Sublist.map _ ?_) (hu hρ).waiting⟩
    exact (List.Sublist.refl _).append List.filter_sublist
  | sweeps hworkers _ ha =>
    obtain ⟨hcalls', hgrouped'⟩ := hquiet rfl ha
    refine ⟨past, future, hcalls', hgrouped', hworkers ▸ hevery.retire _ fun _ _ hu hρ => ?_⟩
    exact ⟨(hu hρ).current, (hu hρ).waiting⟩

theorem ordered_run (h : c.Ordered ρ) {events : List (Instant × Dispatcher.Event)}
    (hkeeps : Keeps ρ c events) : (c.run events).Ordered ρ := by
  induction events generalizing c with
  | nil => exact h
  | cons x rest ih => exact ih (ordered_next h hkeeps.1) hkeeps.2

/-! ## All runs -/

/-- **The order of requests**, through any run of a dispatcher.

Two requests are never under way under one bucket. The requests of a route that no sweep retires
come in groups, one for each call in the order of submission, and a request for it ends before the
next begins. -/
theorem order_of_run (policy : RetryPolicy) (timeout idle : Span)
    (events : List (Instant × Dispatcher.Event)) :
    let c := (begin policy timeout idle).run events
    (c.underWay.map (·.bucket)).Nodup ∧
      ∀ ρ, Keeps ρ (begin policy timeout idle) events →
        Grouped (c.callsOf ρ) (c.attemptsOf ρ) ∧
          ∀ a ∈ c.underWay, ∀ b ∈ c.underWay, a.route = ρ → b.route = ρ → a = b := by
  intro c
  have hexclusive : c.Exclusive := exclusive_run (exclusive_begin policy timeout idle) events
  refine ⟨hexclusive.nodup, fun ρ hkeeps => ?_⟩
  obtain ⟨-, howned, past, future, hcalls, hgrouped, -⟩ : c.Ordered ρ :=
    ordered_run (ordered_begin policy timeout idle ρ) hkeeps
  refine ⟨hcalls ▸ hgrouped.append future, fun a ha b hb hroute hroute' => ?_⟩
  exact hexclusive.unique howned ha hb hroute hroute'

/-! ### A call that is attempted twice -/

/-- Two calls on one route, of which the first is refused once. -/
def refusedOnce : List (Instant × Dispatcher.Event) :=
  [(0, .submit 0 ⟨"GET", ["a"]⟩ ⟨"GET", "/a?n=0", none⟩ none),
    (0, .submit 1 ⟨"GET", ["a"]⟩ ⟨"GET", "/a?n=1", none⟩ none)] ++
  List.replicate 4 (0, .proceed 0) ++
  [(0, .receive 0 none 0 (.response (.new 429 [])))] ++
  List.replicate 3 (0, .proceed 0) ++ List.replicate 2 (Span.second, .proceed 0) ++
  [(Span.second, .receive 0 none 0 (.response (.new 200 [])))] ++
  List.replicate 4 (Span.second, .proceed 0)

/-- Both attempts at the first call come before the one at the second. -/
theorem order_of_run_refusedOnce :
    let ρ : Route := ⟨"GET", ["a"]⟩
    let c := (begin ⟨0, 1, 0, 0⟩ 0 0).run refusedOnce
    Keeps ρ (begin ⟨0, 1, 0, 0⟩ 0 0) refusedOnce ∧ Grouped (c.callsOf ρ) (c.attemptsOf ρ) ∧
      c.callsOf ρ = [(0, ⟨"GET", "/a?n=0", none⟩), (1, ⟨"GET", "/a?n=1", none⟩)] ∧
      (c.attemptsOf ρ).map (·.1) = [0, 0, 1] ∧ c.underWay.map (·.bucket) = [0] := by
  intro ρ c
  have hkeeps : Keeps ρ (begin ⟨0, 1, 0, 0⟩ 0 0) refusedOnce :=
    keeps_of_ne_sweep (by simp [refusedOnce])
  obtain ⟨-, horder⟩ := order_of_run ⟨0, 1, 0, 0⟩ 0 0 refusedOnce
  exact ⟨hkeeps, (horder ρ hkeeps).1, by decide +kernel, by decide +kernel, by decide +kernel⟩

end Chronicle

end Switchboard
