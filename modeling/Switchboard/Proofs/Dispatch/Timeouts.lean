import Switchboard.Proofs.Dispatch.Pause
import Switchboard.Proofs.Dispatch.Pending

/-!
# What the patience of callers decides

How long callers wait is their own affair: requests begin at the same instants, and the buckets and
the cooldown go through the same states, however soon callers give up. What a caller hears is what
came of its call, if it was still there then. The exception is a caller that gives up while its call
waits for room in a mailbox, for it takes the call with it.

## Main definitions

* `Dispatcher.Event.untimed`: an event without what it says about callers.
* `Dispatcher.deserted`: a dispatcher without its callers.
* `Dispatcher.seated`: nobody who gives up takes a call along.
* `Dispatcher.completions`: the calls that are over, with what came of them.

## Main results

* `Dispatcher.step_deserted`: what workers do does not depend on callers.
* `Dispatcher.lot_happens`: what a step does to one call and its caller.
* `Dispatcher.patience_of_run`: all of it, for any two runs.
-/
namespace Switchboard

/-- The effect is not for a caller. -/
def DispatchEffect.isWork : DispatchEffect → Bool
  | .wakeCaller _ | .finished _ _ => false
  | _ => true

namespace Dispatcher

variable {d v : Dispatcher} {now : Instant} {id : TicketId} {e f : Event}
  {r : Dispatcher × List DispatchEffect} {result : Except Failure Response}

/-! ## Without callers -/

/-- The event without what it says about callers: nobody looks for a result, and nobody says how
long it waits. -/
def Event.untimed : Event → Option Event
  | .submit id route request _ => some (.submit id route request none)
  | .settle _ => none
  | e => some e

/-- A run without what it says about callers. -/
def untimed (events : List (Instant × Event)) : List (Instant × Event) :=
  events.filterMap fun p => p.2.untimed.map (p.1, ·)

/-- What effects are not for callers. -/
def work (es : List DispatchEffect) : List DispatchEffect := es.filter (·.isWork)

/-- The calls that are over with an event, and what came of them. -/
def ended (d : Dispatcher) : Event → List (TicketId × Except Failure Response)
  | .receive w clock draw answer =>
    match d.workers[w]? with
    | some ⟨route, some ⟨ticket, tries, .sending _⟩, _, _, _, _⟩ =>
      match (tries.judge d.policy route (limitsOf clock answer) draw answer).2 with
      | .done result => [(ticket.id, result)]
      | _ => []
    | _ => []
  | .crash w =>
    match d.workers[w]? with
    | some worker =>
      (worker.running ++ worker.mailbox).map (fun t => (t.id, .error (orphaned worker.route))) ++
        worker.overflow.map fun t => (t.id, .error .notRunning)
    | none => []
  | _ => []

/-- The calls that are over, in order, each with the instant and with what came of it. -/
def completions (d : Dispatcher) :
    List (Instant × Event) → List (Instant × TicketId × Except Failure Response)
  | [] => []
  | (now, e) :: rest => (d.ended e).map (now, ·) ++ completions (d.step now e).1 rest

/-- The dispatcher with other callers. -/
def attended (d : Dispatcher) (callers : Table TicketId Caller) (defaultTimeout : Span) :
    Dispatcher := { d with callers, defaultTimeout }

/-- The dispatcher without its callers. -/
def deserted (d : Dispatcher) : Dispatcher := d.attended [] 0

theorem eq_attended (h : d.deserted = v.deserted) :
    v = d.attended v.callers v.defaultTimeout := by
  cases d
  cases v
  simpa [deserted, attended] using h.symm

theorem work_told (callers : Table TicketId Caller) (id : TicketId) :
    work (told callers id) = [] := by
  cases hc : Table.get? id callers <;> simp [work, told, hc, DispatchEffect.isWork]

theorem work_append (es fs : List DispatchEffect) : work (es ++ fs) = work es ++ work fs :=
  List.filter_append ..

theorem work_flatMap_told (callers : Table TicketId Caller) (ts : List Ticket) :
    work (ts.flatMap fun t => told callers t.id) = [] := by
  induction ts with
  | nil => rfl
  | cons t rest ih => simp [List.flatMap_cons, work_append, work_told, ih]

variable (callers : Table TicketId Caller) (timeout : Span)

/-- How long the caller of a call waits does not matter to the worker that takes it. -/
theorem happens_submit_attended {route : Route} {request : Request} {patience : Option Span}
    (h : Happens d now (.submit id route request patience) r) :
    ∃ r', Happens (d.attended callers timeout) now (.submit id route request none) r' ∧
      r'.1.deserted = r.1.deserted ∧ work r'.2 = work r.2 := by
  cases h with
  | assign _ _ _ _ hr hw ha => exact ⟨_, .assign id route request none hr hw ha, rfl, rfl⟩
  | hire _ _ _ _ hno => exact ⟨_, .hire id route request none hno, rfl, rfl⟩

/-- With other callers the same happens, as far as it does not concern them. -/
theorem happens_attended (h : Happens d now e r) (he : e.untimed = some e) :
    ∃ r', Happens (d.attended callers timeout) now e r' ∧ r'.1.deserted = r.1.deserted ∧
      work r'.2 = work r.2 := by
  let u := d.attended callers timeout
  cases h with
  | assign id route request patience hr hw ha =>
    cases he
    exact happens_submit_attended callers timeout (.assign id route request none hr hw ha)
  | hire id route request patience hno =>
    cases he
    exact happens_submit_attended callers timeout (.hire id route request none hno)
  | patient _ => cases he
  | report _ _ => cases he
  | giveUp _ _ _ => cases he
  | idle h => exact ⟨_, .idle (d := u) h, rfl, rfl⟩
  | take hw ha hp hm => exact ⟨_, .take (d := u) hw ha hp hm, rfl, rfl⟩
  | retire hw ha hp hm hr => exact ⟨_, .retire (d := u) hw ha hp hm hr, rfl, rfl⟩
  | cool hw ha hp hs hc hlt => exact ⟨_, .cool (d := u) hw ha hp hs hc hlt, rfl, rfl⟩
  | queue hw ha hp hs hc => exact ⟨_, .queue (d := u) hw ha hp hs hc, rfl, rfl⟩
  | rested hw ha hp hs hle => exact ⟨_, .rested (d := u) hw ha hp hs hle, rfl, rfl⟩
  | first hw ha hp hs hf => exact ⟨_, .first (d := u) hw ha hp hs hf, rfl, rfl⟩
  | again hw ha hp hs hle => exact ⟨_, .again (d := u) hw ha hp hs hle, rfl, rfl⟩
  | back hw ha hp hs hc hlt => exact ⟨_, .back (d := u) hw ha hp hs hc hlt, rfl, rfl⟩
  | execute hw ha hp hs hc hr => exact ⟨_, .execute (d := u) hw ha hp hs hc hr, rfl, rfl⟩
  | stall hw ha hp hs hc hr => exact ⟨_, .stall (d := u) hw ha hp hs hc hr, rfl, rfl⟩
  | stray w clock draw answer hno =>
    exact ⟨_, .stray (d := u) w clock draw answer hno, rfl, rfl⟩
  | done hw hp hs hj =>
    refine ⟨_, .done (d := u) hw hp hs hj, rfl, ?_⟩
    simp only [work_append, work_told]
    rfl
  | retry hw hp hs hj => exact ⟨_, .retry (d := u) hw hp hs hj, rfl, rfl⟩
  | pauses draw hw hp hs ht hbudget hl hg =>
    exact ⟨_, .pauses (d := u) draw hw hp hs ht hbudget hl hg, rfl, rfl⟩
  | blocks draw hw hp hs ht hbudget hl hg =>
    exact ⟨_, .blocks (d := u) draw hw hp hs ht hbudget hl hg, rfl, rfl⟩
  | nobody w h => exact ⟨_, .nobody (d := u) w h, rfl, rfl⟩
  | crash hw =>
    refine ⟨_, .crash (d := u) hw, rfl, ?_⟩
    simp only [work_append, work_flatMap_told]
    rfl
  | sweep => exact ⟨_, .sweep (d := u), rfl, rfl⟩
  | pause ending => exact ⟨_, .pause (d := u) ending, rfl, rfl⟩

theorem happens_untimed (h : Happens d now e r) (he : e.untimed = some f) :
    ∃ r', Happens (d.attended callers timeout) now f r' ∧ r'.1.deserted = r.1.deserted ∧
      work r'.2 = work r.2 := by
  cases e with
  | submit id route request patience =>
    cases he
    exact happens_submit_attended callers timeout h
  | settle id => cases he
  | _ =>
    cases he
    exact happens_attended callers timeout h rfl

/-- What workers do with an event does not depend on callers. -/
theorem step_deserted (now : Instant) (he : e.untimed = some f) (h : d.deserted = v.deserted) :
    (d.step now e).1.deserted = (v.step now f).1.deserted ∧
      work (d.step now e).2 = work (v.step now f).2 ∧ d.ended e = v.ended f := by
  rw [eq_attended h]
  obtain ⟨r', hr', hstate, heffects⟩ :=
    happens_untimed v.callers v.defaultTimeout (happens_step d now e) he
  rw [step_of_happens hr', hstate, heffects]
  refine ⟨rfl, rfl, ?_⟩
  cases e <;> cases he <;> rfl

/-- A caller that gives up with the event takes no call along. -/
def seats (d : Dispatcher) (now : Instant) : Event → Bool
  | .settle id => (d.stranded id).isEmpty ||
      (Table.get? id d.callers).all fun c => c.reply.isSome || now < c.deadline
  | _ => true

/-- No caller ever gives up while its call waits for room in a mailbox. -/
def seated : Dispatcher → List (Instant × Event) → Bool
  | _, [] => true
  | d, (now, e) :: rest => d.seats now e && seated (d.step now e).1 rest

theorem forget_of_stranded (h : d.stranded id = []) : d.workers.map (·.forget id) = d.workers := by
  have hkept : ∀ worker ∈ d.workers, worker.forget id = worker := by
    intro worker hw
    have hnone := List.flatMap_eq_nil_iff.mp h worker hw
    have hall : worker.overflow.filter (·.id ≠ id) = worker.overflow := by
      simpa using hnone
    simp only [Worker.forget, hall]
  simpa using List.map_congr_left hkept

/-- A caller that hears a result or gives up changes nothing for workers. -/
theorem settle_deserted (h : d.seats now (.settle id) = true) :
    (d.step now (.settle id)).1.deserted = d.deserted ∧
      work (d.step now (.settle id)).2 = [] := by
  have hhappens := happens_step d now (.settle id)
  generalize d.step now (.settle id) = r at hhappens ⊢
  cases hhappens with
  | patient _ => exact ⟨rfl, rfl⟩
  | report _ _ => exact ⟨rfl, rfl⟩
  | giveUp hc hr hd =>
    have hnone : d.stranded id = [] := by simpa [seats, hc, hr, Nat.not_lt.mpr hd] using h
    refine ⟨?_, rfl⟩
    simp [deserted, attended, hnone, freed, forget_of_stranded hnone]

/-- Runs differ for their callers only from the run in which nobody waits. -/
theorem run_untimed {events : List (Instant × Event)} (h : d.deserted = v.deserted)
    (hs : d.seated events = true) :
    (d.run events).1.deserted = (v.run (untimed events)).1.deserted ∧
      (d.run events).2.filter (·.2.isWork) = (v.run (untimed events)).2.filter (·.2.isWork) ∧
      d.completions events = v.completions (untimed events) := by
  induction events generalizing d v with
  | nil => exact ⟨h, rfl, rfl⟩
  | cons x rest ih =>
    obtain ⟨now, e⟩ := x
    obtain ⟨hseat, hrest⟩ : d.seats now e = true ∧ (d.step now e).1.seated rest = true := by
      simpa [seated] using hs
    have hwork : ∀ es : List DispatchEffect,
        (es.map (now, ·)).filter (·.2.isWork) = (work es).map (now, ·) := fun es => by
      simp [work, List.filter_map, Function.comp_def]
    cases he : e.untimed with
    | none =>
      obtain ⟨id, rfl⟩ : ∃ id, e = .settle id := by cases e <;> simp_all [Event.untimed]
      obtain ⟨hstate, heffects⟩ := settle_deserted hseat
      have hlater := ih (hstate.trans h) hrest
      simp only [run, untimed, List.filterMap_cons, he, Option.map_none, List.filter_append, hwork,
        heffects, completions, ended]
      exact hlater
    | some f =>
      obtain ⟨hstate, heffects, hended⟩ := step_deserted now he h
      obtain ⟨hfinal, hlater, hcompletions⟩ := ih hstate hrest
      simp only [run, untimed, List.filterMap_cons, he, Option.map_some, List.filter_append, hwork,
        heffects, completions, hended]
      exact ⟨hfinal, congrArg _ hlater, congrArg _ hcompletions⟩

/-! ## One call and its caller -/

/-- The call that is submitted. -/
def Event.submits? : Event → Option TicketId
  | .submit id _ _ _ => some id
  | _ => none

/-- The calls of a number that workers have. -/
def callsOf (d : Dispatcher) (id : TicketId) : Nat := tally d.workers (·.id = id)

/-- What a step does to the calls of a number and to their caller. -/
inductive Lot (d : Dispatcher) (now : Instant) (id : TicketId)
    (r : Dispatcher × List DispatchEffect) : Event → Prop where
  /-- Nothing. -/
  | same {e : Event} (hs : e.submits? ≠ some id) (hcalls : r.1.callsOf id = d.callsOf id)
      (hcaller : Table.get? id r.1.callers = Table.get? id d.callers)
      (hended : ∀ result, (id, result) ∉ d.ended e) (hquiet : ∀ result, .finished id result ∉ r.2) :
    Lot d now id r e
  | starts (route : Route) (request : Request) (timeout : Option Span)
      (hcalls : r.1.callsOf id = d.callsOf id + 1)
      (hcaller : Table.get? id r.1.callers = some
        ⟨route, timeout.getD d.defaultTimeout, now + timeout.getD d.defaultTimeout, none⟩)
      (hquiet : ∀ result, .finished id result ∉ r.2) :
    Lot d now id r (.submit id route request timeout)
  | ends {e : Event} (result : Except Failure Response) (hs : e.submits? ≠ some id)
      (hcalls : r.1.callsOf id + 1 = d.callsOf id)
      (hcaller : Table.get? id r.1.callers =
        (Table.get? id d.callers).map ({ · with reply := some result }))
      (hended : ∀ other, (id, other) ∈ d.ended e ↔ other = result)
      (hquiet : ∀ result, .finished id result ∉ r.2) : Lot d now id r e
  | hears {c : Caller} (hc : Table.get? id d.callers = some c) {result : Except Failure Response}
      (hreply : c.reply = some result) (hcalls : r.1.callsOf id = d.callsOf id)
      (hcaller : Table.get? id r.1.callers = none) (heffects : r.2 = [.finished id result]) :
    Lot d now id r (.settle id)
  | givesUp {c : Caller} (hc : Table.get? id d.callers = some c) (hreply : c.reply = none)
      (hd : c.deadline ≤ now) (hcalls : r.1.callsOf id ≤ d.callsOf id) : Lot d now id r (.settle id)

theorem get?_answered (callers : Table TicketId Caller) (id other : TicketId)
    (result : Except Failure Response) :
    Table.get? other (answered callers id result) =
      if id = other then (Table.get? other callers).map ({ · with reply := some result })
      else Table.get? other callers := by
  by_cases h : id = other
  · subst h
    cases hc : Table.get? id callers <;> simp [answered, hc]
  · cases hc : Table.get? id callers <;> simp [answered, hc, h, Table.get?_put_of_ne (Ne.symm h)]

theorem get?_disappointed_of_not_mem {ts : List Ticket} (h : ¬∃ t ∈ ts, t.id = id)
    (callers : Table TicketId Caller) (failure : Failure) :
    Table.get? id (disappointed callers failure ts) = Table.get? id callers := by
  induction ts generalizing callers with
  | nil => rfl
  | cons t rest ih =>
    obtain ⟨ht, hrest⟩ : t.id ≠ id ∧ ¬∃ u ∈ rest, u.id = id := by simpa using h
    refine (ih hrest _).trans ?_
    rw [get?_answered, if_neg ht]

theorem get?_disappointed_of_mem {ts : List Ticket} (h : ∃ t ∈ ts, t.id = id)
    (callers : Table TicketId Caller) (failure : Failure) :
    Table.get? id (disappointed callers failure ts) =
      (Table.get? id callers).map ({ · with reply := some (.error failure) }) := by
  induction ts generalizing callers with
  | nil => simp at h
  | cons t rest ih =>
    by_cases hrest : ∃ u ∈ rest, u.id = id
    · refine (ih hrest _).trans ?_
      rw [get?_answered]
      split
      · simp [Option.map_map, Function.comp_def]
      · rfl
    · have ht : t.id = id := by simpa [hrest] using h
      refine (get?_disappointed_of_not_mem hrest _ _).trans ?_
      rw [get?_answered, if_pos ht]

/-- A caller hears only when it looks for its result. -/
theorem finished_of_happens (h : Happens d now e r) (hmem : .finished id result ∈ r.2) :
    e = .settle id := by
  have hroused : ∀ b w, .finished id result ∉ d.roused b w := by
    intro b w hmem
    obtain ⟨v, -, hv⟩ := List.mem_map.mp hmem
    cases hv
  have htold : ∀ callers other, .finished id result ∉ told callers other := by
    intro callers other
    cases hc : Table.get? other callers <;> simp [told, hc]
  cases h with
  | back _ _ _ _ _ _ => exact absurd hmem (hroused _ _)
  | done _ _ _ _ => exact absurd hmem (by simp [hroused, htold])
  | retry _ _ _ _ => exact absurd hmem (by simp [hroused])
  | pauses _ _ _ _ _ _ _ _ => exact absurd hmem (hroused _ _)
  | blocks _ _ _ _ _ _ _ _ => exact absurd hmem (hroused _ _)
  | @crash w worker _ =>
    cases hb : worker.stage?.bind Stage.bucket? <;>
      exact absurd hmem (by simp [hb, rousedAny, hroused, htold])
  | report _ _ => simp_all
  | giveUp _ _ _ => simp_all
  | _ => simp at hmem

theorem ended_receive {w : WorkerId} {worker : Worker} {p : Progress} {b : BucketId}
    (hw : d.workers[w]? = some worker) (hp : worker.progress = some p) (hs : p.stage = .sending b)
    (clock : Option Span) (draw : Float) (answer : Answer) :
    d.ended (.receive w clock draw answer) =
      match (p.tries.judge d.policy worker.route (limitsOf clock answer) draw answer).2 with
      | .done result => [(p.ticket.id, result)]
      | _ => [] := by
  obtain ⟨route, progress, mailbox, overflow, retiring, alive⟩ := worker
  obtain ⟨ticket, tries, stage⟩ := p
  subst hp hs
  simp only [ended, hw]

theorem mem_map_pair {ts : List Ticket} {x other : Except Failure Response} :
    (id, other) ∈ ts.map (fun t => (t.id, x)) ↔ (∃ t ∈ ts, t.id = id) ∧ other = x := by
  simp only [List.mem_map, Prod.mk.injEq]
  grind

/-- What becomes of a call and its caller when the worker that has it dies. -/
theorem lot_crash {w : WorkerId} {worker : Worker} (hw : d.workers[w]? = some worker)
    (hone : d.callsOf id ≤ 1)
    (hcalls : r.1.workers = (d.put w { route := worker.route, alive := false }).workers)
    (hcallers : r.1.callers = disappointed
      (disappointed d.callers (orphaned worker.route) (worker.running ++ worker.mailbox))
      .notRunning worker.overflow)
    (hquiet : ∀ result, .finished id result ∉ r.2) : Lot d now id r (.crash w) := by
  let first := worker.running ++ worker.mailbox
  have hput := tally_put hw { route := worker.route, alive := false } (·.id = id)
  have hlost : r.1.callsOf id +
      (first.countP (·.id = id) + worker.overflow.countP (·.id = id)) = d.callsOf id := by
    rw [← List.countP_append]
    exact (congrArg (tally · _ + _) hcalls).trans hput
  have hended : d.ended (.crash w) = first.map (fun t => (t.id, .error (orphaned worker.route))) ++
      worker.overflow.map fun t => (t.id, .error .notRunning) := by
    simp only [ended, hw, first]
  have hmem : ∀ other, (id, other) ∈ d.ended (.crash w) ↔
      (∃ t ∈ first, t.id = id) ∧ other = .error (orphaned worker.route) ∨
        (∃ t ∈ worker.overflow, t.id = id) ∧ other = .error .notRunning := by
    intro other
    rw [hended, List.mem_append, mem_map_pair, mem_map_pair]
  have habsent : ∀ ts : List Ticket, ts.countP (·.id = id) = 0 → ¬∃ t ∈ ts, t.id = id := by
    rintro ts hts ⟨t, ht, rfl⟩
    simpa using List.countP_eq_zero.mp hts t ht
  have hpresent : ∀ ts : List Ticket, 0 < ts.countP (·.id = id) → ∃ t ∈ ts, t.id = id := by
    intro ts hts
    simpa using List.countP_pos_iff.mp hts
  rcases Nat.eq_zero_or_pos (worker.overflow.countP (·.id = id)) with hover | hover
  · rcases Nat.eq_zero_or_pos (first.countP (·.id = id)) with hfirst | hfirst
    · refine .same (by simp [Event.submits?]) (by omega) ?_ (fun other => ?_) hquiet
      · rw [hcallers, get?_disappointed_of_not_mem (habsent _ hover),
          get?_disappointed_of_not_mem (habsent _ hfirst)]
      · simp [hmem, habsent _ hover, habsent _ hfirst]
    · refine .ends (.error (orphaned worker.route)) (by simp [Event.submits?]) (by omega)
        ?_ (fun other => ?_) hquiet
      · rw [hcallers, get?_disappointed_of_not_mem (habsent _ hover),
          get?_disappointed_of_mem (hpresent _ hfirst)]
      · simp [hmem, habsent _ hover, hpresent _ hfirst]
  · have hfirst : first.countP (·.id = id) = 0 := by omega
    refine .ends (.error .notRunning) (by simp [Event.submits?]) (by omega)
      ?_ (fun other => ?_) hquiet
    · rw [hcallers, get?_disappointed_of_mem (hpresent _ hover),
        get?_disappointed_of_not_mem (habsent _ hfirst)]
    · simp [hmem, hpresent _ hover, habsent _ hfirst]

theorem lot_happens (h : Happens d now e r) (hone : d.callsOf id ≤ 1) : Lot d now id r e := by
  have hquiet : (∀ i, e ≠ .settle i) → ∀ result, .finished id result ∉ r.2 :=
    fun he result hmem => he id (finished_of_happens h hmem)
  have hsame : (∀ i, e ≠ .settle i) → e.submits? = none → r.1.callsOf id = d.callsOf id →
      r.1.callers = d.callers → d.ended e = [] → Lot d now id r e :=
    fun he hs hcalls hcallers hended =>
      .same (by simp [hs]) hcalls (by rw [hcallers]) (by simp [hended]) (hquiet he)
  have hmoves : ∀ {w worker other}, d.workers[w]? = some worker → other.tickets = worker.tickets →
      r.1.workers = (d.put w other).workers → r.1.callsOf id = d.callsOf id :=
    fun hw ht hworkers => (congrArg (tally · _) hworkers).trans (tally_put_of_tickets hw ht)
  cases h with
  | assign i route request timeout hr hw ha =>
    have hcalls := tally_put_accept hw (d.ticket now i route request) (·.id = id)
    by_cases hi : i = id
    · subst hi
      refine .starts route request timeout ?_ (Table.get?_put_self ..) (hquiet (by simp))
      exact hcalls.trans (by simp [callsOf, ticket])
    · refine .same (by simpa [Event.submits?] using hi) ?_ (Table.get?_put_of_ne (Ne.symm hi) ..)
        (by simp [ended]) (hquiet (by simp))
      exact hcalls.trans (by simp [callsOf, ticket, hi])
  | hire i route request timeout hno =>
    have hcalls := tally_append_accept d.workers route (d.ticket now i route request) (·.id = id)
    by_cases hi : i = id
    · subst hi
      refine .starts route request timeout ?_ (Table.get?_put_self ..) (hquiet (by simp))
      exact hcalls.trans (by simp [callsOf, ticket])
    · refine .same (by simpa [Event.submits?] using hi) ?_ (Table.get?_put_of_ne (Ne.symm hi) ..)
        (by simp [ended]) (hquiet (by simp))
      exact hcalls.trans (by simp [callsOf, ticket, hi])
  | idle _ => exact hsame (by simp) rfl rfl rfl rfl
  | take hw _ hp hm =>
    exact hsame (by simp) rfl (hmoves hw (Worker.tickets_takes hp hm) rfl) rfl rfl
  | retire hw _ _ _ _ => exact hsame (by simp) rfl (hmoves hw (by rfl) rfl) rfl rfl
  | cool hw _ hp _ _ _ =>
    exact hsame (by simp) rfl (hmoves hw (Worker.tickets_on hp _) rfl) rfl rfl
  | queue hw _ hp _ _ =>
    exact hsame (by simp) rfl (hmoves hw (Worker.tickets_on hp _) rfl) rfl rfl
  | rested hw _ hp _ _ =>
    exact hsame (by simp) rfl (hmoves hw (Worker.tickets_on hp _) rfl) rfl rfl
  | first hw _ hp _ _ =>
    exact hsame (by simp) rfl (hmoves hw (Worker.tickets_on hp _) rfl) rfl rfl
  | again hw _ hp _ _ =>
    exact hsame (by simp) rfl (hmoves hw (Worker.tickets_on hp _) rfl) rfl rfl
  | back hw _ hp _ _ _ =>
    exact hsame (by simp) rfl (hmoves hw (Worker.tickets_on hp _) rfl) rfl rfl
  | execute hw _ hp _ _ _ =>
    exact hsame (by simp) rfl (hmoves hw (Worker.tickets_on hp _) rfl) rfl rfl
  | stall hw _ hp _ _ _ =>
    exact hsame (by simp) rfl (hmoves hw (Worker.tickets_on hp _) rfl) rfl rfl
  | stray w clock draw answer hno =>
    refine hsame (by simp) rfl rfl rfl ?_
    simp only [ended]
    split
    case h_1 hw => exact absurd rfl (hno _ _ _ hw rfl)
    case h_2 => rfl
  | @done w clock draw answer worker p b hw hp hs tries result hj =>
    have hcalls := tally_put_none hw hp (·.id = id)
    have hended := ended_receive hw hp hs clock draw answer
    rw [hj] at hended
    by_cases hi : p.ticket.id = id
    · refine .ends result (by simp [Event.submits?]) ?_ ?_ ?_ (hquiet (by simp))
      · rw [if_pos (by simpa using hi)] at hcalls
        exact hcalls
      · rw [get?_answered, if_pos hi]
      · intro other
        simp [hended, hi]
    · refine .same (by simp [Event.submits?]) ?_ ?_ ?_ (hquiet (by simp))
      · rw [if_neg (by simpa using hi)] at hcalls
        exact hcalls
      · rw [get?_answered, if_neg hi]
      · simp [hended, Ne.symm hi]
  | retry hw hp hs hj =>
    refine hsame (by simp) rfl (hmoves hw ?_ rfl) rfl ?_
    · simp [Worker.tickets, Worker.running, hp]
    · rw [ended_receive hw hp hs, hj]
  | pauses draw hw hp hs ht hbudget hl hg =>
    refine hsame (by simp) rfl (hmoves hw ?_ rfl) rfl ?_
    · simp [Worker.tickets, Worker.running, hp]
    · rw [ended_receive hw hp hs, Tries.judge_of_isTooMany ht hbudget]
  | blocks draw hw hp hs ht hbudget hl hg =>
    refine hsame (by simp) rfl (hmoves hw ?_ rfl) rfl ?_
    · simp [Worker.tickets, Worker.running, hp]
    · rw [ended_receive hw hp hs, Tries.judge_of_isTooMany ht hbudget]
  | nobody w h => exact hsame (by simp) rfl rfl rfl (by simp [ended, h])
  | crash hw => exact lot_crash hw hone rfl rfl (hquiet (by simp))
  | @patient i h =>
    exact .same (by simp [Event.submits?]) rfl rfl (by simp [ended]) (by simp)
  | @report i c hc result hr =>
    by_cases hi : i = id
    · subst hi
      exact .hears hc hr rfl (by simp [Table.get?_erase]) rfl
    · exact .same (by simp [Event.submits?]) rfl (by simp [Table.get?_erase, Ne.symm hi])
        (by simp [ended]) (by simp [Ne.symm hi])
  | @giveUp i c hc hr hd =>
    have hcalls := tally_forget d.workers i (·.id = id)
    by_cases hi : i = id
    · subst hi
      exact .givesUp hc hr hd (Nat.le_of_add_right_le (Nat.le_of_eq hcalls))
    · refine .same (by simp [Event.submits?]) ?_ (by simp [Table.get?_erase, Ne.symm hi])
        (by simp [ended]) (by simp [Ne.symm hi])
      have hother : (d.stranded i).countP (fun t => decide (t.id = id)) = 0 := by
        refine List.countP_eq_zero.mpr fun t ht => ?_
        obtain ⟨worker, -, hfilter⟩ := List.mem_flatMap.mp ht
        have hid : t.id = i := by simpa using (List.mem_filter.mp hfilter).2
        simpa [hid] using hi
      rw [stranded] at hother
      rw [hother] at hcalls
      exact hcalls
  | sweep => exact hsame (by simp) rfl (tally_retire ..) rfl rfl
  | pause ending => exact hsame (by simp) rfl rfl rfl rfl

/-! ## What a caller hears -/

/-- The caller of a call hears this result and no other: it has heard it, or it lies ready. -/
def Hears (r : Dispatcher × List (Instant × DispatchEffect)) (id : TicketId)
    (result : Except Failure Response) : Prop :=
  (∀ time other, (time, .finished id other) ∈ r.2 → other = result) ∧
    ((∃ time, (time, .finished id result) ∈ r.2) ∨
      ∃ c, Table.get? id r.1.callers = some c ∧ c.reply = some result)

/-- The calls that are submitted. -/
def submissions (events : List (Instant × Event)) : List TicketId :=
  events.filterMap (·.2.submits?)

variable {events rest : List (Instant × Event)} {c : Caller} {time : Instant}

theorem mem_run_cons {x : Instant × DispatchEffect} : x ∈ (d.run ((now, e) :: rest)).2 ↔
    (x.1 = now ∧ x.2 ∈ (d.step now e).2) ∨ x ∈ ((d.step now e).1.run rest).2 := by
  obtain ⟨time, effect⟩ := x
  simp only [run, List.mem_append, List.mem_map, Prod.mk.injEq]
  grind

theorem mem_completions_cons : (time, id, result) ∈ d.completions ((now, e) :: rest) ↔
    (time = now ∧ (id, result) ∈ d.ended e) ∨
      (time, id, result) ∈ (d.step now e).1.completions rest := by
  simp only [completions, List.mem_append, List.mem_map, Prod.mk.injEq]
  grind

theorem not_mem_submissions_cons (h : id ∉ submissions ((now, e) :: rest)) :
    e.submits? ≠ some id ∧ id ∉ submissions rest := by
  simp only [submissions, List.mem_filterMap, List.mem_cons] at h ⊢
  grind

theorem lot_step (h : d.callsOf id ≤ 1) (now : Instant) (e : Event) :
    Lot d now id (d.step now e) e := lot_happens (happens_step d now e) h

/-- A caller that is gone hears nothing more, and a call that is over does not end again. -/
theorem silent_of_gone (hcalls : d.callsOf id = 0) (hnew : id ∉ submissions events) :
    (∀ time result, (time, id, result) ∉ d.completions events) ∧
      (Table.get? id d.callers = none →
        ∀ time result, (time, .finished id result) ∉ (d.run events).2) := by
  induction events generalizing d with
  | nil => simp [completions, run]
  | cons x rest ih =>
    obtain ⟨now, e⟩ := x
    obtain ⟨he, hrest⟩ := not_mem_submissions_cons hnew
    simp only [mem_completions_cons, mem_run_cons]
    have hone : d.callsOf id ≤ 1 := by omega
    cases lot_step hone now e with
    | same _ hkept hcaller hended hquiet =>
      obtain ⟨hover, hgone⟩ := ih (hkept.trans hcalls) hrest
      exact ⟨fun time result => by simp [hended, hover], fun hnone time result => by
        simp [hquiet, hgone (hcaller.trans hnone)]⟩
    | starts _ _ _ _ _ _ => exact absurd rfl he
    | ends _ _ hkept _ _ _ => omega
    | hears hc _ hkept _ _ =>
      obtain ⟨hover, -⟩ := ih (hkept.trans hcalls) hrest
      exact ⟨fun time result => by simp [ended, hover], fun hnone => by simp [hc] at hnone⟩
    | givesUp hc _ _ hkept =>
      obtain ⟨hover, -⟩ := ih (Nat.eq_zero_of_le_zero (hcalls ▸ hkept)) hrest
      exact ⟨fun time result => by simp [ended, hover], fun hnone => by simp [hc] at hnone⟩

theorem Hears.cons (h : Hears ((d.step now e).1.run rest) id result)
    (hquiet : ∀ result, .finished id result ∉ (d.step now e).2) :
    Hears (d.run ((now, e) :: rest)) id result := by
  obtain ⟨honly, hheard⟩ := h
  refine ⟨fun time other hmem => ?_, hheard.imp_left fun ⟨time, hmem⟩ => ?_⟩
  · rcases mem_run_cons.mp hmem with ⟨-, hmem⟩ | hmem
    · exact absurd hmem (hquiet other)
    · exact honly time other hmem
  · exact ⟨time, mem_run_cons.mpr (.inr hmem)⟩

/-- A result that lies ready is heard. -/
theorem hears_of_reply (hcalls : d.callsOf id = 0) (hnew : id ∉ submissions events)
    (hc : Table.get? id d.callers = some c) (hreply : c.reply = some result) :
    Hears (d.run events) id result := by
  induction events generalizing d with
  | nil => exact ⟨by simp [run], .inr ⟨c, hc, hreply⟩⟩
  | cons x rest ih =>
    obtain ⟨now, e⟩ := x
    obtain ⟨he, hrest⟩ := not_mem_submissions_cons hnew
    have hone : d.callsOf id ≤ 1 := by omega
    cases lot_step hone now e with
    | same _ hkept hcaller _ hquiet =>
      exact (ih (hkept.trans hcalls) hrest (hcaller.trans hc)).cons hquiet
    | starts _ _ _ _ _ _ => exact absurd rfl he
    | ends _ _ hkept _ _ _ => omega
    | @hears c' hc' result' hreply' hkept hcaller heffects =>
      obtain rfl : c = c' := Option.some.inj (hc.symm.trans hc')
      obtain rfl : result = result' := Option.some.inj (hreply.symm.trans hreply')
      have hgone := (silent_of_gone (hkept.trans hcalls) hrest).2 hcaller
      refine ⟨fun time other hmem => ?_, .inl ⟨now, mem_run_cons.mpr (.inl ⟨rfl, ?_⟩)⟩⟩
      · rcases mem_run_cons.mp hmem with ⟨-, hmem⟩ | hmem
        · simpa [heffects] using hmem
        · exact absurd hmem (hgone time other)
      · simp [heffects]
    | @givesUp c' hc' hreply' _ _ =>
      obtain rfl : c = c' := Option.some.inj (hc.symm.trans hc')
      simp [hreply] at hreply'

theorem mem_of_completions (h : (time, id, result) ∈ d.completions events) :
    ∃ e, (time, e) ∈ events := by
  induction events generalizing d with
  | nil => simp [completions] at h
  | cons x rest ih =>
    obtain ⟨now, e⟩ := x
    rcases mem_completions_cons.mp h with ⟨rfl, -⟩ | h
    · exact ⟨e, List.mem_cons_self⟩
    · exact (ih h).imp fun e he => List.mem_cons_of_mem _ he

/-- A caller that waits until its call is over hears what came of it. -/
theorem hears_of_waits (hcalls : d.callsOf id = 1) (hnew : id ∉ submissions events)
    (hc : Table.get? id d.callers = some c) (hreply : c.reply = none)
    (hsorted : events.Pairwise (·.1 ≤ ·.1)) (hover : (time, id, result) ∈ d.completions events)
    (hpatient : time < c.deadline) : Hears (d.run events) id result := by
  induction events generalizing d with
  | nil => simp [completions] at hover
  | cons x rest ih =>
    obtain ⟨now, e⟩ := x
    obtain ⟨he, hrest⟩ := not_mem_submissions_cons hnew
    obtain ⟨hnow, hsorted⟩ := List.pairwise_cons.mp hsorted
    rw [mem_completions_cons] at hover
    cases lot_step (Nat.le_of_eq hcalls) now e with
    | same _ hkept hcaller hended hquiet =>
      have hlater := hover.resolve_left fun h => hended result h.2
      exact (ih (hkept.trans hcalls) hrest (hcaller.trans hc) hsorted hlater).cons hquiet
    | starts _ _ _ _ _ _ => exact absurd rfl he
    | ends result' _ hkept hcaller hended hquiet =>
      have hgone : (d.step now e).1.callsOf id = 0 := by omega
      have hresult := (hover.resolve_right ((silent_of_gone hgone hrest).1 time result)).2
      obtain rfl := (hended result).mp hresult
      rw [hc] at hcaller
      exact (hears_of_reply hgone hrest hcaller rfl).cons hquiet
    | @hears c' hc' result' hreply' _ _ _ =>
      obtain rfl : c = c' := Option.some.inj (hc.symm.trans hc')
      simp [hreply] at hreply'
    | @givesUp c' hc' _ hd _ =>
      obtain rfl : c = c' := Option.some.inj (hc.symm.trans hc')
      obtain ⟨e, hmem⟩ := mem_of_completions (hover.resolve_left (by simp [ended]))
      have hle := hnow _ hmem
      exact absurd hpatient (Nat.not_lt.mpr (Nat.le_trans hd hle))

theorem defaultTimeout_step (d : Dispatcher) (now : Instant) (e : Event) :
    (d.step now e).1.defaultTimeout = d.defaultTimeout := by
  have h := happens_step d now e
  generalize d.step now e = r at h ⊢
  cases h <;> rfl

/-- The caller of a call waits beyond an instant. -/
def Outlasts (events : List (Instant × Event)) (timeout : Span) (id : TicketId) (time : Instant) :
    Prop :=
  ∃ start route request patience, (start, .submit id route request patience) ∈ events ∧
    time < start + patience.getD timeout

theorem hears_of_outlasts (hcalls : d.callsOf id = 0) (hc : Table.get? id d.callers = none)
    (hids : (submissions events).Nodup) (hsorted : events.Pairwise (·.1 ≤ ·.1))
    (hover : (time, id, result) ∈ d.completions events)
    (hwaits : Outlasts events d.defaultTimeout id time) : Hears (d.run events) id result := by
  induction events generalizing d with
  | nil => simp [completions] at hover
  | cons x rest ih =>
    obtain ⟨now, e⟩ := x
    obtain ⟨-, hlater⟩ := List.pairwise_cons.mp hsorted
    obtain ⟨start, route, request, patience, hmem, hlt⟩ := hwaits
    rw [mem_completions_cons] at hover
    have hone : d.callsOf id ≤ 1 := by omega
    have hlot := lot_step hone now e
    rcases List.mem_cons.mp hmem with hhead | hmem
    · obtain ⟨rfl, rfl⟩ := Prod.mk.inj hhead
      have hnew : id ∉ submissions rest := by
        simp only [submissions, List.filterMap_cons, Event.submits?] at hids
        exact (List.nodup_cons.mp hids).1
      generalize hr : d.step start (.submit id route request patience) = r at hlot
      cases hlot with
      | same hs _ _ _ _ => exact absurd rfl hs
      | ends _ hs _ _ _ _ => exact absurd rfl hs
      | starts _ _ _ hkept hcaller hquiet =>
        subst hr
        have hover := hover.resolve_left (by simp [ended])
        exact (hears_of_waits (by omega) hnew hcaller rfl hlater hover hlt).cons hquiet
    · have hin : id ∈ submissions rest :=
        List.mem_filterMap.mpr ⟨_, hmem, rfl⟩
      have hrest : (submissions rest).Nodup ∧ e.submits? ≠ some id := by
        simp only [submissions, List.filterMap_cons] at hids
        cases hs : e.submits? with
        | none => exact ⟨by simpa [hs, submissions] using hids, by simp⟩
        | some other =>
          rw [hs] at hids
          obtain ⟨hnot, hids⟩ := List.nodup_cons.mp hids
          exact ⟨hids, fun heq => hnot (Option.some.inj heq ▸ hin)⟩
      have hwaits : Outlasts rest (d.step now e).1.defaultTimeout id time := by
        rw [defaultTimeout_step]
        exact ⟨start, route, request, patience, hmem, hlt⟩
      cases hlot with
      | same _ hkept hcaller hended hquiet =>
        have hover := hover.resolve_left fun h => hended result h.2
        exact (ih (hkept.trans hcalls) (hcaller.trans hc) hrest.1 hlater hover hwaits).cons hquiet
      | starts _ _ _ _ _ _ => exact absurd rfl hrest.2
      | ends _ _ hkept _ _ _ => omega
      | hears hc' _ _ _ _ => simp [hc] at hc'
      | givesUp hc' _ _ _ => simp [hc] at hc'

/-! ## Two runs -/

theorem submissions_untimed (events : List (Instant × Event)) :
    submissions (untimed events) = submissions events := by
  rw [submissions, untimed, List.filterMap_filterMap]
  refine List.filterMap_congr fun x _ => ?_
  obtain ⟨now, e⟩ := x
  cases e <;> rfl

theorem untimed_filter (events : List (Instant × Event)) (instant : Instant) :
    untimed (events.filter (·.1 ≤ instant)) = (untimed events).filter (·.1 ≤ instant) := by
  rw [untimed, untimed, List.filterMap_filter, List.filter_filterMap]
  refine List.filterMap_congr fun x _ => ?_
  obtain ⟨now, e⟩ := x
  by_cases hle : now ≤ instant <;> cases he : e.untimed <;> simp [hle, Option.filter]

theorem seated_filter (hs : d.seated events = true) (hsorted : events.Pairwise (·.1 ≤ ·.1))
    (instant : Instant) : d.seated (events.filter (·.1 ≤ instant)) = true := by
  induction events generalizing d with
  | nil => rfl
  | cons x rest ih =>
    obtain ⟨now, e⟩ := x
    obtain ⟨hnow, hrest⟩ := List.pairwise_cons.mp hsorted
    obtain ⟨hseat, hseated⟩ : d.seats now e = true ∧ (d.step now e).1.seated rest = true := by
      simpa [seated] using hs
    by_cases hle : now ≤ instant
    · simpa [hle, seated, hseat] using ih hseated hrest
    · -- All that follows is later.
      have hlate : ∀ y ∈ rest, ¬y.1 ≤ instant := fun y hy hyle =>
        hle (Nat.le_trans (hnow y hy) hyle)
      have hnone : rest.filter (·.1 ≤ instant) = [] := by simpa using hlate
      simp [hle, hnone, seated]

/-- **What the patience of callers decides**, for two runs of the same events that differ in how
long callers wait.

If no caller gives up while its call waits for room in a mailbox, then the same requests begin and
the same workers go on at the same instants, the buckets and the cooldown are the same at every
instant, and the same comes of every call at the same instant. In each of the runs, a caller that
waits for longer than its call takes hears what came of it, and nothing else. -/
theorem patience_of_run (policy : RetryPolicy) (timeout timeout' idle : Span)
    {events events' : List (Instant × Event)} (hsame : untimed events = untimed events')
    (hids : (submissions events).Nodup) (hsorted : events.Pairwise (·.1 ≤ ·.1))
    (hsorted' : events'.Pairwise (·.1 ≤ ·.1))
    (hs : (new policy timeout idle).seated events = true)
    (hs' : (new policy timeout' idle).seated events' = true) :
    let d := new policy timeout idle
    let v := new policy timeout' idle
    ((d.run events).2.filter (·.2.isWork) = (v.run events').2.filter (·.2.isWork)) ∧
    (∀ instant, (d.run (events.filter (·.1 ≤ instant))).1.registry =
        (v.run (events'.filter (·.1 ≤ instant))).1.registry ∧
      (d.run (events.filter (·.1 ≤ instant))).1.cooldown =
        (v.run (events'.filter (·.1 ≤ instant))).1.cooldown) ∧
    d.completions events = v.completions events' ∧
    ∀ id result time, (time, id, result) ∈ d.completions events →
      (Outlasts events timeout id time → Hears (d.run events) id result) ∧
      (Outlasts events' timeout' id time → Hears (v.run events') id result) := by
  intro d v
  have hnobody : ∀ {u : Dispatcher}, u = d ∨ u = v → u.deserted = d.deserted := by
    rintro u (rfl | rfl) <;> rfl
  obtain ⟨hstate, heffects, hcompletions⟩ := run_untimed (v := d) rfl hs
  obtain ⟨hstate', heffects', hcompletions'⟩ := run_untimed (v := d) (hnobody (.inr rfl)) hs'
  rw [← hsame] at heffects' hcompletions'
  have hresults : d.completions events = v.completions events' :=
    hcompletions.trans hcompletions'.symm
  refine ⟨heffects.trans heffects'.symm, fun instant => ?_, hresults,
    fun id result time hover => ?_⟩
  · have hbefore := (run_untimed (v := d) rfl (seated_filter hs hsorted instant)).1
    have hbefore' :=
      (run_untimed (v := d) (hnobody (.inr rfl)) (seated_filter hs' hsorted' instant)).1
    rw [untimed_filter] at hbefore hbefore'
    rw [← hsame] at hbefore'
    have hequal := hbefore.trans hbefore'.symm
    exact ⟨congrArg (·.registry) hequal, congrArg (·.cooldown) hequal⟩
  · have hids' : (submissions events').Nodup := by
      rwa [← submissions_untimed, ← hsame, submissions_untimed]
    exact ⟨fun hwaits => hears_of_outlasts rfl rfl hids hsorted hover hwaits,
      fun hwaits => hears_of_outlasts rfl rfl hids' hsorted' (hresults ▸ hover) hwaits⟩

/-- A response without content. -/
def granted : Response := ⟨200, [], []⟩

/-- A call is submitted with a patience of its own. -/
def calls (id : TicketId) (patience : Option Span) : Instant × Event :=
  (0, .submit id ⟨"GET", ["a"]⟩ ⟨"GET", "/a", none⟩ patience)

/-- The worker goes on with a call, and the answer arrives. -/
def served (time : Instant) : List (Instant × Event) :=
  turns time 0 ++ [(time, .receive 0 none 0 (.response granted))]

/-- Two calls on a route, the second of which waits for the first; the caller of the first gives up
before the answer. -/
def hasty : List (Instant × Event) :=
  [calls 0 (some 5), calls 1 none] ++ turns 0 0 ++ [(5, .settle 0)] ++ served 10 ++ served 20 ++
    [(20, .settle 1)]

/-- The same calls; the caller of the first waits, and that of the second gives up. -/
def calm : List (Instant × Event) :=
  [calls 0 none, calls 1 (some 15)] ++ turns 0 0 ++ served 10 ++ [(10, .settle 0)] ++
    [(15, .settle 1)] ++ served 20

/-- What came of the calls is heard by those who waited. -/
theorem patience_of_run_hasty :
    untimed hasty = untimed calm ∧ (submissions hasty).Nodup ∧ hasty.Pairwise (·.1 ≤ ·.1) ∧
      calm.Pairwise (·.1 ≤ ·.1) ∧ (new ⟨0, 0, 0, 0⟩ 100 0).seated hasty = true ∧
      (new ⟨0, 0, 0, 0⟩ 30 0).seated calm = true ∧
      Hears ((new ⟨0, 0, 0, 0⟩ 100 0).run hasty) 1 (.ok granted) ∧
      Hears ((new ⟨0, 0, 0, 0⟩ 30 0).run calm) 0 (.ok granted) := by
  have hsame : untimed hasty = untimed calm := rfl
  have hids : (submissions hasty).Nodup := by decide
  have hsorted : hasty.Pairwise (·.1 ≤ ·.1) := by decide
  have hsorted' : calm.Pairwise (·.1 ≤ ·.1) := by decide
  have hs : (new ⟨0, 0, 0, 0⟩ 100 0).seated hasty = true := by decide +kernel
  have hs' : (new ⟨0, 0, 0, 0⟩ 30 0).seated calm = true := by decide +kernel
  have hfirst : (10, 0, .ok granted) ∈ (new ⟨0, 0, 0, 0⟩ 100 0).completions hasty := by
    decide +kernel
  have hsecond : (20, 1, .ok granted) ∈ (new ⟨0, 0, 0, 0⟩ 100 0).completions hasty := by
    decide +kernel
  obtain ⟨-, -, -, hheard⟩ :=
    patience_of_run ⟨0, 0, 0, 0⟩ 100 30 0 hsame hids hsorted hsorted' hs hs'
  refine ⟨hsame, hids, hsorted, hsorted', hs, hs', (hheard 1 (.ok granted) 20 hsecond).1 ?_,
    (hheard 0 (.ok granted) 10 hfirst).2 ?_⟩
  · exact ⟨0, _, _, none, List.mem_of_getElem? (i := 1) rfl, by decide⟩
  · exact ⟨0, _, _, none, List.mem_of_getElem? (i := 0) rfl, by decide⟩

/-- A mailbox is full; the caller of the last call waits for room in it. -/
def packed (patience : Option Span) : List (Instant × Event) :=
  [calls 0 none, (0, .proceed 0)] ++ (List.range 64).map (fun n => calls (n + 1) none) ++
    [calls 65 patience, (1, .settle 65)]

/-- A caller that gives up while it waits for room takes its call with it: the last request does not
begin. -/
theorem patience_of_run_withdrawn :
    let d := new ⟨0, 0, 0, 0⟩ 100 0
    let events (patience : Option Span) := packed patience ++ (List.replicate 66 (served 2)).flatten
    untimed (events (some 1)) = untimed (events none) ∧
      (begun (d.run (events (some 1))).2).length = 65 ∧
      (begun (d.run (events none)).2).length = 66 := by
  intro d events
  refine ⟨rfl, ?_, ?_⟩ <;> decide +kernel

end Dispatcher

end Switchboard
