import Mathlib.Data.List.Basic
import Switchboard.Dispatch.Dispatcher

/-!
# What a step of a dispatcher can be

Every event at a dispatcher comes to one of a few things: `Dispatcher.happens_step`. Each comes with
the circumstances under which it is the one, and with the dispatcher in closed form, field by field.
What is preserved by steps is proved by cases on this.

## Main definitions

* `Cooldown.Over`: nobody is held off.
* `Dispatcher.put`: another worker in the place of one.
* `Dispatcher.without`, `Dispatcher.answered`, `Dispatcher.learned`: what happens to lines, callers
  and the registry.
* `Dispatcher.Happens`: what an event comes to.

## Main results

* `Dispatcher.step_of_happens`, `Dispatcher.happens_step`: it is what a step computes.
-/
namespace Switchboard

namespace Cooldown

/-- Nobody is held off at `now`. -/
def Over (c : Cooldown) (now : Instant) : Prop := ∀ u, c.until? = some u → u ≤ now

theorem over_or_lt (c : Cooldown) (now : Instant) :
    c.Over now ∨ ∃ u, c.until? = some u ∧ now < u := by
  cases hc : c.until? with
  | none => exact .inl (by simp [Over, hc])
  | some u =>
    by_cases hlt : now < u
    · exact .inr ⟨u, rfl, hlt⟩
    · exact .inl (by simpa [Over, hc] using hlt)

theorem remaining_of_over {c : Cooldown} {now : Instant} (h : c.Over now) :
    c.remaining now = (Cooldown.none, .none) := by
  cases c with
  | mk ending =>
    cases ending with
    | none => rfl
    | some u =>
      have hle : ¬ now < u := by simpa [Over] using h
      simp [remaining, hle, Cooldown.none]

theorem remaining_of_lt {c : Cooldown} {now u : Instant} (h : c.until? = some u) (hlt : now < u) :
    c.remaining now = (c, some (u - now)) := by
  simp [remaining, h, hlt]

end Cooldown

/-! ## Verdicts -/

namespace Tries

variable {t t' : Tries} {p : RetryPolicy} {route : Route} {limits : Limits} {draw : Float}

/-- A call waits for the rate limit only on a refusal that its budget allows. -/
theorem judge_limited {answer : Answer} {l : Limits} {wait : Span}
    (h : t.judge p route limits draw answer = (t', .limited l wait)) :
    ∃ r, answer = .response r ∧ r.isTooMany = true ∧ l = limits.withBody r.body ∧
      wait = l.effectiveWait ∧ t' = { t with refusals := t.refusals + 1 } ∧
      t.refusals < p.maxRateLimitRetries := by
  have hfail : ∀ f, t.fail p f draw ≠ (t', .limited l wait) := by
    intro f hf
    simp only [fail] at hf
    split at hf <;> simp at hf
  cases answer with
  | lost f => exact absurd h (hfail _)
  | response r =>
    by_cases htoo : r.isTooMany = true
    · simp only [judge, htoo, if_true, refuse] at h
      split at h
      case isTrue => simp at h
      case isFalse hbudget =>
        obtain ⟨rfl, rfl, rfl⟩ : { t with refusals := t.refusals + 1 } = t' ∧
            limits.withBody r.body = l ∧ (limits.withBody r.body).effectiveWait = wait := by
          simpa using h
        exact ⟨r, rfl, htoo, rfl, rfl, rfl, by simpa [Nat.lt_succ_iff] using hbudget⟩
    · simp only [judge, htoo, Bool.false_eq_true, if_false] at h
      split at h
      · simp at h
      · split at h
        · exact absurd h (hfail _)
        · simp at h

/-- A refusal that the budget allows makes the call wait. -/
theorem judge_of_isTooMany {r : Response} (h : r.isTooMany = true)
    (hbudget : t.refusals < p.maxRateLimitRetries) :
    t.judge p route limits draw (.response r) =
      ({ t with refusals := t.refusals + 1 },
        .limited (limits.withBody r.body) (limits.withBody r.body).effectiveWait) := by
  have hle : ¬ p.maxRateLimitRetries < t.refusals + 1 := by omega
  simp [judge, h, refuse, hle]

end Tries

namespace Stage

/-- The bucket in whose line a worker is at a stage. -/
def bucket? : Stage → Option BucketId
  | .queued b | .reserving b | .stalled b _ | .sending b => some b
  | .fresh | .cooling _ | .resting _ => none

end Stage

namespace Worker

/-- The worker carries out a call and is at a stage with it. -/
def on (worker : Worker) (p : Progress) (stage : Stage) : Worker :=
  { worker with progress := some { p with stage } }

/-- The call that a worker carries out. -/
def running (worker : Worker) : List Ticket := (worker.progress.map (·.ticket)).toList

/-- All calls that a worker has, in the order in which they were submitted. -/
def tickets (worker : Worker) : List Ticket :=
  worker.running ++ worker.mailbox ++ worker.overflow

/-- The worker without the calls of a number that wait for room in its mailbox. -/
def forget (id : TicketId) (worker : Worker) : Worker :=
  { worker with overflow := worker.overflow.filter (·.id ≠ id) }

/-- The worker with its next call. -/
def takes (worker : Worker) (policy : RetryPolicy) (t : Ticket) (rest : List Ticket) : Worker :=
  { worker with
    progress := some ⟨t, Tries.new policy, .fresh⟩
    mailbox := rest ++ worker.overflow.take 1
    overflow := worker.overflow.drop 1 }

end Worker

namespace Dispatcher

variable {d : Dispatcher} {now : Instant}

/-- A worker has one call at a time. -/
theorem progress_unique {w : WorkerId} {worker other : Worker} {p q : Progress}
    (hw : d.workers[w]? = some worker) (hp : worker.progress = some p)
    (hv : d.workers[w]? = some other) (hq : other.progress = some q) :
    other = worker ∧ q = p := by
  obtain rfl : worker = other := Option.some.inj (hw.symm.trans hv)
  exact ⟨rfl, Option.some.inj (hq.symm.trans hp)⟩

/-! ## Closed forms -/

/-- Another worker in the place of one. -/
def put (d : Dispatcher) (w : WorkerId) (worker : Worker) : Dispatcher :=
  { d with workers := d.workers.set w worker }

/-- The lines without a worker in that of a bucket. -/
def without (d : Dispatcher) (bucket : BucketId) (w : WorkerId) : Table BucketId (List WorkerId) :=
  Table.put bucket ((d.line bucket).erase w) d.lines

/-- The first in the line of a bucket, without a worker, can go on. -/
def roused (d : Dispatcher) (bucket : BucketId) (w : WorkerId) : List DispatchEffect :=
  (((d.line bucket).erase w).take 1).map .wakeWorker

/-- The lines without a worker that may be in one. -/
def withoutAny (d : Dispatcher) (w : WorkerId) : Option BucketId → Table BucketId (List WorkerId)
  | some bucket => d.without bucket w
  | none => d.lines

/-- The first in the line that a worker leaves can go on. -/
def rousedAny (d : Dispatcher) (w : WorkerId) : Option BucketId → List DispatchEffect
  | some bucket => d.roused bucket w
  | none => []

/-- A result for a caller that still waits. -/
def answered (callers : Table TicketId Caller) (id : TicketId)
    (result : Except Failure Response) : Table TicketId Caller :=
  match Table.get? id callers with
  | some c => Table.put id { c with reply := some result } callers
  | none => callers

/-- A caller that still waits can go on. -/
def told (callers : Table TicketId Caller) (id : TicketId) : List DispatchEffect :=
  match Table.get? id callers with
  | some _ => [.wakeCaller id]
  | none => []

/-- What an answer tells about the bucket of the request. -/
def learned (d : Dispatcher) (now : Instant) (route : Route) (bucket : BucketId)
    (limits : Limits) : Answer → Registry
  | .response r =>
    if r.isTooMany then d.registry else (d.registry.update route bucket limits now).1
  | .lost _ => d.registry

/-- A failure for all callers of some calls that still wait. -/
def disappointed (callers : Table TicketId Caller) (failure : Failure) (ts : List Ticket) :
    Table TicketId Caller :=
  ts.foldl (fun callers t => answered callers t.id (.error failure)) callers

/-- Calls that are not pending any more. -/
def freed (r : Registry) (now : Instant) (ts : List Ticket) : Registry :=
  ts.foldl (fun r t => r.release t.bucket now) r

/-- A call that is submitted now, on the bucket that its route has. -/
def ticket (d : Dispatcher) (now : Instant) (id : TicketId) (route : Route) (request : Request) :
    Ticket :=
  ⟨id, request, (d.registry.resolve route now).2⟩

/-- A call is pending, and its caller waits. -/
def enlisted (d : Dispatcher) (now : Instant) (id : TicketId) (route : Route)
    (timeout : Option Span) : Dispatcher :=
  { d with
    registry := (d.registry.resolve route now).1.hold (d.registry.resolve route now).2
    callers := Table.put id
      ⟨route, timeout.getD d.defaultTimeout, now + timeout.getD d.defaultTimeout, none⟩ d.callers }

/-- The workers of the routes that a sweep retires. -/
def retired (d : Dispatcher) (now : Instant) : List WorkerId :=
  (d.registry.evict now).2.filterMap fun route => Table.get? route d.roster

/-- Workers that are to end with their last call. -/
def retire (workers : List Worker) (ws : List WorkerId) : List Worker :=
  ws.foldl (fun workers w => workers.modify w ({ · with retiring := true })) workers

/-- The calls of a number that still wait for room in a mailbox. -/
def stranded (d : Dispatcher) (id : TicketId) : List Ticket :=
  d.workers.flatMap fun worker => worker.overflow.filter (·.id = id)

/-- The worker cannot go on from a stage. -/
def Held (d : Dispatcher) (now : Instant) (w : WorkerId) : Stage → Prop
  | .fresh | .reserving _ => False
  | .cooling ending | .resting ending | .stalled _ ending => ¬ending ≤ now
  | .queued b => (d.line b).head? ≠ some w
  | .sending _ => True

/-- The worker is not there or dead, has nothing to do, or has to wait. -/
def Rests (d : Dispatcher) (now : Instant) (w : WorkerId) : Prop :=
  ∀ worker, d.workers[w]? = some worker → worker.alive = true →
    (worker.progress = none → worker.mailbox = [] ∧ worker.retiring = false) ∧
      ∀ p, worker.progress = some p → d.Held now w p.stage

/-- What an event comes to. -/
inductive Happens (d : Dispatcher) (now : Instant) :
    Event → Dispatcher × List DispatchEffect → Prop where
  /-- A call for a route that has a worker. -/
  | assign (id : TicketId) (route : Route) (request : Request) (timeout : Option Span)
      {w : WorkerId} {worker : Worker} (hr : Table.get? route d.roster = some w)
      (hw : d.workers[w]? = some worker) (ha : worker.alive = true) :
    Happens d now (.submit id route request timeout)
      ((d.enlisted now id route timeout).put w (worker.accept (d.ticket now id route request)),
        [.wakeWorker w])
  /-- A call for a route that has none, or whose worker is dead. -/
  | hire (id : TicketId) (route : Route) (request : Request) (timeout : Option Span)
      (hno : ∀ w worker, Table.get? route d.roster = some w → d.workers[w]? = some worker →
        worker.alive = false) :
    Happens d now (.submit id route request timeout)
      ({ d.enlisted now id route timeout with
          workers := d.workers ++
            [({ route } : Worker).accept (d.ticket now id route request)]
          roster := Table.put route d.workers.length d.roster },
        [.wakeWorker d.workers.length])
  /-- A worker has nothing to do or has to wait. -/
  | idle {w : WorkerId} (h : d.Rests now w) : Happens d now (.proceed w) (d, [])
  | take {w : WorkerId} {worker : Worker} {t : Ticket} {rest : List Ticket}
      (hw : d.workers[w]? = some worker) (ha : worker.alive = true)
      (hp : worker.progress = none) (hm : worker.mailbox = t :: rest) :
    Happens d now (.proceed w) (d.put w (worker.takes d.policy t rest), [])
  | retire {w : WorkerId} {worker : Worker} (hw : d.workers[w]? = some worker)
      (ha : worker.alive = true) (hp : worker.progress = none) (hm : worker.mailbox = [])
      (hr : worker.retiring = true) :
    Happens d now (.proceed w) (d.put w { worker with alive := false }, [])
  | cool {w : WorkerId} {worker : Worker} {p : Progress} (hw : d.workers[w]? = some worker)
      (ha : worker.alive = true) (hp : worker.progress = some p) (hs : p.stage = .fresh)
      {u : Instant} (hc : d.cooldown.until? = some u) (hlt : now < u) :
    Happens d now (.proceed w) (d.put w (worker.on p (.cooling u)), [.wakeWorkerAt w u])
  | queue {w : WorkerId} {worker : Worker} {p : Progress} (hw : d.workers[w]? = some worker)
      (ha : worker.alive = true) (hp : worker.progress = some p) (hs : p.stage = .fresh)
      (hc : d.cooldown.Over now) :
    Happens d now (.proceed w)
      (({ d with cooldown := .none, registry := (d.registry.resolve worker.route now).1 }.join
        (d.registry.resolve worker.route now).2 w).put w
          (worker.on p (.queued (d.registry.resolve worker.route now).2)), [])
  /-- A wait before an attempt is over. -/
  | rested {w : WorkerId} {worker : Worker} {p : Progress} {ending : Instant}
      (hw : d.workers[w]? = some worker) (ha : worker.alive = true)
      (hp : worker.progress = some p) (hs : p.stage = .cooling ending ∨ p.stage = .resting ending)
      (hle : ending ≤ now) :
    Happens d now (.proceed w) (d.put w (worker.on p .fresh), [])
  /-- The first in a line goes on. -/
  | first {w : WorkerId} {worker : Worker} {p : Progress} {b : BucketId}
      (hw : d.workers[w]? = some worker) (ha : worker.alive = true)
      (hp : worker.progress = some p) (hs : p.stage = .queued b)
      (hf : (d.line b).head? = some w) :
    Happens d now (.proceed w) (d.put w (worker.on p (.reserving b)), [])
  /-- The window of a bucket is over. -/
  | again {w : WorkerId} {worker : Worker} {p : Progress} {b : BucketId} {ending : Instant}
      (hw : d.workers[w]? = some worker) (ha : worker.alive = true)
      (hp : worker.progress = some p) (hs : p.stage = .stalled b ending) (hle : ending ≤ now) :
    Happens d now (.proceed w) (d.put w (worker.on p (.reserving b)), [])
  /-- A cooldown began while the worker waited. -/
  | back {w : WorkerId} {worker : Worker} {p : Progress} {b : BucketId}
      (hw : d.workers[w]? = some worker) (ha : worker.alive = true)
      (hp : worker.progress = some p) (hs : p.stage = .reserving b) {u : Instant}
      (hc : d.cooldown.until? = some u) (hlt : now < u) :
    Happens d now (.proceed w)
      ({ d.put w (worker.on p .fresh) with lines := d.without b w }, d.roused b w)
  | execute {w : WorkerId} {worker : Worker} {p : Progress} {b : BucketId}
      (hw : d.workers[w]? = some worker) (ha : worker.alive = true)
      (hp : worker.progress = some p) (hs : p.stage = .reserving b) (hc : d.cooldown.Over now)
      {registry : Registry} (hr : d.registry.reserve b now = .ok registry) :
    Happens d now (.proceed w)
      ({ d.put w (worker.on p (.sending b)) with cooldown := .none, registry },
        [.execute w p.ticket.request])
  | stall {w : WorkerId} {worker : Worker} {p : Progress} {b : BucketId}
      (hw : d.workers[w]? = some worker) (ha : worker.alive = true)
      (hp : worker.progress = some p) (hs : p.stage = .reserving b) (hc : d.cooldown.Over now)
      {ending : Instant} (hr : d.registry.reserve b now = .error ending) :
    Happens d now (.proceed w)
      ({ d.put w (worker.on p (.stalled b ending)) with cooldown := .none },
        [.wakeWorkerAt w ending])
  /-- An answer that nobody waits for. -/
  | stray (w : WorkerId) (clock : Option Span) (draw : Float) (answer : Answer)
      (hno : ∀ worker p b, d.workers[w]? = some worker → worker.progress = some p →
        p.stage ≠ .sending b) :
    Happens d now (.receive w clock draw answer) (d, [])
  /-- The answer ends the call. -/
  | done {w : WorkerId} {clock : Option Span} {draw : Float} {answer : Answer} {worker : Worker}
      {p : Progress} {b : BucketId} (hw : d.workers[w]? = some worker)
      (hp : worker.progress = some p) (hs : p.stage = .sending b) {tries : Tries}
      {result : Except Failure Response}
      (hj : p.tries.judge d.policy worker.route (limitsOf clock answer) draw answer =
        (tries, .done result)) :
    Happens d now (.receive w clock draw answer)
      ({ d.put w { worker with progress := none } with
          lines := d.without b w
          registry := (d.learned now worker.route b (limitsOf clock answer) answer).release
            p.ticket.bucket now
          callers := answered d.callers p.ticket.id result },
        d.roused b w ++ told d.callers p.ticket.id)
  /-- Another attempt follows after a delay. -/
  | retry {w : WorkerId} {clock : Option Span} {draw : Float} {answer : Answer} {worker : Worker}
      {p : Progress} {b : BucketId} (hw : d.workers[w]? = some worker)
      (hp : worker.progress = some p) (hs : p.stage = .sending b) {tries : Tries} {delay : Span}
      (hj : p.tries.judge d.policy worker.route (limitsOf clock answer) draw answer =
        (tries, .retry delay)) :
    Happens d now (.receive w clock draw answer)
      ({ d.put w { worker with progress := some ⟨p.ticket, tries, .resting (now + delay)⟩ } with
          lines := d.without b w
          registry := d.learned now worker.route b (limitsOf clock answer) answer },
        d.roused b w ++ [.wakeWorkerAt w (now + delay)])
  /-- The refusal is for everybody. -/
  | pauses {w : WorkerId} {clock : Option Span} (draw : Float) {r : Response} {worker : Worker}
      {p : Progress} {b : BucketId} (hw : d.workers[w]? = some worker)
      (hp : worker.progress = some p) (hs : p.stage = .sending b) (ht : r.isTooMany = true)
      (hbudget : p.tries.refusals < d.policy.maxRateLimitRetries) {limits : Limits}
      (hl : limits = (Limits.ofHeaders r.headers clock).withBody r.body)
      (hg : limits.isGlobal = true) :
    Happens d now (.receive w clock draw (.response r))
      ({ d.put w { worker with
            progress := some ⟨p.ticket, { p.tries with refusals := p.tries.refusals + 1 }, .fresh⟩ }
          with
          lines := d.without b w
          cooldown := d.cooldown.trigger (deadlineAfter now limits.effectiveWait) },
        d.roused b w)
  /-- The refusal is for the bucket. -/
  | blocks {w : WorkerId} {clock : Option Span} (draw : Float) {r : Response} {worker : Worker}
      {p : Progress} {b : BucketId} (hw : d.workers[w]? = some worker)
      (hp : worker.progress = some p) (hs : p.stage = .sending b) (ht : r.isTooMany = true)
      (hbudget : p.tries.refusals < d.policy.maxRateLimitRetries) {limits : Limits}
      (hl : limits = (Limits.ofHeaders r.headers clock).withBody r.body)
      (hg : limits.isGlobal = false) :
    Happens d now (.receive w clock draw (.response r))
      ({ d.put w { worker with
            progress := some ⟨p.ticket, { p.tries with refusals := p.tries.refusals + 1 }, .fresh⟩ }
          with
          lines := d.without b w
          registry := (d.registry.update worker.route b limits now).1.block
            (d.registry.update worker.route b limits now).2
            (deadlineAfter now limits.effectiveWait) },
        d.roused b w)
  /-- Nobody dies who was not there. -/
  | nobody (w : WorkerId) (h : d.workers[w]? = none) : Happens d now (.crash w) (d, [])
  | crash {w : WorkerId} {worker : Worker} (hw : d.workers[w]? = some worker) :
    Happens d now (.crash w)
      ({ d.put w { route := worker.route, alive := false } with
          lines := d.withoutAny w (worker.stage?.bind Stage.bucket?)
          registry := freed d.registry now worker.tickets
          callers := disappointed
            (disappointed d.callers (orphaned worker.route) (worker.running ++ worker.mailbox))
            .notRunning worker.overflow },
        d.rousedAny w (worker.stage?.bind Stage.bucket?) ++
          worker.tickets.flatMap fun t => told d.callers t.id)
  /-- A caller has to wait, or is not there. -/
  | patient {id : TicketId}
      (h : ∀ c, Table.get? id d.callers = some c → c.reply = none ∧ ¬c.deadline ≤ now) :
    Happens d now (.settle id) (d, [])
  | report {id : TicketId} {c : Caller} (hc : Table.get? id d.callers = some c)
      {result : Except Failure Response} (hr : c.reply = some result) :
    Happens d now (.settle id)
      ({ d with callers := Table.erase id d.callers }, [.finished id result])
  | giveUp {id : TicketId} {c : Caller} (hc : Table.get? id d.callers = some c)
      (hr : c.reply = none) (hd : c.deadline ≤ now) :
    Happens d now (.settle id)
      ({ d with
          callers := Table.erase id d.callers
          registry := freed d.registry now (d.stranded id)
          workers := d.workers.map (·.forget id) },
        [.finished id (.error (overdue c))])
  | sweep :
    Happens d now .sweep
      ({ d with
          registry := (d.registry.evict now).1
          roster := d.roster.filter fun p => !(d.registry.evict now).2.contains p.1
          workers := retire d.workers (d.retired now) },
        (d.retired now).map .wakeWorker ++ [.swept (d.registry.evict now).2.length])
  | pause (ending : Instant) :
    Happens d now (.pause ending) ({ d with cooldown := d.cooldown.trigger ending }, [])

/-! ## Closed forms are what steps compute -/

theorem modifyWorker_eq {w : WorkerId} {worker : Worker} (hw : d.workers[w]? = some worker)
    (f : Worker → Worker) : d.modifyWorker w f = d.put w (f worker) := by
  simp [modifyWorker, put, List.modify_eq_set_getElem?, hw]

theorem modifyWorker_enter {w : WorkerId} {worker : Worker} {p : Progress}
    (hw : d.workers[w]? = some worker) (hp : worker.progress = some p) (stage : Stage) :
    d.modifyWorker w (·.enter stage) = d.put w (worker.on p stage) := by
  rw [modifyWorker_eq hw]
  simp [Worker.enter, Worker.on, hp]

theorem step_proceed {w : WorkerId} {worker : Worker} {p : Progress}
    (hw : d.workers[w]? = some worker) (ha : worker.alive = true) (hp : worker.progress = some p) :
    d.step now (.proceed w) = (d.proceedWith now w worker.route p).getD (d, []) := by
  simp [step, proceed, hw, ha, hp]

theorem workerFor_of_none {route : Route}
    (hno : ∀ w worker, Table.get? route d.roster = some w → d.workers[w]? = some worker →
      worker.alive = false) :
    d.workerFor route =
      ({ d with
          workers := d.workers ++ [{ route }]
          roster := Table.put route d.workers.length d.roster }, d.workers.length) := by
  have hknown : (Table.get? route d.roster).filter
      (fun w => (d.workers[w]?).any (·.alive)) = none := by
    rw [Option.filter_eq_none_iff]
    intro w hr
    cases hw : d.workers[w]? with
    | none => simp
    | some worker => simp [hno w worker hr hw]
  simp only [workerFor, hknown]

theorem proceed_of_rests {w : WorkerId} (h : d.Rests now w) : d.proceed now w = none := by
  cases hw : d.workers[w]? with
  | none => simp [proceed, hw]
  | some worker =>
    cases ha : worker.alive with
    | false => simp [proceed, hw, ha]
    | true =>
      obtain ⟨hnone, hsome⟩ := h worker hw ha
      cases hp : worker.progress with
      | none =>
        obtain ⟨hm, hr⟩ := hnone hp
        simp [proceed, hw, ha, hp, Worker.next?, hm, hr]
      | some p =>
        have hheld := hsome p hp
        cases hs : p.stage <;> simp_all [proceed, proceedWith, Held]

theorem deliver_eq (id : TicketId) (result : Except Failure Response) :
    d.deliver id result = ({ d with callers := answered d.callers id result },
      told d.callers id) := by
  cases hc : Table.get? id d.callers <;> simp [deliver, answered, told, hc]

theorem complete_eq {w : WorkerId} {worker : Worker} (hw : d.workers[w]? = some worker)
    (t : Ticket) (result : Except Failure Response) :
    d.complete now w t result =
      ({ d.put w { worker with progress := none } with
          registry := d.registry.release t.bucket now
          callers := answered d.callers t.id result }, told d.callers t.id) := by
  rw [complete, deliver_eq]
  simp [modifyWorker, put, List.modify_eq_set_getElem?, hw]

/-- The parts of the dispatcher that what is learned from an answer leaves alone. -/
theorem learn_eq (route : Route) (b : BucketId) (limits : Limits) (answer : Answer) :
    d.learn now route b limits answer =
      { d with registry := d.learned now route b limits answer } := by
  cases answer with
  | lost f => rfl
  | response r => by_cases hr : r.isTooMany = true <;> simp [learn, learned, hr]

theorem told_answered (callers : Table TicketId Caller) (id other : TicketId)
    (result : Except Failure Response) :
    told (answered callers id result) other = told callers other := by
  cases hc : Table.get? id callers with
  | none => simp [answered, hc]
  | some c =>
    by_cases h : other = id
    · subst h
      simp [told, answered, hc]
    · simp [told, answered, hc, Table.get?_put_of_ne h]

theorem told_disappointed (callers : Table TicketId Caller) (failure : Failure) (ts : List Ticket)
    (id : TicketId) : told (disappointed callers failure ts) id = told callers id := by
  induction ts generalizing callers with
  | nil => rfl
  | cons t rest ih => exact (ih _).trans (told_answered ..)

theorem abandon_eq (failure : Failure) (ts : List Ticket) :
    d.abandon now failure ts =
      ({ d with
          registry := freed d.registry now ts
          callers := disappointed d.callers failure ts },
        ts.flatMap fun t => told d.callers t.id) := by
  induction ts generalizing d with
  | nil => rfl
  | cons t rest ih =>
    simp only [abandon, deliver_eq, ih, told_answered, List.flatMap_cons]
    rfl

theorem freed_append (r : Registry) (ts us : List Ticket) :
    freed r now (ts ++ us) = freed (freed r now ts) now us := List.foldl_append

/-- What becomes of the calls of a worker that dies. -/
theorem bury_eq {w : WorkerId} {worker : Worker} (hw : d.workers[w]? = some worker)
    (lines : Table BucketId (List WorkerId)) (woken : List DispatchEffect) :
    let dead := ({ d with lines } : Dispatcher).modifyWorker w fun worker =>
      { route := worker.route, alive := false }
    let told := dead.abandon now (orphaned worker.route) (worker.running ++ worker.mailbox)
    let more := told.1.abandon now .notRunning worker.overflow
    (more.1, woken ++ told.2 ++ more.2) =
      ({ d.put w { route := worker.route, alive := false } with
          lines
          registry := freed d.registry now worker.tickets
          callers := disappointed
            (disappointed d.callers (orphaned worker.route) (worker.running ++ worker.mailbox))
            .notRunning worker.overflow },
        woken ++ worker.tickets.flatMap fun t => Dispatcher.told d.callers t.id) := by
  intro dead told more
  have hdead :
      dead = ({ d with lines } : Dispatcher).put w { route := worker.route, alive := false } :=
    modifyWorker_eq (by exact hw) _
  simp only [more, told, hdead, abandon_eq, ← freed_append, put, told_disappointed]
  simp [Worker.tickets]

theorem foldl_modifyWorker (ws : List WorkerId) (f : Worker → Worker) :
    ws.foldl (fun d w => d.modifyWorker w f) d =
      { d with workers := ws.foldl (fun workers w => workers.modify w f) d.workers } := by
  induction ws generalizing d with
  | nil => rfl
  | cons w rest ih =>
    rw [List.foldl_cons, ih]
    rfl

/-- What an event comes to is what its step computes. -/
theorem step_of_happens {e : Event} {r : Dispatcher × List DispatchEffect}
    (h : Happens d now e r) : d.step now e = r := by
  cases h with
  | assign id route request timeout hr hw ha =>
    simp [step, submit, workerFor, hr, hw, ha, Option.filter, modifyWorker, put,
      List.modify_eq_set_getElem?, enlisted, ticket]
  | hire id route request timeout hno =>
    have hmade : ∀ registry, ({ d with registry } : Dispatcher).workerFor route = _ :=
      fun _ => workerFor_of_none hno
    simp [step, submit, hmade, modifyWorker, List.modify_eq_set_getElem?, enlisted, ticket]
  | idle h => simp [step, proceed_of_rests h]
  | take hw ha hp hm =>
    simp [step, proceed, hw, ha, hp, Worker.next?, hm, modifyWorker_eq hw, Worker.undertake,
      Worker.takes]
  | retire hw ha hp hm hr =>
    simp [step, proceed, hw, ha, hp, Worker.next?, hm, hr, modifyWorker_eq hw]
  | cool hw ha hp hs hc hlt =>
    rw [step_proceed hw ha hp]
    simp only [proceedWith, hs, beginAttempt, Cooldown.remaining_of_lt hc hlt, Option.getD_some,
      Nat.add_sub_of_le (Nat.le_of_lt hlt)]
    rw [modifyWorker_enter (by exact hw) hp]
  | queue hw ha hp hs hc =>
    rw [step_proceed hw ha hp]
    simp only [proceedWith, hs, beginAttempt, Cooldown.remaining_of_over hc, Option.getD_some]
    rw [modifyWorker_enter (by exact hw) hp]
  | rested hw ha hp hs hle =>
    rw [step_proceed hw ha hp]
    rcases hs with hs | hs <;> simp [proceedWith, hs, hle, modifyWorker_enter hw hp]
  | first hw ha hp hs hf =>
    rw [step_proceed hw ha hp]
    simp [proceedWith, hs, hf, modifyWorker_enter hw hp]
  | again hw ha hp hs hle =>
    rw [step_proceed hw ha hp]
    simp [proceedWith, hs, hle, modifyWorker_enter hw hp]
  | back hw ha hp hs hc hlt =>
    rw [step_proceed hw ha hp]
    simp only [proceedWith, hs, tryReserve, Cooldown.remaining_of_lt hc hlt, Option.getD_some,
      Option.isSome_some, if_true]
    rw [modifyWorker_enter (by exact hw) hp]
    rfl
  | execute hw ha hp hs hc hr =>
    rw [step_proceed hw ha hp]
    simp only [proceedWith, hs, tryReserve, Cooldown.remaining_of_over hc, hr, Option.getD_some,
      Option.isSome_none, Bool.false_eq_true, if_false]
    rw [modifyWorker_enter (by exact hw) hp]
    rfl
  | stall hw ha hp hs hc hr =>
    rw [step_proceed hw ha hp]
    simp only [proceedWith, hs, tryReserve, Cooldown.remaining_of_over hc, hr, Option.getD_some,
      Option.isSome_none, Bool.false_eq_true, if_false]
    rw [modifyWorker_enter (by exact hw) hp]
    rfl
  | stray w clock draw answer hno =>
    simp only [step, receive]
    split
    case h_1 hw => exact absurd rfl (hno _ _ _ hw rfl)
    case h_2 => rfl
  | @done _ _ _ _ worker p b hw hp hs _ _ hj =>
    obtain ⟨route, progress, mailbox, overflow, retiring, alive⟩ := worker
    obtain ⟨ticket, tries, stage⟩ := p
    subst hp
    subst hs
    simp only [step, receive, hw, learn_eq, hj, leave]
    rw [complete_eq (by exact hw)]
    rfl
  | @retry _ _ _ _ worker p b hw hp hs _ _ hj =>
    obtain ⟨route, progress, mailbox, overflow, retiring, alive⟩ := worker
    obtain ⟨ticket, tries, stage⟩ := p
    subst hp
    subst hs
    simp only [step, receive, hw, learn_eq, hj, leave]
    rw [modifyWorker_eq (by exact hw)]
    rfl
  | @pauses _ clock draw r worker p b hw hp hs ht hbudget limits hl hg =>
    obtain ⟨route, progress, mailbox, overflow, retiring, alive⟩ := worker
    obtain ⟨ticket, tries, stage⟩ := p
    subst hp hs hl
    have hlearned : d.learned now route b (limitsOf clock (.response r)) (.response r) =
        d.registry := by simp [learned, ht]
    have hjudge :
        tries.judge d.policy route (limitsOf clock (.response r)) draw (.response r) = _ :=
      Tries.judge_of_isTooMany ht hbudget
    have hglobal : ((limitsOf clock (.response r)).withBody r.body).isGlobal = true := hg
    simp only [step, receive, hw, learn_eq, hjudge, hlearned, applyRefusal, hglobal, if_true, leave]
    rw [modifyWorker_eq (by exact hw)]
    rfl
  | @blocks _ clock draw r worker p b hw hp hs ht hbudget limits hl hg =>
    obtain ⟨route, progress, mailbox, overflow, retiring, alive⟩ := worker
    obtain ⟨ticket, tries, stage⟩ := p
    subst hp hs hl
    have hlearned : d.learned now route b (limitsOf clock (.response r)) (.response r) =
        d.registry := by simp [learned, ht]
    have hjudge :
        tries.judge d.policy route (limitsOf clock (.response r)) draw (.response r) = _ :=
      Tries.judge_of_isTooMany ht hbudget
    have hlocal : ((limitsOf clock (.response r)).withBody r.body).isGlobal = false := hg
    simp only [step, receive, hw, learn_eq, hjudge, hlearned, applyRefusal, hlocal,
      Bool.false_eq_true, if_false, leave]
    rw [modifyWorker_eq (by exact hw)]
    rfl
  | nobody w h => simp [step, Dispatcher.crash, h]
  | @crash w worker hw =>
    cases hs : worker.stage? with
    | none =>
      simp only [step, Dispatcher.crash, hw, hs]
      exact bury_eq hw _ _
    | some stage =>
      cases stage <;> simp only [step, Dispatcher.crash, hw, hs] <;> exact bury_eq hw _ _
  | @patient id h =>
    cases hc : Table.get? id d.callers with
    | none => simp [step, settle, hc]
    | some c =>
      obtain ⟨hr, hd⟩ := h c hc
      simp [step, settle, hc, hr, hd]
  | report hc hr => simp [step, settle, hc, hr]
  | giveUp hc hr hd => simp [step, settle, hc, hr, hd, withdraw, freed, stranded, Worker.forget]
  | sweep => simp only [step, Dispatcher.sweep, foldl_modifyWorker, Dispatcher.retire, retired]
  | pause ending => rfl

/-! ## Every step happens -/

theorem happens_submit (id : TicketId) (route : Route) (request : Request)
    (timeout : Option Span) : ∃ r, Happens d now (.submit id route request timeout) r := by
  by_cases h : ∃ w worker, Table.get? route d.roster = some w ∧ d.workers[w]? = some worker ∧
      worker.alive = true
  · obtain ⟨w, worker, hr, hw, ha⟩ := h
    exact ⟨_, .assign id route request timeout hr hw ha⟩
  · refine ⟨_, .hire id route request timeout fun w worker hr hw => ?_⟩
    cases ha : worker.alive with
    | false => rfl
    | true => exact absurd ⟨w, worker, hr, hw, ha⟩ h

theorem happens_proceedWith {w : WorkerId} {worker : Worker} {p : Progress}
    (hw : d.workers[w]? = some worker) (ha : worker.alive = true) (hp : worker.progress = some p) :
    ∃ r, Happens d now (.proceed w) r := by
  have hidle : d.Held now w p.stage → ∃ r, Happens d now (.proceed w) r := by
    intro hheld
    refine ⟨_, .idle fun other hw' _ => ?_⟩
    obtain rfl : worker = other := Option.some.inj (hw.symm.trans hw')
    refine ⟨fun hno => absurd (hp.symm.trans hno) (by simp), fun q hq => ?_⟩
    obtain rfl : p = q := Option.some.inj (hp.symm.trans hq)
    exact hheld
  cases hs : p.stage with
  | fresh =>
    rcases d.cooldown.over_or_lt now with hover | ⟨u, hu, hlt⟩
    · exact ⟨_, .queue hw ha hp hs hover⟩
    · exact ⟨_, .cool hw ha hp hs hu hlt⟩
  | cooling ending =>
    by_cases hle : ending ≤ now
    · exact ⟨_, .rested hw ha hp (.inl hs) hle⟩
    · exact hidle (by simpa [hs, Held] using hle)
  | queued b =>
    by_cases hf : (d.line b).head? = some w
    · exact ⟨_, .first hw ha hp hs hf⟩
    · exact hidle (by simpa [hs, Held] using hf)
  | reserving b =>
    rcases d.cooldown.over_or_lt now with hover | ⟨u, hu, hlt⟩
    · cases hr : d.registry.reserve b now with
      | ok registry => exact ⟨_, .execute hw ha hp hs hover hr⟩
      | error ending => exact ⟨_, .stall hw ha hp hs hover hr⟩
    · exact ⟨_, .back hw ha hp hs hu hlt⟩
  | stalled b ending =>
    by_cases hle : ending ≤ now
    · exact ⟨_, .again hw ha hp hs hle⟩
    · exact hidle (by simpa [hs, Held] using hle)
  | sending b => exact hidle (by simp [hs, Held])
  | resting ending =>
    by_cases hle : ending ≤ now
    · exact ⟨_, .rested hw ha hp (.inr hs) hle⟩
    · exact hidle (by simpa [hs, Held] using hle)

theorem happens_proceed (w : WorkerId) : ∃ r, Happens d now (.proceed w) r := by
  cases hw : d.workers[w]? with
  | none => exact ⟨_, .idle (by simp [Rests, hw])⟩
  | some worker =>
    cases ha : worker.alive with
    | false => exact ⟨_, .idle (by simp [Rests, hw, ha])⟩
    | true =>
      cases hp : worker.progress with
      | some p => exact happens_proceedWith hw ha hp
      | none =>
        cases hm : worker.mailbox with
        | cons t rest => exact ⟨_, .take hw ha hp hm⟩
        | nil =>
          cases hr : worker.retiring with
          | true => exact ⟨_, .retire hw ha hp hm hr⟩
          | false => exact ⟨_, .idle (by simp [Rests, hw, hp, hm, hr])⟩

theorem happens_receive (w : WorkerId) (clock : Option Span) (draw : Float) (answer : Answer) :
    ∃ r, Happens d now (.receive w clock draw answer) r := by
  by_cases h : ∃ worker p b, d.workers[w]? = some worker ∧ worker.progress = some p ∧
      p.stage = .sending b
  · obtain ⟨worker, p, b, hw, hp, hs⟩ := h
    cases hj : p.tries.judge d.policy worker.route (limitsOf clock answer) draw answer with
    | mk after verdict =>
      cases verdict with
      | done result => exact ⟨_, .done hw hp hs hj⟩
      | retry delay => exact ⟨_, .retry hw hp hs hj⟩
      | limited limits wait =>
        obtain ⟨r, rfl, htoo, hlimits, -, -, hbudget⟩ := Tries.judge_limited hj
        cases hg : limits.isGlobal with
        | true => exact ⟨_, .pauses draw hw hp hs htoo hbudget hlimits hg⟩
        | false => exact ⟨_, .blocks draw hw hp hs htoo hbudget hlimits hg⟩
  · exact ⟨_, .stray w clock draw answer fun worker p b hw hp hs => h ⟨worker, p, b, hw, hp, hs⟩⟩

theorem happens_crash (w : WorkerId) : ∃ r, Happens d now (.crash w) r := by
  cases hw : d.workers[w]? with
  | none => exact ⟨_, .nobody w hw⟩
  | some worker => exact ⟨_, .crash hw⟩

theorem happens_settle (id : TicketId) : ∃ r, Happens d now (.settle id) r := by
  cases hc : Table.get? id d.callers with
  | none => exact ⟨_, .patient (by simp [hc])⟩
  | some c =>
    cases hr : c.reply with
    | some result => exact ⟨_, .report hc hr⟩
    | none =>
      by_cases hd : c.deadline ≤ now
      · exact ⟨_, .giveUp hc hr hd⟩
      · exact ⟨_, .patient (by simpa [hc, hr] using hd)⟩

/-- Every step is one of those that can happen. -/
theorem happens_step (d : Dispatcher) (now : Instant) (e : Event) :
    Happens d now e (d.step now e) := by
  obtain ⟨r, h⟩ : ∃ r, Happens d now e r := by
    cases e with
    | submit id route request timeout => exact happens_submit id route request timeout
    | proceed w => exact happens_proceed w
    | receive w clock draw answer => exact happens_receive w clock draw answer
    | crash w => exact happens_crash w
    | settle id => exact happens_settle id
    | sweep => exact ⟨_, .sweep⟩
    | pause ending => exact ⟨_, .pause ending⟩
  exact step_of_happens h ▸ h

/-! ## When requests begin -/

theorem execute_notMem_roused (d : Dispatcher) (b : BucketId) (w v : WorkerId) (q : Request) :
    .execute v q ∉ d.roused b w := by
  intro hq
  obtain ⟨u, -, hu⟩ := List.mem_map.mp hq
  exact absurd hu (by simp)

theorem execute_notMem_told (callers : Table TicketId Caller) (id : TicketId) (v : WorkerId)
    (q : Request) : .execute v q ∉ told callers id := by
  cases hc : Table.get? id callers <;> simp [told, hc]

/-- A request begins only with the turn of the worker whose call it is, first in the line of its
bucket, and when nobody is held off. -/
theorem execute_of_happens {e : Event} {r : Dispatcher × List DispatchEffect}
    (h : Happens d now e r) {v : WorkerId} {q : Request} (hq : .execute v q ∈ r.2) :
    d.cooldown.Over now ∧ e = .proceed v ∧ ∃ worker p b, d.workers[v]? = some worker ∧
      worker.progress = some p ∧ p.stage = .reserving b ∧ p.ticket.request = q := by
  cases h with
  | execute hw ha hp hs hover hr =>
    obtain ⟨rfl, rfl⟩ : v = _ ∧ q = _ := by simpa using hq
    exact ⟨hover, rfl, _, _, _, hw, hp, hs, rfl⟩
  | back _ _ _ _ _ _ => exact absurd hq (execute_notMem_roused _ _ _ _ _)
  | done _ _ _ _ =>
    rcases List.mem_append.mp hq with hq | hq
    · exact absurd hq (execute_notMem_roused _ _ _ _ _)
    · exact absurd hq (execute_notMem_told _ _ _ _)
  | retry _ _ _ _ => simp [execute_notMem_roused] at hq
  | pauses _ _ _ _ _ _ _ _ => exact absurd hq (execute_notMem_roused _ _ _ _ _)
  | blocks _ _ _ _ _ _ _ _ => exact absurd hq (execute_notMem_roused _ _ _ _ _)
  | @crash w worker hw =>
    rcases List.mem_append.mp hq with hq | hq
    · cases hb : worker.stage?.bind Stage.bucket? with
      | none => simp [hb, rousedAny] at hq
      | some b => simp [hb, rousedAny, execute_notMem_roused] at hq
    · simp [execute_notMem_told] at hq
  | _ => simp at hq

end Dispatcher

end Switchboard
