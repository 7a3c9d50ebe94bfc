import Switchboard.Proofs.Dispatch.Steps

/-!
# Calls in the hands of workers

What a step does to the calls that workers have: a call is submitted to a worker, taken up,
attempted and ended, in that order; a caller may withdraw it while it waits for room, and a worker
may die with all of its calls.

## Main definitions

* `Attempt`: a request, with the call that it is for and the bucket under which it is sent.
* `Dispatcher.Every`: something holds of all workers.
* `Dispatcher.Shifts`: what a step does to the calls of the workers.

## Main results

* `Dispatcher.shifts_happens`: every step does one of these things.
-/
namespace Switchboard

/-! ## The calls of a worker -/

namespace Worker

variable {worker : Worker}

@[simp] theorem route_accept (t : Ticket) : (worker.accept t).route = worker.route := by
  unfold accept
  split <;> rfl

@[simp] theorem alive_accept (t : Ticket) : (worker.accept t).alive = worker.alive := by
  unfold accept
  split <;> rfl

@[simp] theorem progress_accept (t : Ticket) : (worker.accept t).progress = worker.progress := by
  unfold accept
  split <;> rfl

/-- Calls wait for room only when there is none. -/
def Packed (worker : Worker) : Prop :=
  worker.overflow ≠ [] → mailboxRoom ≤ worker.mailbox.length

/-- A further call is the last one. -/
theorem waiting_accept (h : worker.Packed) (t : Ticket) :
    (worker.accept t).mailbox ++ (worker.accept t).overflow =
      worker.mailbox ++ worker.overflow ++ [t] := by
  unfold accept
  split
  case isTrue hlt =>
    have hnone : worker.overflow = [] := by
      by_contra hne
      exact absurd (h hne) (by omega)
    simp [hnone]
  case isFalse => simp

theorem packed_accept (h : worker.Packed) (t : Ticket) : (worker.accept t).Packed := by
  unfold accept
  split
  case isTrue hlt =>
    intro hne
    exact absurd (h hne) (by omega)
  case isFalse hlt =>
    intro _
    simpa using hlt

theorem mem_tickets_accept {t u : Ticket} (h : u ∈ (worker.accept t).tickets) :
    u ∈ worker.tickets ∨ u = t := by
  unfold accept at h
  split at h <;> simp only [tickets, running, List.mem_append, List.mem_singleton] at h ⊢ <;> tauto

/-- Who carries out a call has one. -/
theorem tickets_ne_nil {p : Progress} (hp : worker.progress = some p) : worker.tickets ≠ [] := by
  simp [tickets, running, hp]

@[simp] theorem tickets_on {p : Progress} (hp : worker.progress = some p) (stage : Stage) :
    (worker.on p stage).tickets = worker.tickets := by
  simp [tickets, running, on, hp]

/-- What waits behind the next call. -/
theorem waiting_takes {policy : RetryPolicy} {t : Ticket} {rest : List Ticket} :
    (worker.takes policy t rest).mailbox ++ (worker.takes policy t rest).overflow =
      rest ++ worker.overflow := by
  simp only [takes, List.append_assoc, List.take_append_drop]

theorem tickets_takes {policy : RetryPolicy} {t : Ticket} {rest : List Ticket}
    (hp : worker.progress = none) (hm : worker.mailbox = t :: rest) :
    (worker.takes policy t rest).tickets = worker.tickets := by
  rw [tickets, List.append_assoc, waiting_takes]
  simp [tickets, running, takes, hp, hm]

theorem packed_takes {policy : RetryPolicy} {t : Ticket} {rest : List Ticket} (h : worker.Packed)
    (hm : worker.mailbox = t :: rest) : (worker.takes policy t rest).Packed := by
  intro hne
  have hdrop : worker.overflow.drop 1 ≠ [] := hne
  cases ho : worker.overflow with
  | nil => simp [ho] at hdrop
  | cons u us =>
    have hroom := h (by simp [ho])
    simpa [takes, hm, ho] using hroom

theorem packed_forget (h : worker.Packed) (id : TicketId) : (worker.forget id).Packed := by
  intro hne
  refine h fun hnone => hne ?_
  simp [forget, hnone]

/-- What is left of the calls of a worker when some are withdrawn. -/
theorem tickets_forget_ne_nil {id : TicketId} (h : (worker.forget id).tickets ≠ []) :
    worker.tickets ≠ [] := by
  intro hnone
  refine h ?_
  simp only [tickets, running, List.append_eq_nil_iff] at hnone
  simp [tickets, running, forget, hnone]

end Worker

namespace Dispatcher

variable {d d' : Dispatcher} {now : Instant} {w : WorkerId} {worker other : Worker}

/-! ## All workers -/

/-- Something holds of all workers. -/
def Every (workers : List Worker) (P : WorkerId → Worker → Prop) : Prop :=
  ∀ v worker, workers[v]? = some worker → P v worker

variable {P Q : WorkerId → Worker → Prop} {workers : List Worker}

theorem Every.imp (h : Every workers P) (himp : ∀ v worker, P v worker → Q v worker) :
    Every workers Q := fun v worker hv => himp v worker (h v worker hv)

/-- After a change to one worker, what holds of it and of all others holds of all. -/
theorem every_put (h : ∀ v u, v ≠ w → d.workers[v]? = some u → P v u) (hP : P w other) :
    Every (d.put w other).workers P := by
  intro v u hv
  by_cases heq : w = v
  · subst heq
    obtain ⟨-, rfl⟩ : w < d.workers.length ∧ other = u := by
      simpa [Dispatcher.put, List.getElem?_set_self', Option.map_eq_some_iff,
        List.getElem?_eq_some_iff] using hv
    exact hP
  · exact h v u (Ne.symm heq) (by simpa [Dispatcher.put, List.getElem?_set_ne heq] using hv)

theorem Every.put (h : Every d.workers P) (hP : P w other) :
    Every (d.put w other).workers P := every_put (fun v u _ => h v u) hP

theorem Every.append (h : Every workers P) (hP : P workers.length other) :
    Every (workers ++ [other]) P := by
  intro v u hv
  rw [List.getElem?_append] at hv
  split at hv
  case isTrue => exact h v u hv
  case isFalse hlt =>
    obtain ⟨hv0, rfl⟩ : v - workers.length = 0 ∧ other = u := by
      cases hsub : v - workers.length with
      | zero => simpa [hsub] using hv
      | succ n => simp [hsub] at hv
    obtain rfl : v = workers.length :=
      Nat.le_antisymm (Nat.sub_eq_zero_iff_le.mp hv0) (Nat.le_of_not_lt hlt)
    exact hP

theorem Every.map {f : Worker → Worker} (h : Every workers P)
    (hf : ∀ v worker, P v worker → Q v (f worker)) : Every (workers.map f) Q := by
  intro v u hv
  obtain ⟨worker, hw, rfl⟩ : ∃ worker, workers[v]? = some worker ∧ f worker = u := by
    simpa using hv
  exact hf v worker (h v worker hw)

theorem Every.retire (h : Every workers P) (ws : List WorkerId)
    (hf : ∀ v worker, P v worker → P v { worker with retiring := true }) :
    Every (retire workers ws) P := by
  induction ws generalizing workers with
  | nil => exact h
  | cons w rest ih =>
    refine ih fun v u hv => ?_
    rw [List.getElem?_modify] at hv
    obtain ⟨worker, hw, rfl⟩ := Option.map_eq_some_iff.mp hv
    split
    · exact hf v worker (h v worker hw)
    · exact h v worker hw

/-! ## Attempts -/

end Dispatcher

/-- What is asked for in a call: its number, and the request. -/
def Ticket.call (t : Ticket) : TicketId × Request := (t.id, t.request)

/-- An attempt at a call. -/
structure Attempt where
  worker : WorkerId
  /-- The bucket to which the worker has the right. -/
  bucket : BucketId
  route : Route
  call : TicketId × Request
deriving DecidableEq, Repr

namespace Dispatcher

variable {d : Dispatcher} {now : Instant}

/-- The attempt that an effect begins. -/
def attempt? (d : Dispatcher) : DispatchEffect → Option Attempt
  | .execute w q => do
    let worker ← d.workers[w]?
    let p ← worker.progress
    let b ← p.stage.bucket?
    return ⟨w, b, worker.route, p.ticket.id, q⟩
  | _ => none

/-- The attempts that effects begin. -/
def attempts (d : Dispatcher) (es : List DispatchEffect) : List Attempt :=
  es.filterMap d.attempt?

theorem attempts_eq_nil {es : List DispatchEffect} (h : ∀ v q, .execute v q ∉ es) :
    d.attempts es = [] := by
  rw [attempts, List.filterMap_eq_nil_iff]
  intro e he
  cases e with
  | execute v q => exact absurd he (h v q)
  | _ => rfl

/-! ## What becomes of calls -/

/-- A call is submitted. -/
def Event.isSubmit : Event → Bool
  | .submit _ _ _ _ => true
  | _ => false

/-- What a step does to the calls of the workers, and to the roster. -/
inductive Shifts (d : Dispatcher) (now : Instant) (r : Dispatcher × List DispatchEffect) :
    Event → Prop where
  /-- Nothing. -/
  | same (e : Event) (hs : e.isSubmit = false)
      (hworkers : r.1.workers = d.workers) (hroster : r.1.roster = d.roster)
      (ha : d.attempts r.2 = []) : Shifts d now r e
  /-- A worker goes on with its call, without a request or with one. -/
  | moves (e : Event) (hs : e.isSubmit = false)
      {w : WorkerId} {worker : Worker} {p p' : Progress} (hw : d.workers[w]? = some worker)
      (hp : worker.progress = some p)
      (hworkers : r.1.workers = (d.put w { worker with progress := some p' }).workers)
      (ht : p'.ticket = p.ticket) (hroster : r.1.roster = d.roster)
      (ha : d.attempts r.2 = [] ∨ ∃ b, p.stage = .reserving b ∧ p'.stage = .sending b ∧
        d.attempts r.2 = [⟨w, b, worker.route, p.ticket.call⟩]) : Shifts d now r e
  /-- The call of a worker ends. -/
  | ends (e : Event) (hs : e.isSubmit = false)
      {w : WorkerId} {worker : Worker} {p : Progress} (hw : d.workers[w]? = some worker)
      (hp : worker.progress = some p)
      (hworkers : r.1.workers = (d.put w { worker with progress := none }).workers)
      (hroster : r.1.roster = d.roster) (ha : d.attempts r.2 = []) : Shifts d now r e
  /-- A worker takes up the next of its calls. -/
  | takes {w : WorkerId} {worker : Worker} {t : Ticket} {rest : List Ticket}
      (hw : d.workers[w]? = some worker) (hp : worker.progress = none)
      (hm : worker.mailbox = t :: rest)
      (hworkers : r.1.workers = (d.put w (worker.takes d.policy t rest)).workers)
      (hroster : r.1.roster = d.roster) (ha : d.attempts r.2 = []) : Shifts d now r (.proceed w)
  /-- A worker without calls ends. -/
  | leaves {w : WorkerId} {worker : Worker} (hw : d.workers[w]? = some worker)
      (hp : worker.progress = none) (hm : worker.mailbox = []) (hr : worker.retiring = true)
      (hworkers : r.1.workers = (d.put w { worker with alive := false }).workers)
      (hroster : r.1.roster = d.roster) (ha : d.attempts r.2 = []) : Shifts d now r (.proceed w)
  /-- A worker dies, and its calls with it. -/
  | dies {w : WorkerId} {worker : Worker} (hw : d.workers[w]? = some worker)
      (hworkers : r.1.workers = (d.put w { route := worker.route, alive := false }).workers)
      (hroster : r.1.roster = d.roster) (ha : d.attempts r.2 = []) : Shifts d now r (.crash w)
  /-- A call comes to the worker that is listed for its route. -/
  | joins (id : TicketId) (route : Route) (request : Request) (timeout : Option Span)
      {w : WorkerId} {worker : Worker} (hr : Table.get? route d.roster = some w)
      (hw : d.workers[w]? = some worker) (halive : worker.alive = true)
      (hworkers : r.1.workers =
        (d.put w (worker.accept (d.ticket now id route request))).workers)
      (hroster : r.1.roster = d.roster) (ha : d.attempts r.2 = []) :
    Shifts d now r (.submit id route request timeout)
  /-- A call comes to a new worker. -/
  | founds (id : TicketId) (route : Route) (request : Request) (timeout : Option Span)
      (hno : ∀ w worker, Table.get? route d.roster = some w → d.workers[w]? = some worker →
        worker.alive = false)
      (hworkers : r.1.workers = d.workers ++
        [({ route } : Worker).accept (d.ticket now id route request)])
      (hroster : r.1.roster = Table.put route d.workers.length d.roster)
      (ha : d.attempts r.2 = []) : Shifts d now r (.submit id route request timeout)
  /-- A call is withdrawn while it waits for room. -/
  | forgets (id : TicketId) (hworkers : r.1.workers = d.workers.map (·.forget id))
      (hroster : r.1.roster = d.roster) (ha : d.attempts r.2 = []) : Shifts d now r (.settle id)
  /-- Routes are retired. -/
  | sweeps (hworkers : r.1.workers = retire d.workers (d.retired now))
      (hroster : r.1.roster = d.roster.filter fun p => !(d.registry.evict now).2.contains p.1)
      (ha : d.attempts r.2 = []) : Shifts d now r .sweep

/-- Every step does one of these things to the calls. -/
theorem shifts_happens {e : Event} {r : Dispatcher × List DispatchEffect}
    (h : Happens d now e r) : Shifts d now r e := by
  have hnone : (∀ v q, .execute v q ∉ r.2) → d.attempts r.2 = [] := attempts_eq_nil
  have hother : (∀ v, e ≠ .proceed v) → d.attempts r.2 = [] := fun he =>
    hnone fun v _ hq => he v (execute_of_happens h hq).2.1
  cases h with
  | assign id route request timeout hr hw ha =>
    exact .joins id route request timeout hr hw ha rfl rfl (hnone (by simp))
  | hire id route request timeout hno =>
    exact .founds id route request timeout hno rfl rfl (hnone (by simp))
  | take hw _ hp hm => exact .takes hw hp hm rfl rfl (hnone (by simp))
  | retire hw _ hp hm hr => exact .leaves hw hp hm hr rfl rfl (hnone (by simp))
  | cool hw _ hp _ _ _ => exact .moves _ rfl hw hp rfl rfl rfl (.inl (hnone (by simp)))
  | queue hw _ hp _ _ => exact .moves _ rfl hw hp rfl rfl rfl (.inl (hnone (by simp)))
  | rested hw _ hp _ _ => exact .moves _ rfl hw hp rfl rfl rfl (.inl (hnone (by simp)))
  | first hw _ hp _ _ => exact .moves _ rfl hw hp rfl rfl rfl (.inl (hnone (by simp)))
  | again hw _ hp _ _ => exact .moves _ rfl hw hp rfl rfl rfl (.inl (hnone (by simp)))
  | back hw _ hp _ _ _ =>
    exact .moves _ rfl hw hp rfl rfl rfl (.inl (hnone fun _ _ => execute_notMem_roused _ _ _ _ _))
  | execute hw _ hp hs _ _ =>
    refine .moves _ rfl hw hp rfl rfl rfl (.inr ⟨_, hs, rfl, ?_⟩)
    simp [attempts, attempt?, hw, hp, hs, Stage.bucket?, Ticket.call]
  | stall hw _ hp _ _ _ => exact .moves _ rfl hw hp rfl rfl rfl (.inl (hnone (by simp)))
  | done hw hp _ _ => exact .ends _ rfl hw hp rfl rfl (hother (by simp))
  | retry hw hp _ _ => exact .moves _ rfl hw hp rfl rfl rfl (.inl (hother (by simp)))
  | pauses _ hw hp _ _ _ _ _ => exact .moves _ rfl hw hp rfl rfl rfl (.inl (hother (by simp)))
  | blocks _ hw hp _ _ _ _ _ => exact .moves _ rfl hw hp rfl rfl rfl (.inl (hother (by simp)))
  | crash hw => exact .dies hw rfl rfl (hother (by simp))
  | giveUp _ _ _ => exact .forgets _ rfl rfl (hnone (by simp))
  | sweep => exact .sweeps rfl rfl (hnone (by simp))
  | _ => exact .same _ rfl rfl rfl (hnone (by simp))

end Dispatcher

end Switchboard
