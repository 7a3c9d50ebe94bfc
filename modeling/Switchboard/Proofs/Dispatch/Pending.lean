import Mathlib.Data.List.Count
import Switchboard.Proofs.Dispatch.Buckets

/-!
# Pending calls

A bucket counts the calls that are pending on it: those that workers have and that were submitted
when the bucket was that of their route. While there is one, the bucket is not idle.

## Main definitions

* `Registry.pendingOn`: what a bucket counts.
* `Dispatcher.callsOn`: the calls that workers have and that are pending on a bucket.
* `Dispatcher.Accounted`: they are as many.

## Main results

* `Dispatcher.accounted_happens`: every step counts what it does.
* `Dispatcher.Accounted.not_idle`: a bucket with a call is not idle.
-/
namespace Switchboard

namespace Registry

variable {r r' : Registry} {b id : BucketId} {now : Instant}

/-- The calls that a bucket counts. -/
def pendingOn (r : Registry) (b : BucketId) : Nat := (r.bucket? b).elim 0 (·.pending)

theorem pendingOn_modify (r : Registry) (id b : BucketId) (f : Bucket → Bucket) :
    (r.modify id f).pendingOn b =
      if id = b then (r.bucket? b).elim 0 (fun x => (f x).pending) else r.pendingOn b := by
  rw [pendingOn, bucket?_modify, pendingOn]
  split
  case isTrue => cases r.bucket? b <;> rfl
  case isFalse => rfl

/-- A change to a bucket that does not count anything. -/
theorem pendingOn_modify_of_pending {f : Bucket → Bucket} (hf : ∀ x, (f x).pending = x.pending) :
    (r.modify id f).pendingOn b = r.pendingOn b := by
  rw [pendingOn_modify]
  split
  case isTrue => cases hx : r.bucket? b <;> simp [pendingOn, hx, hf]
  case isFalse => rfl

@[simp] theorem pendingOn_resolve (r : Registry) (route : Route) (now : Instant) (b : BucketId) :
    (r.resolve route now).1.pendingOn b = r.pendingOn b := by
  cases hroute : Table.get? route r.routes with
  | some id => rw [resolve_of_get? hroute]
  | none =>
    rw [resolve_of_none hroute]
    rcases Nat.lt_trichotomy b r.buckets.length with hlt | rfl | hgt
    · simp [pendingOn, bucket?, List.getElem?_append_left hlt]
    · simp [pendingOn, bucket?, Bucket.fresh]
    · have hnone : (r.buckets ++ [Bucket.fresh route.render now])[b]? = none :=
        List.getElem?_eq_none (by simpa using Nat.succ_le_of_lt hgt)
      have hnone' : r.buckets[b]? = none := List.getElem?_eq_none (Nat.le_of_lt hgt)
      rw [pendingOn, pendingOn, bucket?, bucket?, hnone, hnone']

/-- A further call on a bucket that exists. -/
theorem pendingOn_hold (h : id < r.buckets.length) (b : BucketId) :
    (r.hold id).pendingOn b = r.pendingOn b + if id = b then 1 else 0 := by
  rw [hold, pendingOn_modify]
  split
  case isTrue heq =>
    subst heq
    simp [pendingOn, bucket?, h, Bucket.hold]
  case isFalse => rfl

theorem pendingOn_release (r : Registry) (id : BucketId) (now : Instant) (b : BucketId) :
    (r.release id now).pendingOn b = r.pendingOn b - if id = b then 1 else 0 := by
  rw [release, pendingOn_modify]
  split
  case isTrue heq => cases hx : r.bucket? b <;> simp [pendingOn, hx, Bucket.release]
  case isFalse => rfl

theorem pendingOn_reserve (h : r.reserve id now = .ok r') (b : BucketId) :
    r'.pendingOn b = r.pendingOn b := by
  rcases reserve_ok h with ⟨-, rfl⟩ | ⟨x, y, hx, hy, rfl⟩
  · rfl
  · have hpending : y.pending = x.pending := by
      rw [(Bucket.reserve_ok hy).2]
      exact Bucket.pending_refilled x now
    have hlt : id < r.buckets.length := (List.getElem?_eq_some_iff.mp hx).1
    by_cases heq : id = b
    · subst heq
      rw [pendingOn, pendingOn, hx]
      simp [bucket?, hlt, hpending]
    · simp [pendingOn, bucket?, List.getElem?_set_ne heq]

@[simp] theorem pendingOn_update (r : Registry) (route : Route) (id : BucketId) (limits : Limits)
    (now : Instant) (b : BucketId) :
    (r.update route id limits now).1.pendingOn b = r.pendingOn b := by
  unfold update
  split
  · exact pendingOn_modify_of_pending fun _ => rfl
  · exact pendingOn_modify_of_pending fun _ => rfl

@[simp] theorem pendingOn_block (r : Registry) (id : BucketId) (ending : Instant) (b : BucketId) :
    (r.block id ending).pendingOn b = r.pendingOn b :=
  pendingOn_modify_of_pending fun _ => rfl

end Registry

namespace Dispatcher

variable {d : Dispatcher} {now : Instant} {w : WorkerId} {worker other : Worker}
  {b : BucketId}

/-- The calls that workers have and that are pending on a bucket. -/
def callsOn (workers : List Worker) (b : BucketId) : Nat :=
  (workers.flatMap Worker.tickets).countP (·.bucket = b)

theorem pendingOn_freed (r : Registry) (now : Instant) (ts : List Ticket) (b : BucketId) :
    (freed r now ts).pendingOn b = r.pendingOn b - ts.countP (·.bucket = b) := by
  induction ts generalizing r with
  | nil => rfl
  | cons t rest ih =>
    refine (ih _).trans ?_
    rw [Registry.pendingOn_release, List.countP_cons, Nat.sub_sub, Nat.add_comm]
    simp

theorem pendingOn_learned (d : Dispatcher) (now : Instant) (route : Route) (b c : BucketId)
    (limits : Limits) (answer : Answer) :
    (d.learned now route b limits answer).pendingOn c = d.registry.pendingOn c := by
  cases answer with
  | lost f => rfl
  | response r => cases hr : r.isTooMany <;> simp [learned, hr]

/-- The calls of a kind that workers have. -/
def tally (workers : List Worker) (kind : Ticket → Bool) : Nat :=
  (workers.flatMap Worker.tickets).countP kind

variable {kind : Ticket → Bool}

/-- What changes with one worker. -/
theorem tally_put (hw : d.workers[w]? = some worker) (other : Worker) (kind : Ticket → Bool) :
    tally (d.put w other).workers kind + worker.tickets.countP kind =
      tally d.workers kind + other.tickets.countP kind := by
  obtain ⟨hlt, hget⟩ := List.getElem?_eq_some_iff.mp hw
  have hbefore : d.workers = d.workers.take w ++ worker :: d.workers.drop (w + 1) := by
    rw [← hget, List.getElem_cons_drop, List.take_append_drop]
  have hafter : (d.put w other).workers = d.workers.take w ++ other :: d.workers.drop (w + 1) :=
    List.set_eq_take_append_cons_drop.trans (by rw [if_pos hlt])
  rw [hafter]
  nth_rewrite 3 [hbefore]
  simp only [tally, List.flatMap_append, List.flatMap_cons, List.countP_append]
  omega

theorem tally_put_of_tickets (hw : d.workers[w]? = some worker)
    (ht : other.tickets = worker.tickets) :
    tally (d.put w other).workers kind = tally d.workers kind := by
  have hput := tally_put hw other kind
  rw [ht] at hput
  exact Nat.add_right_cancel hput

theorem countP_accept (worker : Worker) (t : Ticket) (kind : Ticket → Bool) :
    (worker.accept t).tickets.countP kind =
      worker.tickets.countP kind + if kind t then 1 else 0 := by
  unfold Worker.accept
  split <;> simp [Worker.tickets, Worker.running, List.countP_append, List.countP_cons] <;> omega

theorem tally_put_accept (hw : d.workers[w]? = some worker) (t : Ticket) (kind : Ticket → Bool) :
    tally (d.put w (worker.accept t)).workers kind =
      tally d.workers kind + if kind t then 1 else 0 := by
  have hput := tally_put hw (worker.accept t) kind
  rw [countP_accept] at hput
  omega

theorem tally_append_accept (workers : List Worker) (route : Route) (t : Ticket)
    (kind : Ticket → Bool) :
    tally (workers ++ [({ route } : Worker).accept t]) kind =
      tally workers kind + if kind t then 1 else 0 := by
  have hnew := countP_accept { route } t kind
  have hnone : ({ route } : Worker).tickets.countP kind = 0 := rfl
  rw [hnone, Nat.zero_add] at hnew
  rw [tally, List.flatMap_append, List.countP_append, List.flatMap_singleton, hnew, tally]

theorem tally_put_none {p : Progress} (hw : d.workers[w]? = some worker)
    (hp : worker.progress = some p) (kind : Ticket → Bool) :
    tally (d.put w { worker with progress := none }).workers kind +
      (if kind p.ticket then 1 else 0) = tally d.workers kind := by
  have hput := tally_put hw { worker with progress := none } kind
  have htickets : worker.tickets =
      p.ticket :: ({ worker with progress := none } : Worker).tickets := by
    simp [Worker.tickets, Worker.running, hp]
  rw [htickets, List.countP_cons] at hput
  omega

theorem tally_forget (workers : List Worker) (id : TicketId) (kind : Ticket → Bool) :
    tally (workers.map (·.forget id)) kind +
      (workers.flatMap fun worker => worker.overflow.filter (·.id = id)).countP kind =
      tally workers kind := by
  induction workers with
  | nil => rfl
  | cons worker rest ih =>
    have hone : (worker.forget id).tickets.countP kind +
        (worker.overflow.filter (·.id = id)).countP kind = worker.tickets.countP kind := by
      have hparts := List.countP_eq_countP_filter_add worker.overflow kind
        (fun t => decide (t.id = id))
      simp only [Worker.tickets, Worker.running, Worker.forget, List.countP_append, hparts]
      simp only [decide_not]
      omega
    simp only [tally, List.map_cons, List.flatMap_cons, List.countP_append] at ih ⊢
    omega

theorem tally_retire (workers : List Worker) (ws : List WorkerId) (kind : Ticket → Bool) :
    tally (retire workers ws) kind = tally workers kind := by
  induction ws generalizing workers with
  | nil => rfl
  | cons w rest ih =>
    refine (ih _).trans ?_
    have hsame : (workers.modify w ({ · with retiring := true })).map Worker.tickets =
        workers.map Worker.tickets := by
      refine List.ext_getElem? fun v => ?_
      rw [List.getElem?_map, List.getElem?_map, List.getElem?_modify]
      cases workers[v]? with
      | none => rfl
      | some worker => by_cases hv : w = v <;> simp [hv, Worker.tickets, Worker.running]
    rw [tally, List.flatMap_def, hsame, ← List.flatMap_def, tally]

/-! ## The account -/

/-- Buckets in use exist, and count the calls that are pending on them. -/
structure Accounted (d : Dispatcher) : Prop where
  sound : d.Sound
  pending : ∀ b, d.registry.pendingOn b = callsOn d.workers b

theorem accounted_new (policy : RetryPolicy) (timeout idle : Span) :
    (new policy timeout idle).Accounted :=
  ⟨sound_new policy timeout idle, fun _ => rfl⟩

/-- Every step counts the calls that come and go. -/
theorem accounted_happens {e : Event} {r : Dispatcher × List DispatchEffect}
    (h : Happens d now e r) (ha : d.Accounted) : r.1.Accounted := by
  refine ⟨sound_registers (registers_happens h) ha.sound, fun b => ?_⟩
  have hpending := ha.pending b
  -- Neither the count nor the calls change.
  have hsame : r.1.registry.pendingOn b = d.registry.pendingOn b →
      callsOn r.1.workers b = callsOn d.workers b →
      r.1.registry.pendingOn b = callsOn r.1.workers b :=
    fun hr hw => hr.trans (hpending.trans hw.symm)
  have hgoes : ∀ {w worker other}, d.workers[w]? = some worker → other.tickets = worker.tickets →
      r.1.registry.pendingOn b = d.registry.pendingOn b →
      r.1.workers = (d.put w other).workers → r.1.registry.pendingOn b = callsOn r.1.workers b :=
    fun hw ht hr hworkers => hsame hr (hworkers ▸ tally_put_of_tickets hw ht)
  cases h with
  | @assign id route request timeout w worker _ hw _ =>
    have hheld := Registry.pendingOn_hold (Registry.resolve_lt ha.sound.leads route now) b
    rw [Registry.pendingOn_resolve, hpending] at hheld
    have hcalls := tally_put_accept hw (d.ticket now id route request) (·.bucket = b)
    simp only [decide_eq_true_eq] at hcalls
    exact hheld.trans hcalls.symm
  | hire id route request timeout _ =>
    have hheld := Registry.pendingOn_hold (Registry.resolve_lt ha.sound.leads route now) b
    rw [Registry.pendingOn_resolve, hpending] at hheld
    have hcalls := tally_append_accept d.workers route (d.ticket now id route request)
      (·.bucket = b)
    simp only [decide_eq_true_eq] at hcalls
    exact hheld.trans hcalls.symm
  | take hw _ hp hm => exact hgoes hw (Worker.tickets_takes hp hm) rfl rfl
  | retire hw _ _ _ _ => exact hgoes hw (by rfl) rfl rfl
  | cool hw _ hp _ _ _ => exact hgoes hw (Worker.tickets_on hp _) rfl rfl
  | queue hw _ hp _ _ =>
    exact hgoes hw (Worker.tickets_on hp _) (Registry.pendingOn_resolve ..) rfl
  | rested hw _ hp _ _ => exact hgoes hw (Worker.tickets_on hp _) rfl rfl
  | first hw _ hp _ _ => exact hgoes hw (Worker.tickets_on hp _) rfl rfl
  | again hw _ hp _ _ => exact hgoes hw (Worker.tickets_on hp _) rfl rfl
  | back hw _ hp _ _ _ => exact hgoes hw (Worker.tickets_on hp _) rfl rfl
  | execute hw _ hp _ _ hr =>
    exact hgoes hw (Worker.tickets_on hp _) (Registry.pendingOn_reserve hr b) rfl
  | stall hw _ hp _ _ _ => exact hgoes hw (Worker.tickets_on hp _) rfl rfl
  | @done w clock draw answer worker p c hw hp _ _ _ _ =>
    have hreleased := Registry.pendingOn_release
      (d.learned now worker.route c (limitsOf clock answer) answer) p.ticket.bucket now b
    rw [pendingOn_learned, hpending] at hreleased
    have hcalls := tally_put_none hw hp (·.bucket = b)
    simp only [decide_eq_true_eq] at hcalls
    exact hreleased.trans (Nat.sub_eq_of_eq_add hcalls.symm)
  | retry hw hp _ _ =>
    exact hgoes hw (by simp [Worker.tickets, Worker.running, hp]) (pendingOn_learned ..) rfl
  | pauses _ hw hp _ _ _ _ _ =>
    exact hgoes hw (by simp [Worker.tickets, Worker.running, hp]) rfl rfl
  | blocks _ hw hp _ _ _ _ _ =>
    exact hgoes hw (by simp [Worker.tickets, Worker.running, hp]) (by simp) rfl
  | @crash w worker hw =>
    have hcalls := tally_put hw { route := worker.route, alive := false } (·.bucket = b)
    refine (pendingOn_freed ..).trans (Nat.sub_eq_of_eq_add ?_)
    exact hpending.trans hcalls.symm
  | @giveUp id _ _ _ _ =>
    have hcalls := tally_forget d.workers id (·.bucket = b)
    refine (pendingOn_freed ..).trans (Nat.sub_eq_of_eq_add ?_)
    exact hpending.trans hcalls.symm
  | sweep => exact hsame rfl (tally_retire ..)
  | _ => exact hsame rfl rfl

/-- A bucket on which a call is pending is not idle. -/
theorem Accounted.not_idle (h : d.Accounted) (hw : d.workers[w]? = some worker) {t : Ticket}
    (ht : t ∈ worker.tickets) (now : Instant) : d.registry.isIdle t.bucket now = false := by
  have hcall : 0 < callsOn d.workers t.bucket := by
    rw [callsOn, List.countP_pos_iff]
    refine ⟨t, List.mem_flatMap.mpr ⟨worker, List.mem_of_getElem? hw, ht⟩, by simp⟩
  rw [← h.pending, Registry.pendingOn] at hcall
  cases hx : d.registry.bucket? t.bucket with
  | none => simp [Registry.isIdle, hx]
  | some x =>
    have hne : x.pending ≠ 0 := by
      rw [hx] at hcall
      exact Nat.pos_iff_ne_zero.mp hcall
    simp [Registry.isIdle, hx, Bucket.isIdle, hne]

end Dispatcher

end Switchboard
