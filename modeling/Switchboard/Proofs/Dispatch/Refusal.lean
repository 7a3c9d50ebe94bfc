import Switchboard.Proofs.Dispatch.Eviction

/-!
# Refusals for a bucket

A refusal that is not for all routes closes the bucket to which the route of the call leads, until
the wait is over. The call that was refused begins anew, stands in the line of that bucket, and
sleeps as soon as it finds the bucket closed; so it is not attempted again before the wait is over.

Others that use the bucket may hear an answer in the meantime. What it says is taken over, even
where it says that units are left or that the window ends earlier. A bucket that is opened so before
the refused call sleeps lets that call go on at once; once it sleeps, nothing wakes it early.

## Main definitions

* `Registry.Shut`: a route leads to a bucket that is closed until an instant.
* `Dispatcher.Turn`, `Dispatcher.Fate`: what a turn makes of the stage of a worker, and what else
  can become of it.
* `Dispatcher.Waits`: a worker begins no request before an instant.
* `Dispatcher.Undisturbed`: no answer opens a bucket before a worker sleeps.

## Main results

* `Registry.Shut.update_iff`: which answers leave a closed bucket closed.
* `Dispatcher.fate_happens`: what becomes of a worker with a call.
* `Dispatcher.waits_happens`: every step that does not disturb a worker lets it wait.
* `Dispatcher.execute_of_refusal`: when the next request of a worker begins after a refusal.
-/
namespace Switchboard

/-! ## Closed buckets -/

namespace Registry

variable {r r' : Registry} {b c : BucketId} {now ending : Instant} {ρ : Route}

/-- A route leads to a bucket that has no unit before `ending`. -/
def Shut (r : Registry) (ρ : Route) (b : BucketId) (ending : Instant) : Prop :=
  Table.get? ρ r.routes = some b ∧ ∃ reset, r.windowOf b = some (0, some reset) ∧ ending ≤ reset

instance (r : Registry) (ρ : Route) (b : BucketId) (ending : Instant) :
    Decidable (r.Shut ρ b ending) :=
  decidable_of_iff (Table.get? ρ r.routes = some b ∧
      (r.windowOf b).any (fun x => x.1 = 0 && x.2.any (ending ≤ ·)) = true) (by
    rw [Shut]
    rcases r.windowOf b with - | ⟨left, - | reset⟩ <;> simp)

theorem Shut.of_same (h : r.Shut ρ b ending) (hroutes : r'.routes = r.routes)
    (hwindow : r'.windowOf b = r.windowOf b) : r'.Shut ρ b ending := by
  rw [Shut, hroutes, hwindow]
  exact h

theorem Shut.resolve_eq (h : r.Shut ρ b ending) : (r.resolve ρ now).2 = b := by
  rw [resolve_of_get? h.1]

/-- Nobody gets a unit before the end. -/
theorem Shut.reserve (h : r.Shut ρ b ending) (hlt : now < ending) :
    ∃ reset, r.reserve b now = .error reset ∧ ending ≤ reset := by
  obtain ⟨-, reset, hwindow, hle⟩ := h
  obtain ⟨x, hx, heq⟩ := Option.map_eq_some_iff.mp hwindow
  obtain ⟨hremaining, hreset⟩ := Prod.mk.inj heq
  have hopen : ¬ reset ≤ now := Nat.not_le_of_lt (Nat.lt_of_lt_of_le hlt hle)
  refine ⟨reset, ?_, hle⟩
  simp [Registry.reserve, hx, Bucket.reserve, Bucket.refilled, hreset, hopen,
    Bucket.exhaustedUntil?, hremaining, Except.map]

/-- Who gets a unit gets it of another bucket. -/
theorem Shut.of_reserve (h : r.Shut ρ b ending) (hlt : now < ending)
    (hr : r.reserve c now = .ok r') : r'.Shut ρ b ending := by
  have hne : c ≠ b := by
    rintro rfl
    obtain ⟨reset, herror, -⟩ := h.reserve hlt
    simp [hr] at herror
  rcases reserve_ok hr with ⟨-, rfl⟩ | ⟨x, y, -, -, rfl⟩
  · exact h
  · refine h.of_same rfl ?_
    simp [windowOf, bucket?, List.getElem?_set_ne hne]

/-- A route that comes into the registry brings a bucket of its own. -/
theorem Shut.resolve {other : Route} (h : r.Shut ρ b ending) :
    (r.resolve other now).1.Shut ρ b ending := by
  cases hroute : Table.get? other r.routes with
  | some id => rwa [resolve_of_get? hroute]
  | none =>
    have hne : ρ ≠ other := by
      rintro rfl
      simp [h.1] at hroute
    refine ⟨(get?_routes_resolve_of_ne hne now).trans h.1, ?_⟩
    obtain ⟨-, reset, hwindow, hle⟩ := h
    obtain ⟨x, hx, -⟩ := Option.map_eq_some_iff.mp hwindow
    refine ⟨reset, ?_, hle⟩
    rw [← hwindow, resolve_of_none hroute]
    simp [windowOf, bucket?, List.getElem?_append_left (List.getElem?_eq_some_iff.mp hx).1]

/-- A bucket whose window is open is not evicted. -/
theorem Shut.evict (h : r.Shut ρ b ending) (hk : r.Keyed) (hlt : now < ending) :
    (r.evict now).1.Shut ρ b ending := by
  obtain ⟨hroute, reset, hwindow, hle⟩ := h
  obtain ⟨x, hx, heq⟩ := Option.map_eq_some_iff.mp hwindow
  obtain ⟨-, hreset⟩ := Prod.mk.inj heq
  have hidle : r.isIdle b now = false := by
    have hopen : ¬ reset ≤ now := Nat.not_le_of_lt (Nat.lt_of_lt_of_le hlt hle)
    simp [isIdle, hx, Bucket.isIdle, hreset, hopen]
  refine ⟨?_, reset, hwindow, hle⟩
  rw [hk.get?_routes_evict, hroute]
  simp [hidle]

/-- An answer for another route leaves a closed bucket closed exactly if it is taken over by another
bucket, or says neither that units are left nor that the window ends early. -/
theorem Shut.update_iff {other : Route} {limits : Limits} (h : r.Shut ρ b ending)
    (hne : ρ ≠ other) :
    (r.update other c limits now).1.Shut ρ b ending ↔
      ((r.update other c limits now).2 = b → limits.remaining.getD 0 = 0 ∧
        ∀ span, limits.resetAfter = some span → ending ≤ deadlineAfter now span) := by
  obtain ⟨hroute, reset, hwindow, hle⟩ := h
  have hway : Table.get? ρ (r.update other c limits now).1.routes = some b := by
    cases htoken : limits.token with
    | none => rwa [update_of_none htoken]
    | some token => rw [get?_routes_update htoken, if_neg hne, hroute]
  obtain ⟨x, hx, heq⟩ := Option.map_eq_some_iff.mp hwindow
  obtain ⟨hremaining, hreset⟩ := Prod.mk.inj heq
  by_cases htarget : (r.update other c limits now).2 = b
  · have hafter : (r.update other c limits now).1.windowOf b = some (limits.remaining.getD 0,
        (limits.resetAfter.map (deadlineAfter now)).or (some reset)) := by
      rw [windowOf, bucket?_update, bucket?_modify, if_pos htarget, hx]
      simp [Bucket.apply, hremaining, hreset]
    rw [Shut, hway, hafter]
    cases limits.resetAfter with
    | none => simp [htarget, hle]
    | some span => simp [htarget]
  · have hafter : (r.update other c limits now).1.windowOf b = r.windowOf b := by
      rw [windowOf, bucket?_update, bucket?_modify, if_neg htarget, windowOf]
    rw [Shut, hway, hafter]
    simp [htarget, hwindow, hle]

/-- A refusal closes the bucket to which the route leads then. -/
theorem shut_refused {limits : Limits} (hb : b < r.buckets.length)
    (hleads : ∀ c, r.LeadsTo c → c < r.buckets.length)
    (hroute : limits.token.isSome = true ∨ Table.get? ρ r.routes = some b) :
    ((r.update ρ b limits now).1.block (r.update ρ b limits now).2 ending).Shut ρ
      (r.update ρ b limits now).2 ending := by
  have hway : Table.get? ρ (r.update ρ b limits now).1.routes =
      some (r.update ρ b limits now).2 := by
    cases htoken : limits.token with
    | none =>
      rw [update_of_none htoken]
      exact hroute.resolve_left (by simp [htoken])
    | some token => rw [get?_routes_update htoken, if_pos rfl]
  have hlt : (r.update ρ b limits now).2 < (r.update ρ b limits now).1.buckets.length := by
    rw [length_buckets_update]
    rcases leadsTo_update (.inl ⟨ρ, Table.mem_of_get? hway⟩) with hlead | heq
    · exact hleads _ hlead
    · rwa [heq]
  generalize r.update ρ b limits now = after at hway hlt
  obtain ⟨x, hx⟩ : ∃ x, after.1.bucket? after.2 = some x := ⟨_, List.getElem?_eq_getElem hlt⟩
  have hwindow : (after.1.block after.2 ending).windowOf after.2 =
      some (0, (x.block ending).resetAt) := by
    rw [windowOf, block, bucket?_modify, if_pos rfl, hx]
    rfl
  refine ⟨hway, _, hwindow, ?_⟩
  cases x.resetAt with
  | none => exact Nat.le_refl _
  | some reset => exact Nat.le_max_right _ _

end Registry

namespace Stage

/-- A worker sleeps until `ending` at least. -/
def sleeps (ending : Instant) : Stage → Bool
  | .stalled _ u => ending ≤ u
  | _ => false

/-- A worker has not come further than to be first in the line of a bucket. -/
def Towards (b : BucketId) : Stage → Prop
  | .fresh | .cooling _ => True
  | .queued c | .reserving c => c = b
  | .stalled _ _ | .sending _ | .resting _ => False

end Stage

namespace Dispatcher

open Registry (Shut)

variable {d : Dispatcher} {now ending : Instant} {w : WorkerId} {worker : Worker} {ρ : Route}
  {b : BucketId}

/-! ## The stage of a worker -/

/-- What a turn makes of the stage of a worker. -/
inductive Turn (d : Dispatcher) (now : Instant) (ρ : Route) : Stage → Stage → Prop where
  | cools (u : Instant) : Turn d now ρ .fresh (.cooling u)
  | queues : Turn d now ρ .fresh (.queued (d.registry.resolve ρ now).2)
  | rested {s : Stage} {u : Instant} (hs : s = .cooling u ∨ s = .resting u) (hle : u ≤ now) :
    Turn d now ρ s .fresh
  | first (b : BucketId) : Turn d now ρ (.queued b) (.reserving b)
  | again (b : BucketId) {u : Instant} (hle : u ≤ now) : Turn d now ρ (.stalled b u) (.reserving b)
  | back (b : BucketId) : Turn d now ρ (.reserving b) .fresh
  | sends {b : BucketId} {r : Registry} (hr : d.registry.reserve b now = .ok r) :
    Turn d now ρ (.reserving b) (.sending b)
  | stalls {b : BucketId} {u : Instant} (hr : d.registry.reserve b now = .error u) :
    Turn d now ρ (.reserving b) (.stalled b u)

/-- A worker is dead, and its calls with it. -/
def Dead (d : Dispatcher) (w : WorkerId) : Prop :=
  ∃ worker, d.workers[w]? = some worker ∧ worker.alive = false ∧ worker.tickets = []

/-- The dead stay dead. -/
theorem dead_shifts {e : Event} {r : Dispatcher × List DispatchEffect} (h : Shifts d now r e)
    (hd : d.Dead w) : r.1.Dead w := by
  obtain ⟨worker, hw, halive, hnone⟩ := hd
  -- A worker that has a call, or gets one, is another one.
  have hput : ∀ {v u other}, d.workers[v]? = some u → r.1.workers = (d.put v other).workers →
      (u = worker → other.alive = false ∧ other.tickets = []) → r.1.Dead w := by
    intro v u other hv hworkers hother
    rw [Dead, hworkers]
    by_cases heq : v = w
    · subst heq
      have hlt : v < d.workers.length := (List.getElem?_eq_some_iff.mp hv).1
      have hsame : u = worker := Option.some.inj (hv.symm.trans hw)
      exact ⟨other, by simp [Dispatcher.put, hlt], hother hsame⟩
    · exact ⟨worker, by simpa [Dispatcher.put, List.getElem?_set_ne heq] using hw, halive, hnone⟩
  cases h with
  | same _ _ hworkers _ _ => exact ⟨worker, hworkers ▸ hw, halive, hnone⟩
  | moves _ _ hv hp hworkers _ _ _ =>
    apply hput hv hworkers
    rintro rfl
    exact absurd hnone (Worker.tickets_ne_nil hp)
  | ends _ _ hv hp hworkers _ _ =>
    apply hput hv hworkers
    rintro rfl
    exact absurd hnone (Worker.tickets_ne_nil hp)
  | takes hv _ hm hworkers _ _ =>
    apply hput hv hworkers
    rintro rfl
    simp [Worker.tickets, hm] at hnone
  | leaves hv _ _ _ hworkers _ _ =>
    apply hput hv hworkers
    rintro rfl
    exact ⟨rfl, hnone⟩
  | dies hv hworkers _ _ =>
    apply hput hv hworkers
    intro _
    exact ⟨rfl, rfl⟩
  | joins _ _ _ _ _ hv halive' hworkers _ _ =>
    apply hput hv hworkers
    rintro rfl
    simp [halive] at halive'
  | founds _ _ _ _ _ hworkers _ _ =>
    refine ⟨worker, ?_, halive, hnone⟩
    rw [hworkers, List.getElem?_append_left (List.getElem?_eq_some_iff.mp hw).1, hw]
  | forgets id hworkers _ _ =>
    refine ⟨worker.forget id, by rw [hworkers, List.getElem?_map, hw]; rfl, halive, ?_⟩
    by_contra hne
    exact Worker.tickets_forget_ne_nil hne hnone
  | sweeps hworkers _ _ =>
    obtain ⟨retiring, hretire⟩ := getElem?_retire (d.retired now) hw
    exact ⟨{ worker with retiring }, hworkers ▸ hretire, halive, hnone⟩

/-- What becomes of a worker of a route that is at a stage with a call. -/
inductive Fate (d : Dispatcher) (now : Instant) (w : WorkerId) (ρ : Route) (s : Stage)
    (after : Dispatcher) : Prop where
  | stays (hs : after.stageAt w = some s)
  | goes {s' : Stage} (hs : after.stageAt w = some s') (hturn : Turn d now ρ s s')
  /-- A request was under way, and its answer may have come. -/
  | hears {b : BucketId} (hs : s = .sending b)
  | dies (hdead : after.Dead w)

/-- Every step brings a worker with a call one of these fates. -/
theorem fate_happens {e : Event} {r : Dispatcher × List DispatchEffect} (h : Happens d now e r)
    (hw : d.workers[w]? = some worker) {s : Stage} (hs : d.stageAt w = some s) :
    Fate d now w worker.route s r.1 := by
  obtain ⟨p, hp, rfl⟩ := Option.map_eq_some_iff.mp ((stageAt_of hw).symm.trans hs)
  have hother : ∀ {v u} (other : Worker), d.workers[v]? = some u → w ≠ v →
      (d.put v other).stageAt w = some p.stage := by
    intro v u other hv hne
    rw [stageAt_put hv, if_neg hne, hs]
  -- The turn of this worker, or that of another one.
  have hturn : ∀ {v u q s'}, d.workers[v]? = some u → u.progress = some q →
      Turn d now u.route q.stage s' → r.1.stageAt w = (d.put v (u.on q s')).stageAt w →
      Fate d now w worker.route p.stage r.1 := by
    intro v u q s' hv hq hturn hafter
    by_cases heq : w = v
    · subst heq
      obtain ⟨rfl, rfl⟩ := progress_unique hw hp hv hq
      refine .goes ?_ hturn
      rw [hafter, stageAt_put hv, if_pos rfl]
      rfl
    · exact .stays (hafter.trans (hother _ hv heq))
  -- The answer is for this worker, or for another one.
  have hanswer : ∀ {v u q b} (other : Worker), d.workers[v]? = some u → u.progress = some q →
      q.stage = .sending b → r.1.stageAt w = (d.put v other).stageAt w →
      Fate d now w worker.route p.stage r.1 := by
    intro v u q b other hv hq hsending hafter
    by_cases heq : w = v
    · subst heq
      obtain ⟨rfl, rfl⟩ := progress_unique hw hp hv hq
      exact .hears hsending
    · exact .stays (hafter.trans (hother _ hv heq))
  cases h with
  | assign _ _ _ _ _ hv _ => exact .stays ((stageAt_accept hv _ w).trans hs)
  | hire _ route _ _ _ =>
    exact .stays ((stageAt_append d (Worker.stage?_accept { route } _) w).trans hs)
  | take hv _ hq _ =>
    refine .stays (hother _ hv ?_)
    rintro rfl
    obtain rfl := Option.some.inj (hw.symm.trans hv)
    simp [hp] at hq
  | retire hv _ hq _ _ =>
    refine .stays (hother _ hv ?_)
    rintro rfl
    obtain rfl := Option.some.inj (hw.symm.trans hv)
    simp [hp] at hq
  | cool hv _ hq hstage _ _ => exact hturn hv hq (hstage ▸ .cools _) rfl
  | queue hv _ hq hstage _ => exact hturn hv hq (hstage ▸ .queues) rfl
  | rested hv _ hq hstage hle => exact hturn hv hq (.rested hstage hle) rfl
  | first hv _ hq hstage _ => exact hturn hv hq (hstage ▸ .first _) rfl
  | again hv _ hq hstage hle => exact hturn hv hq (hstage ▸ .again _ hle) rfl
  | back hv _ hq hstage _ _ => exact hturn hv hq (hstage ▸ .back _) rfl
  | execute hv _ hq hstage _ hr => exact hturn hv hq (hstage ▸ .sends hr) rfl
  | stall hv _ hq hstage _ hr => exact hturn hv hq (hstage ▸ .stalls hr) rfl
  | done hv hq hstage _ => exact hanswer _ hv hq hstage rfl
  | retry hv hq hstage _ => exact hanswer _ hv hq hstage rfl
  | pauses _ hv hq hstage _ _ _ _ => exact hanswer _ hv hq hstage rfl
  | blocks _ hv hq hstage _ _ _ _ => exact hanswer _ hv hq hstage rfl
  | @crash v u hv =>
    by_cases heq : w = v
    · subst heq
      have hlt : w < d.workers.length := (List.getElem?_eq_some_iff.mp hw).1
      exact .dies ⟨{ route := u.route, alive := false }, by simp [Dispatcher.put, hlt], rfl, rfl⟩
    · exact .stays (hother _ hv heq)
  | giveUp _ _ _ => exact .stays ((stageAt_map d (f := Worker.forget _) (fun _ => rfl) w).trans hs)
  | sweep => exact .stays ((stageAt_retire d.workers _ w).trans hs)
  | _ => exact .stays hs

/-! ## Waiting -/

/-- An answer arrives. -/
def Event.isAnswer : Event → Bool
  | .receive _ _ _ _ => true
  | _ => false

/-- A worker sleeps until `ending` at least. -/
def Asleep (d : Dispatcher) (w : WorkerId) (ending : Instant) : Prop :=
  ∃ b u, d.stageAt w = some (.stalled b u) ∧ ending ≤ u

instance (d : Dispatcher) (w : WorkerId) (ending : Instant) : Decidable (d.Asleep w ending) :=
  decidable_of_iff ((d.stageAt w).any (Stage.sleeps ending) = true) (by
    rw [Asleep]
    rcases d.stageAt w with - | s
    · simp
    · cases s <;> simp [Stage.sleeps])

/-- An answer opens the bucket of a route before the wait is over. -/
def Reopens (d : Dispatcher) (now : Instant) (ρ : Route) (b : BucketId) (ending : Instant)
    (e : Event) : Prop :=
  e.isAnswer = true ∧ now < ending ∧ d.registry.Shut ρ b ending ∧
    ¬ (d.step now e).1.registry.Shut ρ b ending

instance (d : Dispatcher) (now : Instant) (ρ : Route) (b : BucketId) (ending : Instant)
    (e : Event) : Decidable (d.Reopens now ρ b ending e) := inferInstanceAs (Decidable (_ ∧ _))

/-- No answer of a run opens the bucket of a route before a worker sleeps. -/
def Undisturbed (w : WorkerId) (ρ : Route) (b : BucketId) (ending : Instant) :
    Dispatcher → List (Instant × Event) → Prop
  | _, [] => True
  | d, (now, e) :: rest =>
    (d.Reopens now ρ b ending e → d.Asleep w ending) ∧
      Undisturbed w ρ b ending (d.step now e).1 rest

instance decidableUndisturbed (w : WorkerId) (ρ : Route) (b : BucketId) (ending : Instant) :
    ∀ d events, Decidable (Undisturbed w ρ b ending d events)
  | _, [] => .isTrue trivial
  | d, (now, e) :: rest =>
    have := decidableUndisturbed w ρ b ending (d.step now e).1 rest
    inferInstanceAs (Decidable (_ ∧ _))

/-- A worker begins no request before `ending`. -/
inductive Waits (d : Dispatcher) (w : WorkerId) (ρ : Route) (b : BucketId) (ending : Instant) :
    Prop where
  | dead (h : d.Dead w)
  | asleep (h : d.Asleep w ending)
  /-- Its route leads to a closed bucket, and it is on its way there. -/
  | held {s : Stage} (hroute : ∃ worker, d.workers[w]? = some worker ∧ worker.route = ρ)
      (hs : d.stageAt w = some s) (htowards : s.Towards b) (hshut : d.registry.Shut ρ b ending)

/-- Only an answer opens a closed bucket early. -/
theorem shut_registers {e : Event} {r : Dispatcher × List DispatchEffect}
    (h : Registers d now e r) (hk : d.registry.Keyed) (hlt : now < ending)
    (hs : d.registry.Shut ρ b ending) : r.1.registry.Shut ρ b ending ∨ e.isAnswer = true := by
  cases h with
  | counts hlike _ _ => exact .inl (hs.of_same hlike.routes (hlike.window b))
  | resolves _ hlike _ _ => exact .inl (hs.resolve.of_same hlike.routes (hlike.window b))
  | reserves _ _ _ hr _ _ _ => exact .inl (hs.of_reserve hlt hr)
  | learns he _ _ _ _ _ _ _ =>
    rw [he]
    exact .inr rfl
  | evicts _ hr _ _ =>
    rw [hr]
    exact .inl (hs.evict hk hlt)

/-- **Every step** before the end of the wait that does not disturb the worker. -/
theorem waits_happens {e : Event} {r : Dispatcher × List DispatchEffect} (h : Happens d now e r)
    (hk : d.registry.Keyed) (hlt : now < ending) (hwaits : d.Waits w ρ b ending)
    (hquiet : e.isAnswer = true → d.registry.Shut ρ b ending →
      ¬ r.1.registry.Shut ρ b ending → d.Asleep w ending) : r.1.Waits w ρ b ending := by
  cases hwaits with
  | dead hdead => exact .dead (dead_shifts (shifts_happens h) hdead)
  | asleep hasleep =>
    obtain ⟨c, u, hs, hle⟩ := hasleep
    obtain ⟨worker, -, hw, -, -⟩ := exists_of_stageAt hs
    cases fate_happens h hw hs with
    | stays hs' => exact .asleep ⟨c, u, hs', hle⟩
    | goes _ hturn =>
      cases hturn with
      | rested hstage _ => rcases hstage with hstage | hstage <;> simp at hstage
      | again _ hpast => exact absurd (Nat.le_trans hle hpast) (Nat.not_le_of_lt hlt)
    | hears hstage => simp at hstage
    | dies hdead => exact .dead hdead
  | @held s hroute hs htowards hshut =>
    have hshut' : r.1.registry.Shut ρ b ending := by
      rcases shut_registers (registers_happens h) hk hlt hshut with hshut' | hanswer
      · exact hshut'
      · by_contra hopen
        obtain ⟨c, u, hs', -⟩ := hquiet hanswer hshut hopen
        obtain rfl := Option.some.inj (hs.symm.trans hs')
        exact htowards
    obtain ⟨worker, hw, rfl⟩ := hroute
    have hroute' := route_shifts (shifts_happens h) hw
    cases fate_happens h hw hs with
    | stays hs' => exact .held hroute' hs' htowards hshut'
    | goes hs' hturn =>
      cases hturn with
      | cools u => exact .held hroute' hs' trivial hshut'
      | queues => exact .held hroute' hs' hshut.resolve_eq hshut'
      | rested _ _ => exact .held hroute' hs' trivial hshut'
      | first c => exact .held hroute' hs' htowards hshut'
      | again c _ => exact absurd htowards id
      | back c => exact .held hroute' hs' trivial hshut'
      | sends hr =>
        obtain rfl : _ = b := htowards
        obtain ⟨reset, herror, -⟩ := hshut.reserve hlt
        simp [hr] at herror
      | stalls hr =>
        obtain rfl : _ = b := htowards
        obtain ⟨reset, herror, hle⟩ := hshut.reserve hlt
        obtain rfl := Except.error.inj (hr.symm.trans herror)
        exact .asleep ⟨_, _, hs', hle⟩
    | hears hstage =>
      subst hstage
      exact absurd htowards id
    | dies hdead => exact .dead hdead

/-- A request begins with a unit of the bucket in whose line its worker is first. -/
theorem reserve_of_execute {e : Event} {r : Dispatcher × List DispatchEffect}
    (h : Happens d now e r) {q : Request} (hq : .execute w q ∈ r.2) :
    ∃ b registry, d.stageAt w = some (.reserving b) ∧ d.registry.reserve b now = .ok registry := by
  cases registers_happens h with
  | counts _ _ hno => exact absurd hq (hno w q)
  | resolves _ _ _ hno => exact absurd hq (hno w q)
  | @reserves v worker p b hw hp hs hr _ _ heq =>
    obtain ⟨rfl, -⟩ : w = v ∧ q = p.ticket.request := by simpa [heq] using hq
    refine ⟨b, _, ?_, hr⟩
    rw [stageAt_of_progress hw hp, hs]
  | learns _ _ _ _ _ _ _ hno => exact absurd hq (hno w q)
  | evicts _ _ _ hno => exact absurd hq (hno w q)

/-- Who waits begins no request. -/
theorem Waits.execute_notMem {e : Event} {r : Dispatcher × List DispatchEffect}
    (hwaits : d.Waits w ρ b ending) (h : Happens d now e r) (hlt : now < ending) (q : Request) :
    .execute w q ∉ r.2 := by
  intro hq
  obtain ⟨c, registry, hs, hr⟩ := reserve_of_execute h hq
  cases hwaits with
  | dead hdead =>
    obtain ⟨worker, hw, -, hnone⟩ := hdead
    obtain ⟨p, hp, -⟩ := Option.map_eq_some_iff.mp ((stageAt_of hw).symm.trans hs)
    exact Worker.tickets_ne_nil hp hnone
  | asleep hasleep =>
    obtain ⟨c', u, hs', -⟩ := hasleep
    simp [hs] at hs'
  | held _ hs' htowards hshut =>
    obtain rfl := Option.some.inj (hs.symm.trans hs')
    obtain rfl : c = b := htowards
    obtain ⟨reset, herror, -⟩ := hshut.reserve hlt
    simp [hr] at herror

/-- A worker that waits, undisturbed, begins no request before the end. -/
theorem le_of_waits_run {events : List (Instant × Event)} (ht : d.Tended)
    (hwaits : ending ≤ now ∨ d.Waits w ρ b ending) (hnow : ∀ x ∈ events, now ≤ x.1)
    (hmono : events.Pairwise (·.1 ≤ ·.1)) (hquiet : Undisturbed w ρ b ending d events) :
    ∀ x ∈ begun (d.run events).2, x.2.1 = w → ending ≤ x.1 := by
  rintro ⟨time, v, q⟩ hq hv
  have hv : v = w := hv
  rw [mem_begun, hv] at hq
  change ending ≤ time
  induction events generalizing d now with
  | nil => simp [run] at hq
  | cons x rest ih =>
    obtain ⟨t, e⟩ := x
    have hstep := happens_step d t e
    have hfirst : now ≤ t := hnow (t, e) (by simp)
    obtain ⟨hreopens, hrest⟩ := hquiet
    rw [List.pairwise_cons] at hmono
    -- Either the wait is over with this event, or the worker waits still.
    have hstill : ending ≤ t ∨ t < ending ∧ d.Waits w ρ b ending := by
      by_cases hle : ending ≤ t
      · exact .inl hle
      · exact .inr ⟨Nat.lt_of_not_le hle, hwaits.resolve_left fun h => hle (Nat.le_trans h hfirst)⟩
    simp only [run, List.mem_append, List.mem_map, Prod.mk.injEq] at hq
    rcases hq with ⟨_, heffect, rfl, rfl⟩ | hq
    · rcases hstill with hle | ⟨hlt, hstill⟩
      · exact hle
      · exact absurd heffect (hstill.execute_notMem hstep hlt q)
    · have hnext : ending ≤ t ∨ (d.step t e).1.Waits w ρ b ending := by
        rcases hstill with hle | ⟨hlt, hstill⟩
        · exact .inl hle
        · refine .inr (waits_happens hstep ht.keyed hlt hstill ?_)
          intro hanswer hshut hopen
          exact hreopens ⟨hanswer, hlt, hshut, hopen⟩
      exact ih (tended_happens hstep ht) hnext (fun y hy => hmono.1 y hy) hmono.2 hrest hq

/-- A refusal that is not for everybody, and that the budget of the call allows: a bucket is closed,
and the call begins anew. -/
theorem refused_happens {clock : Option Span} {draw : Float} {response : Response}
    {r : Dispatcher × List DispatchEffect}
    (h : Happens d now (.receive w clock draw (.response response)) r) {p : Progress}
    (hw : d.workers[w]? = some worker) (hp : worker.progress = some p)
    (hs : p.stage = .sending b) (hr : response.isTooMany = true) {limits : Limits}
    (hl : limits = (Limits.ofHeaders response.headers clock).withBody response.body)
    (hg : limits.isGlobal = false) (hbudget : p.tries.refusals < d.policy.maxRateLimitRetries) :
    r.1.registry = (d.registry.update worker.route b limits now).1.block
        (d.registry.update worker.route b limits now).2
        (deadlineAfter now limits.effectiveWait) ∧
      r.1.stageAt w = some .fresh := by
  subst hl
  cases h with
  | stray _ _ _ _ hno => exact absurd hs (hno worker p b hw hp)
  | done hw' hp' _ hj =>
    obtain ⟨rfl, rfl⟩ := progress_unique hw hp hw' hp'
    simp [Tries.judge_of_isTooMany hr hbudget] at hj
  | retry hw' hp' _ hj =>
    obtain ⟨rfl, rfl⟩ := progress_unique hw hp hw' hp'
    simp [Tries.judge_of_isTooMany hr hbudget] at hj
  | pauses _ _ _ _ _ _ hl hg' =>
    subst hl
    simp [hg] at hg'
  | blocks _ hw' hp' hs' _ _ hl _ =>
    subst hl
    obtain ⟨rfl, rfl⟩ := progress_unique hw hp hw' hp'
    obtain rfl : b = _ := by simpa [hs] using hs'
    refine ⟨rfl, (stageAt_put hw _ w).trans ?_⟩
    simp [Worker.stage?]

/-- **The next request of a worker after a refusal** that is not for all routes, read at `now`, with
budget left, in any run: the bucket to which its route leads is closed, and until the wait is over,
which is an hour at most, the worker begins no request, whatever happens, unless an answer opens the
bucket before the worker sleeps.

The route leads to the bucket that is closed if the refusal names its token, or if the route has not
been led away from the bucket of the request. -/
theorem execute_of_refusal (policy : RetryPolicy) (timeout idle : Span) (past : List Incident)
    (now : Instant) (w : WorkerId) (worker : Worker) (p : Progress) (b : BucketId)
    (clock : Option Span) (draw : Float) (r : Response) :
    let d := (new policy timeout idle).meetsAll past
    let limits := (Limits.ofHeaders r.headers clock).withBody r.body
    let target := (d.registry.update worker.route b limits now).2
    let ending := now + min limits.effectiveWait longestWait
    let after := (d.step now (.receive w clock draw (.response r))).1
    d.workers[w]? = some worker → worker.progress = some p → p.stage = .sending b →
    r.isTooMany = true → limits.isGlobal = false →
    p.tries.refusals < d.policy.maxRateLimitRetries →
    limits.token.isSome = true ∨ Table.get? worker.route d.registry.routes = some b →
    after.registry.Shut worker.route target ending ∧
      ∀ events : List (Instant × Event), (∀ x ∈ events, now ≤ x.1) →
        events.Pairwise (·.1 ≤ ·.1) → Undisturbed w worker.route target ending after events →
        ∀ x ∈ begun (after.run events).2, x.2.1 = w → ending ≤ x.1 := by
  intro d limits target ending after hw hp hs hr hg hbudget hroute
  have ht : d.Tended := tended_run (tended_new policy timeout idle) past
  have hstep := happens_step d now (.receive w clock draw (.response r))
  obtain ⟨hregistry, hstage⟩ := refused_happens hstep hw hp hs hr rfl hg hbudget
  have hb : b < d.registry.buckets.length := ht.accounted.sound.used.stage hw hp (by rw [hs]; rfl)
  have hshut : after.registry.Shut worker.route target ending := by
    rw [show after.registry = _ from hregistry]
    exact Registry.shut_refused hb ht.accounted.sound.leads hroute
  refine ⟨hshut, ?_⟩
  intro events hnow hmono hquiet
  have hwaits : after.Waits w worker.route target ending :=
    .held (route_shifts (shifts_happens hstep) hw) hstage trivial hshut
  exact le_of_waits_run (tended_happens hstep ht) (.inr hwaits) hnow hmono hquiet

/-! ### A refusal and an answer -/

/-- The server names a token for a route, and requests of this and of another one are under way. -/
def bothUnderWay : List (Instant × Event) :=
  underWay ++ [(0, .receive 0 none 0 (.response (answerUnder 200 "x")))] ++ turns 0 1 ++
    [(0, .submit 2 ⟨"GET", ["a"]⟩ ⟨"GET", "/a", none⟩ none)] ++ turns 0 0

/-- The refused call begins anew, the answer for the first route arrives, which says how many units
are left, and the refused call goes on, at once and a second later. -/
def interleaved (left : String) : List (Instant × Event) :=
  turns 0 1 ++
    [(0, .receive 0 none 0 (.response ⟨200, [("x-ratelimit-bucket", [Utf8.encode "x"]),
      ("x-ratelimit-remaining", [Utf8.encode left])], []⟩))] ++
    turns 0 1 ++ turns Span.second 1

/-- The second route is refused under the token of the first. The answer for the first says that no
unit is left: the refused call is attempted again when its wait is over. -/
theorem execute_of_refusal_interleaved :
    let d := (new ⟨0, 1, 0, 0⟩ 0 0).meetsAll (alone bothUnderWay)
    let after := (d.step 0 (.receive 1 none 0 (.response (answerUnder 429 "x")))).1
    after.registry.Shut ⟨"GET", ["b"]⟩ 0 Span.second ∧
      Undisturbed 1 ⟨"GET", ["b"]⟩ 0 Span.second after (interleaved "0") ∧
      (∀ x ∈ begun (after.run (interleaved "0")).2, x.2.1 = 1 → Span.second ≤ x.1) ∧
      begun (after.run (interleaved "0")).2 = [(Span.second, 1, ⟨"GET", "/b", none⟩)] := by
  intro d after
  have hready : d.workers[1]?.any (fun u => u.route = ⟨"GET", ["b"]⟩ && u.progress.any fun p =>
      p.stage = .sending 1 && decide (p.tries.refusals < d.policy.maxRateLimitRetries)) = true := by
    decide +kernel
  obtain ⟨worker, p, hw, hρ, hp, hs, hbudget⟩ : ∃ worker p, d.workers[1]? = some worker ∧
      worker.route = ⟨"GET", ["b"]⟩ ∧ worker.progress = some p ∧ p.stage = .sending 1 ∧
      p.tries.refusals < d.policy.maxRateLimitRetries := by
    cases hw : d.workers[1]? with
    | none => simp [hw] at hready
    | some worker =>
      cases hp : worker.progress with
      | none => simp [hw, hp] at hready
      | some p =>
        simp only [hw, hp, Option.any_some, Bool.and_eq_true, decide_eq_true_eq] at hready
        exact ⟨worker, p, rfl, hready.1, hp, hready.2⟩
  have htarget : (d.registry.update ⟨"GET", ["b"]⟩ 1
      ((Limits.ofHeaders (answerUnder 429 "x").headers none).withBody (answerUnder 429 "x").body)
      0).2 = 0 := by decide +kernel
  have hwait : 0 + min ((Limits.ofHeaders (answerUnder 429 "x").headers none).withBody
      (answerUnder 429 "x").body).effectiveWait longestWait = Span.second := by decide +kernel
  have hquiet : Undisturbed 1 ⟨"GET", ["b"]⟩ 0 Span.second after (interleaved "0") := by
    decide +kernel
  have hbegun : begun (after.run (interleaved "0")).2 =
      [(Span.second, 1, ⟨"GET", "/b", none⟩)] := by decide +kernel
  have hrun := execute_of_refusal ⟨0, 1, 0, 0⟩ 0 0 (alone bothUnderWay) 0 1 worker p 1 none 0
    (answerUnder 429 "x") hw hp hs (by decide +kernel) (by decide +kernel) hbudget
    (.inl (by decide +kernel))
  rw [hρ, hwait] at hrun
  obtain ⟨hshut, hbegins⟩ := hrun
  rw [htarget] at hshut hbegins
  refine ⟨hshut, hquiet, ?_, hbegun⟩
  exact hbegins (interleaved "0") (by simp) (by decide +kernel) hquiet

/-- The answer for the first route says that units are left: the refused call is attempted again at
once, while the refusal asks it to wait a second. -/
theorem execute_of_refusal_reopened :
    let d := (new ⟨0, 1, 0, 0⟩ 0 0).meetsAll (alone bothUnderWay)
    let response := answerUnder 429 "x"
    let limits := (Limits.ofHeaders response.headers none).withBody response.body
    let after := (d.step 0 (.receive 1 none 0 (.response response))).1
    d.stageAt 1 = some (.sending 1) ∧ response.isTooMany = true ∧ limits.isGlobal = false ∧
      limits.effectiveWait = Span.second ∧ after.stageAt 1 = some .fresh ∧
      begun (after.run (interleaved "4")).2 = [(0, 1, ⟨"GET", "/b", none⟩)] := by
  decide +kernel

end Dispatcher

end Switchboard
