import Switchboard.Proofs.Dispatch.Eviction
import Switchboard.Proofs.Dispatch.View

/-!
# Two sides that share nothing

If no token is named to routes of both sides, then every bucket belongs to one side: that of the
route for which it was made. Workers use buckets of their side only, and stand in line with workers
of their side only. The side of a bucket is known when it is made, and which one it will be for the
buckets of a run can be told in advance.

## Main definitions

* `Dispatcher.Parted`: nothing is on both sides.
* `Dispatcher.Suits`, `Dispatcher.Fits`: the events of a run do not bring the sides together.
* `Dispatcher.Always`: something holds all the time.

## Main results

* `Dispatcher.standing_happens`: where workers stand in line after a step.
* `Dispatcher.parted_happens`: a step keeps the sides apart.
* `Dispatcher.exists_parted`: the sides are apart all through a run, with a side for each bucket.
-/
namespace Switchboard

/-! ## Ways to buckets -/

namespace Registry

variable {s : View} {r r' : Registry} {ρ : Route} {b : BucketId} {limits : Limits} {now : Instant}

theorem Parted.of_sameWays (h : r.Parted s) (hways : r.SameWays r') : r'.Parted s where
  routes := hways.routes ▸ h.routes
  tokens := hways.tokens ▸ h.tokens

theorem Parted.resolve (h : r.Parted s)
    (hnew : (ρ, r.buckets.length) ∈ (r.resolve ρ now).1.routes →
      s.bucket r.buckets.length = s.route ρ) : (r.resolve ρ now).1.Parted s := by
  cases hget : Table.get? ρ r.routes with
  | some id => rwa [resolve_of_get? hget]
  | none =>
    rw [resolve_of_none hget] at hnew ⊢
    refine ⟨fun ρ' b hb => ?_, h.tokens⟩
    rcases Table.mem_put hb with heq | hb'
    · obtain ⟨rfl, rfl⟩ := Prod.mk.inj heq
      exact hnew hb
    · exact h.routes ρ' b hb'

/-- The bucket of a route is on its side. -/
theorem Parted.resolved (h : (r.resolve ρ now).1.Parted s) :
    s.bucket (r.resolve ρ now).2 = s.route ρ :=
  h.routes _ _ (Table.mem_of_get? (get?_routes_resolve _ _ _))

theorem Parted.update (h : r.Parted s) (hb : s.bucket b = s.route ρ)
    (ht : ∀ token, limits.token = some token → s.token token = s.route ρ) :
    (r.update ρ b limits now).1.Parted s := by
  have htarget := bucket_update ρ now h hb ht
  cases htoken : limits.token with
  | none =>
    simp only [Registry.update, htoken]
    exact ⟨h.routes, h.tokens⟩
  | some token =>
    simp only [Registry.update, htoken] at htarget ⊢
    refine ⟨fun ρ' c hc => ?_, fun token' c hc => ?_⟩
    · rcases Table.mem_put hc with heq | hc
      · obtain ⟨rfl, rfl⟩ := Prod.mk.inj heq
        exact htarget
      · exact h.routes ρ' c hc
    · rcases Table.mem_put hc with heq | hc
      · obtain ⟨rfl, rfl⟩ := Prod.mk.inj heq
        exact htarget.trans (ht token' htoken).symm
      · exact h.tokens token' c hc

theorem Parted.evict (h : r.Parted s) (now : Instant) : (r.evict now).1.Parted s where
  routes ρ b hb := h.routes ρ b (List.mem_filter.mp hb).1
  tokens token b hb := h.tokens token b (List.mem_filter.mp hb).1

end Registry

namespace Dispatcher

variable {s : View} {d : Dispatcher} {now : Instant} {e : Event}
  {r : Dispatcher × List DispatchEffect} {events : List (Instant × Event)}

/-! ## Places in lines -/

/-- Who stands in the line of a bucket stood there before, or came there by its route. -/
theorem standing_happens (h : Happens d now e r) {v : WorkerId} {b : BucketId}
    (hb : (r.1.stageAt v).bind Stage.bucket? = some b) :
    (d.stageAt v).bind Stage.bucket? = some b ∨ ∃ worker, d.workers[v]? = some worker ∧
      Table.get? worker.route r.1.registry.routes = some b := by
  have hput : ∀ {w worker other}, d.workers[w]? = some worker →
      r.1.workers = (d.put w other).workers →
      (∀ c, other.stage?.bind Stage.bucket? = some c →
        worker.stage?.bind Stage.bucket? = some c) →
      (d.stageAt v).bind Stage.bucket? = some b := by
    intro w worker other hw hworkers hless
    have hat : r.1.stageAt v = (d.put w other).stageAt v := by rw [stageAt, hworkers, stageAt]
    rw [hat, stageAt_put hw] at hb
    split at hb
    case isTrue heq =>
      rw [heq, stageAt_of hw]
      exact hless b hb
    case isFalse => exact hb
  have hout : ∀ {w worker p p'}, d.workers[w]? = some worker → worker.progress = some p →
      r.1.workers = (d.put w { worker with progress := some p' }).workers →
      p'.stage.bucket? = none → (d.stageAt v).bind Stage.bucket? = some b := by
    intro w worker p p' hw hp hworkers hnone
    exact hput hw hworkers fun c hc => by simp [Worker.stage?, hnone] at hc
  have hon : ∀ {w worker p stage}, d.workers[w]? = some worker → worker.progress = some p →
      r.1.workers = (d.put w (worker.on p stage)).workers → stage.bucket? = p.stage.bucket? →
      (d.stageAt v).bind Stage.bucket? = some b := by
    intro w worker p stage hw hp hworkers hsame
    refine hput hw hworkers fun c hc => ?_
    rw [Worker.stage?, hp]
    exact hsame.symm.trans hc
  cases h with
  | assign _ _ _ _ _ hw _ => exact .inl (stageAt_accept hw _ v ▸ hb)
  | hire _ route _ _ _ =>
    exact .inl (stageAt_append d (Worker.stage?_accept { route } _) v ▸ hb)
  | take hw _ hp _ =>
    exact .inl (hput hw rfl (by simp [Worker.stage?, Worker.takes, Stage.bucket?]))
  | retire hw _ _ _ _ => exact .inl (hput hw rfl fun _ hc => hc)
  | cool hw _ hp _ _ _ => exact .inl (hout hw hp rfl rfl)
  | @queue w worker p hw _ hp _ _ =>
    have hat := stageAt_put hw (worker.on p (.queued (d.registry.resolve worker.route now).2)) v
    replace hb := (congrArg (·.bind Stage.bucket?) hat).symm.trans hb
    split at hb
    case isTrue heq =>
      obtain rfl : (d.registry.resolve worker.route now).2 = b := Option.some.inj hb
      exact .inr ⟨worker, heq ▸ hw, Registry.get?_routes_resolve _ _ _⟩
    case isFalse => exact .inl hb
  | rested hw _ hp _ _ => exact .inl (hout hw hp rfl rfl)
  | first hw _ hp hs _ => exact .inl (hon hw hp rfl (by rw [hs]; rfl))
  | again hw _ hp hs _ => exact .inl (hon hw hp rfl (by rw [hs]; rfl))
  | back hw _ hp _ _ _ => exact .inl (hout hw hp rfl rfl)
  | execute hw _ hp hs _ _ => exact .inl (hon hw hp rfl (by rw [hs]; rfl))
  | stall hw _ hp hs _ _ => exact .inl (hon hw hp rfl (by rw [hs]; rfl))
  | done hw hp _ _ => exact .inl (hput hw rfl (by simp [Worker.stage?]))
  | retry hw hp _ _ => exact .inl (hout hw hp rfl rfl)
  | pauses _ hw hp _ _ _ _ _ => exact .inl (hout hw hp rfl rfl)
  | blocks _ hw hp _ _ _ _ _ => exact .inl (hout hw hp rfl rfl)
  | crash hw => exact .inl (hput hw rfl (by simp [Worker.stage?]))
  | giveUp _ _ _ => exact .inl (stageAt_map d (f := Worker.forget _) (fun _ => rfl) v ▸ hb)
  | sweep =>
    exact .inl ((congrArg (·.bind Stage.bucket?) (stageAt_retire d.workers _ v)).symm.trans hb)
  | _ => exact .inl hb

/-! ## What is on a side stays there -/

/-- Nothing of a dispatcher is on both sides. -/
structure Parted (s : View) (d : Dispatcher) : Prop where
  ways : d.registry.Parted s
  workers : Every d.workers fun w worker => s.worker w = s.route worker.route
  standing : ∀ w b, (d.stageAt w).bind Stage.bucket? = some b → s.bucket b = s.worker w
  tickets : Every d.workers fun w worker => ∀ t ∈ worker.tickets,
    s.call t.id = s.worker w ∧ s.bucket t.bucket = s.worker w
  rostered : d.Rostered
  orderly : d.Orderly
  sound : d.Sound

theorem parted_new (s : View) (policy : RetryPolicy) (timeout idle : Span) :
    (new policy timeout idle).Parted s where
  ways := by constructor <;> simp [new, Registry.new]
  workers := by simp [new, Every]
  standing := by simp [new, stageAt]
  tickets := by simp [new, Every]
  rostered := rostered_new policy timeout idle
  orderly := orderly_new policy timeout idle
  sound := sound_new policy timeout idle

/-- The answer is a refusal that is for all routes. -/
def isGlobal (clock : Option Span) : Answer → Bool
  | .response r => r.isTooMany && ((Limits.ofHeaders r.headers clock).withBody r.body).isGlobal
  | .lost _ => false

/-- An event does not bring the sides together: a call is of the side of its route, and an answer
names a token of the side of its route, and is not for all routes. -/
def Suits (s : Side) (token : String → Bool) (d : Dispatcher) : Event → Prop
  | .submit id route _ _ => s.call id = s.route route
  | .receive w clock _ answer => ∀ worker p b, d.workers[w]? = some worker →
      worker.progress = some p → p.stage = .sending b →
      (∀ name, (limitsOf clock answer).token = some name → token name = s.route worker.route) ∧
        isGlobal clock answer = false
  | _ => True

/-- The registry is parted if a bucket that is made is on the side of its route. -/
theorem ways_parted (h : Registers d now e r) (hd : d.Parted s) (he : d.Suits s.toSide s.token e)
    (hnew : ∀ ρ, (ρ, d.registry.buckets.length) ∈ r.1.registry.routes →
      s.bucket d.registry.buckets.length = s.route ρ) : r.1.registry.Parted s := by
  cases h with
  | counts hlike _ _ => exact hd.ways.of_sameWays hlike.toSameWays
  | resolves _ hlike _ _ =>
    refine (hd.ways.resolve fun hmem => hnew _ ?_).of_sameWays hlike.toSameWays
    rwa [hlike.routes]
  | reserves _ _ _ hr _ _ _ => exact hd.ways.of_sameWays (Registry.sameWays_reserve hr)
  | @learns w clock draw answer worker p b limits heq hw hp hs hl hways _ _ =>
    subst heq
    refine (hd.ways.update ?_ fun name hname => ?_).of_sameWays hways
    · rw [← hd.workers w worker hw]
      exact hd.standing w b (by rw [stageAt_of_progress hw hp, hs]; rfl)
    · exact (he worker p b hw hp hs).1 name (hl ▸ hname)
  | evicts _ hr _ _ => exact hr ▸ hd.ways.evict now

/-- **A step keeps the sides apart**, if the event suits them and what is new is on the side of its
route. -/
theorem parted_happens (h : Happens d now e r) (hd : d.Parted s)
    (he : d.Suits s.toSide s.token e)
    (hworkers : Every r.1.workers fun w worker => s.worker w = s.route worker.route)
    (hnew : ∀ ρ, (ρ, d.registry.buckets.length) ∈ r.1.registry.routes →
      s.bucket d.registry.buckets.length = s.route ρ) : r.1.Parted s := by
  have hways : r.1.registry.Parted s := ways_parted (registers_happens h) hd he hnew
  have hshifts := shifts_happens h
  refine ⟨hways, hworkers, fun v b hb => ?_, fun v u hu t ht => ?_,
    rostered_shifts hshifts hd.rostered, orderly_happens h hd.orderly,
    sound_registers (registers_happens h) hd.sound⟩
  · rcases standing_happens h hb with hb | ⟨worker, hv, hroute⟩
    · exact hd.standing v b hb
    · rw [hd.workers v worker hv]
      exact hways.routes _ _ (Table.mem_of_get? hroute)
  · rcases traced_shifts hshifts hd.rostered v u hu t ht with
      ⟨worker, hw, -, hmem⟩ | ⟨id, request, timeout, rfl, rfl⟩
    · exact hd.tickets v worker hw t hmem
    · rw [hworkers v u hu]
      refine ⟨he, hways.routes _ _ (Table.mem_of_get? ?_)⟩
      rw [routes_of_submit h]
      exact Registry.get?_routes_resolve _ _ _

/-! ## Along a run -/

/-- All events of a run suit the sides, and workers are on the side of their routes. -/
def Fits (s : Side) (token : String → Bool) : Dispatcher → List (Instant × Event) → Prop
  | _, [] => True
  | d, (now, e) :: rest => d.Suits s token e ∧
      (Every (d.step now e).1.workers fun w worker => s.worker w = s.route worker.route) ∧
      Fits s token (d.step now e).1 rest

/-- It holds all through a run. -/
def Always (P : Dispatcher → Prop) : Dispatcher → List (Instant × Event) → Prop
  | d, [] => P d
  | d, (now, e) :: rest => P d ∧ Always P (d.step now e).1 rest

theorem Always.head {P : Dispatcher → Prop} (h : Always P d events) : P d := by
  cases events with
  | nil => exact h
  | cons x rest => exact h.1

/-- The sides of buckets that do not exist do not matter. -/
theorem Parted.congr {bucket : BucketId → Bool} (h : d.Parted s)
    (hb : ∀ b < d.registry.buckets.length, bucket b = s.bucket b) :
    d.Parted { s with bucket } where
  ways :=
    { routes := fun ρ b hmem =>
        (hb b (h.sound.leads b (.inl ⟨ρ, hmem⟩))).trans (h.ways.routes ρ b hmem)
      tokens := fun token b hmem =>
        (hb b (h.sound.leads b (.inr ⟨token, hmem⟩))).trans (h.ways.tokens token b hmem) }
  workers := h.workers
  standing w b hw := by
    obtain ⟨stage, hstage, hbucket⟩ := Option.bind_eq_some_iff.mp hw
    obtain ⟨worker, p, hworker, hp, rfl⟩ := exists_of_stageAt hstage
    exact (hb b (h.sound.used.stage hworker hp hbucket)).trans (h.standing w b hw)
  tickets w worker hw t ht := by
    obtain ⟨hcall, hbucket⟩ := h.tickets w worker hw t ht
    exact ⟨hcall, (hb _ (h.sound.used w worker hw _ (Worker.uses_of_ticket ht))).trans hbucket⟩
  rostered := h.rostered
  orderly := h.orderly
  sound := h.sound

/-- Buckets are never forgotten. -/
theorem length_buckets_registers (h : Registers d now e r) :
    d.registry.buckets.length ≤ r.1.registry.buckets.length := by
  cases h with
  | counts hlike _ _ => exact Nat.le_of_eq hlike.length.symm
  | resolves _ hlike _ _ =>
    rw [hlike.length]
    exact Registry.length_buckets_resolve ..
  | reserves _ _ _ hr _ _ _ => exact Nat.le_of_eq (Registry.sameWays_reserve hr).length.symm
  | learns _ _ _ _ _ hways _ _ => rw [hways.length, Registry.length_buckets_update]
  | evicts _ hr _ _ => exact Nat.le_of_eq (hr ▸ rfl)

/-- At most one route leads to a bucket that was just made. -/
theorem exists_side_of_new (h : Registers d now e r) (hs : d.Sound) (s : Side) :
    ∃ x, ∀ ρ, (ρ, d.registry.buckets.length) ∈ r.1.registry.routes → x = s.route ρ := by
  have hold : ∀ ρ, (ρ, d.registry.buckets.length) ∉ d.registry.routes := fun ρ hmem =>
    Nat.lt_irrefl _ (hs.leads _ (.inl ⟨ρ, hmem⟩))
  have hnone : (∀ ρ, (ρ, d.registry.buckets.length) ∉ r.1.registry.routes) →
      ∃ x, ∀ ρ, (ρ, d.registry.buckets.length) ∈ r.1.registry.routes → x = s.route ρ :=
    fun hnot => ⟨true, fun ρ hmem => absurd hmem (hnot ρ)⟩
  cases h with
  | counts hlike _ _ => exact hnone fun ρ => hlike.routes ▸ hold ρ
  | @resolves ρ _ hlike _ _ =>
    refine ⟨s.route ρ, fun ρ' hmem => ?_⟩
    rw [hlike.routes] at hmem
    cases hget : Table.get? ρ d.registry.routes with
    | some id =>
      rw [Registry.resolve_of_get? hget] at hmem
      exact absurd hmem (hold ρ')
    | none =>
      rw [Registry.resolve_of_none hget] at hmem
      rcases Table.mem_put hmem with heq | hmem
      · rw [(Prod.mk.inj heq).1]
      · exact absurd hmem (hold ρ')
  | reserves _ _ _ hr _ _ _ => exact hnone fun ρ => (Registry.sameWays_reserve hr).routes ▸ hold ρ
  | learns _ hw hp hstage _ hways _ _ =>
    refine hnone fun ρ hmem => ?_
    rcases Registry.leadsTo_update (hways.leadsTo (.inl ⟨ρ, hmem⟩)) with hleads | heq
    · exact Nat.lt_irrefl _ (hs.leads _ hleads)
    · have hlt := hs.used.stage hw hp (by rw [hstage]; rfl)
      exact absurd heq (Nat.ne_of_gt hlt)
  | evicts _ hr _ _ => exact hnone fun ρ hmem => hold ρ (List.mem_filter.mp (hr ▸ hmem)).1

/-- **The sides stay apart**: there is a side for every bucket of a run, such that nothing is ever
on both. -/
theorem exists_parted (hd : d.Parted s) (hfits : Fits s.toSide s.token d events) :
    ∃ bucket, (∀ b < d.registry.buckets.length, bucket b = s.bucket b) ∧
      Always (Parted { s with bucket }) d events := by
  induction events generalizing d s with
  | nil => exact ⟨s.bucket, fun _ _ => rfl, hd⟩
  | cons x rest ih =>
    obtain ⟨now, e⟩ := x
    obtain ⟨hsuits, hworkers, hrest⟩ := hfits
    have hstep := happens_step d now e
    have hregisters := registers_happens hstep
    obtain ⟨side, hside⟩ := exists_side_of_new hregisters hd.sound s.toSide
    let next : View :=
      { s with bucket := fun b => if b = d.registry.buckets.length then side else s.bucket b }
    have hold : ∀ b < d.registry.buckets.length, next.bucket b = s.bucket b := fun b hb =>
      if_neg (Nat.ne_of_lt hb)
    have hnext : (d.step now e).1.Parted next :=
      parted_happens hstep (hd.congr hold) hsuits hworkers fun ρ hmem =>
        (if_pos rfl).trans (hside ρ hmem)
    obtain ⟨bucket, hbucket, hall⟩ := ih hnext hrest
    have hagree : ∀ b < d.registry.buckets.length, bucket b = s.bucket b := fun b hb =>
      (hbucket b (Nat.lt_of_lt_of_le hb (length_buckets_registers hregisters))).trans (hold b hb)
    exact ⟨bucket, hagree, hd.congr hagree, hall⟩

end Dispatcher

end Switchboard
