import Switchboard.Proofs.Dispatch.Parting

/-!
# What a step is from a side

While nothing is on both sides of a dispatcher, a step is one of two things as seen from a side. If
its event concerns the side, what is seen makes the same step. If not, nothing is seen of it. Only
the cooldown is common to both sides; it may be forgotten by either when it is over, which makes no
difference.

## Main definitions

* `Cooldown.Agrees`: cooldowns that hold everybody off equally.
* `Side.event?`: an event as seen from a side.
* `Dispatcher.Shown`: what a step is from a side.

## Main results

* `Dispatcher.shown_step`: every step is shown or hidden.
-/
namespace Switchboard

namespace Cooldown

variable {c c' : Cooldown} {now : Instant}

/-- Two cooldowns hold everybody off equally, from `now` on. -/
def Agrees (c c' : Cooldown) (now : Instant) : Prop :=
  ∀ u, now < u → (c.until? = some u ↔ c'.until? = some u)

theorem Agrees.refl (c : Cooldown) (now : Instant) : c.Agrees c now := fun _ _ => Iff.rfl

theorem Agrees.mono (h : c.Agrees c' now) {later : Instant} (hle : now ≤ later) :
    c.Agrees c' later := fun u hu => h u (Nat.lt_of_le_of_lt hle hu)

theorem Agrees.over (h : c.Agrees c' now) (hc : c'.Over now) : c.Over now := by
  intro u hu
  by_contra hlt
  exact hlt (hc u ((h u (Nat.lt_of_not_le hlt)).mp hu))

theorem over_none (now : Instant) : Cooldown.none.Over now := by simp [Over, Cooldown.none]

/-- Those that are over agree. -/
theorem agrees_of_over (hc : c.Over now) (hc' : c'.Over now) : c.Agrees c' now := fun u hu =>
  ⟨fun h => absurd (hc u h) (Nat.not_le_of_lt hu), fun h => absurd (hc' u h) (Nat.not_le_of_lt hu)⟩

theorem Agrees.trigger (h : c.Agrees c' now) (ending : Instant) :
    (c.trigger ending).Agrees (c'.trigger ending) now := by
  intro u hu
  cases hcase : c.until? with
  | none =>
    cases hcase' : c'.until? with
    | none => simp [Cooldown.trigger, hcase, hcase']
    | some b =>
      have hb : b ≤ now := by
        by_contra hlt
        simpa [hcase] using (h b (Nat.lt_of_not_le hlt)).mpr hcase'
      simp only [Cooldown.trigger, hcase, hcase', Option.some.injEq]
      lia
  | some a =>
    cases hcase' : c'.until? with
    | none =>
      have ha : a ≤ now := by
        by_contra hlt
        simpa [hcase'] using (h a (Nat.lt_of_not_le hlt)).mp hcase
      simp only [Cooldown.trigger, hcase, hcase', Option.some.injEq]
      lia
    | some b =>
      have hab : a = b ∨ (a ≤ now ∧ b ≤ now) := by
        have ha := h a
        have hb := h b
        rw [hcase, hcase'] at ha hb
        simp only [Option.some.injEq] at ha hb
        lia
      simp only [Cooldown.trigger, hcase, hcase', Option.some.injEq]
      lia

end Cooldown

/-! ## The part of a run -/

/-- An event as seen from a side. -/
def Side.event? (s : Side) : Dispatcher.Event → Option Dispatcher.Event
  | .submit id route request timeout =>
    if s.route route then some (.submit id route request timeout) else none
  | .proceed w => if s.worker w then some (.proceed (s.number w)) else none
  | .receive w clock draw answer =>
    if s.worker w then some (.receive (s.number w) clock draw answer) else none
  | .crash w => if s.worker w then some (.crash (s.number w)) else none
  | .settle id => if s.call id then some (.settle id) else none
  | .sweep => some .sweep
  | .pause ending => some (.pause ending)

/-- The effect is the count of a sweep. -/
def DispatchEffect.isCount : DispatchEffect → Bool
  | .swept _ => true
  | _ => false

namespace Dispatcher

variable {s : View} {c : Cooldown} {d : Dispatcher} {now : Instant} {e : Event}
  {r : Dispatcher × List DispatchEffect} {w : WorkerId} {worker : Worker} {p : Progress}
  {b : BucketId} {id : TicketId} {x : Bool}

/-- Effects without what sweeps count. -/
def unswept (es : List DispatchEffect) : List DispatchEffect := es.filter (!·.isCount)

theorem unswept_append (es fs : List DispatchEffect) :
    unswept (es ++ fs) = unswept es ++ unswept fs := List.filter_append ..

@[simp] theorem unswept_wakeWorker (ws : List WorkerId) :
    unswept (ws.map .wakeWorker) = ws.map .wakeWorker := by
  simp [unswept, DispatchEffect.isCount]

@[simp] theorem unswept_told (callers : Table TicketId Caller) (id : TicketId) :
    unswept (told callers id) = told callers id := by
  cases hc : Table.get? id callers <;> simp [unswept, DispatchEffect.isCount, told, hc]

@[simp] theorem unswept_rousedAny (d : Dispatcher) (w : WorkerId) (b : Option BucketId) :
    unswept (d.rousedAny w b) = d.rousedAny w b := by
  cases b with
  | none => rfl
  | some b => exact unswept_wakeWorker _

theorem unswept_flatMap_told (callers : Table TicketId Caller) (ts : List Ticket) :
    unswept (ts.flatMap fun t => told callers t.id) = ts.flatMap fun t => told callers t.id := by
  induction ts with
  | nil => rfl
  | cons t rest ih => rw [List.flatMap_cons, unswept_append, unswept_told, ih]

/-! ## What is known of a parted dispatcher -/

theorem Parted.line (h : d.Parted s) {v : WorkerId} (hv : v ∈ d.line b) :
    s.worker v = s.bucket b := (h.standing v b (h.orderly.member b v hv)).symm

theorem Parted.stage (h : d.Parted s) (hw : d.workers[w]? = some worker)
    (hp : worker.progress = some p) (hs : p.stage.bucket? = some b) : s.bucket b = s.worker w :=
  h.standing w b (by rw [stageAt_of_progress hw hp]; exact hs)

theorem Parted.routed (h : d.Parted s) (hw : d.workers[w]? = some worker) (hside : s.worker w = x) :
    s.route worker.route = x := (h.workers w worker hw).symm.trans hside

/-- The line where a worker stands is on its side, with all who stand there. -/
theorem Parted.inLine (h : d.Parted s) (hw : d.workers[w]? = some worker)
    (hp : worker.progress = some p) (hs : p.stage.bucket? = some b) (hside : s.worker w = x) :
    s.bucket b = x ∧ ∀ v ∈ d.line b, s.worker v = x := by
  have hb : s.bucket b = x := (h.stage hw hp hs).trans hside
  exact ⟨hb, fun v hv => (h.line hv).trans hb⟩

/-- What an answer names is on the side of the worker who waits for it. -/
theorem Parted.named {clock : Option Span} {draw : Float} {answer : Answer} (h : d.Parted s)
    (he : d.Suits s.toSide s.token (.receive w clock draw answer))
    (hw : d.workers[w]? = some worker) (hp : worker.progress = some p) (hs : p.stage = .sending b)
    (hside : s.worker w = x) (name : String) (hname : (limitsOf clock answer).token = some name) :
    s.token name = x := ((he worker p b hw hp hs).1 name hname).trans (h.routed hw hside)

/-- The calls of a worker are on its side. -/
theorem Parted.calls (h : d.Parted s) (hw : d.workers[w]? = some worker) (hside : s.worker w = x) :
    (∀ t ∈ worker.tickets, s.call t.id = x) ∧ ∀ t ∈ worker.tickets, s.bucket t.bucket = x :=
  ⟨fun t ht => (h.tickets w worker hw t ht).1.trans hside,
    fun t ht => (h.tickets w worker hw t ht).2.trans hside⟩

theorem Parted.listed (h : d.Parted s) {ρ : Route} (hr : Table.get? ρ d.roster = some w) :
    s.worker w = s.route ρ := by
  obtain ⟨worker, hw, rfl⟩ := h.rostered.listed ρ w (Table.mem_of_get? hr)
  exact h.workers w worker hw

theorem getElem?_seen (h : s.worker w = true) (hw : d.workers[w]? = some worker) :
    (d.seen s c).workers[s.number w]? = some (worker.seen s) := by
  rw [seen, View.getElem?_workers h, hw]
  rfl

theorem head?_seen (h : d.Parted s) (hb : s.bucket b = true) (hw : s.worker w = true) :
    ((d.seen s c).line (s.rank b)).head? = some (s.number w) ↔ (d.line b).head? = some w := by
  rw [line_seen hb, List.head?_map]
  cases hhead : (d.line b).head? with
  | none => simp
  | some v =>
    have hv : s.worker v = true := (h.line (List.mem_of_head? hhead)).trans hb
    simp only [Option.map_some, Option.some.injEq]
    exact ⟨fun heq => place_inj hv hw heq, fun heq => heq ▸ rfl⟩

/-! ## What a step is from a side -/

/-- What a step is as seen from a side: the same step, or nothing. -/
inductive Shown (s : View) (c : Cooldown) (d : Dispatcher) (now : Instant)
    (r : Dispatcher × List DispatchEffect) : Option Event → Prop where
  | same {e : Event} {r' : Dispatcher × List DispatchEffect}
      (h : Happens (d.seen s c) now e r') (hstate : r'.1 = r.1.seen s r'.1.cooldown)
      (heffects : unswept r'.2 = s.effects r.2) (hc : r'.1.cooldown.Agrees r.1.cooldown now) :
    Shown s c d now r (some e)
  | hidden (hstate : r.1.seen s c = d.seen s c) (heffects : s.effects r.2 = [])
      (hc : c.Agrees r.1.cooldown now) : Shown s c d now r none

theorem seen_congr {v : Dispatcher} (hp : v.policy = d.policy)
    (ht : v.defaultTimeout = d.defaultTimeout) (hr : v.registry.seen s = d.registry.seen s)
    (hw : s.workers v.workers = s.workers d.workers)
    (hroster : s.roster v.roster = s.roster d.roster) (hl : s.lines v.lines = s.lines d.lines)
    (hcallers : s.callers v.callers = s.callers d.callers) : v.seen s c = d.seen s c := by
  simp only [seen, hp, ht, hr, hw, hroster, hl, hcallers]

theorem workers_put_seen {other other' : Worker} (h : s.worker w = true)
    (heq : other.seen s = other') :
    ((d.seen s c).put (s.number w) other').workers = s.workers (d.put w other).workers := by
  rw [put, put, View.workers_set h, heq]
  rfl

/-- A call of the side, as it is submitted. -/
theorem ticket_seen {route : Route} {request : Request} (h : s.route route = true)
    (hb : s.bucket (d.registry.resolve route now).2 = true) :
    (d.ticket now id route request).seen s = (d.seen s c).ticket now id route request := by
  simp only [ticket, seen, Ticket.seen, Registry.seen_resolve h hb]

theorem shown_submit {route : Route} {request : Request} {timeout : Option Span}
    (h : Happens d now (.submit id route request timeout) r) (hd : d.Parted s) (hr : r.1.Parted s)
    (he : s.call id = s.route route) (hc : c.Agrees d.cooldown now) :
    Shown s c d now r (s.event? (.submit id route request timeout)) := by
  have hbucket : s.bucket (d.registry.resolve route now).2 = s.route route := by
    refine hr.ways.routes _ _ (Table.mem_of_get? ?_)
    rw [routes_of_submit h]
    exact Registry.get?_routes_resolve _ _ _
  cases hside : s.route route with
  | true =>
    rw [hside] at he hbucket
    have hregistry : (d.seen s c).registry.resolve route now = _ :=
      Registry.seen_resolve hside hbucket
    have hticket : (d.ticket now id route request).seen s = _ := ticket_seen (c := c) hside hbucket
    rw [Side.event?, if_pos hside]
    cases h with
    | @assign _ _ _ _ w worker hlisted hw ha =>
      have hwside : s.worker w = true := (hd.listed hlisted).trans hside
      have hlisted' : Table.get? route (d.seen s c).roster = some (s.number w) := by
        simp [seen, View.get?_roster hside, hlisted]
      refine .same (.assign id route request timeout hlisted' (getElem?_seen hwside hw) ha) ?_ ?_ hc
      · refine eq_seen rfl rfl ?_ ?_ rfl rfl ?_
        · simp only [put, enlisted, hregistry, Registry.hold]
          exact (Registry.seen_modify hbucket _).symm
        · simp only [put, enlisted, View.workers_set hwside, Worker.seen_accept, hticket]
          rfl
        · exact (View.callers_put he _ _).symm
      · simp [unswept, DispatchEffect.isCount, Side.effects, Side.effect?, hwside]
    | hire _ _ _ _ hno =>
      have hnew : s.worker d.workers.length = true := by
        rw [hr.workers d.workers.length _ List.getElem?_concat_length, Worker.route_accept, hside]
      have hno' : ∀ v u, Table.get? route (d.seen s c).roster = some v →
          (d.seen s c).workers[v]? = some u → u.alive = false := by
        intro v u hlisted hu
        rw [seen, View.get?_roster hside, Option.map_eq_some_iff] at hlisted
        obtain ⟨w, hlisted, rfl⟩ := hlisted
        have hwside : s.worker w = true := (hd.listed hlisted).trans hside
        rw [seen, View.getElem?_workers hwside, Option.map_eq_some_iff] at hu
        obtain ⟨worker, hw, rfl⟩ := hu
        exact hno w worker hlisted hw
      refine .same (.hire id route request timeout hno') ?_ ?_ hc
      · refine eq_seen rfl rfl ?_ ?_ ?_ rfl ?_
        · simp only [enlisted, hregistry, Registry.hold]
          exact (Registry.seen_modify hbucket _).symm
        · rw [View.workers_append hnew, Worker.seen_accept, hticket]
          rfl
        · rw [View.roster_put hside, ← View.length_workers]
          rfl
        · exact (View.callers_put he _ _).symm
      · simp [unswept, DispatchEffect.isCount, Side.effects, Side.effect?, hnew, seen,
          View.length_workers]
  | false =>
    rw [hside] at he hbucket
    have hregistry : ((d.registry.resolve route now).1.hold
        (d.registry.resolve route now).2).seen s = d.registry.seen s :=
      (Registry.seen_modify_of_not hbucket _).trans (Registry.seen_resolve_of_not hside hbucket)
    rw [Side.event?, if_neg (by simp [hside])]
    cases h with
    | @assign _ _ _ _ w worker hlisted hw ha =>
      have hwside : s.worker w = false := (hd.listed hlisted).trans hside
      refine .hidden ?_ (by simp [Side.effects, Side.effect?, hwside]) hc
      exact seen_congr rfl rfl hregistry (View.workers_set_of_not hwside) rfl rfl
        (Table.part_put_of_not he _ _)
    | hire _ _ _ _ hno =>
      have hnew : s.worker d.workers.length = false := by
        rw [hr.workers d.workers.length _ List.getElem?_concat_length, Worker.route_accept, hside]
      refine .hidden ?_ (by simp [Side.effects, Side.effect?, hnew]) hc
      exact seen_congr rfl rfl hregistry (View.workers_append_of_not hnew)
        (Table.part_put_of_not hside _ _) rfl (Table.part_put_of_not he _ _)

theorem progress_seen (hp : worker.progress = some p) :
    (worker.seen s).progress = some (p.seen s) := by
  simp [Worker.seen, hp]

theorem stage_seen {stage : Stage} (hs : p.stage = stage) : (p.seen s).stage = stage.seen s := by
  rw [← hs]
  rfl

theorem held_seen (hd : d.Parted s) (hw : s.worker w = true)
    (hb : ∀ b, p.stage.bucket? = some b → s.bucket b = true) (h : d.Held now w p.stage) :
    (d.seen s c).Held now (s.number w) (p.seen s).stage := by
  cases hs : p.stage with
  | queued b =>
    rw [hs] at h hb
    rw [stage_seen hs]
    exact fun hhead => h ((head?_seen hd (hb b rfl) hw).mp hhead)
  | _ =>
    rw [hs] at h
    rw [stage_seen hs]
    exact h

/-- The turn of a worker of the side. -/
theorem shown_proceed (h : Happens d now (.proceed w) r) (hd : d.Parted s) (hr : r.1.Parted s)
    (hwside : s.worker w = true) (hc : c.Agrees d.cooldown now) :
    Shown s c d now r (some (.proceed (s.number w))) := by
  cases h with
  | idle hrests =>
    refine .same (.idle fun other hother ha => ?_) rfl rfl hc
    rw [seen, View.getElem?_workers hwside, Option.map_eq_some_iff] at hother
    obtain ⟨worker, hw, rfl⟩ := hother
    obtain ⟨hnone, hsome⟩ := hrests worker hw ha
    refine ⟨fun hp => ?_, fun q hq => ?_⟩
    · obtain ⟨hm, hretiring⟩ := hnone (by simpa [Worker.seen] using hp)
      exact ⟨by simp [Worker.seen, hm], hretiring⟩
    · obtain ⟨p, hp, rfl⟩ := Option.map_eq_some_iff.mp hq
      exact held_seen hd hwside (fun b hb => (hd.stage hw hp hb).trans hwside) (hsome p hp)
  | @take _ worker t rest hw ha hp hm =>
    have hp' : (worker.seen s).progress = none := by simp [Worker.seen, hp]
    have hm' : (worker.seen s).mailbox = t.seen s :: rest.map (·.seen s) := by
      simp [Worker.seen, hm]
    refine .same (.take (getElem?_seen hwside hw) ha hp' hm') ?_ rfl hc
    exact eq_seen rfl rfl rfl (workers_put_seen hwside (Worker.seen_takes ..)) rfl rfl rfl
  | @retire _ worker hw ha hp hm hretiring =>
    have hp' : (worker.seen s).progress = none := by simp [Worker.seen, hp]
    have hm' : (worker.seen s).mailbox = [] := by simp [Worker.seen, hm]
    refine .same (.retire (getElem?_seen hwside hw) ha hp' hm' hretiring) ?_ rfl hc
    exact eq_seen rfl rfl rfl (workers_put_seen hwside rfl) rfl rfl rfl
  | @cool _ worker p hw ha hp hs u hu hlt =>
    have hu' : (d.seen s c).cooldown.until? = some u := (hc u hlt).mpr hu
    refine .same (.cool (getElem?_seen hwside hw) ha (progress_seen hp) (stage_seen hs) hu' hlt)
      ?_ (by simp [unswept, DispatchEffect.isCount, Side.effects, Side.effect?, hwside]) hc
    exact eq_seen rfl rfl rfl (workers_put_seen hwside rfl) rfl rfl rfl
  | @queue _ worker p hw ha hp hs hover =>
    have hroute := hd.routed hw hwside
    have hb : s.bucket (d.registry.resolve worker.route now).2 = true :=
      hr.ways.resolved.trans hroute
    have hstep := Happens.queue (getElem?_seen (c := c) hwside hw) ha (progress_seen hp)
      (stage_seen hs) (hc.over hover)
    have hregistry : (d.seen s c).registry.resolve (worker.seen s).route now = _ :=
      Registry.seen_resolve hroute hb
    rw [hregistry] at hstep
    refine .same hstep ?_ rfl (.refl _ _)
    exact eq_seen rfl rfl rfl (workers_put_seen (c := c) hwside rfl) rfl
      (lines_join (c := c) hb).symm rfl
  | @rested _ worker p ending hw ha hp hs hle =>
    have hs' : (p.seen s).stage = .cooling ending ∨ (p.seen s).stage = .resting ending :=
      hs.imp stage_seen stage_seen
    refine .same (.rested (getElem?_seen hwside hw) ha (progress_seen hp) hs' hle) ?_ rfl hc
    exact eq_seen rfl rfl rfl (workers_put_seen hwside rfl) rfl rfl rfl
  | @first _ worker p b hw ha hp hs hf =>
    have hb := (hd.inLine hw hp (congrArg Stage.bucket? hs) hwside).1
    have hf' := (head?_seen (c := c) hd hb hwside).mpr hf
    refine .same (.first (getElem?_seen hwside hw) ha (progress_seen hp) (stage_seen hs) hf') ?_
      rfl hc
    exact eq_seen rfl rfl rfl (workers_put_seen hwside rfl) rfl rfl rfl
  | @again _ worker p b ending hw ha hp hs hle =>
    refine .same (.again (getElem?_seen hwside hw) ha (progress_seen hp) (stage_seen hs) hle) ?_
      rfl hc
    exact eq_seen rfl rfl rfl (workers_put_seen hwside rfl) rfl rfl rfl
  | @back _ worker p b hw ha hp hs u hu hlt =>
    obtain ⟨hb, hl⟩ := hd.inLine hw hp (congrArg Stage.bucket? hs) hwside
    have hu' : (d.seen s c).cooldown.until? = some u := (hc u hlt).mpr hu
    refine .same (.back (getElem?_seen hwside hw) ha (progress_seen hp) (stage_seen hs) hu' hlt)
      ?_ ?_ hc
    · exact eq_seen rfl rfl rfl (workers_put_seen hwside rfl) rfl
        (lines_without hb hwside hl).symm rfl
    · rw [effects_roused (c := c) hb hwside hl]
      exact unswept_wakeWorker _
  | @execute _ worker p b hw ha hp hs hover registry hreserve =>
    have hb := (hd.inLine hw hp (congrArg Stage.bucket? hs) hwside).1
    have hreserve' : (d.seen s c).registry.reserve (s.rank b) now = .ok (registry.seen s) := by
      rw [seen, Registry.seen_reserve hb, hreserve]
      rfl
    refine .same (.execute (getElem?_seen hwside hw) ha (progress_seen hp) (stage_seen hs)
      (hc.over hover) hreserve') ?_ ?_ (.refl _ _)
    · exact eq_seen rfl rfl rfl (workers_put_seen hwside rfl) rfl rfl rfl
    · simp [unswept, DispatchEffect.isCount, Side.effects, Side.effect?, hwside, Progress.seen,
        Ticket.seen]
  | @stall _ worker p b hw ha hp hs hover ending hreserve =>
    have hb := (hd.inLine hw hp (congrArg Stage.bucket? hs) hwside).1
    have hreserve' : (d.seen s c).registry.reserve (s.rank b) now = .error ending := by
      rw [seen, Registry.seen_reserve hb, hreserve]
      rfl
    refine .same (.stall (getElem?_seen hwside hw) ha (progress_seen hp) (stage_seen hs)
      (hc.over hover) hreserve') ?_ ?_ (.refl _ _)
    · exact eq_seen rfl rfl rfl (workers_put_seen hwside rfl) rfl rfl rfl
    · simp [unswept, DispatchEffect.isCount, Side.effects, Side.effect?, hwside]

/-- The turn of a worker of the other side is not seen. -/
theorem hidden_proceed (h : Happens d now (.proceed w) r) (hd : d.Parted s) (hr : r.1.Parted s)
    (hwside : s.worker w = false) (hc : c.Agrees d.cooldown now) :
    Shown s c d now r none := by
  have hput : ∀ {other}, s.workers (d.put w other).workers = s.workers d.workers := fun {_} =>
    View.workers_set_of_not hwside
  have hforgotten : d.cooldown.Over now → c.Agrees .none now := fun hover =>
    Cooldown.agrees_of_over (hc.over hover) (Cooldown.over_none now)
  cases h with
  | idle _ => exact .hidden rfl rfl hc
  | take _ _ _ _ => exact .hidden (seen_congr rfl rfl rfl hput rfl rfl rfl) rfl hc
  | retire _ _ _ _ _ => exact .hidden (seen_congr rfl rfl rfl hput rfl rfl rfl) rfl hc
  | cool _ _ _ _ _ _ =>
    exact .hidden (seen_congr rfl rfl rfl hput rfl rfl rfl)
      (by simp [Side.effects, Side.effect?, hwside]) hc
  | @queue _ worker p hw ha hp hs hover =>
    have hroute := hd.routed hw hwside
    have hb : s.bucket (d.registry.resolve worker.route now).2 = false :=
      hr.ways.resolved.trans hroute
    exact .hidden (seen_congr rfl rfl (Registry.seen_resolve_of_not hroute hb) hput rfl
      (Table.part_put_of_not hb _ _) rfl) rfl (hforgotten hover)
  | rested _ _ _ _ _ => exact .hidden (seen_congr rfl rfl rfl hput rfl rfl rfl) rfl hc
  | first _ _ _ _ _ => exact .hidden (seen_congr rfl rfl rfl hput rfl rfl rfl) rfl hc
  | again _ _ _ _ _ => exact .hidden (seen_congr rfl rfl rfl hput rfl rfl rfl) rfl hc
  | @back _ worker p b hw ha hp hs u hu hlt =>
    obtain ⟨hb, hline⟩ := hd.inLine hw hp (congrArg Stage.bucket? hs) hwside
    exact .hidden (seen_congr rfl rfl rfl hput rfl (lines_without_of_not hb) rfl)
      (effects_roused_of_not hline) hc
  | @execute _ worker p b hw ha hp hs hover registry hreserve =>
    have hb := (hd.inLine hw hp (congrArg Stage.bucket? hs) hwside).1
    exact .hidden (seen_congr rfl rfl (Registry.seen_reserve_of_not hb hreserve) hput rfl rfl rfl)
      (by simp [Side.effects, Side.effect?, hwside]) (hforgotten hover)
  | stall _ _ _ _ hover _ =>
    exact .hidden (seen_congr rfl rfl rfl hput rfl rfl rfl)
      (by simp [Side.effects, Side.effect?, hwside]) (hforgotten hover)

/-- What the workers of a side learn from an answer. -/
theorem learned_seen (now : Instant) {route : Route} {clock : Option Span} {answer : Answer}
    (hd : d.Parted s) (hroute : s.route route = true) (hb : s.bucket b = true)
    (ht : ∀ name, (limitsOf clock answer).token = some name → s.token name = true) :
    (d.seen s c).learned now route (s.rank b) (limitsOf clock answer) answer =
      (d.learned now route b (limitsOf clock answer) answer).seen s := by
  cases answer with
  | lost f => rfl
  | response response =>
    cases htoo : response.isTooMany with
    | true => simp only [learned, htoo, if_true, seen]
    | false =>
      simp only [learned, htoo, Bool.false_eq_true, if_false, seen]
      rw [Registry.seen_update hd.ways hroute hb ht]

theorem learned_of_not (now : Instant) {route : Route} {clock : Option Span} {answer : Answer}
    (hd : d.Parted s) (hroute : s.route route = false) (hb : s.bucket b = false)
    (ht : ∀ name, (limitsOf clock answer).token = some name → s.token name = false) :
    (d.learned now route b (limitsOf clock answer) answer).seen s = d.registry.seen s := by
  cases answer with
  | lost f => rfl
  | response response =>
    cases htoo : response.isTooMany with
    | true => simp only [learned, htoo, if_true]
    | false =>
      simp only [learned, htoo, Bool.false_eq_true, if_false]
      exact Registry.seen_update_of_not hd.ways hroute hb ht

/-- An answer to a worker of the side. -/
theorem shown_receive {clock : Option Span} {draw : Float} {answer : Answer}
    (h : Happens d now (.receive w clock draw answer) r) (hd : d.Parted s)
    (he : d.Suits s.toSide s.token (.receive w clock draw answer)) (hwside : s.worker w = true)
    (hc : c.Agrees d.cooldown now) :
    Shown s c d now r (some (.receive (s.number w) clock draw answer)) := by
  cases h with
  | stray _ _ _ _ hno =>
    refine .same (.stray _ clock draw answer fun other q b hother hq hs => ?_) rfl rfl hc
    rw [seen, View.getElem?_workers hwside, Option.map_eq_some_iff] at hother
    obtain ⟨worker, hw, rfl⟩ := hother
    obtain ⟨p, hp, rfl⟩ := Option.map_eq_some_iff.mp hq
    cases hstage : p.stage with
    | sending b' => exact hno worker p b' hw hp hstage
    | _ => simp [Progress.seen, hstage, Stage.seen] at hs
  | @done _ _ _ _ worker p b hw hp hs tries result hj =>
    have hroute := hd.routed hw hwside
    obtain ⟨hb, hl⟩ := hd.inLine hw hp (congrArg Stage.bucket? hs) hwside
    have hticket : p.ticket ∈ worker.tickets := by simp [Worker.tickets, Worker.running, hp]
    obtain ⟨hcalls, hbuckets⟩ := hd.calls hw hwside
    have hlearned := learned_seen (c := c) now hd hroute hb (hd.named he hw hp hs hwside)
    refine .same (.done (getElem?_seen hwside hw) (progress_seen hp) (stage_seen hs) hj) ?_ ?_ hc
    · refine eq_seen rfl rfl ?_ (workers_put_seen hwside rfl) rfl
        (lines_without hb hwside hl).symm (View.callers_answered (hcalls _ hticket) _).symm
      rw [Registry.seen_release (hbuckets _ hticket), ← hlearned]
      rfl
    · rw [Side.effects_append, effects_roused (c := c) hb hwside hl,
        View.effects_told (hcalls _ hticket), unswept_append]
      exact congrArg₂ _ (unswept_wakeWorker _) (unswept_told _ _)
  | @retry _ _ _ _ worker p b hw hp hs tries delay hj =>
    have hroute := hd.routed hw hwside
    obtain ⟨hb, hl⟩ := hd.inLine hw hp (congrArg Stage.bucket? hs) hwside
    have hlearned := learned_seen (c := c) now hd hroute hb (hd.named he hw hp hs hwside)
    refine .same (.retry (getElem?_seen hwside hw) (progress_seen hp) (stage_seen hs) hj) ?_ ?_ hc
    · exact eq_seen rfl rfl hlearned (workers_put_seen hwside rfl) rfl
        (lines_without hb hwside hl).symm rfl
    · rw [Side.effects_append, effects_roused (c := c) hb hwside hl, unswept_append]
      exact congrArg₂ _ (unswept_wakeWorker _)
        (by simp [unswept, DispatchEffect.isCount, Side.effects, Side.effect?, hwside])
  | @pauses _ _ _ response worker p b hw hp hs ht hbudget limits hl hg =>
    have hlocal := (he worker p b hw hp hs).2
    simp [isGlobal, ht, ← hl, hg] at hlocal
  | @blocks _ _ _ response worker p b hw hp hs ht hbudget limits hl hg =>
    have hroute := hd.routed hw hwside
    obtain ⟨hb, hline⟩ := hd.inLine hw hp (congrArg Stage.bucket? hs) hwside
    have htoken : ∀ name, limits.token = some name → s.token name = true := fun name hname =>
      hd.named he hw hp hs hwside name (by simpa [hl, limitsOf] using hname)
    have hupdate : (d.seen s c).registry.update (worker.seen s).route (s.rank b) limits now = _ :=
      Registry.seen_update hd.ways hroute hb htoken
    have htarget := Registry.bucket_update worker.route now hd.ways hb htoken
    have hstep :
        Happens (d.seen s c) now (.receive (s.number w) clock draw (.response response)) _ :=
      .blocks draw (getElem?_seen hwside hw) (progress_seen hp) (stage_seen hs) ht hbudget hl hg
    rw [hupdate] at hstep
    refine .same hstep ?_ ?_ hc
    · exact eq_seen rfl rfl (Registry.seen_modify htarget _).symm (workers_put_seen hwside rfl) rfl
        (lines_without hb hwside hline).symm rfl
    · rw [effects_roused (c := c) hb hwside hline]
      exact unswept_wakeWorker _

/-- An answer to a worker of the other side is not seen. -/
theorem hidden_receive {clock : Option Span} {draw : Float} {answer : Answer}
    (h : Happens d now (.receive w clock draw answer) r) (hd : d.Parted s)
    (he : d.Suits s.toSide s.token (.receive w clock draw answer)) (hwside : s.worker w = false)
    (hc : c.Agrees d.cooldown now) : Shown s c d now r none := by
  have hput : ∀ {other}, s.workers (d.put w other).workers = s.workers d.workers := fun {_} =>
    View.workers_set_of_not hwside
  cases h with
  | stray _ _ _ _ _ => exact .hidden rfl rfl hc
  | @done _ _ _ _ worker p b hw hp hs tries result hj =>
    have hroute := hd.routed hw hwside
    obtain ⟨hb, hline⟩ := hd.inLine hw hp (congrArg Stage.bucket? hs) hwside
    have hticket : p.ticket ∈ worker.tickets := by simp [Worker.tickets, Worker.running, hp]
    obtain ⟨hcalls, hbuckets⟩ := hd.calls hw hwside
    have hlearned := learned_of_not now hd hroute hb (hd.named he hw hp hs hwside)
    refine .hidden ?_ ?_ hc
    · exact seen_congr rfl rfl
        ((Registry.seen_modify_of_not (hbuckets _ hticket) _).trans hlearned) hput rfl
        (lines_without_of_not hb) (View.callers_answered_of_not (hcalls _ hticket) _)
    · rw [Side.effects_append, effects_roused_of_not hline,
        View.effects_told_of_not (hcalls _ hticket)]
      rfl
  | @retry _ _ _ _ worker p b hw hp hs tries delay hj =>
    have hroute := hd.routed hw hwside
    obtain ⟨hb, hline⟩ := hd.inLine hw hp (congrArg Stage.bucket? hs) hwside
    have hlearned := learned_of_not now hd hroute hb (hd.named he hw hp hs hwside)
    refine .hidden ?_ ?_ hc
    · exact seen_congr rfl rfl hlearned hput rfl (lines_without_of_not hb) rfl
    · rw [Side.effects_append, effects_roused_of_not hline]
      simp [Side.effects, Side.effect?, hwside]
  | @pauses _ _ _ response worker p b hw hp hs ht hbudget limits hl hg =>
    have hlocal := (he worker p b hw hp hs).2
    simp [isGlobal, ht, ← hl, hg] at hlocal
  | @blocks _ _ _ response worker p b hw hp hs ht hbudget limits hl hg =>
    have hroute := hd.routed hw hwside
    obtain ⟨hb, hline⟩ := hd.inLine hw hp (congrArg Stage.bucket? hs) hwside
    have htoken : ∀ name, limits.token = some name → s.token name = false := fun name hname =>
      hd.named he hw hp hs hwside name (by simpa [hl, limitsOf] using hname)
    have htarget := Registry.bucket_update worker.route now hd.ways hb htoken
    refine .hidden ?_ (effects_roused_of_not hline) hc
    exact seen_congr rfl rfl ((Registry.seen_modify_of_not htarget _).trans
      (Registry.seen_update_of_not hd.ways hroute hb htoken)) hput rfl (lines_without_of_not hb) rfl

/-- A worker of the side dies. -/
theorem shown_crash (h : Happens d now (.crash w) r) (hd : d.Parted s) (hwside : s.worker w = true)
    (hc : c.Agrees d.cooldown now) : Shown s c d now r (some (.crash (s.number w))) := by
  cases h with
  | nobody _ hno =>
    refine .same (.nobody _ ?_) rfl rfl hc
    rw [seen, View.getElem?_workers hwside, hno]
    rfl
  | @crash _ worker hw =>
    obtain ⟨hcalls, hbuckets⟩ := hd.calls hw hwside
    have hrunning : ∀ t ∈ worker.running ++ worker.mailbox, s.call t.id = true := fun t ht =>
      hcalls t (List.mem_append_left _ ht)
    have hoverflow : ∀ t ∈ worker.overflow, s.call t.id = true := fun t ht =>
      hcalls t (List.mem_append_right _ ht)
    have hline : s.lines (d.withoutAny w (worker.stage?.bind Stage.bucket?)) =
          (d.seen s c).withoutAny (s.number w) ((worker.seen s).stage?.bind Stage.bucket?) ∧
        s.effects (d.rousedAny w (worker.stage?.bind Stage.bucket?)) =
          (d.seen s c).rousedAny (s.number w) ((worker.seen s).stage?.bind Stage.bucket?) := by
      rw [Worker.stage_seen]
      cases hb : worker.stage?.bind Stage.bucket? with
      | none => exact ⟨rfl, rfl⟩
      | some b =>
        have hbside : s.bucket b = true :=
          (hd.standing w b (by rw [stageAt_of hw, hb])).trans hwside
        have hl : ∀ v ∈ d.line b, s.worker v = true := fun v hv => (hd.line hv).trans hbside
        exact ⟨lines_without hbside hwside hl, effects_roused hbside hwside hl⟩
    refine .same (.crash (getElem?_seen hwside hw)) ?_ ?_ hc
    · refine eq_seen rfl rfl ?_ (workers_put_seen hwside rfl) rfl hline.1.symm ?_
      · rw [View.seen_freed hbuckets, ← Worker.tickets_seen]
        rfl
      · rw [View.callers_disappointed hoverflow, View.callers_disappointed hrunning,
          List.map_append, ← Worker.running_seen]
        rfl
    · rw [Side.effects_append, hline.2, View.effects_flatMap_told hcalls, ← Worker.tickets_seen,
        unswept_append, unswept_rousedAny]
      exact congrArg _ (unswept_flatMap_told _ _)

/-- A worker of the other side dies unseen. -/
theorem hidden_crash (h : Happens d now (.crash w) r) (hd : d.Parted s)
    (hwside : s.worker w = false) (hc : c.Agrees d.cooldown now) : Shown s c d now r none := by
  cases h with
  | nobody _ _ => exact .hidden rfl rfl hc
  | @crash _ worker hw =>
    obtain ⟨hcalls, hbuckets⟩ := hd.calls hw hwside
    have hrunning : ∀ t ∈ worker.running ++ worker.mailbox, s.call t.id = false := fun t ht =>
      hcalls t (List.mem_append_left _ ht)
    have hoverflow : ∀ t ∈ worker.overflow, s.call t.id = false := fun t ht =>
      hcalls t (List.mem_append_right _ ht)
    have hline : s.lines (d.withoutAny w (worker.stage?.bind Stage.bucket?)) = s.lines d.lines ∧
        s.effects (d.rousedAny w (worker.stage?.bind Stage.bucket?)) = [] := by
      cases hb : worker.stage?.bind Stage.bucket? with
      | none => exact ⟨rfl, rfl⟩
      | some b =>
        have hbside : s.bucket b = false :=
          (hd.standing w b (by rw [stageAt_of hw, hb])).trans hwside
        exact ⟨lines_without_of_not hbside,
          effects_roused_of_not fun v hv => (hd.line hv).trans hbside⟩
    refine .hidden ?_ ?_ hc
    · refine seen_congr rfl rfl (View.seen_freed_of_not hbuckets _) (View.workers_set_of_not hwside)
        rfl hline.1 ?_
      rw [View.callers_disappointed_of_not hoverflow, View.callers_disappointed_of_not hrunning]
    · rw [Side.effects_append, hline.2, View.effects_flatMap_told_of_not hcalls]
      rfl

/-! ### Callers -/

/-- The calls of a number that wait for room are those of the workers of its side. -/
theorem stranded_seen (hd : d.Parted s) (h : s.call id = true) :
    (d.seen s c).stranded id = (d.stranded id).map (·.seen s) := by
  have hpick : (pick s.worker d.workers).flatMap (·.overflow.filter (·.id = id)) =
      d.stranded id := by
    refine flatMap_pick fun w worker hw hwside => ?_
    rw [List.filter_eq_nil_iff]
    intro t ht hid
    have hcall := (hd.calls hw hwside).1 t (List.mem_append_right _ ht)
    rw [of_decide_eq_true hid, h] at hcall
    exact absurd hcall (by simp)
  rw [← hpick, stranded, seen, View.workers, List.flatMap_map, List.map_flatMap]
  refine List.flatMap_congr fun worker _ => ?_
  simp only [Worker.seen, List.filter_map]
  rfl

theorem Parted.stranded (hd : d.Parted s) :
    ∀ t ∈ d.stranded id, s.bucket t.bucket = s.call id := by
  intro t ht
  obtain ⟨worker, hmem, ht⟩ := List.mem_flatMap.mp ht
  obtain ⟨w, hw⟩ := List.getElem?_of_mem hmem
  obtain ⟨hover, hid⟩ := List.mem_filter.mp ht
  obtain ⟨hcall, hbucket⟩ := hd.tickets w worker hw t (List.mem_append_right _ hover)
  rw [hbucket, ← hcall, of_decide_eq_true hid]

/-- A caller of the side looks for its result. -/
theorem shown_settle (h : Happens d now (.settle id) r) (hd : d.Parted s) (hid : s.call id = true)
    (hc : c.Agrees d.cooldown now) : Shown s c d now r (some (.settle id)) := by
  have hget : Table.get? id (d.seen s c).callers = Table.get? id d.callers :=
    View.get?_callers hid _
  have herase : s.callers (Table.erase id d.callers) = Table.erase id (d.seen s c).callers :=
    Table.part_erase (Table.names_id _) hid _
  cases h with
  | patient hp => exact .same (.patient (by rwa [hget])) rfl rfl hc
  | report hcaller hreply =>
    refine .same (.report (hget.trans hcaller) hreply) ?_
      (by simp [unswept, DispatchEffect.isCount, Side.effects, Side.effect?, hid]) hc
    exact eq_seen rfl rfl rfl rfl rfl rfl herase.symm
  | giveUp hcaller hreply hdead =>
    refine .same (.giveUp (hget.trans hcaller) hreply hdead) ?_
      (by simp [unswept, DispatchEffect.isCount, Side.effects, Side.effect?, hid]) hc
    refine eq_seen rfl rfl ?_ ?_ rfl rfl herase.symm
    · rw [View.seen_freed fun t ht => (hd.stranded t ht).trans hid,
        ← stranded_seen (c := c) hd hid]
      rfl
    · exact (View.workers_map (f := Worker.forget id) fun _ => Worker.seen_forget _).symm

/-- A caller of the other side is not seen. -/
theorem hidden_settle (h : Happens d now (.settle id) r) (hd : d.Parted s)
    (hid : s.call id = false) (hc : c.Agrees d.cooldown now) : Shown s c d now r none := by
  have herase : s.callers (Table.erase id d.callers) = s.callers d.callers :=
    Table.part_erase_of_not hid _
  have hquiet : ∀ result, s.effects [.finished id result] = [] := fun result => by
    simp [Side.effects, Side.effect?, hid]
  cases h with
  | patient _ => exact .hidden rfl rfl hc
  | report _ _ => exact .hidden (seen_congr rfl rfl rfl rfl rfl rfl herase) (hquiet _) hc
  | giveUp _ _ _ =>
    refine .hidden (seen_congr rfl rfl ?_ ?_ rfl rfl herase) (hquiet _) hc
    · exact View.seen_freed_of_not (fun t ht => (hd.stranded t ht).trans hid) _
    · refine View.workers_map_of_not fun w worker hw hwside => ?_
      have hkept : worker.overflow.filter (·.id ≠ id) = worker.overflow := by
        rw [List.filter_eq_self]
        intro t ht
        have hcall := (hd.calls hw hwside).1 t (List.mem_append_right _ ht)
        refine decide_eq_true fun heq => ?_
        rw [heq, hid] at hcall
        exact absurd hcall (by simp)
      rw [Worker.forget, hkept]

/-! ### Sweeps -/

/-- The workers of the side that a sweep retires. -/
theorem retired_seen (hd : d.Parted s) :
    (d.seen s c).retired now = ((d.retired now).filter s.worker).map s.number := by
  have hlisted : ∀ routes : List Route,
      (routes.filter s.route).filterMap (fun ρ => Table.get? ρ (s.roster d.roster)) =
        ((routes.filterMap fun ρ => Table.get? ρ d.roster).filter s.worker).map s.number := by
    intro routes
    induction routes with
    | nil => rfl
    | cons ρ rest ih =>
      cases hside : s.route ρ with
      | true =>
        rw [List.filter_cons_of_pos hside, List.filterMap_cons, View.get?_roster hside,
          List.filterMap_cons]
        cases hget : Table.get? ρ d.roster with
        | none => exact ih
        | some w => simp [(hd.listed hget).trans hside, ih]
      | false =>
        rw [List.filter_cons_of_neg (by simp [hside]), List.filterMap_cons]
        cases hget : Table.get? ρ d.roster with
        | none => exact ih
        | some w => simp [(hd.listed hget).trans hside, ih]
  rw [retired, seen, Registry.seen_evict hd.ways, hlisted, retired]

/-- A sweep is one of what is seen. -/
theorem shown_sweep (h : Happens d now .sweep r) (hd : d.Parted s) (hc : c.Agrees d.cooldown now) :
    Shown s c d now r (some .sweep) := by
  cases h with
  | sweep =>
    have hevict : (d.seen s c).registry.evict now = _ := Registry.seen_evict hd.ways
    have hretired : (d.seen s c).retired now = _ := retired_seen hd
    have hstep : Happens (d.seen s c) now .sweep _ := .sweep
    rw [hevict, hretired] at hstep
    refine .same hstep ?_ ?_ hc
    · refine eq_seen rfl rfl rfl (View.workers_retire ..).symm ?_ rfl rfl
      refine (Table.part_filter fun x _ hx => ?_).symm
      simp [List.mem_filter, hx]
    · rw [Side.effects_append, Side.effects_wakeWorker, unswept_append, unswept_wakeWorker]
      rfl

/-- **What a step is from a side**: the same step for what is seen, or nothing. -/
theorem shown_step (hd : d.Parted s) (hr : (d.step now e).1.Parted s)
    (he : d.Suits s.toSide s.token e) (hc : c.Agrees d.cooldown now) :
    Shown s c d now (d.step now e) (s.event? e) := by
  have h := happens_step d now e
  generalize d.step now e = r at h hr
  cases e with
  | submit id route request timeout => exact shown_submit h hd hr he hc
  | proceed w =>
    cases hside : s.worker w with
    | true => simpa [Side.event?, hside] using shown_proceed h hd hr hside hc
    | false => simpa [Side.event?, hside] using hidden_proceed h hd hr hside hc
  | receive w clock draw answer =>
    cases hside : s.worker w with
    | true => simpa [Side.event?, hside] using shown_receive h hd he hside hc
    | false => simpa [Side.event?, hside] using hidden_receive h hd he hside hc
  | crash w =>
    cases hside : s.worker w with
    | true => simpa [Side.event?, hside] using shown_crash h hd hside hc
    | false => simpa [Side.event?, hside] using hidden_crash h hd hside hc
  | settle id =>
    cases hside : s.call id with
    | true => simpa [Side.event?, hside] using shown_settle h hd hside hc
    | false => simpa [Side.event?, hside] using hidden_settle h hd hside hc
  | sweep => exact shown_sweep h hd hc
  | pause ending =>
    cases h with
    | pause _ => exact .same (.pause ending) rfl rfl (hc.trigger ending)

end Dispatcher

end Switchboard
