import Switchboard.Proofs.Dispatch.LongestWait
import Switchboard.Proofs.Dispatch.Trials
import Switchboard.Proofs.Dispatch.Units

/-!
# Every call can come to its end

However the buckets, the pauses and the lines stand, a worker with a call can go on: once all
windows and pauses are over, those before it in its line get their units one after the other, and
when their requests are answered it is the turn of the worker. So a call comes to its end with
enough answers, and then it has the result that these answers make of it.

## Main definitions

* `Dispatcher.Lined`, `Dispatcher.Staffed`: who stands in line is listed there, and who has a call
  is alive.
* `Dispatcher.Diligent`: what holds of workers and lines between two steps.
* `Dispatcher.Ready`: nothing that anybody waits for ends later than an instant.
* `Dispatcher.Serves`: a request of a worker can begin.

## Main results

* `Dispatcher.diligent_happens`: what every step preserves.
* `Dispatcher.serves_of_ready`: a worker with a call can have its turn.
* `Dispatcher.outcome_of_run`: what comes of a call, and that it can always come of it.
-/
namespace Switchboard

/-- The instant at which a worker goes on by itself. -/
def Stage.wakes? : Stage → Option Instant
  | .cooling ending | .stalled _ ending | .resting ending => some ending
  | .fresh | .queued _ | .reserving _ | .sending _ => none

namespace Dispatcher

variable {d d' : Dispatcher} {now time : Instant} {w v : WorkerId} {worker : Worker}
  {p : Progress} {b c : BucketId} {e : Event} {r : Dispatcher × List DispatchEffect}

/-! ## Workers and lines -/

/-- Who stands in line is listed there. -/
def Lined (d : Dispatcher) : Prop :=
  ∀ w b, (d.stageAt w).bind Stage.bucket? = some b → w ∈ d.line b

theorem mem_line_of_join (hl : d'.lines = (d.join b w).lines) :
    w ∈ d'.line b ∧ ∀ c v, v ∈ d.line c → v ∈ d'.line c := by
  have hline : ∀ c, d'.line c = if c = b then d.line b ++ [w] else d.line c := fun c => by
    rw [line, hl, Dispatcher.join, Table.get?_put]
    split <;> rfl
  refine ⟨?_, fun c v hv => ?_⟩
  · rw [hline, if_pos rfl]
    exact List.mem_append_right _ (List.mem_singleton_self w)
  · rw [hline]
    split
    case isTrue heq => exact List.mem_append_left _ (heq ▸ hv)
    case isFalse => exact hv

theorem line_of_without (hl : d'.lines = d.without b w) (c : BucketId) :
    d'.line c = if c = b then (d.line b).erase w else d.line c := by
  rw [line, hl, without, Table.get?_put]
  split <;> rfl

theorem mem_line_of_without (hl : d'.lines = d.without b w) (hne : v ≠ w) (hmem : v ∈ d.line c) :
    v ∈ d'.line c := by
  rw [line_of_without hl]
  split
  case isTrue heq => exact (List.mem_erase_of_ne hne).mpr (heq ▸ hmem)
  case isFalse => exact hmem

/-- A worker that changes its stage is listed where it stands then, and the others stay. -/
theorem Lined.put (h : d.Lined) (hw : d.workers[w]? = some worker) (other : Worker)
    (hworkers : d'.workers = (d.put w other).workers)
    (hlisted : ∀ c, other.stage?.bind Stage.bucket? = some c → w ∈ d'.line c)
    (hothers : ∀ c v, v ≠ w → v ∈ d.line c → v ∈ d'.line c) : d'.Lined := by
  intro v c hv
  have hstage : d'.stageAt v = if v = w then other.stage? else d.stageAt v := by
    rw [stageAt, hworkers]
    exact stageAt_put hw other v
  rw [hstage] at hv
  split at hv
  case isTrue heq => exact heq ▸ hlisted c hv
  case isFalse hne => exact hothers c v hne (h v c hv)

theorem lined_happens (h : Happens d now e r) (hd : d.Lined) : r.1.Lined := by
  have hsame : r.1.lines = d.lines → (∀ v, r.1.stageAt v = d.stageAt v) → r.1.Lined := by
    intro hl hs v c hv
    rw [hs] at hv
    rw [line, hl]
    exact hd v c hv
  -- The lines stay, and so does the one in which the worker stands, if it stands in one.
  have hstays : ∀ {w worker} (other : Worker), d.workers[w]? = some worker →
      r.1.workers = (d.put w other).workers → r.1.lines = d.lines →
      (∀ c, other.stage?.bind Stage.bucket? = some c →
        worker.stage?.bind Stage.bucket? = some c) → r.1.Lined := by
    intro w worker other hw hworkers hl hbucket
    have hline : ∀ c, r.1.line c = d.line c := fun c => by rw [line, hl, line]
    refine hd.put hw other hworkers (fun c hc => ?_) fun c v _ hv => (hline c).symm ▸ hv
    rw [hline]
    exact hd w c (by rw [stageAt_of hw]; exact hbucket c hc)
  have hon : ∀ {w worker p stage}, d.workers[w]? = some worker → worker.progress = some p →
      r.1.workers = (d.put w (worker.on p stage)).workers → r.1.lines = d.lines →
      (∀ c, stage.bucket? = some c → p.stage.bucket? = some c) → r.1.Lined := by
    intro w worker p stage hw hp hworkers hl hbucket
    refine hstays _ hw hworkers hl fun c hc => ?_
    rw [Worker.stage?, hp]
    exact hbucket c hc
  -- The worker leaves the line in which it stands.
  have hleaves : ∀ {w worker b} (other : Worker), d.workers[w]? = some worker →
      r.1.workers = (d.put w other).workers → r.1.lines = d.without b w →
      other.stage?.bind Stage.bucket? = none → r.1.Lined := by
    intro w worker b other hw hworkers hl hnone
    refine hd.put hw other hworkers (fun c hc => ?_) fun c v hne => mem_line_of_without hl hne
    rw [hnone] at hc
    simp at hc
  cases h with
  | assign _ _ _ _ _ hw _ => exact hsame rfl (stageAt_accept hw _)
  | hire _ route _ _ _ => exact hsame rfl (stageAt_append d (Worker.stage?_accept { route } _))
  | take hw _ _ _ =>
    exact hstays _ hw rfl rfl (by simp [Worker.stage?, Worker.takes, Stage.bucket?])
  | retire hw _ _ _ _ => exact hstays _ hw rfl rfl fun _ hc => hc
  | cool hw _ hp _ _ _ => exact hon hw hp rfl rfl (by simp [Stage.bucket?])
  | @queue w worker p hw _ hp _ _ =>
    obtain ⟨hself, hothers⟩ := mem_line_of_join (d := d) rfl
    refine hd.put hw _ rfl (fun c hc => ?_) fun c v _ => hothers c v
    obtain rfl := Option.some.inj hc
    exact hself
  | rested hw _ hp _ _ => exact hon hw hp rfl rfl (by simp [Stage.bucket?])
  | first hw _ hp hs _ => exact hon hw hp rfl rfl (by rw [hs]; exact fun _ hc => hc)
  | again hw _ hp hs _ => exact hon hw hp rfl rfl (by rw [hs]; exact fun _ hc => hc)
  | back hw _ hp _ _ _ => exact hleaves _ hw rfl rfl rfl
  | execute hw _ hp hs _ _ => exact hon hw hp rfl rfl (by rw [hs]; exact fun _ hc => hc)
  | stall hw _ hp hs _ _ => exact hon hw hp rfl rfl (by rw [hs]; exact fun _ hc => hc)
  | done hw _ _ _ => exact hleaves _ hw rfl rfl rfl
  | retry hw _ _ _ => exact hleaves _ hw rfl rfl rfl
  | pauses _ hw _ _ _ _ _ _ => exact hleaves _ hw rfl rfl rfl
  | blocks _ hw _ _ _ _ _ _ => exact hleaves _ hw rfl rfl rfl
  | @crash w worker hw =>
    obtain hb | ⟨b, hb⟩ := Option.eq_none_or_eq_some (worker.stage?.bind Stage.bucket?)
    · exact hstays _ hw rfl (by rw [hb]; rfl) (by simp [Worker.stage?])
    · exact hleaves _ hw rfl (by rw [hb]; rfl) rfl
  | giveUp _ _ _ => exact hsame rfl (stageAt_map d fun _ => rfl)
  | sweep => exact hsame rfl (stageAt_retire d.workers _)
  | _ => exact hsame rfl fun _ => rfl

/-- Who has a call is alive. -/
def Staffed (workers : List Worker) : Prop :=
  Every workers fun _ worker => worker.progress ≠ none → worker.alive = true

theorem staffed_happens (h : Happens d now e r) (hd : Staffed d.workers) : Staffed r.1.workers := by
  have hput : ∀ {w worker} (other : Worker), d.workers[w]? = some worker →
      (other.progress ≠ none → worker.progress ≠ none) → other.alive = worker.alive →
      Staffed (d.put w other).workers := fun other hw hcall halive =>
    Every.put hd fun hne => halive.trans (hd _ _ hw (hcall hne))
  have hgoes : ∀ {w worker p} (other : Worker), d.workers[w]? = some worker →
      worker.progress = some p → other.alive = worker.alive → Staffed (d.put w other).workers :=
    fun other hw hp halive => hput other hw (fun _ => by simp [hp]) halive
  cases h with
  | assign _ _ _ _ _ hw _ =>
    exact hput _ hw (by rw [Worker.progress_accept]; exact id) (Worker.alive_accept _)
  | hire _ _ _ _ _ => exact Every.append hd (by simp)
  | take _ ha _ _ => exact Every.put hd fun _ => ha
  | retire _ _ hp _ _ => exact Every.put hd fun hne => absurd hp hne
  | cool hw _ hp _ _ _ => exact hgoes _ hw hp rfl
  | queue hw _ hp _ _ => exact hgoes _ hw hp rfl
  | rested hw _ hp _ _ => exact hgoes _ hw hp rfl
  | first hw _ hp _ _ => exact hgoes _ hw hp rfl
  | again hw _ hp _ _ => exact hgoes _ hw hp rfl
  | back hw _ hp _ _ _ => exact hgoes _ hw hp rfl
  | execute hw _ hp _ _ _ => exact hgoes _ hw hp rfl
  | stall hw _ hp _ _ _ => exact hgoes _ hw hp rfl
  | done _ _ _ _ => exact Every.put hd fun hne => absurd rfl hne
  | retry hw hp _ _ => exact hgoes _ hw hp rfl
  | pauses _ hw hp _ _ _ _ _ => exact hgoes _ hw hp rfl
  | blocks _ hw hp _ _ _ _ _ => exact hgoes _ hw hp rfl
  | crash _ => exact Every.put hd fun hne => absurd rfl hne
  | giveUp _ _ _ => exact Every.map hd fun _ _ ha => ha
  | sweep => exact Every.retire hd _ fun _ _ ha => ha
  | _ => exact hd

/-- What holds of workers and lines between two steps. -/
structure Diligent (d : Dispatcher) : Prop where
  orderly : d.Orderly
  lined : d.Lined
  staffed : Staffed d.workers

theorem diligent_new (policy : RetryPolicy) (timeout idle : Span) :
    (new policy timeout idle).Diligent where
  orderly := orderly_new policy timeout idle
  lined := by simp [Lined, new, stageAt]
  staffed := by simp [new, Staffed, Every]

/-- **Every step** keeps workers in their lines, and those alive that have calls. -/
theorem diligent_happens (h : Happens d now e r) (hd : d.Diligent) : r.1.Diligent where
  orderly := orderly_happens h hd.orderly
  lined := lined_happens h hd.lined
  staffed := staffed_happens h hd.staffed

theorem diligent_meets (hd : d.Diligent) (incident : Incident) : (d.meets incident).Diligent := by
  cases incident with
  | event now e => exact diligent_happens (happens_step d now e) hd
  | deed deed =>
    rw [meets]
    split
    · exact ⟨⟨hd.orderly.head, hd.orderly.member, hd.orderly.nodup⟩, hd.lined, hd.staffed⟩
    · exact hd

theorem diligent_run (hd : d.Diligent) (incidents : List Incident) :
    (d.meetsAll incidents).Diligent := by
  induction incidents generalizing d with
  | nil => exact hd
  | cons incident rest ih => exact ih (diligent_meets hd incident)

/-! ## When all waits are over -/

/-- Nothing that anybody waits for ends later than an instant. -/
structure Ready (d : Dispatcher) (time : Instant) : Prop extends d.Diligent where
  pause : d.cooldown.Over time
  windows : d.registry.EndsBy time
  sleeps : Every d.workers fun _ worker => ∀ u, worker.stage?.bind Stage.wakes? = some u →
    u ≤ time

theorem exists_bound {α : Type} (xs : List α) (f : α → Option Instant) (now : Instant) :
    ∃ time, now ≤ time ∧ ∀ x ∈ xs, ∀ u, f x = some u → u ≤ time := by
  induction xs with
  | nil => exact ⟨now, Nat.le_refl _, by simp⟩
  | cons x rest ih =>
    obtain ⟨time, hle, hrest⟩ := ih
    refine ⟨max time ((f x).getD 0), Nat.le_trans hle (Nat.le_max_left _ _), ?_⟩
    intro y hy u hu
    rcases List.mem_cons.mp hy with rfl | hy
    · rw [hu]
      exact Nat.le_max_right _ _
    · exact Nat.le_trans (hrest y hy u hu) (Nat.le_max_left _ _)

/-- Sooner or later all waits are over, if nothing else happens. -/
theorem Diligent.exists_ready (hd : d.Diligent) (now : Instant) :
    ∃ time, now ≤ time ∧ d.Ready time := by
  obtain ⟨first, hnow, hwindows⟩ := exists_bound d.registry.buckets (·.resetAt) now
  obtain ⟨second, hfirst, hsleeps⟩ :=
    exists_bound d.workers (fun worker => worker.stage?.bind Stage.wakes?) first
  obtain ⟨time, hsecond, hpause⟩ := exists_bound [d.cooldown] (·.until?) second
  have hle : first ≤ time := Nat.le_trans hfirst hsecond
  refine ⟨time, Nat.le_trans hnow hle, { hd with pause := ?_, windows := ?_, sleeps := ?_ }⟩
  · exact fun u hu => hpause _ (List.mem_singleton_self _) u hu
  · exact fun b hb reset hreset => Nat.le_trans (hwindows b hb reset hreset) hle
  · intro w worker hw u hu
    exact Nat.le_trans (hsleeps worker (List.mem_of_getElem? hw) u hu) hsecond

/-- A worker that goes on at that instant does not make anybody wait. -/
theorem Ready.proceed (h : d.Ready time) (w : WorkerId) :
    (d.step time (.proceed w)).1.Ready time := by
  have hstep := happens_step d time (.proceed w)
  have hdiligent := diligent_happens hstep h.toDiligent
  generalize d.step time (.proceed w) = r at hstep hdiligent
  have hnone : Cooldown.none.Over time := by simp [Cooldown.Over, Cooldown.none]
  have hlate : ∀ {u}, d.cooldown.until? = some u → ¬ time < u := fun hu =>
    Nat.not_lt_of_le (h.pause _ hu)
  -- The worker does not wait for an instant at its new stage.
  have hawake : ∀ {w : WorkerId} {other : Worker}, other.stage?.bind Stage.wakes? = none →
      Every (d.put w other).workers fun _ worker => ∀ u,
        worker.stage?.bind Stage.wakes? = some u → u ≤ time := fun hno =>
    h.sleeps.put fun u hu => by simp [hno] at hu
  cases hstep with
  | idle _ => exact h
  | take _ _ _ _ =>
    exact { hdiligent with
      pause := h.pause
      windows := h.windows
      sleeps := hawake (by simp [Worker.stage?, Worker.takes, Stage.wakes?]) }
  | @retire w worker hw _ _ _ _ =>
    exact { hdiligent with
      pause := h.pause
      windows := h.windows
      sleeps := h.sleeps.put (h.sleeps w worker hw) }
  | cool _ _ _ _ hu hlt => exact absurd hlt (hlate hu)
  | back _ _ _ _ hu hlt => exact absurd hlt (hlate hu)
  | queue _ _ _ _ _ =>
    exact { hdiligent with
      pause := hnone
      windows := h.windows.resolve _ _
      sleeps := hawake rfl }
  | rested _ _ _ _ _ =>
    exact { hdiligent with pause := h.pause, windows := h.windows, sleeps := hawake rfl }
  | first _ _ _ _ _ =>
    exact { hdiligent with pause := h.pause, windows := h.windows, sleeps := hawake rfl }
  | again _ _ _ _ _ =>
    exact { hdiligent with pause := h.pause, windows := h.windows, sleeps := hawake rfl }
  | execute _ _ _ _ _ hr =>
    exact { hdiligent with
      pause := hnone
      windows := h.windows.reserve hr
      sleeps := hawake rfl }
  | @stall w worker p b _ _ _ _ _ ending hr =>
    refine { hdiligent with
      pause := hnone
      windows := h.windows
      sleeps := h.sleeps.put fun u hu => ?_ }
    obtain rfl : ending = u := by simpa [Worker.stage?, Worker.on, Stage.wakes?] using hu
    exact h.windows.le_of_error hr

/-- There is a unit in a bucket whose window is over. -/
theorem exists_reserve {registry : Registry} (h : registry.EndsBy time) (b : BucketId) :
    ∃ after, registry.reserve b time = .ok after := by
  cases hb : registry.bucket? b with
  | none => exact ⟨registry, by simp [Registry.reserve, hb]⟩
  | some x =>
    obtain ⟨y, hy⟩ : ∃ y, x.reserve time = .ok y := by
      cases hreset : x.resetAt with
      | none => simp [Bucket.reserve, Bucket.refilled, Bucket.exhaustedUntil?, hreset]
      | some reset =>
        have hle : reset ≤ time := h x (List.mem_of_getElem? hb) reset hreset
        exact ⟨_, Bucket.reserve_of_over hreset hle⟩
    exact ⟨{ registry with buckets := registry.buckets.set b y },
      by simp [Registry.reserve, hb, hy, Except.map]⟩

theorem endsBy_learned_granted (h : d.registry.EndsBy time) (now : Instant) (route : Route)
    (b : BucketId) :
    (d.learned now route b (limitsOf none (.response granted)) (.response granted)).EndsBy
      time := by
  have hlimits : limitsOf none (.response granted) = {} := rfl
  rw [hlimits]
  exact h.modify fun _ hx => hx

/-- A request is granted without a word on buckets: its worker leaves the line, and nobody has to
wait. -/
theorem Ready.grant (h : d.Ready time) (hw : d.workers[w]? = some worker)
    (hp : worker.progress = some p) (hs : p.stage = .sending b) :
    (d.step time (.receive w none 0 (.response granted))).1.Ready time ∧
      (d.step time (.receive w none 0 (.response granted))).1.lines = d.without b w := by
  have hjudge : p.tries.judge d.policy worker.route (limitsOf none (.response granted)) 0
      (.response granted) = (p.tries, .done (.ok granted)) := rfl
  have hhappens : Happens d time (.receive w none 0 (.response granted)) _ :=
    .done hw hp hs hjudge
  have hdiligent := diligent_happens hhappens h.toDiligent
  rw [step_of_happens hhappens]
  refine ⟨{ hdiligent with
    pause := h.pause
    windows := (endsBy_learned_granted h.windows _ _ _).release _ _
    sleeps := h.sleeps.put (by simp [Worker.stage?]) }, rfl⟩

/-! ## Turns -/

/-- Somebody goes on, or an answer comes. -/
def Event.isTurn : Event → Bool
  | .proceed _ | .receive _ _ _ _ => true
  | _ => false

/-- Somebody goes on, or the answer for another worker comes. -/
def Event.Aside (w : WorkerId) : Event → Prop
  | .proceed _ => True
  | .receive v _ _ _ => v ≠ w
  | _ => False

/-- A request of a worker can begin at an instant. -/
def Serves (d : Dispatcher) (time : Instant) (w : WorkerId) : Prop :=
  ∃ turns : List Event, (∀ e ∈ turns, e.Aside w) ∧
    (d.meetsAll (turns.map (.event time))).Ready time ∧
    ∃ b, (d.meetsAll (turns.map (.event time))).stageAt w = some (.sending b)

theorem serves_of_sending (h : d.Ready time) (hs : d.stageAt w = some (.sending b)) :
    d.Serves time w := ⟨[], by simp, h, b, hs⟩

theorem Serves.of_proceed (v : WorkerId) (h : (d.step time (.proceed v)).1.Serves time w) :
    d.Serves time w := by
  obtain ⟨turns, haside, hready, hs⟩ := h
  exact ⟨.proceed v :: turns, List.forall_mem_cons.mpr ⟨trivial, haside⟩, hready, hs⟩

theorem Serves.of_receive {clock : Option Span} {draw : Float} {answer : Answer} (hne : v ≠ w)
    (h : (d.step time (.receive v clock draw answer)).1.Serves time w) : d.Serves time w := by
  obtain ⟨turns, haside, hready, hs⟩ := h
  exact ⟨.receive v clock draw answer :: turns, List.forall_mem_cons.mpr ⟨hne, haside⟩, hready, hs⟩

/-! ## The turns of a worker -/

section Turns

variable {u : WorkerId}

theorem Ready.exists_alive (h : d.Ready time) {stage : Stage} (hs : d.stageAt w = some stage) :
    ∃ worker p, d.workers[w]? = some worker ∧ worker.alive = true ∧ worker.progress = some p ∧
      p.stage = stage := by
  obtain ⟨worker, p, hw, hp, hstage⟩ := exists_of_stageAt hs
  exact ⟨worker, p, hw, h.staffed w worker hw (by simp [hp]), hp, hstage⟩

/-- A worker that sleeps can go on. -/
theorem Ready.le_of_wakes (h : d.Ready time) {stage : Stage} (hs : d.stageAt w = some stage)
    {ending : Instant} (hwakes : stage.wakes? = some ending) : ending ≤ time := by
  obtain ⟨worker, p, hw, -, hp, rfl⟩ := h.exists_alive hs
  exact h.sleeps w worker hw ending (by rw [Worker.stage?, hp]; exact hwakes)

/-- A worker goes on within the line in which it stands. -/
theorem stageAt_proceed {stage : Stage} (hw : d.workers[w]? = some worker)
    (hhappens : Happens d time (.proceed w) (d.put w (worker.on p stage), [])) :
    (d.step time (.proceed w)).1.stageAt w = some stage ∧
      (d.step time (.proceed w)).1.lines = d.lines := by
  rw [step_of_happens hhappens]
  refine ⟨?_, rfl⟩
  rw [stageAt_put hw, if_pos rfl]
  rfl

theorem Ready.rested (h : d.Ready time) {ending : Instant}
    (hs : d.stageAt w = some (.cooling ending) ∨ d.stageAt w = some (.resting ending)) :
    (d.step time (.proceed w)).1.stageAt w = some .fresh := by
  rcases hs with hs | hs
  · obtain ⟨worker, p, hw, ha, hp, hstage⟩ := h.exists_alive hs
    exact (stageAt_proceed hw (.rested hw ha hp (.inl hstage) (h.le_of_wakes hs rfl))).1
  · obtain ⟨worker, p, hw, ha, hp, hstage⟩ := h.exists_alive hs
    exact (stageAt_proceed hw (.rested hw ha hp (.inr hstage) (h.le_of_wakes hs rfl))).1

theorem Ready.queue (h : d.Ready time) (hs : d.stageAt w = some .fresh) :
    ∃ b, (d.step time (.proceed w)).1.stageAt w = some (.queued b) := by
  obtain ⟨worker, p, hw, ha, hp, hstage⟩ := h.exists_alive hs
  have hhappens : Happens d time (.proceed w) _ := .queue hw ha hp hstage h.pause
  refine ⟨(d.registry.resolve worker.route time).2, ?_⟩
  rw [step_of_happens hhappens]
  exact (stageAt_of (getElem?_put_self hw _)).trans rfl

theorem Ready.first (h : d.Ready time) (hs : d.stageAt w = some (.queued b))
    (hhead : (d.line b).head? = some w) :
    (d.step time (.proceed w)).1.stageAt w = some (.reserving b) ∧
      (d.step time (.proceed w)).1.lines = d.lines := by
  obtain ⟨worker, p, hw, ha, hp, hstage⟩ := h.exists_alive hs
  exact stageAt_proceed hw (.first hw ha hp hstage hhead)

theorem Ready.again (h : d.Ready time) {ending : Instant}
    (hs : d.stageAt w = some (.stalled b ending)) :
    (d.step time (.proceed w)).1.stageAt w = some (.reserving b) ∧
      (d.step time (.proceed w)).1.lines = d.lines := by
  obtain ⟨worker, p, hw, ha, hp, hstage⟩ := h.exists_alive hs
  exact stageAt_proceed hw (.again hw ha hp hstage (h.le_of_wakes hs rfl))

theorem Ready.execute (h : d.Ready time) (hs : d.stageAt w = some (.reserving b)) :
    (d.step time (.proceed w)).1.stageAt w = some (.sending b) ∧
      (d.step time (.proceed w)).1.lines = d.lines := by
  obtain ⟨worker, p, hw, ha, hp, hstage⟩ := h.exists_alive hs
  obtain ⟨after, hr⟩ := exists_reserve h.windows b
  have hhappens : Happens d time (.proceed w) _ := .execute hw ha hp hstage h.pause hr
  rw [step_of_happens hhappens]
  exact ⟨(stageAt_of (getElem?_put_self hw _)).trans rfl, rfl⟩

/-- It is enough to go on from where the first in a line has its request under way. -/
theorem Ready.serves_of_head (h : d.Ready time) (hhead : (d.line b).head? = some u)
    (hnext : ∀ d' : Dispatcher, d'.Ready time → d'.lines = d.lines →
      d'.stageAt u = some (.sending b) → d'.Serves time w) : d.Serves time w := by
  have hreserving : ∀ d' : Dispatcher, d'.Ready time → d'.lines = d.lines →
      d'.stageAt u = some (.reserving b) → d'.Serves time w := by
    intro d' h' hl hs
    obtain ⟨hsending, hlines⟩ := h'.execute hs
    exact .of_proceed u (hnext _ (h'.proceed u) (hlines.trans hl) hsending)
  have hmember := h.orderly.member b u (List.mem_of_mem_head? hhead)
  obtain ⟨stage, hs, hbucket⟩ := Option.bind_eq_some_iff.mp hmember
  cases stage with
  | queued c =>
    obtain rfl : c = b := Option.some.inj hbucket
    obtain ⟨hfirst, hlines⟩ := h.first hs hhead
    exact .of_proceed u (hreserving _ (h.proceed u) hlines hfirst)
  | stalled c ending =>
    obtain rfl : c = b := Option.some.inj hbucket
    obtain ⟨hagain, hlines⟩ := h.again hs
    exact .of_proceed u (hreserving _ (h.proceed u) hlines hagain)
  | reserving c =>
    obtain rfl : c = b := Option.some.inj hbucket
    exact hreserving d h rfl hs
  | sending c =>
    obtain rfl : c = b := Option.some.inj hbucket
    exact hnext d h rfl hs
  | fresh => simp [Stage.bucket?] at hbucket
  | cooling _ => simp [Stage.bucket?] at hbucket
  | resting _ => simp [Stage.bucket?] at hbucket

/-- Those that stand before a worker in its line have their requests answered, one after the
other. -/
theorem Ready.serves_of_line {before after : List WorkerId} (h : d.Ready time)
    (hline : d.line b = before ++ w :: after) : d.Serves time w := by
  induction before generalizing d with
  | nil =>
    refine h.serves_of_head (u := w) (b := b) (by rw [hline]; rfl) fun d' h' _ hs => ?_
    exact serves_of_sending h' hs
  | cons u rest ih =>
    refine h.serves_of_head (u := u) (b := b) (by rw [hline]; rfl) fun d' h' hl hs => ?_
    obtain ⟨worker, p, hu, -, hp, hstage⟩ := h'.exists_alive hs
    have hline' : d'.line b = u :: (rest ++ w :: after) := by rw [line, hl, ← line, hline]; rfl
    have hne : u ≠ w := by
      have hnodup := h'.orderly.nodup b
      rw [hline'] at hnodup
      rintro rfl
      exact (List.nodup_cons.mp hnodup).1 (List.mem_append_right _ List.mem_cons_self)
    obtain ⟨hready, hlines⟩ := h'.grant hu hp hstage
    refine .of_receive hne (ih hready ?_)
    rw [line_of_without hlines, if_pos rfl, hline', List.erase_cons_head]

/-- **A worker with a call** can have its turn once all waits are over: everybody that stands before
it in its line goes on and is answered, and then it goes on itself. -/
theorem serves_of_ready (h : d.Ready time) {stage : Stage} (hs : d.stageAt w = some stage) :
    d.Serves time w := by
  have hline : ∀ {d' : Dispatcher} {b : BucketId} {stage : Stage}, d'.Ready time →
      d'.stageAt w = some stage → stage.bucket? = some b → d'.Serves time w := by
    intro d' b stage h' hs hbucket
    have hmem : w ∈ d'.line b := h'.lined w b (by rw [hs]; exact hbucket)
    obtain ⟨before, after, hline⟩ := List.append_of_mem hmem
    exact h'.serves_of_line hline
  have hfresh : ∀ {d' : Dispatcher}, d'.Ready time → d'.stageAt w = some .fresh →
      d'.Serves time w := by
    intro d' h' hs
    obtain ⟨b, hqueued⟩ := h'.queue hs
    exact .of_proceed w (hline (h'.proceed w) hqueued rfl)
  cases stage with
  | fresh => exact hfresh h hs
  | cooling ending => exact .of_proceed w (hfresh (h.proceed w) (h.rested (.inl hs)))
  | resting ending => exact .of_proceed w (hfresh (h.proceed w) (h.rested (.inr hs)))
  | queued b => exact hline h hs rfl
  | reserving b => exact hline h hs rfl
  | stalled b ending => exact hline h hs rfl
  | sending b => exact serves_of_sending h hs

end Turns

/-! ## The end of a call -/

variable {τ : Trial} {policy : RetryPolicy} {route : Route} {t : Ticket} {lost : Prop}

/-- What is not for a worker leaves what is seen of its call as it is. -/
theorem next_of_aside (h : Stands policy route t lost w d τ) (hfinished : τ.finished = false)
    (he : e.Aside w) (now : Instant) :
    (τ.next d w (.event now e)).finished = false ∧
      (τ.next d w (.event now e)).replies = τ.replies := by
  have hnone : d.replyTo w e = none := by
    cases e with
    | receive v clock draw answer => exact replyTo_receive_of_ne he ..
    | _ => rfl
  rw [next_event hfinished]
  refine ⟨?_, by simp [hnone]⟩
  cases h with
  | ended hended _ _ _ _ => simp [hfinished] at hended
  | runs hw _ hp _ _ _ _ _ _ _ _ =>
    cases course_happens (happens_step d now e) hw hp with
    | goes hw' _ hp' _ _ _ => simp [stageAt_of_progress hw' hp']
    | sends hw' _ _ _ =>
      rw [stageAt_of_progress hw' rfl]
      rfl
    | hears hheard _ _ _ _ _ _ _ _ => simp [hnone] at hheard
    | ends hheard _ _ _ _ _ _ => simp [hnone] at hheard
    | dies hcrash _ _ =>
      subst hcrash
      exact he.elim

theorem watch_of_aside (h : Stands policy route t lost w d τ) (hpolicy : d.policy = policy)
    (hfinished : τ.finished = false) {turns : List Event} (haside : ∀ e ∈ turns, e.Aside w)
    (now : Instant) :
    (watch w d τ (turns.map (.event now))).finished = false ∧
      (watch w d τ (turns.map (.event now))).replies = τ.replies := by
  induction turns generalizing d τ with
  | nil => exact ⟨hfinished, rfl⟩
  | cons e rest ih =>
    obtain ⟨he, hrest⟩ := List.forall_mem_cons.mp haside
    obtain ⟨hfinished', hreplies⟩ := next_of_aside h hfinished he now
    have hstands := stands_next h hpolicy now e fun hcrash => by
      subst hcrash
      exact he.elim
    have hpolicy' := (policy_meets d (.event now e)).trans hpolicy
    obtain ⟨hlast, hsame⟩ := ih hstands hpolicy' hfinished' hrest
    exact ⟨hlast, hsame.trans hreplies⟩

/-- Who waits for a call hears what came of it. -/
theorem callers_of_result (h : Stands policy route t lost w d τ) (hfinished : τ.finished = false)
    {result : Except Failure Response}
    (hresult : (τ.next d w (.event now e)).result = some result) :
    (d.step now e).1.callers = answered d.callers t.id result := by
  rw [next_event hfinished] at hresult
  cases h with
  | ended hended _ _ _ _ => simp [hfinished] at hended
  | runs hw _ hp ht _ _ _ _ _ _ _ =>
    subst ht
    cases course_happens (happens_step d now e) hw hp with
    | goes _ _ _ _ _ he => simp [he] at hresult
    | sends _ _ _ he => simp [he] at hresult
    | hears _ _ hended _ _ _ _ _ _ => simp [hended] at hresult
    | ends he _ hended _ _ hcallers _ =>
      obtain rfl : _ = result := by simpa [he, hended] using hresult
      exact hcallers
    | dies he _ _ =>
      have hnone : d.replyTo w e = none := by rw [he]; rfl
      simp [hnone] at hresult

theorem policy_run (d : Dispatcher) (incidents : List Incident) :
    (d.meetsAll incidents).policy = d.policy := by
  induction incidents generalizing d with
  | nil => rfl
  | cons incident rest ih => exact (ih _).trans (policy_meets d incident)

theorem Event.Aside.isTurn (h : e.Aside w) : e.isTurn = true := by
  cases e with
  | proceed _ => rfl
  | receive _ _ _ _ => rfl
  | _ => exact h.elim

theorem not_crash_of_turns {events : List Event} (hturns : ∀ e ∈ events, e.isTurn = true)
    (time now : Instant) : Incident.event now (.crash w) ∉ events.map (.event time) := by
  intro hmem
  obtain ⟨e, he, heq⟩ := List.mem_map.mp hmem
  cases heq
  exact absurd (hturns _ he) (by simp [Event.isTurn])

/-- Turns at an instant come before what happens later. -/
theorem turns_append {events : List Event} (hturns : ∀ e ∈ events, e.isTurn = true)
    {more : List (Instant × Event)} (hsorted : more.Pairwise (·.1 ≤ ·.1))
    (hmore : ∀ x ∈ more, time ≤ x.1 ∧ x.2.isTurn = true) :
    (events.map (time, ·) ++ more).Pairwise (·.1 ≤ ·.1) ∧
      ∀ x ∈ events.map (time, ·) ++ more, time ≤ x.1 ∧ x.2.isTurn = true := by
  induction events with
  | nil => exact ⟨hsorted, hmore⟩
  | cons e rest ih =>
    obtain ⟨he, hrest⟩ := List.forall_mem_cons.mp hturns
    obtain ⟨hsorted, hall⟩ := ih hrest
    exact ⟨List.pairwise_cons.mpr ⟨fun x hx => (hall x hx).1, hsorted⟩,
      List.forall_mem_cons.mpr ⟨⟨Nat.le_refl _, he⟩, hall⟩⟩

theorem Stands.exists_stage (h : Stands policy route t lost w d τ)
    (hfinished : τ.finished = false) : ∃ stage, d.stageAt w = some stage := by
  cases h with
  | ended hended _ _ _ _ => simp [hfinished] at hended
  | runs hw _ hp _ _ _ _ _ _ _ _ => exact ⟨_, stageAt_of_progress hw hp⟩

/-- What came of a call that is over, further answers do not change. -/
theorem Stands.result_of_finished (h : Stands policy route t False w d τ)
    (hfinished : τ.finished = true) (rest : List Reply) :
    τ.result = policy.outcome route 0 0 (τ.replies ++ rest) := by
  cases h with
  | runs _ _ _ _ hruns _ _ _ _ _ _ => simp [hfinished] at hruns
  | ended _ hresult _ _ hlost =>
    obtain ⟨result, hsome⟩ := Option.ne_none_iff_exists'.mp hlost
    exact hsome.trans (RetryPolicy.outcome_append (hresult.symm.trans hsome) rest).symm

/-- The worker of a call can have its turn, and hear any answer next. -/
theorem exists_heard (hd : d.Diligent) (hpolicy : d.policy = policy)
    (h : Stands policy route t False w d τ) (hfinished : τ.finished = false) (x : Reply)
    (now : Instant) :
    ∃ time, now ≤ time ∧ ∃ events : List Event, (∀ e ∈ events, e.isTurn = true) ∧
      (watch w d τ (events.map (.event time))).replies = τ.replies ++ [x] := by
  obtain ⟨time, hle, hready⟩ := hd.exists_ready now
  obtain ⟨stage, hs⟩ := h.exists_stage hfinished
  obtain ⟨turns, haside, hready', b, hsending⟩ := serves_of_ready hready hs
  obtain ⟨hfinished', hreplies⟩ := watch_of_aside h hpolicy hfinished haside time
  obtain ⟨worker, p, hw, -, hp, hstage⟩ := hready'.exists_alive hsending
  refine ⟨time, hle, turns ++ [.receive w x.clock x.draw x.answer], ?_, ?_⟩
  · exact List.forall_mem_append.mpr ⟨fun e he => (haside e he).isTurn, by simp [Event.isTurn]⟩
  · rw [List.map_append, watch_append, List.map_singleton, watch, watch, next_event hfinished',
      hreplies, replyTo_receive hw hp hstage]
    rfl

/-- **A call can come to its end**: its worker can have its turns, and with answers that decide the
call it has the result. -/
theorem exists_finished (hd : d.Diligent) (hpolicy : d.policy = policy)
    (h : Stands policy route t False w d τ) (hfinished : τ.finished = false) {future : List Reply}
    (hscan : (policy.outcome route 0 0 (τ.replies ++ future)).isSome) (now : Instant) :
    ∃ more : List (Instant × Event), more.Pairwise (·.1 ≤ ·.1) ∧
      (∀ x ∈ more, now ≤ x.1 ∧ x.2.isTurn = true) ∧
      (watch w d τ (alone more)).finished = true ∧
      (watch w d τ (alone more)).replies <+: τ.replies ++ future ∧
      (watch w d τ (alone more)).result = policy.outcome route 0 0 (τ.replies ++ future) := by
  induction future generalizing d τ now with
  | nil =>
    cases h with
    | ended hended _ _ _ _ => simp [hfinished] at hended
    | runs _ _ _ _ _ _ _ _ _ _ hundecided =>
      rw [hundecided] at hscan
      simp [RetryPolicy.outcome] at hscan
  | cons x rest ih =>
    obtain ⟨time, hle, events, hturns, hheard⟩ := exists_heard hd hpolicy h hfinished x now
    have hstands := stands_watch h hpolicy fun now => not_crash_of_turns hturns time now
    have hsplit : τ.replies ++ x :: rest =
        (watch w d τ (events.map (.event time))).replies ++ rest := by
      rw [hheard, List.append_assoc, List.singleton_append]
    have hwatch : ∀ more, watch w d τ (alone (events.map (time, ·) ++ more)) =
        watch w (d.meetsAll (events.map (.event time)))
          (watch w d τ (events.map (.event time))) (alone more) := by
      intro more
      rw [← watch_append, alone, List.map_append, List.map_map]
      rfl
    have hlate : ∀ y : Instant × Event, time ≤ y.1 ∧ y.2.isTurn = true →
        now ≤ y.1 ∧ y.2.isTurn = true := fun y hy => ⟨Nat.le_trans hle hy.1, hy.2⟩
    rw [hsplit] at hscan ⊢
    cases hlast : (watch w d τ (events.map (.event time))).finished with
    | true =>
      obtain ⟨hsorted, hall⟩ := turns_append hturns .nil
        (List.forall_mem_nil fun y : Instant × Event => time ≤ y.1 ∧ y.2.isTurn = true)
      refine ⟨_, hsorted, fun y hy => hlate y (hall y hy), ?_⟩
      rw [hwatch]
      exact ⟨hlast, List.prefix_append .., hstands.result_of_finished hlast rest⟩
    | false =>
      obtain ⟨more, hsorted, hmore, hend⟩ := ih (diligent_run hd _)
        ((policy_run d _).trans hpolicy) hstands hlast hscan time
      obtain ⟨hsorted, hall⟩ := turns_append hturns hsorted hmore
      refine ⟨_, hsorted, fun y hy => hlate y (hall y hy), ?_⟩
      rwa [hwatch]

/-- **What comes of a call**, in every run of a dispatcher, whatever others do with its registry,
from when the worker takes it up.

No more requests begin than the two budgets allow, and one, and with so many answers the call is
over. The result is what comes of the call by the answers, and nothing, as long as these do not
decide it; unless the worker dies, it has the call until then, and no longer. Who waits for the call
hears the result. And as long as the worker has the call, it can come to its end: with any further
answers that decide it, there are turns of the workers, and answers to their requests, after which
it has the result. -/
theorem outcome_of_run (policy : RetryPolicy) (timeout idle : Span) (past : List Incident)
    {w : WorkerId} {worker : Worker} {t : Ticket}
    (hw : ((new policy timeout idle).meetsAll past).workers[w]? = some worker)
    (hp : worker.progress = some ⟨t, Tries.new policy, .fresh⟩) (incidents : List Incident) :
    let d := (new policy timeout idle).meetsAll past
    let after := d.meetsAll incidents
    let seen := d.trial w incidents
    let outcome := policy.outcome worker.route 0 0
    let allowed := policy.maxRetryAttempts + policy.maxRateLimitRetries + 1
    (seen.replies.length ≤ seen.requests ∧ seen.requests ≤ allowed ∧
      (seen.replies.length = allowed → seen.finished = true)) ∧
    seen.result = outcome seen.replies ∧
    (∀ script, seen.replies <+: script → seen.result.isSome → seen.result = outcome script) ∧
    ((∀ now, .event now (.crash w) ∉ incidents) →
      (seen.finished = true ↔ (outcome seen.replies).isSome)) ∧
    (∀ now e result, seen.finished = false →
      (d.trial w (incidents ++ [.event now e])).result = some result →
      (after.step now e).1.callers = answered after.callers t.id result) ∧
    (seen.finished = false → ∀ script, seen.replies <+: script → (outcome script).isSome → ∀ now,
      ∃ more : List (Instant × Event), more.Pairwise (·.1 ≤ ·.1) ∧
        (∀ x ∈ more, now ≤ x.1 ∧ x.2.isTurn = true) ∧
        let later := d.trial w (incidents ++ alone more)
        later.finished = true ∧ later.replies <+: script ∧ later.result = outcome script) := by
  intro d after seen outcome allowed
  have hpolicy : d.policy = policy := policy_run _ past
  have hstands : Stands policy worker.route t (∃ now, .event now (.crash w) ∈ incidents) w after
      seen := stands_watch (stands_new hw hp) hpolicy fun now hmem => ⟨now, hmem⟩
  have hresult : seen.result = outcome seen.replies := hstands.result_eq
  refine ⟨?_, hresult, ?_, ?_, ?_, ?_⟩
  · cases hstands with
    | @runs _ p _ _ _ _ _ _ hf hr hreplies hrequests _ =>
      have hone := Bool.toNat_le p.stage.isSending
      refine ⟨?_, ?_, fun hall => ?_⟩ <;> omega
    | ended hfinished _ hle hmost _ => exact ⟨hle, hmost, fun _ => hfinished⟩
  · rintro script ⟨more, rfl⟩ hsome
    obtain ⟨result, hresult'⟩ := Option.isSome_iff_exists.mp hsome
    rw [hresult'] at hresult ⊢
    exact (RetryPolicy.outcome_append hresult.symm more).symm
  · intro hno
    rw [← hresult]
    cases hstands with
    | runs _ _ _ _ hfinished hnone _ _ _ _ _ => simp [hfinished, hnone]
    | ended hfinished _ _ _ hlost =>
      have hsome : seen.result ≠ none := fun hnone => by
        obtain ⟨now, hmem⟩ := hlost hnone
        exact hno now hmem
      simp [hfinished, Option.isSome_iff_ne_none, hsome]
  · intro now e result hfinished hlast
    rw [trial, watch_append] at hlast
    exact callers_of_result hstands hfinished hlast
  · rintro hfinished script ⟨future, rfl⟩ hscan now
    have hdiligent : after.Diligent := diligent_run (diligent_run (diligent_new ..) past) incidents
    have hlive : Stands policy worker.route t False w after seen := by
      cases hstands with
      | runs hw hroute hp ht hfinished hresult hf hr hreplies hrequests hscan =>
        exact .runs hw hroute hp ht hfinished hresult hf hr hreplies hrequests hscan
      | ended hended _ _ _ _ => simp [hfinished] at hended
    obtain ⟨more, hsorted, hturns, hend⟩ :=
      exists_finished hdiligent ((policy_run d incidents).trans hpolicy) hlive hfinished hscan now
    refine ⟨more, hsorted, hturns, ?_⟩
    rw [trial, watch_append]
    exact hend

/-! ### A refusal, a failure and a success -/

/-- Calls on two routes are submitted, and the worker of the first takes its call up. -/
def takenUp : List Incident :=
  alone [(0, .submit 0 ⟨"GET", ["a"]⟩ ⟨"GET", "/a", none⟩ none),
    (0, .submit 1 ⟨"GET", ["b"]⟩ ⟨"GET", "/b", none⟩ none), (0, .proceed 0)]

/-- A refusal, a failure and a success. -/
def thirdTime : List Answer :=
  [.response refusal, .response ⟨500, [], []⟩, .response granted]

/-- The worker hears all of this, and waits for a second after the refusal; the other worker goes
on, too. -/
def heardOut : List Incident :=
  alone (turns 0 0 ++ [(0, .receive 0 none 0 (.response refusal))] ++ turns 0 1 ++
    turns Span.second 0 ++ turns Span.second 0 ++
    [(Span.second, .receive 0 none 0 (.response ⟨500, [], []⟩))] ++
    turns Span.second 0 ++ turns Span.second 0 ++
    [(Span.second, .receive 0 none 0 (.response granted))])

/-- With one of each allowed, the call succeeds at the third attempt; and before the first, it can
come to this. -/
theorem outcome_of_run_thirdTime :
    let policy : RetryPolicy := ⟨1, 1, 0, 0⟩
    let d := (new policy 0 Span.second).meetsAll takenUp
    let seen := d.trial 0 heardOut
    let script : List Reply := thirdTime.map (⟨none, 0, ·⟩)
    ∃ worker t, d.workers[0]? = some worker ∧
      worker.progress = some ⟨t, Tries.new policy, .fresh⟩ ∧
      seen.requests = 3 ∧ seen.result = some (.ok granted) ∧
      policy.outcome worker.route 0 0 seen.replies = some (.ok granted) ∧
      policy.outcome worker.route 0 0 script = some (.ok granted) ∧
      ∃ more, (d.trial 0 (alone more)).result = some (.ok granted) := by
  intro policy d seen script
  have hw : d.workers[0]? = some
      { route := ⟨"GET", ["a"]⟩
        progress := some ⟨⟨0, ⟨"GET", "/a", none⟩, 0⟩, Tries.new policy, .fresh⟩ } := rfl
  have hscript : policy.outcome ⟨"GET", ["a"]⟩ 0 0 script = some (.ok granted) := by
    decide +kernel
  have hseen : seen.result = some (.ok granted) := by decide +kernel
  obtain ⟨-, hresult, -⟩ := outcome_of_run policy 0 Span.second takenUp hw rfl heardOut
  obtain ⟨-, -, -, -, -, hpossible⟩ := outcome_of_run policy 0 Span.second takenUp hw rfl []
  obtain ⟨more, -, -, -, -, hmore⟩ := hpossible rfl script (List.nil_prefix ..)
    (by rw [hscript]; rfl) 0
  exact ⟨_, _, hw, rfl, by decide +kernel, hseen, hresult.symm.trans hseen, hscript, more,
    hmore.trans hscript⟩

end Dispatcher

end Switchboard
