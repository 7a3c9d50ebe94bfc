import Switchboard.Proofs.Dispatch.Steps

/-!
# The lines of the buckets

A worker that has a bucket to itself, from the reservation of a unit to the answer, is the first in
the line of that bucket, and every worker stands in the line of one bucket at most. It follows that
two requests are never under way under one bucket.

## Main definitions

* `Dispatcher.stageAt`: where the worker of a number stands with its call.
* `Stage.held?`: the bucket that a worker has to itself.
* `Dispatcher.Orderly`: what holds of the lines.

## Main results

* `Dispatcher.orderly_happens`: every step keeps the lines in order.
-/
namespace Switchboard

namespace Stage

/-- The bucket that a worker has to itself at a stage. -/
def held? : Stage → Option BucketId
  | .reserving b | .stalled b _ | .sending b => some b
  | .fresh | .cooling _ | .queued _ | .resting _ => none

end Stage

theorem Worker.stage?_accept (worker : Worker) (t : Ticket) :
    (worker.accept t).stage? = worker.stage? := by
  unfold Worker.accept
  split <;> rfl

namespace Dispatcher

variable {d d' : Dispatcher} {now : Instant} {w : WorkerId} {b : BucketId}

/-- Where the worker of a number stands with its call, if it has one. -/
def stageAt (d : Dispatcher) (w : WorkerId) : Option Stage := d.workers[w]?.bind Worker.stage?

theorem stageAt_of {worker : Worker} (hw : d.workers[w]? = some worker) :
    d.stageAt w = worker.stage? := by
  simp [stageAt, hw]

theorem stageAt_of_progress {worker : Worker} {p : Progress} (hw : d.workers[w]? = some worker)
    (hp : worker.progress = some p) : d.stageAt w = some p.stage := by
  simp [stageAt, hw, Worker.stage?, hp]

theorem exists_of_stageAt {stage : Stage} (h : d.stageAt w = some stage) :
    ∃ worker p, d.workers[w]? = some worker ∧ worker.progress = some p ∧ p.stage = stage := by
  obtain ⟨worker, hw, hstage⟩ := Option.bind_eq_some_iff.mp h
  obtain ⟨p, hp, hs⟩ := Option.map_eq_some_iff.mp hstage
  exact ⟨worker, p, hw, hp, hs⟩

/-- Another worker in the place of one stands where it stands; all others stay. -/
theorem stageAt_put {worker : Worker} (hw : d.workers[w]? = some worker) (other : Worker)
    (v : WorkerId) :
    (d.put w other).stageAt v = if v = w then other.stage? else d.stageAt v := by
  have hlt : w < d.workers.length := (List.getElem?_eq_some_iff.mp hw).1
  by_cases hv : v = w
  · subst hv
    simp [stageAt, put, hlt]
  · simp [stageAt, put, hv, List.getElem?_set_ne (Ne.symm hv)]

/-- A worker that gets a further call stays where it stands. -/
theorem stageAt_accept {worker : Worker} (hw : d.workers[w]? = some worker) (t : Ticket)
    (v : WorkerId) : (d.put w (worker.accept t)).stageAt v = d.stageAt v := by
  rw [stageAt_put hw]
  split
  case isTrue hv => rw [hv, stageAt_of hw, Worker.stage?_accept]
  case isFalse => rfl

/-- What holds of the lines between two steps. -/
structure Orderly (d : Dispatcher) : Prop where
  /-- Who has a bucket is the first in its line. -/
  head : ∀ w b, (d.stageAt w).bind Stage.held? = some b → (d.line b).head? = some w
  /-- Who stands in a line is at a stage that belongs there. -/
  member : ∀ b, ∀ w ∈ d.line b, (d.stageAt w).bind Stage.bucket? = some b
  nodup : ∀ b, (d.line b).Nodup

theorem orderly_new (policy : RetryPolicy) (timeout idle : Span) :
    (new policy timeout idle).Orderly := by
  constructor <;> simp [new, stageAt, line]

/-- A worker stays in its line, if it is in one. -/
theorem Orderly.stay (h : d.Orderly) (hl : d'.lines = d.lines) {s : Option Stage}
    (hs : ∀ v, d'.stageAt v = if v = w then s else d.stageAt v)
    (hb : s.bind Stage.bucket? = (d.stageAt w).bind Stage.bucket?)
    (hh : ∀ b, s.bind Stage.held? = some b → (d.line b).head? = some w) : d'.Orderly := by
  have hline : ∀ b, d'.line b = d.line b := fun b => by rw [line, hl, line]
  refine ⟨fun v c hv => ?_, fun c v hv => ?_, fun c => ?_⟩
  · rw [hs] at hv
    rw [hline]
    split at hv
    case isTrue heq => exact heq ▸ hh c hv
    case isFalse => exact h.head v c hv
  · rw [hline] at hv
    rw [hs]
    split
    case isTrue heq =>
      subst heq
      rw [hb]
      exact h.member c v hv
    case isFalse => exact h.member c v hv
  · rw [hline]
    exact h.nodup c

/-- A worker that is in no line joins one at its end. -/
theorem Orderly.join (h : d.Orderly) (hl : d'.lines = (d.join b w).lines)
    (hs : ∀ v, d'.stageAt v = if v = w then some (.queued b) else d.stageAt v)
    (hb : (d.stageAt w).bind Stage.bucket? = none) : d'.Orderly := by
  have hline : ∀ c, d'.line c = if c = b then d.line b ++ [w] else d.line c := by
    intro c
    rw [line, hl, Dispatcher.join, Table.get?_put]
    split <;> rfl
  have hout : ∀ c, w ∉ d.line c := by
    intro c hc
    simp [h.member c w hc] at hb
  refine ⟨fun v c hv => ?_, fun c v hv => ?_, fun c => ?_⟩
  · rw [hs] at hv
    split at hv
    case isTrue => simp [Stage.held?] at hv
    case isFalse =>
      have hhead := h.head v c hv
      rw [hline]
      split
      case isTrue heq =>
        subst heq
        cases hd : d.line c with
        | nil => simp [hd] at hhead
        | cons x rest => simpa [hd] using hhead
      case isFalse => exact hhead
  · rw [hline] at hv
    rw [hs]
    by_cases hvw : v = w
    · subst hvw
      split at hv
      case isTrue heq => simp [heq, Stage.bucket?]
      case isFalse => exact absurd hv (hout c)
    · rw [if_neg hvw]
      split at hv
      case isTrue heq =>
        subst heq
        refine h.member c v ?_
        simpa [hvw] using hv
      case isFalse => exact h.member c v hv
  · rw [hline]
    split
    case isTrue =>
      rw [List.nodup_append]
      refine ⟨h.nodup b, by simp, ?_⟩
      intro x hx y hy hxy
      obtain rfl : y = w := by simpa using hy
      exact hout b (hxy ▸ hx)
    case isFalse => exact h.nodup c

/-- A worker leaves its line, wherever it stood there. -/
theorem Orderly.leave (h : d.Orderly) (hl : d'.lines = d.without b w) {s : Option Stage}
    (hs : ∀ v, d'.stageAt v = if v = w then s else d.stageAt v)
    (hb : (d.stageAt w).bind Stage.bucket? = some b) (hheld : s.bind Stage.held? = none) :
    d'.Orderly := by
  have hline : ∀ c, d'.line c = if c = b then (d.line b).erase w else d.line c := by
    intro c
    rw [line, hl, without, Table.get?_put]
    split <;> rfl
  refine ⟨fun v c hv => ?_, fun c v hv => ?_, fun c => ?_⟩
  · rw [hs] at hv
    split at hv
    case isTrue => simp [hheld] at hv
    case isFalse hvw =>
      have hhead := h.head v c hv
      rw [hline]
      split
      case isTrue heq =>
        -- The one that leaves was not the first, since another is.
        subst heq
        cases hd : d.line c with
        | nil => simp [hd] at hhead
        | cons x rest =>
          obtain rfl : x = v := by simpa [hd] using hhead
          simp [hvw]
      case isFalse => exact hhead
  · rw [hline] at hv
    rw [hs]
    split at hv
    case isTrue heq =>
      subst heq
      obtain ⟨hvw, hv⟩ := (h.nodup c).mem_erase_iff.mp hv
      rw [if_neg hvw]
      exact h.member c v hv
    case isFalse hc =>
      have hvw : v ≠ w := by
        rintro rfl
        have hmember := h.member c v hv
        rw [hb] at hmember
        exact hc (Option.some.inj hmember).symm
      rw [if_neg hvw]
      exact h.member c v hv
  · rw [hline]
    split
    case isTrue => exact (h.nodup b).erase w
    case isFalse => exact h.nodup c

/-- A step that leaves the stages of all workers as they are. -/
theorem Orderly.same (h : d.Orderly) (hl : d'.lines = d.lines)
    (hs : ∀ v, d'.stageAt v = d.stageAt v) : d'.Orderly := by
  have hline : ∀ b, d'.line b = d.line b := fun b => by rw [line, hl, line]
  refine ⟨fun v c hv => ?_, fun c v hv => ?_, fun c => ?_⟩
  · rw [hline]
    exact h.head v c (hs v ▸ hv)
  · rw [hs]
    exact h.member c v (hline c ▸ hv)
  · rw [hline]
    exact h.nodup c

section Put

variable {worker : Worker} {p : Progress} (hw : d.workers[w]? = some worker)
  (hp : worker.progress = some p)
include hw hp

/-- A worker goes on within the line in which it stands. -/
theorem Orderly.on (h : d.Orderly) {stage : Stage} (hl : d'.lines = d.lines)
    (hs : d'.workers = (d.put w (worker.on p stage)).workers)
    (hb : stage.bucket? = p.stage.bucket?)
    (hh : ∀ b, stage.held? = some b → (d.line b).head? = some w) : d'.Orderly := by
  refine h.stay (s := some stage) hl (fun v => ?_) ?_ hh
  · rw [stageAt, hs]
    exact stageAt_put hw _ v
  · rw [stageAt_of_progress hw hp]
    exact hb

/-- A worker that has a bucket, and goes on with it. -/
theorem Orderly.holds (h : d.Orderly) {stage : Stage} (hl : d'.lines = d.lines)
    (hs : d'.workers = (d.put w (worker.on p stage)).workers) (hb : p.stage.held? = some b)
    (hstage : stage.bucket? = p.stage.bucket?) (hheld : stage.held? = some b) : d'.Orderly := by
  refine h.on hw hp hl hs hstage fun c hc => ?_
  obtain rfl : b = c := Option.some.inj (hheld.symm.trans hc)
  exact h.head w b (by rw [stageAt_of_progress hw hp]; exact hb)

/-- A worker leaves its line for a stage at which it has no bucket. -/
theorem Orderly.out (h : d.Orderly) {other : Worker} (hl : d'.lines = d.without b w)
    (hs : d'.workers = (d.put w other).workers) (hb : p.stage.bucket? = some b)
    (hheld : other.stage?.bind Stage.held? = none) : d'.Orderly := by
  refine h.leave (s := other.stage?) hl (fun v => ?_) ?_ hheld
  · rw [stageAt, hs]
    exact stageAt_put hw _ v
  · rw [stageAt_of_progress hw hp]
    exact hb

end Put

/-- Changes to workers that leave their calls alone leave the stages alone. -/
theorem stageAt_map (d : Dispatcher) {f : Worker → Worker}
    (hf : ∀ worker, (f worker).progress = worker.progress) (w : WorkerId) :
    (d.workers.map f)[w]?.bind Worker.stage? = d.stageAt w := by
  cases hw : d.workers[w]? <;> simp [stageAt, hw, Worker.stage?, hf]

theorem stageAt_retire (workers : List Worker) (ws : List WorkerId) (w : WorkerId) :
    (retire workers ws)[w]?.bind Worker.stage? = workers[w]?.bind Worker.stage? := by
  induction ws generalizing workers with
  | nil => rfl
  | cons v rest ih =>
    refine (ih _).trans ?_
    rw [List.getElem?_modify]
    cases workers[w]? with
    | none => rfl
    | some worker => by_cases hv : v = w <;> simp [hv, Worker.stage?]

/-- A further worker without a call. -/
theorem stageAt_append (d : Dispatcher) {worker : Worker} (hs : worker.stage? = none)
    (w : WorkerId) : (d.workers ++ [worker])[w]?.bind Worker.stage? = d.stageAt w := by
  rw [List.getElem?_append, stageAt]
  split
  case isTrue => rfl
  case isFalse hlt =>
    rw [List.getElem?_eq_none (Nat.le_of_not_lt hlt)]
    cases hw : [worker][w - d.workers.length]? with
    | none => rfl
    | some other =>
      obtain rfl : other = worker := by simpa using List.mem_of_getElem? hw
      exact hs

/-- Every step keeps the lines in order. -/
theorem orderly_happens {e : Event} {r : Dispatcher × List DispatchEffect}
    (h : Happens d now e r) (ho : d.Orderly) : r.1.Orderly := by
  cases h with
  | assign _ _ _ _ _ hw _ => exact ho.same rfl (stageAt_accept hw _)
  | hire _ route _ _ _ => exact ho.same rfl (stageAt_append d (Worker.stage?_accept { route } _))
  | take hw _ hp _ =>
    refine ho.stay rfl (stageAt_put hw _) ?_ (by simp [Worker.stage?, Worker.takes, Stage.held?])
    simp [stageAt_of hw, Worker.stage?, Worker.takes, hp, Stage.bucket?]
  | retire hw _ hp _ _ =>
    refine ho.stay rfl (stageAt_put hw _) ?_ (by simp [Worker.stage?, hp])
    rw [stageAt_of hw]
    rfl
  | cool hw ha hp hs _ _ =>
    exact ho.on hw hp rfl rfl (by rw [hs]; rfl) (by simp [Stage.held?])
  | queue hw ha hp hs _ =>
    refine ho.join rfl (fun v => stageAt_put hw _ v) ?_
    rw [stageAt_of_progress hw hp, hs]
    rfl
  | @rested w worker p ending hw ha hp hs _ =>
    have hout : p.stage.bucket? = none := by rcases hs with hs | hs <;> rw [hs] <;> rfl
    exact ho.on hw hp rfl rfl hout.symm (by simp [Stage.held?])
  | first hw ha hp hs hf =>
    refine ho.on hw hp rfl rfl (by rw [hs]; rfl) fun c hc => ?_
    obtain rfl := Option.some.inj hc
    exact hf
  | again hw ha hp hs _ => exact ho.holds hw hp rfl rfl (by rw [hs]; rfl) (by rw [hs]; rfl) rfl
  | back hw ha hp hs _ _ => exact ho.out hw hp rfl rfl (by rw [hs]; rfl) rfl
  | execute hw ha hp hs _ _ => exact ho.holds hw hp rfl rfl (by rw [hs]; rfl) (by rw [hs]; rfl) rfl
  | stall hw ha hp hs _ _ => exact ho.holds hw hp rfl rfl (by rw [hs]; rfl) (by rw [hs]; rfl) rfl
  | done hw hp hs _ => exact ho.out hw hp rfl rfl (by rw [hs]; rfl) rfl
  | retry hw hp hs _ => exact ho.out hw hp rfl rfl (by rw [hs]; rfl) rfl
  | pauses _ hw hp hs _ _ _ _ => exact ho.out hw hp rfl rfl (by rw [hs]; rfl) rfl
  | blocks _ hw hp hs _ _ _ _ => exact ho.out hw hp rfl rfl (by rw [hs]; rfl) rfl
  | @crash w worker hw =>
    cases hb : worker.stage?.bind Stage.bucket? with
    | none =>
      refine ho.stay (by simp only [withoutAny]) (stageAt_put hw _) ?_ (by simp [Worker.stage?])
      rw [stageAt_of hw, hb]
      rfl
    | some b =>
      refine ho.leave (b := b) (by simp only [withoutAny]) (stageAt_put hw _) ?_ rfl
      rw [stageAt_of hw, hb]
  | giveUp _ _ _ => exact ho.same rfl (stageAt_map d fun _ => rfl)
  | sweep => exact ho.same rfl (stageAt_retire d.workers _)
  | _ => exact ho.same rfl fun _ => rfl

/-! ## Requests under way -/

/-- The request of a worker is over with an event. -/
def Event.ends (w : WorkerId) : Event → Bool
  | .receive v _ _ _ | .crash v => v = w
  | _ => false

/-- A request is under way until its worker hears the answer or dies. -/
theorem sending_happens {e : Event} {r : Dispatcher × List DispatchEffect} (h : Happens d now e r)
    (hs : d.stageAt w = some (.sending b)) (he : e.ends w = false) :
    r.1.stageAt w = some (.sending b) := by
  -- Whoever else goes on leaves the stage of this worker as it is.
  have hput : ∀ {v worker other}, d.workers[v]? = some worker →
      worker.stage? ≠ some (.sending b) ∨ v ≠ w →
      (d.put v other).stageAt w = some (.sending b) := by
    intro v worker other hw hne
    have hwv : w ≠ v := by
      rintro rfl
      rw [stageAt_of hw] at hs
      exact hne.elim (· hs) (· rfl)
    rw [stageAt_put hw, if_neg hwv, hs]
  have hat : ∀ {v worker p other}, d.workers[v]? = some worker → worker.progress = some p →
      p.stage ≠ .sending b → (d.put v other).stageAt w = some (.sending b) := by
    intro v worker p other hw hp hne
    exact hput hw (.inl (by simpa [Worker.stage?, hp] using hne))
  cases h with
  | assign _ _ _ _ _ hw _ => exact (stageAt_accept hw _ w).trans hs
  | hire _ route _ _ _ => exact (stageAt_append d (Worker.stage?_accept { route } _) w).trans hs
  | take hw _ hp _ => exact hput hw (.inl (by simp [Worker.stage?, hp]))
  | retire hw _ hp _ _ => exact hput hw (.inl (by simp [Worker.stage?, hp]))
  | cool hw _ hp hs _ _ => exact hat hw hp (by simp [hs])
  | queue hw _ hp hs _ => exact hat hw hp (by simp [hs])
  | rested hw _ hp hs _ => exact hat hw hp (by rcases hs with hs | hs <;> simp [hs])
  | first hw _ hp hs _ => exact hat hw hp (by simp [hs])
  | again hw _ hp hs _ => exact hat hw hp (by simp [hs])
  | back hw _ hp hs _ _ => exact hat hw hp (by simp [hs])
  | execute hw _ hp hs _ _ => exact hat hw hp (by simp [hs])
  | stall hw _ hp hs _ _ => exact hat hw hp (by simp [hs])
  | done hw _ _ _ => exact hput hw (.inr (by simpa [Event.ends] using he))
  | retry hw _ _ _ => exact hput hw (.inr (by simpa [Event.ends] using he))
  | pauses _ hw _ _ _ _ _ _ => exact hput hw (.inr (by simpa [Event.ends] using he))
  | blocks _ hw _ _ _ _ _ _ => exact hput hw (.inr (by simpa [Event.ends] using he))
  | crash hw => exact hput hw (.inr (by simpa [Event.ends] using he))
  | giveUp _ _ _ => exact (stageAt_map d (f := Worker.forget _) (fun _ => rfl) w).trans hs
  | sweep => exact (stageAt_retire d.workers _ w).trans hs
  | _ => exact hs

end Dispatcher

end Switchboard
