import Switchboard.Proofs.Dispatch.Buckets
import Switchboard.Proofs.Dispatch.Pause

/-!
# The longest wait

Whatever a server says, it holds nobody off for longer than an hour: every window and every pause
that an answer sets ends within an hour of the moment at which the answer is read, and later answers
and blocks cannot add up, for they count from their own moment. So whoever waits for a bucket or for
the end of a pause waits for an hour at most.

The delays between attempts are not the server's. They are as long as the policy has them.

## Main definitions

* `Registry.EndsBy`: all windows end by an instant.
* `Stage.heldUntil?`: the instant until which a worker waits for others.
* `Dispatcher.HeldBy`: nobody is held off beyond an instant.

## Main results

* `Limits.effectiveWait_le`: what a refusal asks for.
* `Dispatcher.heldBy_happens`: what every step preserves.
* `Dispatcher.held_of_run`: windows, pauses and sleeps in every run.
-/
namespace Switchboard

/-! ## What a response says -/

namespace Limits

theorem resetAfter?_le {h : Headers} {clock : Option Span} {span : Span}
    (hspan : resetAfter? h clock = some span) : span ≤ longestWait := by
  unfold resetAfter? at hspan
  split at hspan
  case h_1 hgiven =>
    obtain rfl := Option.some.inj hspan
    obtain ⟨x, -, hx⟩ := Option.bind_eq_some_iff.mp hgiven
    exact wait?_le hx
  case h_2 =>
    obtain ⟨reset, -, hreset⟩ := Option.bind_eq_some_iff.mp hspan
    obtain ⟨now, -, hnow⟩ := Option.bind_eq_some_iff.mp hreset
    exact wait?_le hnow

/-- No refusal asks for more than an hour, whatever its headers and its body are. -/
theorem effectiveWait_le (h : Headers) (clock : Option Span) (body : List UInt8) :
    ((ofHeaders h clock).withBody body).effectiveWait ≤ longestWait := by
  have hheader : ∀ span, (ofHeaders h clock).retryAfter = some span → span ≤ longestWait := by
    intro span hspan
    obtain ⟨x, -, hx⟩ := Option.bind_eq_some_iff.mp hspan
    exact wait?_le hx
  have hretry : ∀ span, ((ofHeaders h clock).withBody body).retryAfter = some span →
      span ≤ longestWait := by
    intro span hspan
    unfold withBody at hspan
    split at hspan
    case h_1 => exact hheader span hspan
    case h_2 seconds everywhere _ =>
      rcases Option.or_eq_some_iff.mp hspan with hspan | ⟨-, hspan⟩
      · exact hheader span hspan
      · exact wait?_le hspan
  have hreset : ((ofHeaders h clock).withBody body).resetAfter = resetAfter? h clock := by
    unfold withBody
    split <;> rfl
  rw [effectiveWait]
  cases hwait : ((ofHeaders h clock).withBody body).retryAfter.or
      ((ofHeaders h clock).withBody body).resetAfter with
  | none => exact by decide
  | some span =>
    rcases Option.or_eq_some_iff.mp hwait with hspan | ⟨-, hspan⟩
    · exact hretry span hspan
    · exact resetAfter?_le (hreset ▸ hspan)

end Limits

/-! ## Windows -/

/-- The window of a bucket, if its end is known, ends by an instant. -/
def Bucket.EndsBy (b : Bucket) (limit : Instant) : Prop :=
  ∀ reset, b.resetAt = some reset → reset ≤ limit

namespace Bucket

variable {b b' : Bucket} {now limit : Instant}

theorem EndsBy.apply (h : b.EndsBy limit) (limits : Limits) (hle : now + longestWait ≤ limit) :
    (b.apply limits now).EndsBy limit := by
  intro reset hreset
  rcases Option.or_eq_some_iff.mp hreset with hgiven | ⟨-, hbefore⟩
  · obtain ⟨span, -, rfl⟩ := Option.map_eq_some_iff.mp hgiven
    exact Nat.le_trans (deadlineAfter_le now span) hle
  · exact h reset hbefore

theorem EndsBy.block (h : b.EndsBy limit) {ending : Instant} (hle : ending ≤ limit) :
    (b.block ending).EndsBy limit := by
  intro reset hreset
  obtain rfl := Option.some.inj hreset
  cases hbefore : b.resetAt with
  | none => exact hle
  | some before => exact Nat.max_le.mpr ⟨h before hbefore, hle⟩

theorem EndsBy.reserve (h : b.EndsBy limit) (hr : b.reserve now = .ok b') : b'.EndsBy limit := by
  have hrefilled : (b.refilled now).EndsBy limit := by
    unfold refilled
    split
    case h_1 reset hreset =>
      split
      · simp [EndsBy]
      · exact h
    case h_2 => exact h
  simp only [Bucket.reserve] at hr
  split at hr
  case h_1 => simp at hr
  case h_2 =>
    obtain rfl := Except.ok.inj hr
    exact hrefilled

/-- Who has to wait for a unit waits for the end of the window. -/
theorem EndsBy.le_of_error (h : b.EndsBy limit) {ending : Instant}
    (hr : b.reserve now = .error ending) : ending ≤ limit := by
  have hrefilled : (b.refilled now).resetAt = some ending := by
    simp only [Bucket.reserve, exhaustedUntil?] at hr
    split at hr
    case h_1 hexhausted =>
      obtain rfl := Except.error.inj hr
      split at hexhausted
      · exact hexhausted
      · simp at hexhausted
    case h_2 => simp at hr
  refine h ending ?_
  unfold refilled at hrefilled
  split at hrefilled
  case h_1 =>
    split at hrefilled
    · simp at hrefilled
    · exact hrefilled
  case h_2 => exact hrefilled

end Bucket

namespace Registry

variable {r r' : Registry} {id : BucketId} {now limit : Instant}

/-- All windows whose ends are known end by an instant. -/
def EndsBy (r : Registry) (limit : Instant) : Prop := ∀ b ∈ r.buckets, b.EndsBy limit

theorem endsBy_new (idle : Span) (limit : Instant) : (new idle).EndsBy limit := by
  simp [EndsBy, new]

theorem EndsBy.mono (h : r.EndsBy limit) {later : Instant} (hle : limit ≤ later) :
    r.EndsBy later := fun b hb reset hreset => Nat.le_trans (h b hb reset hreset) hle

theorem EndsBy.modify (h : r.EndsBy limit) {f : Bucket → Bucket}
    (hf : ∀ b : Bucket, b.EndsBy limit → (f b).EndsBy limit) : (r.modify id f).EndsBy limit := by
  intro b hb
  obtain ⟨i, hi⟩ := List.getElem?_of_mem hb
  have hbucket : (r.modify id f).bucket? i = some b := hi
  rw [bucket?_modify] at hbucket
  split at hbucket
  · obtain ⟨b', hb', rfl⟩ := Option.map_eq_some_iff.mp hbucket
    exact hf b' (h b' (List.mem_of_getElem? hb'))
  · exact h b (List.mem_of_getElem? hbucket)

theorem EndsBy.resolve (h : r.EndsBy limit) (route : Route) (now : Instant) :
    (r.resolve route now).1.EndsBy limit := by
  unfold Registry.resolve
  split
  · exact h
  · intro b hb
    rcases List.mem_append.mp hb with hb | hb
    · exact h b hb
    · obtain rfl := List.mem_singleton.mp hb
      simp [Bucket.EndsBy, Bucket.fresh]

theorem EndsBy.hold (h : r.EndsBy limit) (id : BucketId) : (r.hold id).EndsBy limit :=
  h.modify fun _ hb => hb

theorem EndsBy.release (h : r.EndsBy limit) (id : BucketId) (now : Instant) :
    (r.release id now).EndsBy limit := h.modify fun _ hb => hb

theorem EndsBy.update (h : r.EndsBy limit) (route : Route) (id : BucketId) (limits : Limits)
    (hle : now + longestWait ≤ limit) : (r.update route id limits now).1.EndsBy limit := by
  have happly : ∀ target, (r.modify target (·.apply limits now)).EndsBy limit := fun target =>
    h.modify fun _ hb => hb.apply limits hle
  unfold Registry.update
  split
  · exact happly id
  · exact happly _

theorem EndsBy.reserve (h : r.EndsBy limit) (hr : r.reserve id now = .ok r') :
    r'.EndsBy limit := by
  unfold Registry.reserve at hr
  split at hr
  case h_1 =>
    obtain rfl := Except.ok.inj hr
    exact h
  case h_2 b hb =>
    cases hreserve : b.reserve now with
    | error ending => simp [hreserve, Except.map] at hr
    | ok b' =>
      rw [hreserve] at hr
      obtain rfl := Except.ok.inj hr
      intro x hx
      rcases List.mem_or_eq_of_mem_set hx with hx | rfl
      · exact h x hx
      · exact (h b (List.mem_of_getElem? hb)).reserve hreserve

theorem EndsBy.le_of_error (h : r.EndsBy limit) {ending : Instant}
    (hr : r.reserve id now = .error ending) : ending ≤ limit := by
  unfold Registry.reserve at hr
  split at hr
  case h_1 => simp at hr
  case h_2 b hb =>
    cases hreserve : b.reserve now with
    | ok b' => simp [hreserve, Except.map] at hr
    | error other =>
      rw [hreserve] at hr
      obtain rfl := Except.error.inj hr
      exact (h b (List.mem_of_getElem? hb)).le_of_error hreserve

end Registry

/-! ## Sleeps -/

/-- The instant until which a worker waits for the end of a pause or of a window. -/
def Stage.heldUntil? : Stage → Option Instant
  | .cooling ending | .stalled _ ending => some ending
  | .fresh | .queued _ | .reserving _ | .sending _ | .resting _ => none

namespace Dispatcher

variable {d : Dispatcher} {now limit : Instant}

/-- Nobody is held off beyond an instant. -/
structure HeldBy (d : Dispatcher) (limit : Instant) : Prop where
  windows : d.registry.EndsBy limit
  pause : ∀ u, d.cooldown.until? = some u → u ≤ limit
  sleeps : Every d.workers fun _ worker => ∀ u, worker.stage?.bind Stage.heldUntil? = some u →
    u ≤ limit

theorem heldBy_new (policy : RetryPolicy) (timeout idle : Span) (limit : Instant) :
    (new policy timeout idle).HeldBy limit where
  windows := Registry.endsBy_new idle limit
  pause := by simp [new, Cooldown.none]
  sleeps := by simp [new, Every]

theorem HeldBy.mono (h : d.HeldBy limit) {later : Instant} (hle : limit ≤ later) :
    d.HeldBy later where
  windows := h.windows.mono hle
  pause u hu := Nat.le_trans (h.pause u hu) hle
  sleeps := h.sleeps.imp fun _ _ hs u hu => Nat.le_trans (hs u hu) hle

theorem endsBy_freed {r : Registry} (h : r.EndsBy limit) (now : Instant) (ts : List Ticket) :
    (freed r now ts).EndsBy limit := by
  induction ts generalizing r with
  | nil => exact h
  | cons t rest ih => exact ih (h.release t.bucket now)

theorem endsBy_learned (h : d.registry.EndsBy limit) (hle : now + longestWait ≤ limit)
    (route : Route) (b : BucketId) (limits : Limits) (answer : Answer) :
    (d.learned now route b limits answer).EndsBy limit := by
  cases answer with
  | lost f => exact h
  | response r =>
    cases hr : r.isTooMany with
    | true => simpa [learned, hr] using h
    | false => simpa [learned, hr] using h.update route b limits hle

theorem le_of_trigger {c : Cooldown} {ending : Instant} (h : ∀ u, c.until? = some u → u ≤ limit)
    (hle : ending ≤ limit) (u : Instant) (hu : (c.trigger ending).until? = some u) : u ≤ limit := by
  obtain rfl := Option.some.inj hu
  cases hc : c.until? with
  | none => exact hle
  | some v => exact Nat.max_le.mpr ⟨h v hc, hle⟩

/-- **Every step** keeps everybody from being held off for more than an hour, unless somebody else
than the server orders a longer pause. -/
theorem heldBy_happens {e : Event} {r : Dispatcher × List DispatchEffect}
    (h : Happens d now e r) (hd : d.HeldBy limit) (hle : now + longestWait ≤ limit)
    (hpause : ∀ ending, e = .pause ending → ending ≤ limit) : r.1.HeldBy limit := by
  obtain ⟨hwindows, hcooldown, hsleeps⟩ := hd
  have hnone : ∀ u, Cooldown.none.until? = some u → u ≤ limit := by simp [Cooldown.none]
  have hdeadline : ∀ span, deadlineAfter now span ≤ limit := fun span =>
    Nat.le_trans (deadlineAfter_le now span) hle
  -- The worker does not wait for others at its new stage.
  have hawake : ∀ {w : WorkerId} {other : Worker}, other.stage?.bind Stage.heldUntil? = none →
      Every (d.put w other).workers fun _ worker => ∀ u,
        worker.stage?.bind Stage.heldUntil? = some u → u ≤ limit := fun hno =>
    hsleeps.put fun u hu => by simp [hno] at hu
  cases h with
  | @assign id route request timeout w worker _ hw _ =>
    refine ⟨(hwindows.resolve route now).hold _, hcooldown, hsleeps.put ?_⟩
    rw [Worker.stage?_accept]
    exact hsleeps w worker hw
  | hire id route request timeout _ =>
    refine ⟨(hwindows.resolve route now).hold _, hcooldown, Every.append hsleeps ?_⟩
    simp [Worker.stage?]
  | take _ _ _ _ =>
    exact ⟨hwindows, hcooldown, hawake (by simp [Worker.stage?, Worker.takes, Stage.heldUntil?])⟩
  | @retire w worker hw _ _ _ _ =>
    exact ⟨hwindows, hcooldown, hsleeps.put (hsleeps w worker hw)⟩
  | @cool w worker p _ _ _ _ u hc _ =>
    refine ⟨hwindows, hcooldown, hsleeps.put fun v hv => ?_⟩
    obtain rfl : u = v := by simpa [Worker.stage?, Worker.on, Stage.heldUntil?] using hv
    exact hcooldown u hc
  | queue _ _ _ _ _ => exact ⟨hwindows.resolve _ now, hnone, hawake rfl⟩
  | rested _ _ _ _ _ => exact ⟨hwindows, hcooldown, hawake rfl⟩
  | first _ _ _ _ _ => exact ⟨hwindows, hcooldown, hawake rfl⟩
  | again _ _ _ _ _ => exact ⟨hwindows, hcooldown, hawake rfl⟩
  | back _ _ _ _ _ _ => exact ⟨hwindows, hcooldown, hawake rfl⟩
  | execute _ _ _ _ _ hr => exact ⟨hwindows.reserve hr, hnone, hawake rfl⟩
  | @stall w worker p b _ _ _ _ _ ending hr =>
    refine ⟨hwindows, hnone, hsleeps.put fun u hu => ?_⟩
    obtain rfl : ending = u := by simpa [Worker.stage?, Worker.on, Stage.heldUntil?] using hu
    exact hwindows.le_of_error hr
  | done _ _ _ _ =>
    exact ⟨(endsBy_learned hwindows hle _ _ _ _).release _ _, hcooldown, hawake rfl⟩
  | retry _ _ _ _ => exact ⟨endsBy_learned hwindows hle _ _ _ _, hcooldown, hawake rfl⟩
  | pauses _ _ _ _ _ _ _ _ =>
    exact ⟨hwindows, le_of_trigger hcooldown (hdeadline _), hawake rfl⟩
  | blocks _ _ _ _ _ _ _ _ =>
    refine ⟨(hwindows.update _ _ _ hle).modify fun _ hb => hb.block (hdeadline _), hcooldown,
      hawake rfl⟩
  | crash _ => exact ⟨endsBy_freed hwindows now _, hcooldown, hawake rfl⟩
  | giveUp _ _ _ =>
    exact ⟨endsBy_freed hwindows now _, hcooldown, Every.map hsleeps fun _ _ hs => hs⟩
  | sweep => exact ⟨hwindows, hcooldown, hsleeps.retire _ fun _ _ hs => hs⟩
  | pause ending => exact ⟨hwindows, le_of_trigger hcooldown (hpause ending rfl), hsleeps⟩
  | _ => exact ⟨hwindows, hcooldown, hsleeps⟩

/-- Whoever goes to sleep when it is its turn waits for a window or for the end of a pause. -/
theorem HeldBy.le_of_wake (hd : d.HeldBy limit) {w v : WorkerId} {u : Instant}
    (hu : .wakeWorkerAt v u ∈ (d.step now (.proceed w)).2) : u ≤ limit := by
  have hstep := happens_step d now (.proceed w)
  generalize d.step now (.proceed w) = r at hstep hu
  cases hstep with
  | cool _ _ _ _ hc _ =>
    obtain ⟨-, rfl⟩ : v = w ∧ u = _ := by simpa using hu
    exact hd.pause _ hc
  | stall _ _ _ _ _ hr =>
    obtain ⟨-, rfl⟩ : v = w ∧ u = _ := by simpa using hu
    exact hd.windows.le_of_error hr
  | back _ _ _ _ _ _ =>
    obtain ⟨_, -, hroused⟩ := List.mem_map.mp hu
    simp at hroused
  | _ => simp at hu

theorem heldBy_run {events : List (Instant × Event)} {start : Instant}
    (hd : d.HeldBy (start + longestWait)) (hstart : ∀ x ∈ events, start ≤ x.1)
    (hsorted : events.Pairwise (·.1 ≤ ·.1))
    (hpauses : ∀ x ∈ events, ∀ ending, x.2 = .pause ending → ending ≤ x.1 + longestWait)
    (hle : start ≤ now) (hnow : ∀ x ∈ events, x.1 ≤ now) :
    (d.run events).1.HeldBy (now + longestWait) := by
  induction events generalizing d start with
  | nil => exact hd.mono (Nat.add_le_add_right hle _)
  | cons x rest ih =>
    obtain ⟨time, e⟩ := x
    obtain ⟨hlater, hsorted⟩ := List.pairwise_cons.mp hsorted
    have hfirst : start ≤ time := hstart _ List.mem_cons_self
    have hstep : (d.step time e).1.HeldBy (time + longestWait) :=
      heldBy_happens (happens_step d time e) (hd.mono (Nat.add_le_add_right hfirst _))
        (Nat.le_refl _) (hpauses _ List.mem_cons_self)
    exact ih hstep hlater hsorted (fun y hy => hpauses y (List.mem_cons_of_mem _ hy))
      (hnow _ List.mem_cons_self) fun y hy => hnow y (List.mem_cons_of_mem _ hy)

/-- **Nobody is held off for longer than an hour** at any instant of a run, if whoever orders pauses
besides the server orders none that is longer.

The windows of all buckets and the pause end within an hour; whoever waits for one of these wakes up
within an hour; and whoever goes to sleep to wait for one sleeps for an hour at most. No refusal
asks for more, whatever its headers and its body are. -/
theorem held_of_run (policy : RetryPolicy) (timeout idle : Span)
    {events : List (Instant × Event)} (hsorted : events.Pairwise (·.1 ≤ ·.1))
    (hpauses : ∀ x ∈ events, ∀ ending, x.2 = .pause ending → ending ≤ x.1 + longestWait)
    {now : Instant} (hnow : ∀ x ∈ events, x.1 ≤ now) :
    let d := ((new policy timeout idle).run events).1
    (∀ b ∈ d.registry.buckets, ∀ reset, b.resetAt = some reset → reset ≤ now + longestWait) ∧
    (∀ u, d.cooldown.until? = some u → u ≤ now + longestWait) ∧
    (∀ w b u, d.stageAt w = some (.cooling u) ∨ d.stageAt w = some (.stalled b u) →
      u ≤ now + longestWait) ∧
    (∀ w v u, .wakeWorkerAt v u ∈ (d.step now (.proceed w)).2 → u ≤ now + longestWait) ∧
    ∀ headers clock body,
      ((Limits.ofHeaders headers clock).withBody body).effectiveWait ≤ longestWait := by
  intro d
  have hd : d.HeldBy (now + longestWait) :=
    heldBy_run (heldBy_new policy timeout idle _) (fun _ _ => Nat.zero_le _) hsorted hpauses
      (Nat.zero_le _) hnow
  refine ⟨hd.windows, hd.pause, fun w b u hu => ?_, fun w v u hu => hd.le_of_wake hu,
    Limits.effectiveWait_le⟩
  rcases hu with hu | hu <;> obtain ⟨worker, p, hw, hp, hs⟩ := exists_of_stageAt hu <;>
    exact hd.sleeps w worker hw u (by simp [Worker.stage?, hp, hs, Stage.heldUntil?])

/-- A refusal that asks everybody to wait for longer than the world will stand asks for an hour, and
the worker that hears it goes to sleep for that long. -/
theorem held_of_endless_refusal :
    let endless : Response := ⟨429, [("x-ratelimit-global", [Utf8.encode "true"]),
      ("retry-after", [Utf8.encode "1e300"])], []⟩
    let events := underWay ++ [(0, .receive 0 none 0 (.response endless))]
    let d := ((new ⟨0, 1, 0, 0⟩ 0 0).run events).1
    events.Pairwise (·.1 ≤ ·.1) ∧
      (∀ x ∈ events, ∀ ending, x.2 = .pause ending → ending ≤ x.1 + longestWait) ∧
      (∀ x ∈ events, x.1 ≤ 0) ∧
      d.cooldown.until? = some longestWait ∧
      (d.step 0 (.proceed 0)).1.stageAt 0 = some (.cooling longestWait) ∧
      (∀ w v u, .wakeWorkerAt v u ∈ (d.step 0 (.proceed w)).2 → u ≤ 0 + longestWait) := by
  intro endless events d
  have hsorted : events.Pairwise (·.1 ≤ ·.1) := by decide +kernel
  have hpauses : ∀ x ∈ events, ∀ ending, x.2 = .pause ending → ending ≤ x.1 + longestWait := by
    simp [events, underWay, turns]
  have hnow : ∀ x ∈ events, x.1 ≤ 0 := by decide +kernel
  obtain ⟨-, -, -, hsleep, -⟩ := held_of_run ⟨0, 1, 0, 0⟩ 0 0 hsorted hpauses hnow
  exact ⟨hsorted, hpauses, hnow, by decide +kernel, by decide +kernel, hsleep⟩

end Dispatcher

end Switchboard
