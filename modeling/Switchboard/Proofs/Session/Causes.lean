import Mathlib.Data.List.Induction
import Switchboard.Proofs.Session.Failures
import Switchboard.Proofs.Session.Moves

/-!
# The cause that a session keeps

A session that stopped for good keeps the cause that it told, until it begins a connection. A
shutdown does not strike the cause off: a session that was shut down after it had stopped for good
is disconnected, and names the cause on being asked all the same.

## Main definitions

* `Session.Convicted`: what holds of the cause between two steps.

## Main results

* `Session.Convicted.happens`: every step but the end preserves it.
* `Session.cause_of_run`: the cause, the notices and the phase, for all runs.
-/
namespace Switchboard.Session

variable {c : Config} {m : Moment} {s : Session} {es : List Effect}

/-- The cause that is kept is the one that was told last. There is one in a session that stopped for
good, and in one that was shut down after that. -/
structure Convicted (s : Session) (es : List Effect) : Prop where
  told : ∀ cause, s.fatal = some cause → (failures es).getLast? = some cause
  stopped : s.phase = .fatal → s.fatal.isSome = true
  phase : s.fatal.isSome = true → s.phase = .disconnected ∨ s.phase = .fatal

theorem convicted_new (c : Config) (shard : Shard) (now : Instant) :
    (new c shard now).Convicted [] := by
  constructor <;> simp [new]

/-- A session with a cause begins a connection and has none, or keeps it; it stays in its phase
then, or is shut down. -/
theorem Convicted.kept (h : s.Convicted es) (hs : s.Coupled) (hf : s.fatal.isSome = true)
    {i : Input} {r : Session × List Effect} (hr : Happens c m s i r) :
    r.1.fatal = none ∧ r.1.phase = .connecting ∧ r.1.link.begun = s.link.begun + 1 ∨
      r.1.fatal = s.fatal ∧ failures r.2 = [] ∧
        (r.1.phase = s.phase ∨ i = .shutdown ∧ r.1.phase = .disconnected) := by
  have hrest : s.AtRest := hs.atRest (h.phase hf)
  cases hi : i.wakes s.phase with
  | false =>
    have hrests := atRest_happens hrest hi hr
    refine .inr ⟨hrests.fatal, ?_, .inl hrests.phase⟩
    refine List.filterMap_eq_nil_iff.mpr fun e he => ?_
    have hrefusal := hrests.refusals e he
    cases e <;> simp_all [Effect.isRefusal, Effect.failure?]
  | true =>
    cases hr with
    | start _ => exact .inl ⟨rfl, rfl, rfl⟩
    | restart => exact .inl ⟨rfl, rfl, rfl⟩
    | shutdown => exact .inr ⟨rfl, by simp, .inr ⟨rfl, rfl⟩⟩
    | unneeded hp => exact absurd (of_decide_eq_true hi) hp
    | _ => simp [Input.wakes] at hi

/-- Every step but the end leaves the cause as it should be. -/
theorem Convicted.happens (h : s.Convicted es) (hs : s.Coupled) {i : Input}
    {r : Session × List Effect} (hr : Happens c m s i r) : r.1.Convicted (es ++ r.2) := by
  cases blames_happens hr with
  | fail cause hp hf ht =>
    refine ⟨fun cause' hcause => ?_, fun _ => by simp [hf], fun _ => .inr hp⟩
    obtain rfl : cause = cause' := Option.some.inj (hf.symm.trans hcause)
    simp [ht]
  | none hf ht =>
    have hnew : s.fatal.isSome = false → r.1.fatal = none := by
      intro hnone
      rcases hf with hf | hf
      · simpa [hf] using hnone
      · exact hf
    cases hsome : s.fatal.isSome with
    | false =>
      have hno := hnew hsome
      refine ⟨by simp [hno], fun hp => ?_, by simp [hno]⟩
      have hbefore := (owns_happens hr hp).resolve_right (by simp [ht])
      simp [h.stopped hbefore] at hsome
    | true =>
      rcases h.kept hs hsome hr with ⟨hno, hp, -⟩ | ⟨hkept, -, hp⟩
      · exact ⟨by simp [hno], by simp [hp], by simp [hno]⟩
      · refine ⟨fun cause hcause => ?_, fun _ => hkept ▸ hsome, fun _ => ?_⟩
        · simpa [ht] using h.told cause (hkept ▸ hcause)
        · rcases hp with hp | ⟨-, hp⟩
          · exact hp ▸ h.phase hsome
          · exact .inl hp

theorem convicted_run (c : Config) (shard : Shard) (now : Instant)
    (inputs : List (Moment × Input)) (hstop : ∀ x ∈ inputs, x.2 ≠ .stop) :
    let r := run c (new c shard now) inputs
    r.1.Coupled ∧ r.1.Convicted r.2.flatten := by
  refine run_preserves (p := (· ≠ .stop)) (P := fun s es => s.Coupled ∧ s.Convicted es) ?_ inputs
    hstop _ [] ⟨coupled_new c shard now, convicted_new c shard now⟩
  intro s es m i r hi hr ⟨hs, h⟩
  exact ⟨coupled_happens hi hr hs, h.happens hs hr⟩

/-- A session with a cause has begun no connection in the last step. -/
theorem Convicted.begun {r : Session × List Effect} (h : r.1.Convicted es) (hr : r.1.Coupled)
    (hf : r.1.fatal.isSome = true) (hs : s.Coupled) {i : Input} (hstep : Happens c m s i r) :
    r.1.link.begun = s.link.begun := by
  have hnone : r.1.connection = none := (hr.atRest (h.phase hf)).connection
  cases moves_happens hs.resumable hstep with
  | stay _ hl _ _ _ => exact hl
  | leave hl =>
    rcases hl.connection with ⟨-, hl⟩ | ⟨hc, -⟩
    · exact hl
    · exact absurd (hnone.symm.trans hc) (by simp)

/-- A session that has a cause and did not stop for good had the cause before. If it had stopped for
good then, it was shut down. -/
theorem Convicted.before (h : s.Convicted es) (hs : s.Coupled) {i : Input}
    {r : Session × List Effect} (hr : Happens c m s i r) (hf : r.1.fatal.isSome = true)
    (hp : r.1.phase ≠ .fatal) :
    s.fatal.isSome = true ∧ (s.phase = .fatal → i = .shutdown) := by
  have hsome : s.fatal.isSome = true := by
    cases blames_happens hr with
    | fail _ hfatal _ _ => exact absurd hfatal hp
    | none hkept _ =>
      rcases hkept with hkept | hkept
      · rwa [hkept] at hf
      · simp [hkept] at hf
  refine ⟨hsome, fun hfatal => ?_⟩
  rcases h.kept hs hsome hr with ⟨hno, -⟩ | ⟨-, -, hphase | ⟨hi, -⟩⟩
  · simp [hno] at hf
  · exact absurd (hphase.trans hfatal) hp
  · exact hi

/-- A session that has a cause and did not stop for good was shut down when it had, and has begun no
connection since. -/
theorem exists_shutdown (c : Config) (shard : Shard) (now : Instant)
    (inputs : List (Moment × Input)) (hstop : ∀ x ∈ inputs, x.2 ≠ .stop)
    (hf : (run c (new c shard now) inputs).1.fatal.isSome = true)
    (hp : (run c (new c shard now) inputs).1.phase ≠ .fatal) :
    ∃ before m after, inputs = before ++ (m, .shutdown) :: after ∧
      (run c (new c shard now) before).1.phase = .fatal ∧
      (run c (new c shard now) inputs).1.link.begun =
        (run c (new c shard now) before).1.link.begun := by
  induction inputs using List.reverseRecOn with
  | nil => simp [run, new] at hf
  | append_singleton inputs x ih =>
    obtain ⟨m, i⟩ := x
    have hstop' : ∀ y ∈ inputs, y.2 ≠ .stop := fun y hy => hstop y (List.mem_append_left _ hy)
    obtain ⟨hcoupled, hconvicted⟩ := convicted_run c shard now inputs hstop'
    obtain ⟨hcoupled', hconvicted'⟩ := convicted_run c shard now _ hstop
    rw [run_concat] at hf hp hcoupled' hconvicted' ⊢
    have hr := happens_step c (run c (new c shard now) inputs).1 m i
    have hbegun := hconvicted'.begun hcoupled' hf hcoupled hr
    obtain ⟨hsome, hshut⟩ := hconvicted.before hcoupled hr hf hp
    by_cases hfatal : (run c (new c shard now) inputs).1.phase = .fatal
    · exact ⟨inputs, m, [], by rw [hshut hfatal], hfatal, hbegun⟩
    · obtain ⟨before, m', after, rfl, hbefore, hsame⟩ := ih hstop' hsome hfatal
      exact ⟨before, m', after ++ [(m, i)], by simp, hbefore, hbegun.trans hsame⟩

/-- A session that has a cause keeps it until it begins a connection. -/
theorem Convicted.lasts (h : s.Convicted es) (hs : s.Coupled) (hf : s.fatal.isSome = true)
    {i : Input} {r : Session × List Effect} (hr : Happens c m s i r)
    (hsame : r.1.link.begun = s.link.begun) : r.1.fatal.isSome = true := by
  rcases h.kept hs hf hr with ⟨-, -, hnew⟩ | ⟨hkept, -, -⟩
  · omega
  · rw [hkept]
    exact hf

/-- A session that was shut down when it had stopped for good keeps the cause until it begins a
connection. -/
theorem fatal_of_shutdown (c : Config) (shard : Shard) (now : Instant)
    (before after : List (Moment × Input)) (m : Moment)
    (hstop : ∀ x ∈ before ++ (m, .shutdown) :: after, x.2 ≠ .stop)
    (hp : (run c (new c shard now) before).1.phase = .fatal) :
    let s := (run c (new c shard now) before).1
    let t := (run c (new c shard now) (before ++ (m, .shutdown) :: after)).1
    s.link.begun ≤ t.link.begun ∧ (t.link.begun = s.link.begun → t.fatal.isSome = true) := by
  intro s
  have hfatal : s.fatal.isSome = true :=
    (convicted_run c shard now before fun x hx => hstop x (by simp [hx])).2.stopped hp
  induction after using List.reverseRecOn with
  | nil =>
    have hshut : (run c (new c shard now) (before ++ [(m, .shutdown)])).1 = s.shut := by
      rw [run_concat]
      simp [s, step, Turn.handle, Turn.shutdown_eq]
    rw [hshut]
    exact ⟨Nat.le_refl _, fun _ => hfatal⟩
  | append_singleton after x ih =>
    rw [← List.cons_append, ← List.append_assoc] at hstop ⊢
    have hstop' : ∀ y ∈ before ++ (m, .shutdown) :: after, y.2 ≠ .stop :=
      fun y hy => hstop y (List.mem_append_left _ hy)
    obtain ⟨hle, hsome⟩ := ih hstop'
    obtain ⟨hcoupled, hconvicted⟩ := convicted_run c shard now _ hstop'
    rw [run_concat]
    generalize (run c (new c shard now) (before ++ (m, .shutdown) :: after)) = u at *
    have hr := happens_step c u.1 x.1 x.2
    have hmono := (Link.begun_follow (follow_happens hr)).1
    refine ⟨Nat.le_trans hle hmono, fun hsame => ?_⟩
    have hend : (step c u.1 x.1 x.2).1.link.begun = s.link.begun := hsame
    have hmiddle : u.1.link.begun = s.link.begun := by omega
    exact hconvicted.lasts hcoupled (hsome hmiddle) hr (hend.trans hmiddle.symm)

/-- **The cause of a session**, after any run that has not ended. Asked for a cause, it names one
exactly if it stopped for good, or was shut down when it had and has begun no connection since. The
cause is the one that it told last. -/
theorem cause_of_run (c : Config) (shard : Shard) (now : Instant) (inputs : List (Moment × Input))
    (hstop : ∀ x ∈ inputs, x.2 ≠ .stop) :
    let s := (run c (new c shard now) inputs).1
    let es := (run c (new c shard now) inputs).2.flatten
    (s.fatal.isSome = true ↔ s.phase = .fatal ∨
      ∃ before m after, inputs = before ++ (m, .shutdown) :: after ∧
        (run c (new c shard now) before).1.phase = .fatal ∧
        s.link.begun = (run c (new c shard now) before).1.link.begun) ∧
    ∀ cause, s.fatal = some cause → (failures es).getLast? = some cause := by
  intro s es
  obtain ⟨-, hconvicted⟩ := convicted_run c shard now inputs hstop
  refine ⟨⟨fun hf => ?_, ?_⟩, hconvicted.told⟩
  · by_cases hp : s.phase = .fatal
    · exact .inl hp
    · exact .inr (exists_shutdown c shard now inputs hstop hf hp)
  · rintro (hp | ⟨before, m, after, rfl, hp, hsame⟩)
    · exact hconvicted.stopped hp
    · exact (fatal_of_shutdown c shard now before after m hstop hp).2 hsame

/-- A session stops for good, is shut down, is started, and stops for good once more: it names the
second cause. -/
theorem cause_of_run_twice :
    let m : Moment := ⟨0, true, .ok (), 0⟩
    let closed (k code : Nat) (reason : String) : Moment × Input :=
      (m, .inbound k (.closed (some code) reason))
    let inputs : List (Moment × Input) :=
      [(m, .start), (m, .inbound 1 .opened), closed 1 4014 "intents", (m, .shutdown), (m, .start),
        (m, .inbound 2 .opened), closed 2 4004 "token"]
    let r := run {} (new {} ⟨0, 1⟩ 0) inputs
    (∀ x ∈ inputs, x.2 ≠ .stop) ∧ r.1.phase = .fatal ∧ (failures r.2.flatten).length = 2 ∧
      ∃ cause, r.1.fatal = some cause ∧ cause.authentication = true ∧
        (failures r.2.flatten).getLast? = some cause := by
  intro m closed inputs r
  have hstop : ∀ x ∈ inputs, x.2 ≠ .stop := by simp [inputs, closed]
  have hphase : r.1.phase = .fatal := by decide +kernel
  have htwo : (failures r.2.flatten).length = 2 := by decide +kernel
  have hrejected : (r.1.fatal.map (·.authentication)) = some true := by decide +kernel
  obtain ⟨hnames, htold⟩ := cause_of_run {} ⟨0, 1⟩ 0 inputs hstop
  obtain ⟨cause, hcause⟩ := Option.isSome_iff_exists.mp (hnames.mpr (.inl hphase))
  refine ⟨hstop, hphase, htwo, cause, hcause, ?_, htold cause hcause⟩
  simpa [r, hcause] using hrejected

/-- A session that was shut down after it had stopped for good is disconnected, and names a cause.
-/
theorem cause_of_run_shut :
    let m : Moment := ⟨0, true, .ok (), 0⟩
    let inputs : List (Moment × Input) :=
      [(m, .start), (m, .inbound 1 .opened), (m, .inbound 1 (.closed (some 4014) "intents")),
        (m, .shutdown)]
    let s := (run {} (new {} ⟨0, 1⟩ 0) inputs).1
    s.phase = .disconnected ∧ s.fatal.isSome = true ∧
      ¬ (s.fatal.isSome = true ↔ s.phase = .fatal) := by
  intro m inputs s
  have hphase : s.phase = .disconnected := by decide +kernel
  have hfatal : s.fatal.isSome = true := by decide +kernel
  refine ⟨hphase, hfatal, fun hagree => ?_⟩
  exact absurd (hphase.symm.trans (hagree.mp hfatal)) (by decide)

end Switchboard.Session
