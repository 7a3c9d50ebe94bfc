import Switchboard.Proofs.Session.Coupling

/-!
# Sessions at rest

A session that was shut down or stopped for good hears no connection and holds nothing that could
report to it. What is still under way for it, whenever it arrives, is passed over: only the inputs
that are meant to wake the session do so.

## Main definitions

* `Session.AtRest`: disconnected or stopped for good, with nothing left of any connection.
* `Session.Input.wakes`: the inputs that get a session out of the phase in which it rests.

## Main results

* `Session.atRest_happens`: a step without such an input leaves a session at rest as it is, and does
  nothing but turn down commands.
* `Session.run_at_rest`: the same of all runs, after a shutdown and after the end.
-/
namespace Switchboard.Session

/-- Disconnected or stopped for good, with nothing left of any connection. -/
structure AtRest (s : Session) : Prop where
  phase : s.phase = .disconnected ∨ s.phase = .fatal
  connection : s.connection = none
  current : s.link.current = none
  heartbeatTask : s.heartbeatTask = none
  identifyTask : s.identifyTask = none

/-- The input gets a session out of this phase, if it rests in it. A session that stopped for good
does not begin again by itself, but it can be shut down. -/
def Input.wakes (p : Phase) : Input → Bool
  | .restart => true
  | .start => p = .disconnected
  | .shutdown => p = .fatal
  | _ => false

/-- A command is turned down. -/
def Effect.isRefusal : Effect → Bool
  | .reply (.error _) => true
  | _ => false

variable {c : Config} {m : Moment} {s : Session}

/-- What a step leaves of a session at rest. -/
structure Rests (s : Session) (r : Session × List Effect) : Prop where
  atRest : r.1.AtRest
  phase : r.1.phase = s.phase
  fatal : r.1.fatal = s.fatal
  refusals : ∀ e ∈ r.2, e.isRefusal = true

theorem AtRest.release (h : s.AtRest) (code : Nat) (reason : String) :
    s.release code reason = [] := by
  simp [Session.release, taskEnds, farewell, h.heartbeatTask, h.identifyTask, h.current]

theorem AtRest.unheard (h : s.AtRest) (k : Nat) : s.connection ≠ some k := by
  simp [h.connection]

theorem AtRest.not_isReady (h : s.AtRest) : s.phase.isReady = false := by
  rcases h.phase with hp | hp <;> simp [hp, Phase.isReady]

theorem AtRest.not_pending (h : s.AtRest) : s.phase ≠ .reconnectPending := by
  rcases h.phase with hp | hp <;> simp [hp]

/-- Nothing but a change to what a session at rest does not use. -/
theorem AtRest.rests {t : Session} {es : List Effect} (h : s.AtRest) (hp : t.phase = s.phase)
    (hc : t.connection = none) (hl : t.link.current = none) (hb : t.heartbeatTask = none)
    (hi : t.identifyTask = none) (hf : t.fatal = s.fatal) (hes : ∀ e ∈ es, e.isRefusal = true) :
    Rests s (t, es) :=
  ⟨⟨hp ▸ h.phase, hc, hl, hb, hi⟩, hp, hf, hes⟩

theorem AtRest.same (h : s.AtRest) : Rests s (s, []) :=
  h.rests rfl h.connection h.current h.heartbeatTask h.identifyTask rfl (by simp)

/-- A session at rest stays so, and turns down commands. -/
theorem atRest_happens {i : Input} {r : Session × List Effect} (h : s.AtRest)
    (hi : i.wakes s.phase = false) (hr : Happens c m s i r) : Rests s r := by
  cases hr with
  | start hp => simp [Input.wakes, hp] at hi
  | restart => simp [Input.wakes] at hi
  | shutdown =>
    have hp : s.phase = .disconnected := h.phase.resolve_right (by simpa [Input.wakes] using hi)
    rw [h.release]
    exact h.rests hp.symm rfl rfl rfl rfl rfl (by simp)
  | stop =>
    rw [h.release]
    exact h.rests rfl h.connection rfl rfl rfl rfl (by simp)
  | refuse op data w failure =>
    exact h.rests rfl h.connection h.current h.heartbeatTask h.identifyTask rfl
      (by simp [Effect.isRefusal])
  | command op data w _ hp _ => simp [h.not_isReady] at hp
  | opened k hk => exact absurd hk (h.unheard k)
  | mumble k _ hk _ _ => exact absurd hk (h.unheard k)
  | message k _ hk _ _ => exact absurd hk (h.unheard k)
  | close k _ _ hk => exact absurd hk (h.unheard k)
  | fail k _ hk _ => exact absurd hk (h.unheard k)
  | survive k _ hk _ => exact absurd hk (h.unheard k)
  | due k hk _ => exact absurd hk (h.unheard k)
  | dead k hk _ => exact absurd hk (h.unheard k)
  | denied k _ hk _ => exact absurd hk (h.unheard k)
  | identify k hk _ => exact absurd hk (h.unheard k)
  | late k _ _ => exact h.rests rfl h.connection h.current h.heartbeatTask rfl rfl (by simp)
  | reconnect _ _ hp => exact absurd hp h.not_pending
  | unneeded _ => exact h.same
  | stale _ _ _ => exact h.same
  | staleDue _ _ => exact h.same
  | void _ _ => exact h.same

/-! ## Coming to rest -/

theorem atRest_shut (s : Session) : s.shut.AtRest := ⟨.inl rfl, rfl, rfl, rfl, rfl⟩

theorem Coupled.atRest (h : s.Coupled) (hp : s.phase = .disconnected ∨ s.phase = .fatal) :
    s.AtRest := by
  have hc : s.connection = none := h.apart.mpr (hp.imp_right .inr)
  exact ⟨hp, hc, h.link ▸ hc, (h.tasks hc).1, (h.tasks hc).2⟩

/-! ## Runs -/

theorem Rests.trans {t u : Session} {es fs : List Effect} (h : Rests s (t, es))
    (h' : Rests t (u, fs)) : Rests s (u, es ++ fs) where
  atRest := h'.atRest
  phase := h'.phase.trans h.phase
  fatal := h'.fatal.trans h.fatal
  refusals e he := (List.mem_append.mp he).elim (h.refusals e) (h'.refusals e)

/-- A run that does not get a session at rest out of its phase leaves it there. -/
theorem AtRest.run (h : s.AtRest) (inputs : List (Moment × Input))
    (hi : ∀ x ∈ inputs, x.2.wakes s.phase = false) :
    Rests s ((Session.run c s inputs).1, (Session.run c s inputs).2.flatten) := by
  refine run_preserves (c := c) (p := fun i => i.wakes s.phase = false)
    (P := fun t es => Rests s (t, es)) ?_ inputs hi s [] h.same
  intro t es m i r hi hr ht
  have hwakes : i.wakes t.phase = false := by rwa [ht.phase]
  exact ht.trans (atRest_happens ht.atRest hwakes hr)

/-- **Stopped means stopped.** After a shutdown a session stays disconnected until it is started or
restarted, and a session that stopped for good stays so, with the cause for which it did, until it
is restarted or shut down, whatever else comes and was still under way for it. All that it does is
to turn down commands: it begins, closes and plans nothing, sends and publishes nothing, and has
nothing to tell. -/
theorem run_at_rest (c : Config) (shard : Shard) (now : Instant) (past : List (Moment × Input))
    (hpast : ∀ x ∈ past, x.2 ≠ .stop) (m : Moment) (later : List (Moment × Input)) :
    let s := (run c (new c shard now) past).1
    let t := (step c s m .shutdown).1
    ((∀ x ∈ later, x.2 ≠ .start ∧ x.2 ≠ .restart) →
      (run c t later).1.phase = .disconnected ∧
        ∀ e ∈ (run c t later).2.flatten, e.isRefusal = true) ∧
    (s.phase = .fatal → (∀ x ∈ later, x.2 ≠ .restart ∧ x.2 ≠ .shutdown) →
      (run c s later).1.phase = .fatal ∧ (run c s later).1.fatal = s.fatal ∧
        ∀ e ∈ (run c s later).2.flatten, e.isRefusal = true) := by
  intro s t
  constructor
  · intro hlater
    have ht : t = s.shut := by simp [t, step, Turn.handle, Turn.shutdown_eq]
    have hwakes : ∀ x ∈ later, x.2.wakes t.phase = false := by
      intro x hx
      obtain ⟨hstart, hrestart⟩ := hlater x hx
      rw [ht]
      cases hi : x.2 <;> simp_all [Input.wakes, shut]
    have hrest := AtRest.run (c := c) (ht ▸ atRest_shut s) later hwakes
    exact ⟨hrest.phase.trans (by simp [ht, shut]), hrest.refusals⟩
  · intro hfatal hlater
    have hs : s.Coupled := coupled_run (coupled_new c shard now) hpast
    have hwakes : ∀ x ∈ later, x.2.wakes s.phase = false := by
      intro x hx
      obtain ⟨hrestart, hshutdown⟩ := hlater x hx
      rw [hfatal]
      cases hi : x.2 <;> simp_all [Input.wakes]
    have hrest := AtRest.run (c := c) (hs.atRest (.inr hfatal)) later hwakes
    exact ⟨hrest.phase.trans hfatal, hrest.fatal, hrest.refusals⟩

/-- An open connection is shut down, and one ends for good. The close, the heartbeat, the admission
and the reconnect that come later are passed over, and so is a start in the second case. -/
theorem run_at_rest_late :
    let m : Moment := ⟨0, true, .ok (), 0⟩
    let opened : List (Moment × Input) := [(m, .start), (m, .inbound 1 .opened)]
    let ended := opened ++ [(m, .inbound 1 (.closed (some 4014) ""))]
    let late : List (Moment × Input) :=
      [(m, .inbound 1 (.closed none "")), (m, .heartbeatDue 1), (m, .admitted 1 (.ok ())),
        (m, .reconnectDue 1), (m, .command 3 .null)]
    let s := (run {} (new {} ⟨0, 1⟩ 0) opened).1
    let t := (step {} s m .shutdown).1
    let u := (run {} (new {} ⟨0, 1⟩ 0) ended).1
    (∀ x ∈ ended, x.2 ≠ .stop) ∧ s.phase = .identifying ∧ u.phase = .fatal ∧
      (run {} t late).1.phase = .disconnected ∧
      (∀ e ∈ (run {} t late).2.flatten, e.isRefusal = true) ∧
      (run {} u (late ++ [(m, .start)])).1.phase = .fatal ∧
      ∀ e ∈ (run {} u (late ++ [(m, .start)])).2.flatten, e.isRefusal = true := by
  intro m opened ended late s t u
  have hopened : ∀ x ∈ opened, x.2 ≠ .stop := by simp [opened]
  have hended : ∀ x ∈ ended, x.2 ≠ .stop := by simp [ended, opened]
  have hfatal : u.phase = .fatal := rfl
  obtain ⟨hshut, -⟩ := run_at_rest {} ⟨0, 1⟩ 0 opened hopened m late
  obtain ⟨-, hend⟩ := run_at_rest {} ⟨0, 1⟩ 0 ended hended m (late ++ [(m, .start)])
  obtain ⟨hphase, hsilent⟩ := hshut (by simp [late])
  obtain ⟨hphase', -, hsilent'⟩ := hend hfatal (by simp [late])
  exact ⟨hended, rfl, hfatal, hphase, hsilent, hphase', hsilent'⟩

end Switchboard.Session
