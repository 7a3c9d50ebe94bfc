import Switchboard.Proofs.Session.Handshakes
import Switchboard.Proofs.Session.Likeness

/-!
# Restarts

A restart leaves nothing of a session but its numbers: from there on it goes on like one that was
just made and started, and what is still under way from before makes no difference. So any two
sessions of a shard go on in the same way after a restart, if they meet with the same.

## Main definitions

* `Session.Weave`: what a session meets with, among leftovers from before.
* `Session.sights`: what can be seen of a run.
* `Session.started`: a session that was just made and started.

## Main results

* `Session.alike_restart`: a restarted session is like one that was just started.
* `Session.sights_of_weave`: sessions that are alike have the same runs, but for leftovers.
* `Session.sights_of_restart`: restarted sessions have the same runs, and what these begin with.
-/
namespace Switchboard.Session

variable {b e : Nat} {c : Config} {m : Moment} {s t : Session} {shard : Shard}

/-! ## Leftovers -/

/-- The input was under way before connections were counted on from `b` and reconnects from `e`. -/
def Input.isLeftover (b e : Nat) : Input → Bool
  | .inbound k _ => k ≤ b
  | .heartbeatDue k => k ≤ b
  | .admitted k _ => k ≤ b
  | .reconnectDue n => n < e
  | _ => false

/-- The second list has the inputs of the first, counted on, with leftovers anywhere among them. -/
inductive Weave (b e : Nat) : List (Moment × Input) → List (Moment × Input) → Prop where
  | nil : Weave b e [] []
  | news (m : Moment) (i : Input) {news later : List (Moment × Input)} (h : Weave b e news later) :
    Weave b e ((m, i) :: news) ((m, i.shift b e) :: later)
  | leftover (m : Moment) (i : Input) (hi : i.isLeftover b e = true)
      {news later : List (Moment × Input)} (h : Weave b e news later) :
    Weave b e news ((m, i) :: later)

/-- Connections are numbered from one. -/
def Positive (s : Session) : Prop := ∀ k, s.connection = some k → 0 < k

theorem lt_of_connect_mem {i : Input} {r : Session × List Effect} (h : Happens c m s i r) {k : Nat}
    {url : String} (hk : .connect k url ∈ r.2) : s.link.begun < k ∧ k ≤ r.1.link.begun := by
  obtain ⟨hle, hbegun⟩ := Link.begun_follow (follow_happens h)
  have hmem : k ∈ r.2.filterMap Effect.begun? := List.mem_filterMap.mpr ⟨_, hk, rfl⟩
  rw [hbegun, List.mem_range'_1] at hmem
  omega

theorem Positive.happens (hs : s.Positive) {i : Input} {r : Session × List Effect}
    (h : Happens c m s i r) : r.1.Positive := by
  intro k hk
  rcases hears_happens h k hk with ⟨-, hconnect⟩ | ⟨hk', -⟩
  · exact Nat.zero_lt_of_lt (lt_of_connect_mem h hconnect).1
  · exact hs k hk'

/-- What is left over from before is passed over. -/
theorem Alike.leftover (h : Alike b e s t) (hs : s.Positive) (m : Moment) {i : Input}
    (hi : i.isLeftover b e = true) :
    (Session.step c t m i).2 = [] ∧ (Session.step c t m i).1.phase = t.phase ∧
      Alike b e s (Session.step c t m i).1 := by
  have hunheard : ∀ k ≤ b, t.connection ≠ some k := by
    intro k hk hheard
    rw [h.connection, Option.map_eq_some_iff] at hheard
    obtain ⟨j, hj, rfl⟩ := hheard
    have hpos := hs j hj
    omega
  cases i with
  | inbound k event =>
    rw [(step_stale (hunheard k (by simpa [Input.isLeftover] using hi))).1 event]
    exact ⟨rfl, rfl, h⟩
  | heartbeatDue k =>
    rw [(step_stale (hunheard k (by simpa [Input.isLeftover] using hi))).2.1]
    exact ⟨rfl, rfl, h⟩
  | admitted k outcome =>
    rw [(step_stale (hunheard k (by simpa [Input.isLeftover] using hi))).2.2 outcome]
    exact ⟨rfl, rfl, { h with }⟩
  | reconnectDue n =>
    have hn : n ≠ t.epoch := by
      have hlt : n < e := by simpa [Input.isLeftover] using hi
      have hepoch := h.epoch
      omega
    have hstep : Session.step c t m (.reconnectDue n) = (t, []) := by
      simp [Session.step, Turn.handle, hn]
    rw [hstep]
    exact ⟨rfl, rfl, h⟩
  | _ => simp [Input.isLeftover] at hi

/-! ## What is seen of a run -/

/-- What is seen of a session: that it enters a phase, and what it does. -/
inductive Sight where
  | entered (p : Phase)
  | effect (x : Effect)

/-- The same of a session whose connections and reconnects are counted on. -/
def Sight.shift (b e : Nat) : Sight → Sight
  | .entered p => .entered p
  | .effect x => .effect (x.shift b e)

/-- What is seen of a step. -/
def glimpse (s : Session) (r : Session × List Effect) : List Sight :=
  (if r.1.phase = s.phase then [] else [.entered r.1.phase]) ++ (seen r.2).map .effect

/-- What is seen of a run. -/
def sights (c : Config) (s : Session) : List (Moment × Input) → List Sight
  | [] => []
  | (m, i) :: rest => glimpse s (step c s m i) ++ sights c (step c s m i).1 rest

theorem Matches.glimpse (h : Alike b e s t) {r r' : Session × List Effect} (hr : Matches b e r r') :
    glimpse t r' = (glimpse s r).map (Sight.shift b e) := by
  by_cases hp : r.1.phase = s.phase <;>
    simp [Session.glimpse, h.phase, hr.alike.phase, hr.seen, hp, Sight.shift, Function.comp_def]

/-- Of sessions that are alike the same is seen, whatever is left over from before. -/
theorem sights_of_weave {news later : List (Moment × Input)} (hw : Weave b e news later) :
    ∀ {s t}, Alike b e s t → s.Positive →
      sights c t later = (sights c s news).map (Sight.shift b e) := by
  induction hw with
  | nil => exact fun _ _ => rfl
  | news m i _ ih =>
    intro s t h hs
    have hstep := h.step (c := c) m i
    rw [sights, sights, List.map_append, hstep.glimpse h,
      ih hstep.alike (hs.happens (happens_step c s m i))]
  | leftover m i hi _ ih =>
    intro s t h hs
    obtain ⟨hnone, hphase, halike⟩ := h.leftover (c := c) hs m hi
    rw [sights, ih halike hs]
    simp [glimpse, hnone, hphase]

/-! ## Restarted sessions -/

/-- A session that was just made and started. -/
def started (c : Config) (shard : Shard) : Session := (step c (new c shard 0) Story.calm .start).1

theorem started_eq (c : Config) (shard : Shard) : started c shard = (new c shard 0).dialed c := by
  simp [started, step, Turn.handle, Turn.connect_eq, dial, new]

/-- A session of a shard, after some run. -/
def Reached (c : Config) (shard : Shard) (s : Session) : Prop :=
  ∃ now inputs, s = (run c (new c shard now) inputs).1

/-- What is never changed of a session. -/
def makeup (s : Session) : Shard × Nat × Backoff := (s.shard, s.heartbeat.grace, s.backoff.reset)

theorem makeup_retreat {reason : String} : (s.retreat c m reason).1.makeup = s.makeup := by
  unfold retreat
  split <;> rfl

theorem makeup_leave {reason : String} : (s.leave c m reason).1.makeup = s.makeup := by
  unfold leave
  split
  · rfl
  · exact makeup_retreat

theorem makeup_deliver {p : String} : (s.deliver c m p).1.makeup = s.makeup := by
  unfold deliver
  split
  · rfl
  · exact makeup_retreat

theorem makeup_lose {code : Option Nat} {reason : String} :
    (s.lose c m code reason).1.makeup = s.makeup := by
  unfold lose
  cases CloseAction.ofCode code with
  | authenticationFailed => rfl
  | fatal => rfl
  | reidentify => exact makeup_retreat (s := (s.lost code).forget)
  | resume => exact makeup_retreat (s := s.lost code)

theorem makeup_accept (kind : String) (q : Nat) (data : Json) :
    (s.accept kind q data).1.makeup = s.makeup := by
  unfold accept
  split
  · rfl
  · split <;> rfl

theorem makeup_meets {k : Nat} {message : Message} {r : Session × List Effect}
    (h : Meets c m s k message r) : r.1.makeup = s.makeup := by
  cases h with
  | resume ms _ _ _ =>
    exact makeup_deliver (s := { s.beating (Span.ofMillis ms) with handshakeSent := true })
  | pulse => exact makeup_deliver (s := s.pulsed m)
  | leave => exact makeup_leave
  | accept kind q data _ => exact makeup_accept kind q data
  | _ => rfl

theorem makeup_happens {i : Input} {r : Session × List Effect} (h : Happens c m s i r) :
    r.1.makeup = s.makeup := by
  cases h with
  | message _ _ _ _ hr => exact makeup_meets (s := s.heard m) hr
  | close _ _ _ _ => exact makeup_lose
  | fail _ _ _ _ => exact makeup_retreat
  | @due k _ beat hb =>
    have hgrace : beat.grace = s.heartbeat.grace := by
      rw [← Heartbeat.grace_tick s.heartbeat, hb]
    refine (makeup_deliver (s := ({ s with heartbeat := beat } : Session).pulsed m)).trans ?_
    simp [makeup, pulsed, hgrace]
  | @dead k _ beat _ hb =>
    have hgrace : beat.grace = s.heartbeat.grace := by
      rw [← Heartbeat.grace_tick s.heartbeat, hb]
    refine (makeup_leave (s := { s with heartbeat := beat })).trans ?_
    simp [makeup, hgrace]
  | denied _ _ _ _ => exact makeup_retreat (s := { s with identifyTask := none })
  | identify _ _ _ =>
    exact makeup_deliver (s := { s with identifyTask := none, handshakeSent := true })
  | _ => rfl

theorem Reached.makeup (hs : Reached c shard s) : s.makeup = (new c shard 0).makeup := by
  obtain ⟨now, inputs, rfl⟩ := hs
  refine run_preserves (p := fun _ => True) (P := fun s _ => s.makeup = (new c shard 0).makeup)
    (fun s es m i r _ hr h => (makeup_happens hr).trans h) inputs (fun _ _ => trivial) _ [] rfl

theorem step_restart (c : Config) (s : Session) (m : Moment) :
    step c s m .restart =
      following (s.release normalCloseCode "restart") (s.renewed.dial c) := by
  simp [step, Turn.handle, Turn.restart_eq, following]

/-- A restarted session is like one that was just started, with its numbers counted on. -/
theorem alike_restart (hs : Reached c shard s) (m : Moment) :
    Alike s.link.begun (s.epoch + 1) (started c shard) (step c s m .restart).1 := by
  have hmakeup := hs.makeup
  simp only [Session.makeup, new, Prod.mk.injEq] at hmakeup
  obtain ⟨hshard, hgrace, hbackoff⟩ := hmakeup
  have hreset : (⟨s.heartbeat.grace, none, false, 0, none, none⟩ : Heartbeat) =
      (new c shard 0).heartbeat.reset := by
    rw [hgrace]
    rfl
  rw [started_eq, step_restart]
  exact {
    shard := hshard, phase := rfl, connection := rfl, link := rfl, handshakeSent := rfl
    sessionId := rfl, resumeUrl := rfl, sequence := rfl, heartbeat := hreset, backoff := hbackoff
    attempt := rfl, epoch := rfl, commands := rfl, fatal := rfl }

/-- What a restart does: it gives up the connection and begins one at the general address. -/
theorem seen_restart (c : Config) (s : Session) (m : Moment) :
    seen (step c s m .restart).2 = s.farewell normalCloseCode "restart" ++
      [.connect (s.link.begun + 1) (gatewayAddress c.gatewayUrl c.compression)] := by
  have hfarewell : s.renewed.farewell resumeCloseCode "reconnecting" = [] := rfl
  have hbegun : s.renewed.link.begun = s.link.begun := rfl
  have hurl : nextUrl c s.renewed = gatewayAddress c.gatewayUrl c.compression := rfl
  rw [step_restart]
  simp [dial, hfarewell, hbegun, hurl, Effect.isHidden]

/-! ## Before the server has made a session -/

/-- The address of a connection that is begun fits the session after the step. -/
theorem url_eq_of_happens {i : Input} {r : Session × List Effect} (hs : s.Numbered)
    (hid : s.sessionId = none) (h : Happens c m s i r) {k : Nat} {url : String}
    (hk : .connect k url ∈ r.2) : url = nextUrl c r.1 := by
  obtain ⟨hlt, hle⟩ := lt_of_connect_mem h hk
  have hnodup : (r.2.filterMap Effect.begun?).Nodup := by
    rw [(Link.begun_follow (follow_happens h)).2]
    exact List.nodup_range'
  have hheard : r.1.connection = some k := by
    cases moves_happens (by simp [hid]) h with
    | leave h =>
      rcases h.connection with ⟨-, hbegun⟩ | ⟨hc, hbegun⟩
      · omega
      · rw [hc]
        exact congrArg some (by omega)
    | stay _ hbegun _ _ _ => omega
  rcases hears_happens h k hheard with ⟨-, hconnect⟩ | ⟨hbefore, -⟩
  · exact (Effect.connect.inj (eq_of_begun? hnodup hk hconnect rfl rfl)).2
  · have hold := hs k hbefore
    omega

/-- A session gets an identifier only from the server, and tells. -/
theorem sessionId_of_happens {i : Input} {r : Session × List Effect} (hid : s.sessionId = none)
    (h : Happens c m s i r) (hready : ∀ id, .announce (.ready id) ∉ r.2) :
    r.1.sessionId = none := by
  cases recalls_happens h with
  | quiet _ hq => exact (congrArg Memory.sessionId hq.memory).trans hid
  | say _ _ _ _ hm _ _ _ _ _ => exact (congrArg Memory.sessionId hm).trans hid
  | blank _ hq => exact congrArg Memory.sessionId hq.memory
  | accept k text kind q data _ _ _ _ =>
    cases hw : welcome? kind data with
    | some info =>
      rw [accept_welcome _ hw] at hready
      exact absurd (List.mem_cons_self ..) (hready info.sessionId)
    | none =>
      have hm := memory_accept (s := s.heard m) kind q data
      rw [hw] at hm
      exact (congrArg Memory.sessionId hm).trans hid

theorem effect_mem_glimpse {r : Session × List Effect} {x : Effect} :
    .effect x ∈ glimpse s r ↔ x ∈ r.2 ∧ x.isHidden = false := by
  by_cases hp : r.1.phase = s.phase <;> simp [glimpse, mem_select, Effect.seen?, hp]

/-- The effect belongs to a session that the server did not make yet: connections are begun at the
general address, and handshakes are fresh. -/
def Effect.Initial (c : Config) (shard : Shard) : Effect → Prop
  | .connect _ url => url = gatewayAddress c.gatewayUrl c.compression
  | .send _ p =>
    Payload.isHandshake p = true →
      p = Payload.identify c.bareToken c.intents shard c.compression c.system
  | _ => True

theorem initial_of_happens {i : Input} {r : Session × List Effect} (hs : s.Numbered)
    (hid : s.sessionId = none) (h : Happens c m s i r)
    (hready : ∀ id, .announce (.ready id) ∉ r.2) : ∀ x ∈ r.2, x.Initial c s.shard := by
  intro x hx
  cases x with
  | connect k url =>
    have hnext := sessionId_of_happens hid h hready
    have hcannot : r.1.canResume = false := by simp [canResume, hnext]
    rw [Effect.Initial, url_eq_of_happens hs hid h hx, nextUrl, hcannot]
    rfl
  | send k p =>
    intro hp
    obtain ⟨-, hspeech⟩ := speech_of_recalls (recalls_happens h) hx
    rcases (by simpa [Payload.isHandshake] using hp : _ ∨ _) with hop | hop
    · obtain ⟨-, -, -, -, rfl⟩ := hspeech.identify_iff.mp hop
      rfl
    · obtain ⟨-, -, -, _, _, -, -, -, -, hsome, -⟩ := hspeech.of_resume hop
      simp [hid] at hsome
  | _ => trivial

/-- Until the server makes a session, the runs of one that has none are as at the beginning. -/
theorem initial_of_sights (hid : s.sessionId = none) (hs : s.Numbered)
    (news : List (Moment × Input))
    (hready : ∀ id, .effect (.announce (.ready id)) ∉ sights c s news) :
    ∀ x, .effect x ∈ sights c s news → x.Initial c s.shard := by
  induction news generalizing s with
  | nil => simp [sights]
  | cons y rest ih =>
    obtain ⟨m, i⟩ := y
    have hstep := happens_step c s m i
    simp only [sights, List.mem_append, not_or] at hready ⊢
    have hquiet : ∀ id, .announce (.ready id) ∉ (step c s m i).2 := fun id hmem =>
      (hready id).1 (effect_mem_glimpse.mpr ⟨hmem, rfl⟩)
    have hnext := sessionId_of_happens hid hstep hquiet
    rintro x (hx | hx)
    · exact initial_of_happens hs hid hstep hquiet x (effect_mem_glimpse.mp hx).1
    · have hinitial := ih hnext (hs.of_moves (moves_happens (by simp [hid]) hstep))
        (fun id => (hready id).2) x hx
      rwa [shard_step] at hinitial

/-! ## Two restarts -/

/-- **A restart forgets.** Any two sessions of a shard, after any runs, have the same runs once both
were restarted: if they meet with the same at the same times, whatever is still under way from
before, they enter the same phases and do the same, up to the numbers of connections and reconnects,
and so would a session that was just made and started. The restart begins a connection at the
general address, with no attempt counted and all commands allowed; and until the server makes a
session, all connections are begun there and all handshakes are fresh. -/
theorem sights_of_restart {s s' : Session} (hs : Reached c shard s) (hs' : Reached c shard s')
    (m m' : Moment) {news later later' : List (Moment × Input)}
    (h : Weave s.link.begun (s.epoch + 1) news later)
    (h' : Weave s'.link.begun (s'.epoch + 1) news later') :
    let vs := sights c (started c shard) news
    let r := step c s m .restart
    let r' := step c s' m' .restart
    sights c r.1 later = vs.map (Sight.shift s.link.begun (s.epoch + 1)) ∧
      sights c r'.1 later' = vs.map (Sight.shift s'.link.begun (s'.epoch + 1)) ∧
      r.1.phase = .connecting ∧ r.1.attempt = 0 ∧ r.1.commands = freshCommands c ∧
      seen r.2 = s.farewell normalCloseCode "restart" ++
        [.connect (s.link.begun + 1) (gatewayAddress c.gatewayUrl c.compression)] ∧
      ((∀ id, .effect (.announce (.ready id)) ∉ vs) →
        ∀ x, .effect x ∈ vs → x.Initial c shard) := by
  intro vs r r'
  have hpositive : (started c shard).Positive := by
    rw [started_eq]
    intro k hk
    exact Option.some.inj hk ▸ Nat.one_pos
  have hnumbered : (started c shard).Numbered := by
    rw [started_eq]
    intro k hk
    exact Nat.le_of_eq (Option.some.inj hk).symm
  have hid : (started c shard).sessionId = none := by
    rw [started_eq]
    rfl
  have hshard : (started c shard).shard = shard := by
    rw [started_eq]
    rfl
  have hr : r.1 = s.renewed.dialed c := congrArg Prod.fst (step_restart c s m)
  refine ⟨sights_of_weave h (alike_restart hs m) hpositive,
    sights_of_weave h' (alike_restart hs' m') hpositive, by rw [hr]; rfl, by rw [hr]; rfl,
    by rw [hr]; rfl, seen_restart c s m, fun hready => ?_⟩
  have hinitial := initial_of_sights hid hnumbered news hready
  rwa [hshard] at hinitial

/-- The payload that is sent, with the connection over which it goes. -/
def Sight.sent? : Sight → Option (Nat × String)
  | .effect (.send k p) => some (k, p)
  | _ => none

/-- The address at which a connection is begun. -/
def Sight.dialed? : Sight → Option (Nat × String)
  | .effect (.connect k url) => some (k, url)
  | _ => none

/-- One session has not begun, and the other is in its handshake when it is restarted. Both open the
next connection, are greeted and admitted, and send a fresh handshake; what was under way for the
second session when it was restarted is passed over. -/
theorem sights_of_restart_greeted :
    let c : Config := {}
    let s := new c ⟨0, 1⟩ 0
    let s' := (run c (new c ⟨0, 1⟩ 0) Story.greeted).1
    let news : List (Moment × Input) :=
      [(Story.calm, .inbound 1 .opened), (Story.calm, .inbound 1 (.received Story.greeting)),
        (Story.calm, .admitted 1 (.ok ()))]
    let later : List (Moment × Input) :=
      [(Story.calm, .heartbeatDue 1), (Story.calm, .inbound 2 .opened),
        (Story.calm, .inbound 1 (.closed (some 4000) "")),
        (Story.calm, .inbound 2 (.received Story.greeting)), (Story.calm, .admitted 1 (.ok ())),
        (Story.calm, .reconnectDue 0), (Story.calm, .admitted 2 (.ok ()))]
    let vs := sights c (started c ⟨0, 1⟩) news
    Weave s.link.begun (s.epoch + 1) news news ∧ Weave s'.link.begun (s'.epoch + 1) news later ∧
      sights c (step c s Story.calm .restart).1 news = vs.map (Sight.shift 0 1) ∧
      sights c (step c s' Story.calm .restart).1 later = vs.map (Sight.shift 1 1) ∧
      vs.filterMap Sight.sent? =
        [(1, Payload.identify c.bareToken c.intents ⟨0, 1⟩ c.compression c.system)] := by
  intro c s s' news later vs
  have hs : Reached c ⟨0, 1⟩ s := ⟨0, [], rfl⟩
  have hs' : Reached c ⟨0, 1⟩ s' := ⟨0, Story.greeted, rfl⟩
  have hbegun : s'.link.begun = 1 := by decide +kernel
  have hepoch : s'.epoch = 0 := by decide +kernel
  have h : Weave s.link.begun (s.epoch + 1) news news :=
    .news _ (.inbound 1 .opened) (.news _ (.inbound 1 (.received Story.greeting))
      (.news _ (.admitted 1 (.ok ())) .nil))
  have h' : Weave s'.link.begun (s'.epoch + 1) news later := by
    rw [hbegun, hepoch]
    exact .leftover _ _ rfl (.news _ (.inbound 1 .opened) (.leftover _ _ rfl
      (.news _ (.inbound 1 (.received Story.greeting)) (.leftover _ _ rfl (.leftover _ _ rfl
        (.news _ (.admitted 1 (.ok ())) .nil))))))
  obtain ⟨hfirst, hsecond, -⟩ := sights_of_restart hs hs' Story.calm Story.calm h h'
  rw [hbegun, hepoch] at hsecond
  exact ⟨h, h', hfirst, hsecond, by decide +kernel⟩

/-- The first handshake after a restart need not be a fresh one: a server that makes a session
unasked is believed, and that session is taken up on the next connection, at its address. -/
theorem sights_of_restart_unasked :
    let c : Config := {}
    let unasked : List (Moment × Input) :=
      [(Story.calm, .inbound 1 .opened), (Story.calm, .inbound 1 (.received Story.locatedReady)),
        (Story.calm, .inbound 1 (.closed (some 4000) "")), (Story.calm, .reconnectDue 2),
        (Story.calm, .inbound 2 .opened), (Story.calm, .inbound 2 (.received Story.greeting))]
    let vs := sights c (step c (new c ⟨0, 1⟩ 0) Story.calm .restart).1 unasked
    (vs.filterMap Sight.sent?).find? (Payload.isHandshake ·.2) =
        some (2, Payload.resume c.bareToken "a" 1) ∧
      vs.filterMap Sight.dialed? = [(2, gatewayAddress "wss://b" .none)] := by
  decide +kernel

end Switchboard.Session
