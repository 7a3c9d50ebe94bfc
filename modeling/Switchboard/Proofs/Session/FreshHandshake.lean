import Switchboard.Proofs.Session.Coupling
import Switchboard.Proofs.Session.Memory
import Switchboard.Proofs.Session.Moves

/-!
# What a fresh handshake finds

A fresh handshake is sent when a session has nothing to take up. The identifier and the address are
gone by then. The number of the last event is not, if events were accepted without an identifier, and
then the first event of the new session has to exceed it.

Stories are runs with what has to be known of the past: the inputs, the effects, and the events that
were published since the memory was last blanked. A story is genuine if admissions come from waits
that were begun for them, and a connection is opened before anything else comes from it.

## Main results

* `Story.ledger_run`: the memory tells what was published since it was blank.
* `Story.watched_run`: in a genuine story nothing is waited for when there is a session to take up.
* `Story.handshake_run`: what a fresh handshake finds, and what becomes of the event that answers it.
-/
namespace Switchboard

open Session

/-- A session with its past. -/
structure Story where
  session : Session
  inputs : List Input := []
  effects : List Effect := []
  /-- The events that were published since the memory was last blanked. -/
  since : List Event := []

namespace Story

/-- A story at its beginning. -/
def begin (c : Config) (shard : Shard) (now : Instant) : Story := { session := .new c shard now }

/-- One more step. -/
def next (c : Config) (w : Story) (m : Moment) (i : Input) : Story where
  session := (step c w.session m i).1
  inputs := w.inputs ++ [i]
  effects := w.effects ++ (step c w.session m i).2
  since := (if w.session.discards i then [] else w.since) ++ published (step c w.session m i).2

/-- More steps. -/
def run (c : Config) (w : Story) (inputs : List (Moment × Input)) : Story :=
  inputs.foldl (fun w x => w.next c x.1 x.2) w

/-- An admission comes from a wait, and the opening of a connection is the first that comes of it. -/
def Admits (w : Story) : Input → Prop
  | .admitted k _ => k ∈ waits w.effects
  | .inbound k .opened => ∀ e, .inbound k e ∉ w.inputs
  | _ => True

/-- All inputs can be what they say that they are. -/
def Genuine (c : Config) : Story → List (Moment × Input) → Prop
  | _, [] => True
  | w, (m, i) :: rest => w.Admits i ∧ Genuine c (w.next c m i) rest

/-- A story tells of a run. -/
theorem session_run (c : Config) (w : Story) (inputs : List (Moment × Input)) :
    (w.run c inputs).session = (Session.run c w.session inputs).1 := by
  induction inputs generalizing w with
  | nil => rfl
  | cons x rest ih => exact ih _

theorem run_append (c : Config) (w : Story) (xs ys : List (Moment × Input)) :
    w.run c (xs ++ ys) = (w.run c xs).run c ys := List.foldl_append

theorem genuine_append {c : Config} {w : Story} {xs ys : List (Moment × Input)} :
    Genuine c w (xs ++ ys) ↔ Genuine c w xs ∧ Genuine c (w.run c xs) ys := by
  induction xs generalizing w with
  | nil => simp [Genuine, run]
  | cons x rest ih =>
    have hrun : w.run c (x :: rest) = (w.next c x.1 x.2).run c rest := rfl
    simp only [List.cons_append, Genuine, ih, hrun, and_assoc]

variable {c : Config} {w : Story}

/-! ## The memory as a ledger -/

/-- The memory tells what was published since it was blank. -/
structure Ledger (w : Story) : Prop where
  sequence : w.session.sequence = w.since.getLast?.map (·.sequence)
  increasing : w.since.Pairwise (·.sequence < ·.sequence)
  sessionId : w.session.sessionId.isSome = true → w.session.sequence.isSome = true
  resumeUrl : w.session.resumeUrl.isSome = true → w.session.sessionId.isSome = true

theorem ledger_begin (c : Config) (shard : Shard) (now : Instant) :
    (begin c shard now).Ledger := by
  constructor <;> simp [begin, new]

/-- An event is accepted exactly if its number exceeds those of all that were published. -/
theorem Ledger.isReplay (h : w.Ledger) (q : Nat) :
    Turn.isReplay w.session q = false ↔ ∀ e ∈ w.since, e.sequence < q := by
  cases hlast : w.since.getLast? with
  | none =>
    have hnil : w.since = [] := by simpa using hlast
    simp [Turn.isReplay, h.sequence, hnil]
  | some last =>
    have hq : Turn.isReplay w.session q = false ↔ last.sequence < q := by
      simp [Turn.isReplay, h.sequence, hlast]
    rw [hq]
    obtain ⟨front, hfront⟩ : ∃ front, w.since = front ++ [last] :=
      List.getLast?_eq_some_iff.mp hlast
    have hinc := h.increasing
    rw [hfront, List.pairwise_append] at hinc
    constructor
    · intro hlt e he
      rw [hfront, List.mem_append] at he
      rcases he with he | he
      · have := hinc.2.2 e he last (by simp)
        omega
      · obtain rfl : e = last := by simpa using he
        exact hlt
    · intro hall
      exact hall last (by simp [hfront])

/-- A ledger depends on the memory only. -/
theorem ledger_of_memory {v : Story} {mem : Memory} (hm : v.session.memory = mem)
    (hseq : mem.sequence = v.since.getLast?.map (·.sequence))
    (hinc : v.since.Pairwise (·.sequence < ·.sequence))
    (hid : mem.sessionId.isSome = true → mem.sequence.isSome = true)
    (hurl : mem.resumeUrl.isSome = true → mem.sessionId.isSome = true) : v.Ledger := by
  subst hm
  exact ⟨hseq, hinc, hid, hurl⟩

theorem ledger_next (h : w.Ledger) (m : Moment) (i : Input) : (w.next c m i).Ledger := by
  have hr := recalls_happens (happens_step c w.session m i)
  have hkeep : ∀ {r : Session × List Effect}, w.session.discards i = false →
      r.1.memory = w.session.memory → published r.2 = [] → step c w.session m i = r →
      (w.next c m i).Ledger := by
    rintro r hd hm hp rfl
    have hsince : (w.next c m i).since = w.since := by simp [next, hd, hp]
    refine ledger_of_memory hm ?_ ?_ h.sessionId h.resumeUrl
    · rw [hsince]
      exact h.sequence
    · rw [hsince]
      exact h.increasing
  generalize hstep : step c w.session m i = r at hr
  cases hr with
  | quiet hd hq => exact hkeep hd hq.memory (select_of_mute hq.mute) hstep
  | say _ k p hd hm hs hl hp hb ha =>
    refine hkeep hd hm ?_ hstep
    simp [select_of_mute hb, select_of_mute ha, Effect.published?]
  | blank hd hq =>
    have hsince : (w.next c m i).since = [] := by
      simp [next, hd, hstep, select_of_mute hq.mute]
    have hm : (w.next c m i).session.memory = .blank := by
      rw [← memory_forget w.session, ← hq.memory, ← hstep]
      rfl
    refine ledger_of_memory hm ?_ ?_ ?_ ?_ <;> simp [hsince, Memory.blank]
  | accept k text kind q data hi hk ht ha =>
    have hd : w.session.discards i = false := by simp [hi, discards, ht]
    have hsince : (w.next c m i).since = w.since ++ [⟨w.session.shard.id, kind, q, data⟩] := by
      simp [next, hd, hstep, heard]
    have hm : (w.next c m i).session.memory =
        ((w.session.heard m).accept kind q data).1.memory := by
      simp [next, hstep]
    rw [memory_accept] at hm
    have hbelow : ∀ e ∈ w.since, e.sequence < q := by
      refine (h.isReplay q).mp ?_
      simp_all [accepts]
    have hinc : (w.next c m i).since.Pairwise (·.sequence < ·.sequence) := by
      rw [hsince, List.pairwise_append]
      exact ⟨h.increasing, by simp, by simpa using hbelow⟩
    cases hw : welcome? kind data with
    | some info =>
      rw [hw] at hm
      exact ledger_of_memory hm (by simp [hsince]) hinc (by simp) (by simp)
    | none =>
      rw [hw] at hm
      exact ledger_of_memory hm (by simp [hsince]) hinc (by simp) h.resumeUrl

theorem ledger_run (h : w.Ledger) (inputs : List (Moment × Input)) : (w.run c inputs).Ledger := by
  induction inputs generalizing w with
  | nil => exact h
  | cons x rest ih => exact ih (ledger_next h x.1 x.2)

theorem shard_run (c : Config) (w : Story) (inputs : List (Moment × Input)) :
    (w.run c inputs).session.shard = w.session.shard := by
  induction inputs generalizing w with
  | nil => rfl
  | cons x rest ih => exact (ih _).trans (shard_step c w.session x.1 x.2)

/-! ## Waits for an admission -/

/-- Nothing is waited for on the connection that is heard when there is a session to take up. -/
structure Watched (w : Story) : Prop where
  begun : ∀ k ∈ waits w.effects, k ≤ w.session.link.begun
  current : ∀ k, w.session.connection = some k → k ≤ w.session.link.begun
  fresh : ∀ k ∈ waits w.effects, w.session.connection = some k →
    w.session.Fresh ∧ ∃ e, .inbound k e ∈ w.inputs

theorem watched_begin (c : Config) (shard : Shard) (now : Instant) :
    (begin c shard now).Watched := by
  constructor <;> simp [begin, new]

theorem watched_next (hl : w.Ledger) (h : w.Watched) (m : Moment) {i : Input} (hi : w.Admits i) :
    (w.next c m i).Watched := by
  have hmoves := moves_happens hl.sessionId (happens_step c w.session m i)
  have hs : (w.next c m i).session = (step c w.session m i).1 := rfl
  have hw : waits (w.next c m i).effects =
      waits w.effects ++ waits (step c w.session m i).2 := select_append ..
  have hin : ∀ {e}, e ∈ w.inputs → e ∈ (w.next c m i).inputs := by
    intro e he
    exact List.mem_append_left _ he
  cases hmoves with
  | leave hleave =>
    obtain ⟨hconn, hnone⟩ := hleave
    rw [hnone, List.append_nil] at hw
    -- A connection that was waited for has been begun before the one that is heard now.
    rcases hconn with ⟨hc, hb⟩ | ⟨hc, hb⟩
    · refine ⟨?_, ?_, ?_⟩
      · intro k hk
        rw [hs, hb]
        exact h.begun k (hw ▸ hk)
      · simp [hs, hc]
      · simp [hs, hc]
    · refine ⟨?_, ?_, ?_⟩
      · intro k hk
        have := h.begun k (hw ▸ hk)
        rw [hs, hb]
        omega
      · intro k hk
        rw [hs, hc] at hk
        rw [hs, hb]
        have := Option.some.inj hk
        omega
      · intro k hk hkc
        rw [hs, hc] at hkc
        have := h.begun k (hw ▸ hk)
        have := Option.some.inj hkc
        omega
  | stay hc hb _ hfresh hwaits =>
    have hwait : ∀ k ∈ waits (w.next c m i).effects, k ∈ waits w.effects ∨
        k ∈ waits (step c w.session m i).2 := by
      intro k hk
      rwa [hw, List.mem_append] at hk
    refine ⟨?_, ?_, ?_⟩
    · intro k hk
      rw [hs, hb]
      rcases hwait k hk with hold | hnew
      · exact h.begun k hold
      · exact h.current k (hwaits k hnew).1
    · intro k hk
      rw [hs, hc] at hk
      rw [hs, hb]
      exact h.current k hk
    · intro k hk hkc
      rw [hs, hc] at hkc
      rcases hwait k hk with hold | hnew
      · obtain ⟨hf, e, he⟩ := h.fresh k hold hkc
        refine ⟨hfresh hf ?_, e, hin he⟩
        rintro k' hk' rfl
        have hkk : k' = k := Option.some.inj (hk'.symm.trans hkc)
        subst hkk
        exact hi e he
      · obtain ⟨-, hid, e, rfl⟩ := hwaits k hnew
        exact ⟨.inl hid, e, by simp [next]⟩

theorem watched_run (hl : w.Ledger) (h : w.Watched) {inputs : List (Moment × Input)}
    (hg : Genuine c w inputs) : (w.run c inputs).Watched := by
  induction inputs generalizing w with
  | nil => exact h
  | cons x rest ih =>
    obtain ⟨hi, hrest⟩ := hg
    exact ih (ledger_next hl x.1 x.2) (watched_next hl h x.1 hi) hrest

/-! ## Fresh handshakes -/

/-- A fresh handshake follows an admission, and leaves the memory as it is. -/
theorem identify_of_recalls {s : Session} {m : Moment} {i : Input} {r : Session × List Effect}
    {k : Nat} (h : Recalls c m s i r)
    (hk : .send k (Payload.identify c.bareToken c.intents s.shard c.compression c.system) ∈ r.2) :
    r.1.memory = s.memory ∧ ∃ k, i = .admitted k (.ok ()) ∧ s.connection = some k ∧ s.Unshaken := by
  cases h with
  | quiet _ hq => exact absurd hk (send_notMem_of_mute hq.mute _ _)
  | blank _ hq => exact absurd hk (send_notMem_of_mute hq.mute _ _)
  | accept _ _ kind q data _ _ _ _ => exact absurd hk (send_notMem_accept kind q data _ _)
  | say _ k' p _ hm _ _ hp hb ha =>
    have hpayload : p = Payload.identify c.bareToken c.intents s.shard c.compression c.system := by
      simp only [List.mem_append, List.mem_cons, send_notMem_of_mute hb, send_notMem_of_mute ha,
        false_or, or_false, Effect.send.injEq] at hk
      exact hk.2.symm
    refine ⟨hm, ?_⟩
    cases hp with
    | heartbeat _ => exact absurd hpayload.symm Payload.identify_ne_heartbeat
    | command op data hop => exact absurd hpayload.symm (Payload.identify_ne_command hop)
    | resume _ _ _ _ _ _ _ => exact absurd hpayload.symm Payload.identify_ne_resume
    | identify k hconn hu => exact ⟨k, rfl, hconn, hu⟩

/-- In a genuine story the identifier and the address are gone when a fresh handshake is sent. -/
theorem identify_of_genuine {s : Session} {m : Moment} {i : Input} {k : Nat} (hl : w.Ledger)
    (h : w.Watched) (hi : w.Admits i) (hs : w.session = s)
    (hk : .send k (Payload.identify c.bareToken c.intents s.shard c.compression c.system) ∈
      (step c s m i).2) :
    (step c s m i).1.sessionId = none ∧ (step c s m i).1.resumeUrl = none := by
  subst hs
  obtain ⟨hm, k', rfl, hconn, hp, -⟩ := identify_of_recalls (recalls_happens (happens_step ..)) hk
  have hfresh : w.session.Fresh := (h.fresh k' hi hconn).1
  have hid : w.session.sessionId = none := by
    rcases hfresh with hid | hready
    · exact hid
    · simp [hp, Phase.isReady] at hready
  have hurl : w.session.resumeUrl = none := by
    cases hurl : w.session.resumeUrl with
    | none => rfl
    | some url => simpa [hid] using hl.resumeUrl (by simp [hurl])
  exact ⟨(congrArg Memory.sessionId hm).trans hid, (congrArg Memory.resumeUrl hm).trans hurl⟩

theorem Ledger.memory_eq_blank (h : w.Ledger) : w.session.memory = .blank ↔ w.since = [] := by
  have hseq := h.sequence
  constructor
  · intro hm
    have hnone : w.session.sequence = none := congrArg Memory.sequence hm
    rw [hnone] at hseq
    simpa using hseq.symm
  · intro hsince
    have hnone : w.session.sequence = none := by rw [hseq, hsince]; rfl
    have hid : w.session.sessionId = none := by
      cases hid : w.session.sessionId with
      | none => rfl
      | some id => simpa [hnone] using h.sessionId (by simp [hid])
    have hurl : w.session.resumeUrl = none := by
      cases hurl : w.session.resumeUrl with
      | none => rfl
      | some url => simpa [hid] using h.resumeUrl (by simp [hurl])
    simp [memory, Memory.blank, hid, hurl, hnone]

/-- What a fresh handshake finds after any run, and what becomes of the event that answers it.

The memory is blank then exactly if nothing was published since it was blanked; of what else it
holds, only the number can be left in a genuine story. The answer is accepted, and the session is
ready on it, exactly if its number exceeds the numbers of all events published since. -/
theorem handshake_run (c : Config) (shard : Shard) (now : Instant)
    (inputs : List (Moment × Input)) :
    let w := (begin c shard now).run c inputs
    (∀ m i k, .send k (Payload.identify c.bareToken c.intents shard c.compression c.system) ∈
        (step c w.session m i).2 →
      ((step c w.session m i).1.memory = .blank ↔ w.since = []) ∧
        (step c w.session m i).1.sequence = w.since.getLast?.map (·.sequence) ∧
        (Genuine c (begin c shard now) (inputs ++ [(m, i)]) →
          (step c w.session m i).1.sessionId = none ∧
            (step c w.session m i).1.resumeUrl = none)) ∧
      ∀ m k text q data info, w.session.connection = some k → w.session.phase = .identifying →
        Message.parse text = .ok (.dispatch "READY" q data) → ReadyInfo.ofData data = .ok info →
        let r := step c w.session m (.inbound k (.received text))
        if ∀ e ∈ w.since, e.sequence < q then
          r.1.phase = .ready ∧ r.1.memory = ⟨some info.sessionId, info.resumeUrl, some q⟩ ∧
            published r.2 = [⟨shard.id, "READY", q, data⟩]
        else r = (w.session.heard m, []) := by
  intro w
  have hl : w.Ledger := ledger_run (ledger_begin c shard now) inputs
  have hshard : w.session.shard = shard := shard_run c (begin c shard now) inputs
  constructor
  · intro m i k hk
    rw [← hshard] at hk
    obtain ⟨hm, -⟩ := identify_of_recalls (recalls_happens (happens_step ..)) hk
    refine ⟨by rw [hm, hl.memory_eq_blank], (congrArg Memory.sequence hm).trans hl.sequence, ?_⟩
    intro hg
    obtain ⟨hrun, hlast⟩ := genuine_append.mp hg
    exact identify_of_genuine hl
      (watched_run (ledger_begin c shard now) (watched_begin c shard now) hrun) hlast.1 rfl hk
  · intro m k text q data info hk hp ht hinfo r
    have hr : r = if w.session.accepts q then (w.session.heard m).accept "READY" q data
        else (w.session.heard m, []) := step_dispatch hk ht
    have hacc : w.session.accepts q = true ↔ ∀ e ∈ w.since, e.sequence < q := by
      rw [← hl.isReplay q]
      simp [accepts, hp, Phase.acceptsDispatch]
    have hwelcome : welcome? "READY" data = some info := by
      simp [welcome?, hinfo, Except.toOption]
    by_cases hall : ∀ e ∈ w.since, e.sequence < q
    · rw [if_pos hall, hr, if_pos (hacc.mpr hall), accept_welcome _ hwelcome]
      refine ⟨rfl, rfl, ?_⟩
      simp [Effect.published?, heard, hshard]
    · rw [if_neg hall, hr, if_neg (fun h => hall (hacc.mp h))]

/-! ### Two stories -/

/-- Surroundings in which everything works. -/
def calm : Moment := ⟨0, true, .ok (), 0⟩

/-- A greeting. -/
def greeting : String := "\x7b\"op\":10,\"d\":\x7b\"heartbeat_interval\":41250\x7d\x7d"

/-- A first event without an identifier. -/
def namelessReady : String := "\x7b\"op\":0,\"t\":\"READY\",\"s\":5,\"d\":\x7b\x7d\x7d"

/-- A first event as it should be. -/
def firstReady : String :=
  "\x7b\"op\":0,\"t\":\"READY\",\"s\":1,\"d\":\x7b\"session_id\":\"a\"\x7d\x7d"

/-- The name and the number of a parsed event. -/
def eventOf? : Except Message.Defect Message → Option (String × Nat)
  | .ok (.dispatch kind q _) => some (kind, q)
  | _ => none

/-- The data of a parsed event. -/
def dataOf : Except Message.Defect Message → Json
  | .ok (.dispatch _ _ data) => data
  | _ => .null

theorem eq_of_eventOf? {r : Except Message.Defect Message} {kind : String} {q : Nat}
    (h : eventOf? r = some (kind, q)) : r = .ok (.dispatch kind q (dataOf r)) := by
  cases r with
  | error e => simp [eventOf?] at h
  | ok message => cases message <;> simp_all [eventOf?, dataOf]

/-- The data of the first event. -/
@[irreducible] def firstData : Json := dataOf (Message.parse firstReady)

theorem parse_firstReady : Message.parse firstReady = .ok (.dispatch "READY" 1 firstData) := by
  rw [firstData]
  exact eq_of_eventOf? (by decide +kernel)

theorem ofData_firstData : ReadyInfo.ofData firstData = .ok ⟨"a", none⟩ := by
  have hinfo : (ReadyInfo.ofData firstData).toOption = some ⟨"a", none⟩ := by decide +kernel
  cases hdata : ReadyInfo.ofData firstData with
  | error e => simp [hdata, Except.toOption] at hinfo
  | ok info => simpa [hdata, Except.toOption] using hinfo

/-- A first connection up to its greeting. -/
def greeted : List (Moment × Input) :=
  [(calm, .start), (calm, .inbound 1 .opened), (calm, .inbound 1 (.received greeting))]

/-- The event that answers the first handshake lacks an identifier, the server closes the
connection, and the next one is greeted. -/
def greetedTwice : List (Moment × Input) :=
  let later : List (Moment × Input) :=
    [(calm, .admitted 1 (.ok ())), (calm, .inbound 1 (.received namelessReady)),
      (calm, .inbound 1 (.closed (some 4000) "")), (calm, .reconnectDue 1),
      (calm, .inbound 2 .opened), (calm, .inbound 2 (.received greeting))]
  greeted ++ later

/-- The first handshake finds nothing, and the event that answers it is accepted. -/
theorem handshake_run_first :
    let first : List (Moment × Input) := [(calm, .admitted 1 (.ok ()))]
    let w := (begin {} ⟨0, 1⟩ 0).run {} greeted
    let v := (begin {} ⟨0, 1⟩ 0).run {} (greeted ++ first)
    Genuine {} (begin {} ⟨0, 1⟩ 0) (greeted ++ first) ∧
      (step {} w.session calm (.admitted 1 (.ok ()))).1.memory = .blank ∧
      (step {} w.session calm (.admitted 1 (.ok ()))).1.sessionId = none ∧
      (step {} v.session calm (.inbound 1 (.received firstReady))).1.phase = .ready := by
  intro first w v
  obtain ⟨hshard, hwconn, hunshaken, hlink, hwaits, hwempty⟩ : w.session.shard = ⟨0, 1⟩ ∧
      w.session.connection = some 1 ∧ w.session.Unshaken ∧ w.session.link.current = some 1 ∧
      1 ∈ waits w.effects ∧ w.since.isEmpty = true := by decide +kernel
  obtain ⟨hconn, hphase, hvempty⟩ : v.session.connection = some 1 ∧
      v.session.phase = .identifying ∧ v.since.isEmpty = true := by decide +kernel
  have hgenuine : Genuine {} (begin {} ⟨0, 1⟩ 0) (greeted ++ first) :=
    ⟨trivial, by simp [Admits, next, begin], trivial, hwaits, trivial⟩
  have hsent : step {} w.session calm (.admitted 1 (.ok ())) = _ :=
    step_admitted hwconn hunshaken hlink rfl
  have hw : (begin {} ⟨0, 1⟩ 0).run {} greeted = w := rfl
  have hv : (begin {} ⟨0, 1⟩ 0).run {} (greeted ++ first) = v := rfl
  obtain ⟨hfinds, -⟩ := handshake_run {} ⟨0, 1⟩ 0 greeted
  obtain ⟨-, hanswer⟩ := handshake_run {} ⟨0, 1⟩ 0 (greeted ++ first)
  rw [hw] at hfinds
  rw [hv] at hanswer
  -- The stories are closed terms; all that is needed of them is known by now.
  clear_value w v
  have hsend : .send 1 (Payload.identify ({} : Config).bareToken 0 ⟨0, 1⟩ .none) ∈
      (step {} w.session calm (.admitted 1 (.ok ()))).2 := by
    rw [hsent, hshard]
    simp
  obtain ⟨hblank, -, hclean⟩ := hfinds calm _ 1 hsend
  have hready := hanswer calm 1 firstReady 1 firstData ⟨"a", none⟩ hconn hphase parse_firstReady
    ofData_firstData
  have hnone : v.since = [] := by simpa using hvempty
  rw [if_pos (by simp [hnone])] at hready
  exact ⟨hgenuine, hblank.mpr (by simpa using hwempty), (hclean hgenuine).1, hready.1⟩

/-- The second handshake finds a number, and the event that answers it is passed over: the number
that it carries is that of another session. -/
theorem handshake_run_second :
    let again : List (Moment × Input) := [(calm, .admitted 2 (.ok ()))]
    let w := (begin {} ⟨0, 1⟩ 0).run {} greetedTwice
    let s := ((begin {} ⟨0, 1⟩ 0).run {} (greetedTwice ++ again)).session
    Genuine {} (begin {} ⟨0, 1⟩ 0) (greetedTwice ++ again) ∧
      .send 2 (Payload.identify ({} : Config).bareToken 0 ⟨0, 1⟩ .none) ∈
        (step {} w.session calm (.admitted 2 (.ok ()))).2 ∧
      s.sequence = some 5 ∧ s.phase = .identifying ∧
      step {} s calm (.inbound 2 (.received firstReady)) = (s.heard calm, []) := by
  intro again w s
  obtain ⟨hshard, hwconn, hunshaken, hlink, hwaits⟩ : w.session.shard = ⟨0, 1⟩ ∧
      w.session.connection = some 2 ∧ w.session.Unshaken ∧ w.session.link.current = some 2 ∧
      2 ∈ waits w.effects := by decide +kernel
  obtain ⟨hsequence, hphase, hconn, hpast⟩ : s.sequence = some 5 ∧ s.phase = .identifying ∧
      s.connection = some 2 ∧ s.accepts 1 = false := by decide +kernel
  have hfirst : 1 ∈ waits ((begin {} ⟨0, 1⟩ 0).run {} greeted).effects := by decide +kernel
  refine ⟨?_, ?_, hsequence, hphase, ?_⟩
  · exact ⟨trivial, by simp [Admits, next, begin], trivial, hfirst, trivial, trivial, trivial,
      by simp [Admits, next, begin], trivial, hwaits, trivial⟩
  · rw [step_admitted hwconn hunshaken hlink rfl, hshard]
    simp
  · rw [step_dispatch hconn parse_firstReady, if_neg (by simp [hpast])]

end Story

end Switchboard
