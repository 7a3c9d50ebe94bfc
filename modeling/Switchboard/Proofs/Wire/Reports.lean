import Switchboard.Proofs.Wire.Journey

/-!
# What a connection reports

The invariant of the reader says where it stands and what it has told, which is what it has reported
together with what it has in hand.

## Main definitions

* `Journey.Stands`: where the reader stands, with what it has told by then.
* `Journey.Sound`: the invariant.

## Main results

* `Journey.sound_move`: every move preserves the invariant.
* `Journey.reports_follow_course`: at every moment of every run a connection has reported a part of
  the course, and it is finished as soon as it has the last word to report.
-/
namespace Switchboard

namespace Journey

variable {mode : Compression} {p q : Journey}

/-- What was reported, and what the reader has in hand. -/
def told (p : Journey) : List LinkEvent := p.journal.reported ++ p.journal.pending

/-- Where the reader of a connection stands. -/
inductive Stands (mode : Compression) (p : Journey) : Prop where
  /-- It waits for the connection to be made. -/
  | waiting (hstage : p.connection.stage = .connecting) (hfinished : p.connection.finished = false)
      (hinflater : p.connection.inflater = .new .zlib mode) (htaken : p.journal.taken = 0)
      (htold : p.told = [])
  /-- The connection was closed before it was made. -/
  | abandoned (hstage : p.connection.stage = .parting ∨ p.connection.stage = .done)
      (hclosing : p.connection.closing = true) (hfinished : p.connection.finished = false)
      (htold : p.told = [])
  /-- The connection was refused. -/
  | refused (hstage : p.connection.stage = .done) (hfinished : p.connection.finished = true)
      {failure : Failure} (hobstacle : p.behaviour.obstacle = some failure)
      (htold : p.told = [.failed failure.message])
  /-- It reads, or learnt in the midst of it that the connection was closed. -/
  | opened (hstage : p.connection.stage = .reading ∨
        (p.connection.stage = .parting ∨ p.connection.stage = .done) ∧
          p.connection.closing = true)
      (hfinished : p.connection.finished = false) (hobstacle : p.behaviour.obstacle = none)
      (htaken : p.journal.taken ≤ p.behaviour.heard.length)
      (hinflater : p.connection.inflater =
        (Inflater.hearAll mode (p.behaviour.heard.take p.journal.taken)).1)
      (htold : p.told =
        .opened :: (Inflater.hearAll mode (p.behaviour.heard.take p.journal.taken)).2)
  /-- It came to the end. -/
  | ended (hstage : p.connection.stage = .done) (hfinished : p.connection.finished = true)
      (hobstacle : p.behaviour.obstacle = none) {e : LinkEvent} (hlast : p.behaviour.last? = some e)
      (htold : p.told = .opened :: (Inflater.hearAll mode p.behaviour.heard).2 ++ [e])

theorem Stands.told (h : p.Stands mode) : Told p.behaviour mode p.told p.connection.finished := by
  cases h with
  | waiting _ hfinished _ _ htold => rw [htold, hfinished]; exact .nothing
  | abandoned _ _ hfinished htold => rw [htold, hfinished]; exact .nothing
  | refused _ hfinished hobstacle htold => rw [htold, hfinished]; exact .refused hobstacle
  | opened _ hfinished hobstacle htaken _ htold =>
    rw [htold, hfinished]
    exact .opened hobstacle htaken
  | ended _ hfinished hobstacle hlast htold =>
    rw [htold, hfinished]
    exact .ended hobstacle hlast

/-- A connection that is finished is not read any more. -/
theorem Stands.done (h : p.Stands mode) (hfinished : p.connection.finished = true) :
    p.connection.stage = .done := by
  cases h <;> simp_all

/-- What the owner and the writer do leaves the reader where it stands. -/
theorem Stands.of_eq (h : p.Stands mode) (hb : q.behaviour = p.behaviour)
    (hstage : q.connection.stage = p.connection.stage)
    (hfinished : q.connection.finished = p.connection.finished)
    (hinflater : q.connection.inflater = p.connection.inflater)
    (hclosing : p.connection.closing = true → q.connection.closing = true)
    (htaken : q.journal.taken = p.journal.taken) (htold : q.told = p.told) : q.Stands mode := by
  cases h with
  | waiting h₁ h₂ h₃ h₄ h₅ =>
    exact .waiting (hstage.trans h₁) (hfinished.trans h₂) (hinflater.trans h₃) (htaken.trans h₄)
      (htold.trans h₅)
  | abandoned h₁ h₂ h₃ h₄ =>
    exact .abandoned (by rwa [hstage]) (hclosing h₂) (hfinished.trans h₃) (htold.trans h₄)
  | refused h₁ h₂ h₃ h₄ =>
    exact .refused (hstage.trans h₁) (hfinished.trans h₂) (by rw [hb, h₃]) (htold.trans h₄)
  | opened h₁ h₂ h₃ h₄ h₅ h₆ =>
    refine .opened ?_ (hfinished.trans h₂) (by rw [hb, h₃]) (by rw [hb, htaken]; exact h₄)
      (by rw [hinflater, hb, htaken]; exact h₅) (by rw [htold, hb, htaken]; exact h₆)
    rw [hstage]
    exact h₁.imp_right fun h => ⟨h.1, hclosing h.2⟩
  | ended h₁ h₂ h₃ h₄ h₅ =>
    exact .ended (hstage.trans h₁) (hfinished.trans h₂) (by rw [hb, h₃]) (by rw [hb, h₄])
      (by rw [htold, hb, h₅])

@[simp] theorem told_become (x : Connection) (events : List LinkEvent) :
    (p.become x events).told = p.told ++ events := by simp [told, become]
@[simp] theorem told_advance : p.advance.told = p.told := rfl

theorem stands_begin (b : Behaviour) (url : String) (mode : Compression) :
    (begin b url mode).Stands mode := .waiting rfl rfl rfl rfl rfl

theorem stands_answered (h : p.Stands mode) (hstage : p.connection.stage = .connecting) :
    p.answered.Stands mode := by
  obtain ⟨hfinished, hinflater, htaken, htold⟩ : p.connection.finished = false ∧
      p.connection.inflater = .new .zlib mode ∧ p.journal.taken = 0 ∧ p.told = [] := by
    cases h <;> simp_all
  unfold answered
  split
  · next failure hobstacle =>
    exact .refused rfl rfl hobstacle (by simp [htold])
  · next hobstacle =>
    cases hclosing : p.connection.closing with
    | true =>
      rw [Connection.connected_of_closing hclosing]
      exact .abandoned (Connection.stage_part _) (by simp [hclosing]) (by simp [hfinished])
        (by simp [htold])
    | false =>
      rw [Connection.connected_of_open hclosing]
      refine .opened (.inl rfl) hfinished hobstacle ?_ ?_ ?_ <;>
        simp [htaken, htold, hinflater, Inflater.hearAll]

theorem stands_notice (h : p.Stands mode) (hclosing : p.connection.closing = true) :
    (p.become p.connection.notice []).Stands mode := by
  cases hstage : p.connection.stage with
  | connecting =>
    obtain ⟨hfinished, htold⟩ : p.connection.finished = false ∧ p.told = [] := by
      cases h <;> simp_all
    exact .abandoned (.inr (by simp [Connection.notice, hstage]))
      (by simp [Connection.notice, hstage, hclosing])
      (by simp [Connection.notice, hstage, hfinished]) (by simp [htold])
  | reading =>
    have hnotice : p.connection.notice = p.connection.part := by
      simp [Connection.notice, hstage]
    cases h with
    | opened _ hfinished hobstacle htaken hinflater htold =>
      rw [hnotice]
      refine .opened (.inr ⟨Connection.stage_part _, ?_⟩) ?_ hobstacle htaken ?_ ?_ <;>
        simp [hclosing, hfinished, hinflater, htold]
    | _ => simp_all
  | _ =>
    have hnotice : p.connection.notice = p.connection := by simp [Connection.notice, hstage]
    rw [hnotice]
    exact h.of_eq rfl rfl rfl rfl id rfl (by simp)

theorem stands_took (h : p.Stands mode) (hstage : p.connection.stage = .reading) {i : Inbound}
    (hi : p.behaviour.items[p.journal.taken]? = some i) : (p.took i).Stands mode := by
  obtain ⟨hfinished, hobstacle, htaken, hinflater, htold⟩ : p.connection.finished = false ∧
      p.behaviour.obstacle = none ∧ p.journal.taken ≤ p.behaviour.heard.length ∧
        p.connection.inflater =
          (Inflater.hearAll mode (p.behaviour.heard.take p.journal.taken)).1 ∧
          p.told =
            .opened :: (Inflater.hearAll mode (p.behaviour.heard.take p.journal.taken)).2 := by
    cases h <;> simp_all
  cases hl : i.last? with
  | some e =>
    obtain ⟨hlen, hlast⟩ := Behaviour.last?_of_some htaken hi hl
    rw [took_of_some hl]
    refine .ended rfl rfl hobstacle hlast ?_
    rw [hlen, List.take_length] at htold
    simp [htold]
  | none =>
    obtain ⟨hlt, htake⟩ := Behaviour.heard_of_none htaken hi hl
    rw [took_of_none hl]
    cases i with
    | frame f =>
      obtain ⟨hstage', hfinished', hinflater', hevents⟩ :=
        Connection.read_of_frame (x := p.connection) hl
      refine .opened (.inl (hstage'.trans hstage)) (hfinished'.trans hfinished) hobstacle hlt ?_ ?_
      · simp [htake, Inflater.hearAll_snoc, Inflater.hear, hinflater', hinflater]
      · simp [htake, Inflater.hearAll_snoc, Inflater.hear, hevents, hinflater, htold]
    | _ => simp [Inbound.last?] at hl

theorem stands_conclude (h : p.Stands mode) (hstage : p.connection.stage = .parting) :
    (p.become p.connection.conclude []).Stands mode := by
  cases h with
  | abandoned _ hclosing hfinished htold =>
    exact .abandoned (.inr rfl) hclosing hfinished (by simp [htold])
  | opened hreads hfinished hobstacle htaken hinflater htold =>
    have hclosing : p.connection.closing = true := by simpa [hstage] using hreads
    exact .opened (.inr ⟨.inr rfl, hclosing⟩) hfinished hobstacle htaken hinflater (by simp [htold])
  | _ => simp_all

theorem stands_shut (h : p.Stands mode) (code : Nat) (reason : String) :
    (p.shut code reason).Stands mode := by
  refine h.of_eq rfl ?_ rfl rfl (fun _ => rfl) rfl rfl
  cases hfinished : p.connection.finished with
  | true => simp [shut, Connection.close, hfinished, h.done hfinished]
  | false => simp [shut, Connection.close, hfinished]

theorem stands_wrote (h : p.Stands mode) (w : Writer) (turn : Writer × Delivery) :
    (p.wrote w turn).Stands mode := by
  exact h.of_eq rfl rfl rfl rfl id rfl rfl

/-- What a connection has reported so far, and how. -/
structure Sound (mode : Compression) (p : Journey) : Prop where
  stands : p.Stands mode
  /-- The reader has one event in hand at most. -/
  single : p.journal.pending.length ≤ 1
  reported : ∃ whole, Told p.behaviour mode p.journal.reported whole
  closing : p.connection.closing = p.journal.closed.isSome

theorem sound_begin (b : Behaviour) (url : String) (mode : Compression) :
    (begin b url mode).Sound mode where
  stands := stands_begin b url mode
  single := by simp [begin]
  reported := ⟨false, .nothing⟩
  closing := rfl

/-- Nothing is reported when the connection changes. -/
theorem Sound.become (h : p.Sound mode) {q : Journey} (hb : q.behaviour = p.behaviour)
    (hreported : q.journal.reported = p.journal.reported)
    (hclosed : q.journal.closed = p.journal.closed) {x : Connection} {events : List LinkEvent}
    (hstands : (q.become x events).Stands mode)
    (hsingle : (q.journal.pending ++ events).length ≤ 1)
    (hclosing : x.closing = p.connection.closing) : (q.become x events).Sound mode where
  stands := hstands
  single := hsingle
  reported := by
    rw [behaviour_become, hb]
    exact hreported ▸ h.reported
  closing := by
    rw [connection_become, hclosing, h.closing, ← hclosed]
    rfl

theorem sound_wrote (h : p.Sound mode) (w : Writer) (turn : Writer × Delivery) :
    (p.wrote w turn).Sound mode :=
  ⟨stands_wrote h.stands w turn, h.single, h.reported, h.closing⟩

theorem sound_said (h : p.Sound mode) {e : LinkEvent} {rest : List LinkEvent}
    (hpending : p.journal.pending = e :: rest) : (p.said e rest).Sound mode := by
  obtain rfl : rest = [] := by simpa [hpending] using h.single
  have htold : p.told = p.journal.reported ++ [e] := by simp [told, hpending]
  have hstands := h.stands.told
  rw [htold] at hstands
  exact ⟨h.stands.of_eq rfl rfl rfl rfl id rfl (by simp [told, said, hpending]), by simp [said],
    ⟨_, hstands⟩, h.closing⟩

theorem sound_answered (h : p.Sound mode) (hstage : p.connection.stage = .connecting) :
    p.answered.Sound mode := by
  have hstands := stands_answered h.stands hstage
  have hpending : p.journal.pending = [] := by
    have htold : p.told = [] := by cases h.stands <;> simp_all
    exact (List.append_eq_nil_iff.mp htold).2
  unfold answered at hstands ⊢
  split at hstands
  · exact h.become rfl rfl rfl hstands (by simp [hpending]) rfl
  · refine h.become rfl rfl rfl hstands ?_ Connection.closing_connected
    cases hclosing : p.connection.closing with
    | true => simp [hpending, Connection.connected_of_closing hclosing]
    | false => simp [hpending, Connection.connected_of_open hclosing]

theorem sound_took (h : p.Sound mode) (hstage : p.connection.stage = .reading)
    (hpending : p.journal.pending = []) {i : Inbound}
    (hi : p.behaviour.items[p.journal.taken]? = some i) : (p.took i).Sound mode := by
  have hstands := stands_took h.stands hstage hi
  cases hl : i.last? with
  | some e =>
    rw [took_of_some hl] at hstands ⊢
    exact h.become (q := p.advance) rfl rfl rfl hstands (by simp [advance, hpending]) rfl
  | none =>
    rw [took_of_none hl] at hstands ⊢
    refine h.become (q := p.advance) rfl rfl rfl hstands ?_ (Connection.closing_read i)
    cases i with
    | frame f =>
      obtain ⟨-, -, -, hevents⟩ := Connection.read_of_frame (x := p.connection) hl
      simpa [advance, hpending, hevents] using LinkEvent.length_ofPush _
    | _ => simp [Inbound.last?] at hl

/-- The invariant of the reader, for all that the three do. -/
theorem sound_move (h : p.Sound mode) {a : Move} (ha : p.move a = some q) : q.Sound mode := by
  -- The connection changes where the reader does not look.
  have hquiet : ∀ x : Connection, x.stage = p.connection.stage →
      x.finished = p.connection.finished → x.inflater = p.connection.inflater →
        x.closing = p.connection.closing → (p.become x []).Sound mode := by
    intro x h₁ h₂ h₃ h₄
    exact h.become rfl rfl rfl (h.stands.of_eq rfl h₁ h₂ h₃ (fun hc => h₄.trans hc) rfl (by simp))
      (by simpa using h.single) h₄
  cases moved_of_move ha with
  | answer hstage => exact sound_answered h hstage
  | notice hclosing hpending =>
    exact h.become rfl rfl rfl (stands_notice h.stands hclosing) (by simp [hpending])
      Connection.closing_notice
  | read hstage hpending hi => exact sound_took h hstage hpending hi
  | report hpending => exact sound_said h hpending
  | retract => exact hquiet _ rfl rfl rfl rfl
  | conclude hstage =>
    exact h.become rfl rfl rfl (stands_conclude h.stands hstage) (by simpa using h.single) rfl
  | halt => exact hquiet _ rfl rfl rfl rfl
  | write => exact sound_wrote h _ _
  | accept => exact hquiet _ rfl rfl rfl rfl
  | @close code reason hclosed =>
    exact ⟨stands_shut h.stands code reason, h.single, h.reported, by
      simp [shut, Journal.shut, hclosed, Connection.close]⟩

theorem sound_run (h : p.Sound mode) {moves : List Move} (hq : p.run moves = some q) :
    q.Sound mode := by
  induction moves generalizing p with
  | nil =>
    obtain rfl : p = q := by simpa [run] using hq
    exact h
  | cons a rest ih =>
    obtain ⟨r, ha, hrest⟩ : ∃ r, p.move a = some r ∧ r.run rest = some q := by
      simpa [run, Option.bind_eq_some_iff] using hq
    exact ih (sound_move h ha) hrest

/-- A connection is finished when it has said the last word, or is about to. -/
theorem Sound.finished_iff (h : p.Sound mode) {whole : Bool}
    (hwhole : Told p.behaviour mode p.journal.reported whole) :
    p.connection.finished = true ↔ whole = true ∨
      ∃ e, p.journal.pending = [e] ∧ Told p.behaviour mode (p.journal.reported ++ [e]) true := by
  have htold := h.stands.told
  cases hpending : p.journal.pending with
  | nil =>
    have hall : p.told = p.journal.reported := by simp [told, hpending]
    rw [hall] at htold
    simp [Told.whole_unique hwhole htold]
  | cons e rest =>
    obtain rfl : rest = [] := by simpa [hpending] using h.single
    have hall : p.told = p.journal.reported ++ [e] := by simp [told, hpending]
    rw [hall] at htold
    have hwhole : whole = false := by
      cases whole with
      | false => rfl
      | true => exact absurd htold (hwhole.not_snoc e)
    constructor
    · intro hfinished
      rw [hfinished] at htold
      exact .inr ⟨e, rfl, htold⟩
    · rintro (hwhole' | ⟨e', he', htrue⟩)
      · simp [hwhole] at hwhole'
      · obtain rfl : e = e' := by simpa using he'
        exact Told.whole_unique htold htrue

/-- A reader that has nothing left to do has reported the whole course, unless its connection was
closed on this side. -/
theorem Sound.reported_eq_course (h : p.Sound mode) (hclosed : p.journal.closed = none)
    (hanswer : p.move .answer = none) (hread : p.move .read = none)
    (hreport : p.move .report = none) : p.journal.reported = p.behaviour.course mode := by
  have hclosing : p.connection.closing = false := by simp [h.closing, hclosed]
  have hpending : p.journal.pending = [] := by
    cases hp : p.journal.pending with
    | nil => rfl
    | cons e rest => simp [move, hp] at hreport
  have htold : p.told = p.journal.reported := by simp [told, hpending]
  rw [← htold]
  cases h.stands with
  | waiting hstage => simp [move, hstage] at hanswer
  | abandoned _ hclosing' => simp [hclosing] at hclosing'
  | refused _ _ hobstacle htold => rw [htold, Behaviour.course, hobstacle]
  | opened hreads _ hobstacle htaken _ htold =>
    have hstage : p.connection.stage = .reading := by simpa [hclosing] using hreads
    have hnone : p.behaviour.items[p.journal.taken]? = none := by
      simpa [move, hstage, hpending] using hread
    obtain ⟨hlen, hlast⟩ := Behaviour.last?_of_none htaken hnone
    rw [htold, Behaviour.course, hobstacle, hlast, hlen, List.take_length]
    simp
  | ended _ _ hobstacle hlast htold => rw [htold, Behaviour.course, hobstacle, hlast]; rfl

/-- **What a connection reports.** Whatever the other side does, and whenever this side closes the
connection: what was reported is nothing, or the refusal, or the opening and what the inflater made
of the frames so far, one by one, with the end at last if the other side came to it. The connection
is finished if and only if the last word was said or is in the hand of the reader, and nothing is
reported after it. A reader that can go no further has reported all there is, unless the connection
was closed on this side. -/
theorem reports_follow_course {b : Behaviour} {url : String} {moves : List Move}
    (h : (begin b url mode).run moves = some p) :
    (∃ whole, Told b mode p.journal.reported whole ∧
      (p.connection.finished = true ↔ whole = true ∨
        ∃ e, p.journal.pending = [e] ∧ Told b mode (p.journal.reported ++ [e]) true)) ∧
      (Told b mode p.journal.reported true →
        ∀ more q, p.run more = some q → q.journal.reported = p.journal.reported) ∧
      (p.journal.closed = none → p.move .answer = none → p.move .read = none →
        p.move .report = none → p.journal.reported = b.course mode) := by
  have hsound : p.Sound mode := sound_run (sound_begin b url mode) h
  have hb : p.behaviour = b := (grows_run h).1
  refine ⟨?_, ?_, ?_⟩
  · obtain ⟨whole, hwhole⟩ := hsound.reported
    have hiff := hsound.finished_iff hwhole
    rw [hb] at hwhole hiff
    exact ⟨whole, hwhole, hiff⟩
  · intro hall more q hq
    obtain ⟨hq', hgrows⟩ := grows_run hq
    obtain ⟨whole, hwhole⟩ := (sound_run hsound hq).reported
    rw [hq', hb] at hwhole
    have hle := hwhole.isPrefix_course.length_le
    rw [← hall.eq_course] at hle
    exact (hgrows.eq_of_length_le hle).symm
  · intro hclosed hanswer hread hreport
    rw [← hb]
    exact hsound.reported_eq_course hclosed hanswer hread hreport

/-- A text, a ping and what is no text are read, then the other side closes the connection. -/
theorem reports_follow_course_to_the_end :
    ∃ p, (begin ⟨none, [.frame (.text [104, 105]), .frame (.ping []), .frame (.binary [255]),
        .frame (.close (some ⟨4009, [98, 121, 101]⟩))]⟩ "wss://gateway" .none).run
          [.answer, .report, .read, .report, .read, .read, .report, .read, .report] = some p ∧
      p.journal.reported = [.opened, .received "hi",
        .failed "Decode failed: utf-8: invalid utf-8 sequence of 1 bytes from index 0",
        .closed (some 4009) "bye"] ∧
      p.connection.finished = true ∧ p.journal.closed = none ∧
      ∀ more q, p.run more = some q → q.journal.reported = p.journal.reported := by
  obtain ⟨p, hp, hall⟩ := Option.map_eq_some_iff.mp (show ((begin ⟨none,
      [.frame (.text [104, 105]), .frame (.ping []), .frame (.binary [255]),
        .frame (.close (some ⟨4009, [98, 121, 101]⟩))]⟩ "wss://gateway" .none).run
          [.answer, .report, .read, .report, .read, .read, .report, .read, .report]).map
            (fun p => (p.journal.reported, p.connection.finished, p.journal.closed,
              p.journal.pending)) =
        some ([.opened, .received "hi",
          .failed "Decode failed: utf-8: invalid utf-8 sequence of 1 bytes from index 0",
          .closed (some 4009) "bye"], true, none, []) by decide +kernel)
  obtain ⟨hreported, hfinished, hclosed, hpending⟩ : p.journal.reported = _ ∧
      p.connection.finished = true ∧ p.journal.closed = none ∧ p.journal.pending = [] := by
    simpa using hall
  obtain ⟨⟨whole, hwhole, hiff⟩, hlast, -⟩ := reports_follow_course hp
  have htrue : whole = true := by simpa [hpending, hfinished] using hiff
  subst htrue
  exact ⟨p, hp, hreported, hfinished, hclosed, hlast hwhole⟩

end Journey

end Switchboard
