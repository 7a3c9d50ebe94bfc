import Switchboard.Proofs.Wire.Journey

/-!
# What a writer writes

A writer takes up its letters in the order in which it accepted them, and each once. Three hand them
over: the owner sends frames, the reader answers pings, and when the connection is closed the reader
hands over the close frame and waits for the outcome. This last letter is known by the waiting, and
there is one at most, as the owner closes a connection once.

## Main definitions

* `Journal.own`: the letter that a call to close a connection leads to.
* `Journey.Kept`: the invariant of the writer.

## Main results

* `Journey.kept_move`: every move preserves the invariant.
* `Journey.Kept.late_sublist`: who sends no close frame sees one written at most, and nothing after.
-/
namespace Switchboard

theorem filterMap_cons_toList {α β : Type} (f : α → Option β) (a : α) (as : List α) :
    (a :: as).filterMap f = (f a).toList ++ as.filterMap f := by
  rw [List.filterMap_cons]
  cases f a <;> rfl

namespace Writer

/-- Of a connection that is being closed nothing is written but close frames. -/
theorem isClose_of_refusal? {closing : Bool} {broken : Option Failure} {f : Frame}
    (h : refusal? closing broken f = none) (hclosing : closing = true) : f.isClose = true := by
  cases hf : f.isClose with
  | true => rfl
  | false => simp [refusal?, hclosing, hf] at h

/-- What a writer comes to when it takes up a letter: it wrote the letter and goes on with the rest,
or it wrote nothing. -/
theorem turn_cases {w : Writer} {closing : Bool} {broken : Option Failure}
    {t : Writer × Delivery} (h : w.turn closing broken = some t) :
    w.alive = true ∧
      ((∃ l, w.mail = l :: t.1.mail ∧ t.1.alive = true ∧ w.sends t.2 = [l] ∧
          (closing = true → l.isClose = true)) ∨
        t.1.mail <:+ w.mail ∧ w.sends t.2 = []) := by
  cases halive : w.alive with
  | false => simp [turn, halive] at h
  | true =>
    refine ⟨rfl, ?_⟩
    cases hmail : w.mail with
    | nil => simp [turn, halive, hmail] at h
    | cons l rest =>
      cases l with
      | stop =>
        obtain rfl : (gone, Delivery.stopped) = t := by simpa [turn, halive, hmail] using h
        exact .inr ⟨List.nil_suffix, rfl⟩
      | frame f awaited =>
        cases hrefusal : refusal? closing broken f with
        | none =>
          obtain rfl : ({ w with mail := rest }, Delivery.written f) = t := by
            simpa [turn, halive, hmail, hrefusal] using h
          exact .inl ⟨.frame f awaited, rfl, halive, by simp [sends, hmail],
            isClose_of_refusal? hrefusal⟩
        | some failure =>
          obtain rfl : (if awaited then { w with mail := rest } else gone,
              Delivery.refused failure) = t := by
            simpa [turn, halive, hmail, hrefusal] using h
          refine .inr ⟨?_, rfl⟩
          split
          · exact List.suffix_cons _ _
          · exact List.nil_suffix

end Writer

namespace Connection

/-- The close frame that is still to be handed over. -/
def due (x : Connection) : List Letter := x.farewell.toList.map fun f => .frame f true

theorem queue_post (x : Connection) (l : Letter) :
    (x.post l).queue = x.queue ++ if x.writes then [l] else [] := by
  cases hw : x.writer with
  | none => simp [post, queue, writes, hw]
  | some w => cases ha : w.alive <;> simp [post, queue, writes, Writer.post, hw, ha]

theorem send_of_offered {x : Connection} (h : x.offered = true) (f : Frame) :
    x.send f = if x.writes then x.post (.frame f false) else x := by
  cases hw : x.writes <;> simp [send, sending, h, hw]

/-- A reader that parts hands over the close frame, or stops the writer. -/
theorem queue_part (x : Connection) :
    ∃ more, x.part.queue = x.queue ++ more ∧ x.part.due = [] ∧
      (more.filter Letter.awaited).Sublist x.due ∧
        ∀ l ∈ more, l.awaited = false → l.isClose = false := by
  cases hfarewell : x.farewell with
  | none =>
    refine ⟨if x.writes then [.stop] else [], ?_, ?_, ?_, ?_⟩
    · have hpart : x.part.queue = (x.post .stop).queue := by
        simp only [part, hfarewell]
        rfl
      rw [hpart, queue_post]
    · simp [part, hfarewell, due, post]
    · split <;> simp [Letter.awaited]
    · split <;> simp [Letter.isClose]
  | some f =>
    refine ⟨if x.writes then [.frame f true] else [], ?_, ?_, ?_, ?_⟩
    · have hpart : x.part.queue = (x.post (.frame f true)).queue := by
        simp only [part, hfarewell]
        rfl
      rw [hpart, queue_post]
    · simp [part, hfarewell, due]
    · split <;> simp [due, hfarewell]
    · split <;> simp [Letter.awaited]

end Connection

/-- The letter that the call which closed a connection leads to. -/
def Journal.own (j : Journal) : List Letter :=
  j.closed.toList.map fun c => .frame (.closing c.1 c.2) true

/-- What was written, oldest first. -/
def Journal.written (j : Journal) : List Letter := j.early ++ j.late

theorem Journal.written_wrote {j : Journal} {closing : Bool} (h : closing = false → j.late = [])
    (letters : List Letter) : (j.wrote closing letters).written = j.written ++ letters := by
  cases closing with
  | true => simp [wrote, written]
  | false => simp [wrote, written, h rfl]

namespace Journey

variable {p q : Journey} {sent : List Frame}

/-- The frame that somebody hands over in a move. -/
def Move.sent? : Move → Option Frame
  | .accept f => some f
  | _ => none

/-- What holds of a writer and its letters between two moves, when these frames were sent. -/
structure Kept (sent : List Frame) (p : Journey) : Prop where
  closing : p.connection.closing = p.journal.closed.isSome
  /-- There is no writer before the connection is made. -/
  fresh : p.connection.stage = .connecting → p.connection.writer = none
  /-- Letters are taken up in the order in which they were accepted. -/
  order : (p.journal.written ++ p.connection.queue).Sublist p.journal.given
  early : ∀ l ∈ p.journal.early, l.awaited = false
  late : ∀ l ∈ p.journal.late, l.isClose = true
  calm : p.journal.closed = none → p.journal.late = []
  /-- The close frame is handed over once, and until then it is kept. -/
  own : (p.journal.given.filter Letter.awaited ++ p.connection.due).Sublist p.journal.own
  /-- A close frame that nobody waits for was sent. -/
  sent : ∀ l ∈ p.journal.given, l.awaited = false → l.isClose = true →
    ∃ f ∈ sent, l = .frame f false

theorem kept_begin (b : Behaviour) (url : String) (mode : Compression) : (begin b url mode).Kept [] where
  closing := rfl
  fresh := fun _ => rfl
  order := .slnil
  early := by simp [begin]
  late := by simp [begin]
  calm := fun _ => rfl
  own := .slnil
  sent := by simp [begin]

theorem Kept.mono (h : p.Kept sent) {more : List Frame} (hmore : ∀ f ∈ sent, f ∈ more) :
    p.Kept more :=
  { h with
    sent := by
      intro l hl hawaited hclose
      obtain ⟨f, hf, rfl⟩ := h.sent l hl hawaited hclose
      exact ⟨f, hmore f hf, rfl⟩ }

/-- The connection changes, and the writer accepts some more. -/
theorem Kept.become (h : p.Kept sent) {x : Connection} {events : List LinkEvent} {more : List Letter}
    (hclosing : x.closing = p.connection.closing)
    (hfresh : x.stage = .connecting → x.writer = none)
    (hqueue : x.queue = p.connection.queue ++ more)
    (hown : (more.filter Letter.awaited ++ x.due).Sublist p.connection.due)
    (hsent : ∀ l ∈ more, l.awaited = false → l.isClose = true → ∃ f ∈ sent, l = .frame f false) :
    (p.become x events).Kept sent := by
  have hgiven : (p.become x events).journal.given = p.journal.given ++ more := by
    simp [Journey.become, hqueue]
  refine ⟨hclosing.trans h.closing, hfresh, ?_, h.early, h.late, h.calm, ?_, ?_⟩
  · rw [hgiven, connection_become, hqueue, ← List.append_assoc]
    exact h.order.append_right more
  · rw [hgiven, connection_become, List.filter_append, List.append_assoc]
    exact (hown.append_left _).trans h.own
  · rw [hgiven]
    intro l hl
    rcases List.mem_append.mp hl with hl | hl
    · exact h.sent l hl
    · exact hsent l hl

/-- A letter is handed over that nobody waits for. -/
theorem Kept.post (h : p.Kept sent) {x : Connection} {events : List LinkEvent} {l : Letter}
    (hl : l.awaited = false) (hclose : l.isClose = true → ∃ f ∈ sent, l = .frame f false)
    (hclosing : x.closing = p.connection.closing) (hstage : x.stage ≠ .connecting)
    (hqueue : x.queue = p.connection.queue) (hdue : x.due = p.connection.due) :
    (p.become (x.post l) events).Kept sent := by
  refine h.become hclosing (fun hs => absurd hs hstage) (by rw [Connection.queue_post, hqueue])
    ?_ ?_
  · have hpost : (x.post l).due = p.connection.due := hdue
    rw [hpost]
    split <;> simp [hl]
  · intro l' hl' _ hclose'
    obtain ⟨-, rfl⟩ : x.writes = true ∧ l' = l := by simpa using hl'
    exact hclose hclose'

/-- The reader parts. -/
theorem Kept.part (h : p.Kept sent) {x : Connection} {events : List LinkEvent}
    (hclosing : x.closing = p.connection.closing) (hqueue : x.queue = p.connection.queue)
    (hdue : x.due = p.connection.due) : (p.become x.part events).Kept sent := by
  obtain ⟨more, hmore, hnone, hown, hquiet⟩ := x.queue_part
  refine h.become ((Connection.closing_part x).trans hclosing) ?_ (hqueue ▸ hmore) ?_ ?_
  · intro hs
    rcases x.stage_part with hp | hp <;> simp [hp] at hs
  · rw [hnone, List.append_nil, ← hdue]
    exact hown
  · intro l hl hawaited hclose
    simp [hquiet l hl hawaited] at hclose

/-- The connection changes, and neither the writer nor the close frame. -/
theorem Kept.quiet (h : p.Kept sent) {x : Connection} {events : List LinkEvent}
    (hclosing : x.closing = p.connection.closing)
    (hfresh : x.stage = .connecting → x.writer = none) (hqueue : x.queue = p.connection.queue)
    (hdue : x.due = p.connection.due) : (p.become x events).Kept sent := by
  have hsame : x.queue = p.connection.queue ++ [] := by simpa using hqueue
  exact h.become hclosing hfresh hsame (by simp [hdue]) (by simp)

theorem kept_answered (h : p.Kept sent) (hstage : p.connection.stage = .connecting) :
    p.answered.Kept sent := by
  have hnone : p.connection.queue = [] := by simp [Connection.queue, h.fresh hstage]
  unfold answered
  split
  · exact h.quiet rfl (fun hs => by simp [Connection.mark] at hs) rfl rfl
  · cases hclosing : p.connection.closing with
    | true =>
      rw [Connection.connected_of_closing hclosing]
      exact h.part rfl (by rw [hnone]; rfl) rfl
    | false =>
      rw [Connection.connected_of_open hclosing]
      exact h.quiet rfl (fun hs => by simp at hs) (by rw [hnone]; rfl) rfl

theorem kept_notice (h : p.Kept sent) : (p.become p.connection.notice []).Kept sent := by
  unfold Connection.notice
  split
  · exact h.quiet rfl (fun hs => by simp at hs) rfl rfl
  · exact h.part rfl rfl rfl
  · exact h.quiet rfl h.fresh rfl rfl

theorem kept_advance (h : p.Kept sent) : p.advance.Kept sent :=
  ⟨h.closing, h.fresh, h.order, h.early, h.late, h.calm, h.own, h.sent⟩

theorem kept_took (h : p.Kept sent) (hstage : p.connection.stage = .reading) (i : Inbound) :
    (p.took i).Kept sent := by
  have h' := kept_advance h
  have hreading : p.connection.stage ≠ .connecting := by simp [hstage]
  cases hl : i.last? with
  | some e =>
    rw [took_of_some hl]
    exact h'.quiet rfl (fun hs => by simp [Connection.mark] at hs) rfl rfl
  | none =>
    rw [took_of_none hl]
    cases i with
    | frame f =>
      cases f with
      | close n => simp [Inbound.last?] at hl
      | ping payload => exact h'.post rfl (by simp [Letter.isClose, Frame.isClose]) rfl hreading rfl rfl
      | _ => exact h'.quiet rfl (fun hs => absurd hs hreading) rfl rfl
    | _ => simp [Inbound.last?] at hl

theorem Kept.late_of_open (h : p.Kept sent) (hclosing : p.connection.closing = false) :
    p.journal.late = [] := by
  refine h.calm ?_
  rw [h.closing] at hclosing
  simpa using hclosing

/-- Before the owner closes a connection nobody waits for a letter. -/
theorem Kept.awaited_of_open (h : p.Kept sent) (hclosing : p.connection.closing = false) {l : Letter}
    (hl : l ∈ p.journal.given) : l.awaited = false := by
  have hclosed : p.journal.closed = none := by
    rw [h.closing] at hclosing
    simpa using hclosing
  have hown := h.own
  rw [Journal.own, hclosed] at hown
  have hnone := (List.append_eq_nil_iff.mp (List.sublist_nil.mp hown)).1
  simpa using List.filter_eq_nil_iff.mp hnone l hl

theorem kept_wrote (h : p.Kept sent) {w : Writer} (hw : p.connection.writer = some w)
    {broken : Option Failure} {t : Writer × Delivery}
    (ht : w.turn p.connection.closing broken = some t) : (p.wrote w t).Kept sent := by
  obtain ⟨halive, hcases⟩ := Writer.turn_cases ht
  have hqueue : p.connection.queue = w.mail := by simp [Connection.queue, hw, halive]
  have hrest : (p.wrote w t).connection.queue.Sublist t.1.mail := by
    simp only [wrote, Connection.queue]
    split <;> simp
  have hmail : (w.sends t.2 ++ (p.wrote w t).connection.queue).Sublist p.connection.queue := by
    rw [hqueue]
    rcases hcases with ⟨l, hl, -, hsends, -⟩ | ⟨hsuffix, hsends⟩
    · rw [hl, hsends]
      exact hrest.cons_cons l
    · rw [hsends]
      exact hrest.trans hsuffix.sublist
  have hsends : ∀ l ∈ w.sends t.2, l ∈ p.journal.given ∧
      (p.connection.closing = true → l.isClose = true) := by
    intro l hl
    refine ⟨h.order.subset (List.mem_append_right _ (hmail.subset (List.mem_append_left _ hl))), ?_⟩
    rcases hcases with ⟨l', -, -, hsends, hclose⟩ | ⟨-, hsends⟩
    · obtain rfl : l = l' := by simpa [hsends] using hl
      exact hclose
    · simp [hsends] at hl
  refine ⟨h.closing, fun hs => ?_, ?_, fun l hl => ?_, fun l hl => ?_, fun hclosed => ?_, h.own,
    h.sent⟩
  · simp [h.fresh hs] at hw
  · have hwritten : (p.wrote w t).journal.written = p.journal.written ++ w.sends t.2 :=
      Journal.written_wrote h.late_of_open _
    rw [hwritten, List.append_assoc]
    exact (hmail.append_left _).trans h.order
  · cases hclosing : p.connection.closing with
    | true => exact h.early l (by simpa [wrote, Journal.wrote, hclosing] using hl)
    | false =>
      have hl : l ∈ p.journal.early ∨ l ∈ w.sends t.2 := by
        simpa [wrote, Journal.wrote, hclosing] using hl
      rcases hl with hl | hl
      · exact h.early l hl
      · exact h.awaited_of_open hclosing (hsends l hl).1
  · cases hclosing : p.connection.closing with
    | true =>
      have hl : l ∈ p.journal.late ∨ l ∈ w.sends t.2 := by
        simpa [wrote, Journal.wrote, hclosing] using hl
      rcases hl with hl | hl
      · exact h.late l hl
      · exact (hsends l hl).2 hclosing
    | false => exact h.late l (by simpa [wrote, Journal.wrote, hclosing] using hl)
  · have hopen : p.connection.closing = false := by
      rw [h.closing, show p.journal.closed = none from hclosed]
      rfl
    have hlate : (p.wrote w t).journal.late = p.journal.late := by
      simp [wrote, Journal.wrote, hopen]
    rw [hlate]
    exact h.calm hclosed

theorem kept_shut (h : p.Kept sent) (hclosed : p.journal.closed = none) (code : Nat) (reason : String) :
    (p.shut code reason).Kept sent := by
  have hlate := h.calm hclosed
  have hown := h.own
  rw [Journal.own, hclosed] at hown
  obtain ⟨hgiven, -⟩ := List.append_eq_nil_iff.mp (List.sublist_nil.mp hown)
  have hshut : (p.shut code reason).journal.closed = some (code, reason) := by
    simp [shut, Journal.shut, hclosed]
  refine ⟨by rw [hshut]; rfl, fun hs => ?_, h.order, h.early, h.late, by simp [hshut], ?_,
    h.sent⟩
  · refine h.fresh ?_
    simp only [shut, Connection.close] at hs
    split at hs
    · simp at hs
    · exact hs
  · have hg : (p.shut code reason).journal.given.filter Letter.awaited = [] := hgiven
    rw [Journal.own, hshut, hg]
    exact List.Sublist.refl _

theorem kept_move (h : p.Kept sent) {a : Move} (ha : p.move a = some q) :
    q.Kept (sent ++ a.sent?.toList) := by
  have h' := h.mono (fun f hf => List.mem_append_left a.sent?.toList hf)
  cases moved_of_move ha with
  | answer hstage => exact kept_answered h' hstage
  | notice => exact kept_notice h'
  | read hstage => exact kept_took h' hstage _
  | report =>
    exact ⟨h'.closing, h'.fresh, h'.order, h'.early, h'.late, h'.calm, h'.own, h'.sent⟩
  | retract hstage =>
    exact h'.quiet rfl (fun hs => by simp [Connection.retract, hstage] at hs) rfl rfl
  | conclude => exact h'.quiet rfl (fun hs => by simp [Connection.conclude] at hs) rfl rfl
  | halt hstage =>
    exact h'.post rfl (by simp [Letter.isClose]) rfl (by simp [hstage]) rfl rfl
  | write hw ht => exact kept_wrote h' hw ht
  | @accept f hwrites =>
    refine h'.post rfl (fun _ => ⟨f, by simp [Move.sent?], rfl⟩) rfl (fun hs => ?_) rfl rfl
    simp [Connection.writes, h.fresh hs] at hwrites
  | close hclosed => exact kept_shut h' hclosed _ _

theorem kept_run (h : p.Kept sent) {moves : List Move} (hq : p.run moves = some q) :
    q.Kept (sent ++ moves.filterMap Move.sent?) := by
  induction moves generalizing p sent with
  | nil =>
    obtain rfl : p = q := by simpa [run] using hq
    simpa using h
  | cons a rest ih =>
    obtain ⟨r, ha, hrest⟩ : ∃ r, p.move a = some r ∧ r.run rest = some q := by
      simpa [run, Option.bind_eq_some_iff] using hq
    rw [filterMap_cons_toList, ← List.append_assoc]
    exact ih (kept_move h ha) hrest

/-! ## What follows from the invariant -/

theorem Kept.written_sublist (h : p.Kept sent) : p.journal.written.Sublist p.journal.given :=
  (List.sublist_append_left _ _).trans h.order

theorem Kept.awaited_sublist (h : p.Kept sent) :
    (p.journal.given.filter Letter.awaited).Sublist p.journal.own :=
  (List.sublist_append_left _ _).trans h.own

/-- As long as no close frame is handed over that nobody waits for, one is written at most, and it
is the last. -/
theorem Kept.late_sublist (h : p.Kept sent)
    (hgiven : ∀ l ∈ p.journal.given, l.awaited = false → l.isClose = false) :
    (∀ l ∈ p.journal.early, l.isClose = false) ∧ p.journal.late.Sublist p.journal.own := by
  have hlate : p.journal.late.Sublist p.journal.given :=
    (List.sublist_append_right _ _).trans h.written_sublist
  refine ⟨fun l hl => ?_, ?_⟩
  · exact hgiven l (h.written_sublist.subset (List.mem_append_left _ hl)) (h.early l hl)
  · have hawaited : ∀ l ∈ p.journal.late, l.awaited = true := by
      intro l hl
      cases hnot : l.awaited with
      | true => rfl
      | false =>
        have hclose := hgiven l (hlate.subset hl) hnot
        simp [h.late l hl] at hclose
    rw [← List.filter_eq_self.mpr hawaited]
    exact (hlate.filter _).trans h.awaited_sublist

end Journey

end Switchboard
