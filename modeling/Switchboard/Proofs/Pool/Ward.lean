import Mathlib.Logic.Function.Basic
import Switchboard.Pool.Supervisor
import Switchboard.Proofs.Session.Failures

/-!
# Shards in the care of a supervisor

A ward is a supervisor with the sessions of its shards, and with everything that is on its way
between them: letters in the mailboxes of the shards, notices that the supervisor has not heard yet,
an answer to its question, and restarts that cool down. What is on its way arrives in any order with
respect to the rest, and notices may be missed.

## Main definitions

* `Ward`: the state; `Ward.Move` is what can happen, and `Ward.next` what comes of it.
* `Ward.Moved`: what a move can be.

## Main results

* `Ward.moved_next`, `Ward.Asking.moved`: the supervisor waits for one answer at any time, and each
  move is one of few.
* `Ward.keeps_moved`: sessions do something only when their shards read letters.
-/
namespace Switchboard

/-- What is in the mailbox of a shard. -/
inductive Missive where
  /-- From a connection, a timer or the owner. -/
  | input (i : Session.Input)
  /-- The supervisor asks why the shard stopped. -/
  | question
  /-- The supervisor restarts the shard. -/
  | order

/-- A supervisor and its shards, with what is on its way between them. -/
structure Ward where
  supervisor : Supervisor
  sessions : Nat → Session
  mail : Nat → List Missive := fun _ => []
  /-- The notices that the supervisor has not heard yet. -/
  unread : List Notice := []
  /-- All notices so far. -/
  announced : List Notice := []
  /-- The answer to the question of the supervisor. -/
  answer : Option (Option FatalCause) := none
  /-- The shards that are restarted when their cooldown is over. -/
  cooling : List Nat := []
  /-- The shards to which a restart was handed over, and which are still listed. -/
  handed : List Nat := []

namespace Ward

/-- What can happen. -/
inductive Move where
  /-- A letter arrives that is not from the supervisor. -/
  | post (k : Nat) (i : Session.Input)
  /-- A shard reads its next letter. -/
  | read (k : Nat) (m : Session.Moment)
  /-- The supervisor hears the next notice. -/
  | hear
  /-- The supervisor learns that it missed so many notices. -/
  | miss (n : Nat)
  /-- The answer reaches the supervisor. -/
  | answered
  /-- The cooldown of a shard is over. -/
  | due (k : Nat)
  /-- A shard to which a restart was handed over is struck off the list. -/
  | strike (k : Nat)

/-! ## What comes of it -/

/-- A mailbox holds this. -/
def withMail (w : Ward) (k : Nat) (letters : List Missive) : Ward :=
  { w with mail := Function.update w.mail k letters }

/-- Puts a letter into a mailbox. -/
def deliver (w : Ward) (k : Nat) (letter : Missive) : Ward :=
  w.withMail k (w.mail k ++ [letter])

/-- Does what the supervisor asks for. -/
def perform (w : Ward) : Supervisor.Effect → Ward
  | .plan k _ => { w with cooling := w.cooling ++ [k] }
  | .ask k => w.deliver k .question
  | .restart k => w.deliver k .order

/-- Something happens to the supervisor. -/
def supervise (w : Ward) (i : Supervisor.Input) : Ward :=
  (w.supervisor.step i).2.foldl perform { w with supervisor := (w.supervisor.step i).1 }

/-- The notices about a shard among the effects of its session. -/
def notices (k : Nat) (es : List Session.Effect) : List Notice :=
  es.filterMap fun
    | .announce happening => some ⟨k, happening⟩
    | _ => none

/-- A session handles an input. -/
def handle (c : Config) (w : Ward) (k : Nat) (m : Session.Moment) (i : Session.Input) : Ward :=
  let r := Session.step c (w.sessions k) m i
  { w with
    sessions := Function.update w.sessions k r.1
    unread := w.unread ++ notices k r.2
    announced := w.announced ++ notices k r.2 }

/-- A shard reads a letter. -/
def onLetter (c : Config) (w : Ward) (k : Nat) (m : Session.Moment) : Missive → Ward
  | .input i => w.handle c k m i
  | .order => w.handle c k m .restart
  | .question => { w with answer := some (w.sessions k).fatal }

/-- So many of the notices that were not heard are gone. -/
def skip (w : Ward) (n : Nat) : Ward := { w with unread := w.unread.drop n }

/-- No answer is on its way. -/
def answerless (w : Ward) : Ward := { w with answer := none }

/-- The cooldown of a shard is over, and its restart is handed over. -/
def warmed (w : Ward) (k : Nat) : Ward :=
  { w with cooling := w.cooling.erase k, handed := w.handed ++ [k] }

/-- What comes of a move; one that is not possible changes nothing. The supervisor does not listen
while it waits for an answer. -/
def next (c : Config) (w : Ward) : Move → Ward
  | .post k i => w.deliver k (.input i)
  | .read k m =>
    match w.mail k with
    | [] => w
    | letter :: rest => (w.withMail k rest).onLetter c k m letter
  | .hear =>
    match w.supervisor.asked, w.unread with
    | none, n :: _ => (w.skip 1).supervise (.notice n)
    | _, _ => w
  | .miss n => if w.supervisor.asked = none then (w.skip n).supervise .lagged else w
  | .answered =>
    match w.answer with
    | some cause => w.answerless.supervise (.answer cause)
    | none => w
  | .due k => if k ∈ w.cooling then (w.warmed k).supervise (.due k) else w
  | .strike k =>
    if k ∈ w.handed then ({ w with handed := w.handed.erase k } : Ward).supervise (.told k) else w

/-- What comes of moves one after the other. -/
def run (c : Config) (w : Ward) (moves : List Move) : Ward := moves.foldl (next c) w

/-- A ward at the beginning of time. -/
def begin (c : Config) (now : Instant) : Ward where
  supervisor := .ofConfig c
  sessions k := .new c ⟨k, c.shardCount⟩ now

variable {c : Config} {w : Ward} {k : Nat}

/-! ## What the supervisor does -/

/-- A shard stopped for good. -/
def blame (w : Ward) (k : Nat) (authentication : Bool) : Ward :=
  if w.supervisor.wantsRestart k authentication then
    { w with
      supervisor := { w.supervisor with restarting := w.supervisor.restarting ++ [k] }
      cooling := w.cooling ++ [k] }
  else w

/-- The next shard is asked. -/
def askFrom (w : Ward) (first : Nat) : Ward :=
  (w.supervisor.askFrom first).2.foldl perform
    { w with supervisor := (w.supervisor.askFrom first).1 }

/-- The supervisor waits for the answer of this shard, or for none. -/
def waitFor (w : Ward) (asked : Option Nat) : Ward :=
  { w with supervisor := { w.supervisor with asked } }

theorem askFrom_cases (w : Ward) (first : Nat) :
    w.askFrom first = w.waitFor none ∨
      ∃ j, w.askFrom first = (w.waitFor (some j)).deliver j .question := by
  unfold askFrom Supervisor.askFrom
  split
  case h_1 j _ => exact .inr ⟨j, rfl⟩
  case h_2 => exact .inl rfl

/-- A notice is heard. -/
def learn (w : Ward) (n : Notice) : Ward :=
  match n with
  | ⟨k, .fatal _ authentication⟩ => w.blame k authentication
  | _ => w

theorem supervise_notice (w : Ward) (n : Notice) : w.supervise (.notice n) = w.learn n := by
  obtain ⟨k, happening⟩ := n
  cases happening with
  | fatal reason authentication =>
    by_cases h : w.supervisor.wantsRestart k authentication = true <;>
      simp [supervise, Supervisor.step, Supervisor.onFatal, learn, blame, perform, h]
  | _ => rfl

theorem supervise_lagged (w : Ward) :
    w.supervise .lagged = if w.supervisor.policy = .surface then w else w.askFrom 0 := by
  by_cases h : w.supervisor.policy = .surface <;> simp [supervise, Supervisor.step, askFrom, h]

theorem supervise_answer (w : Ward) {k : Nat} (h : w.supervisor.asked = some k)
    (cause : Option FatalCause) :
    w.supervise (.answer cause) =
      (cause.elim w fun c => w.blame k c.authentication).askFrom (k + 1) := by
  cases cause with
  | none => simp [supervise, Supervisor.step, h, askFrom]
  | some cause =>
    by_cases hw : w.supervisor.wantsRestart k cause.authentication = true <;>
      simp [supervise, Supervisor.step, Supervisor.onFatal, h, askFrom, blame, perform, hw]

theorem supervise_due (w : Ward) (k : Nat) : w.supervise (.due k) = w.deliver k .order := rfl

theorem supervise_told (w : Ward) (k : Nat) : w.supervise (.told k) =
    { w with supervisor :=
      { w.supervisor with restarting := w.supervisor.restarting.filter (· ≠ k) } } := rfl

/-! ## The question of the supervisor -/

/-- The letter is the question of the supervisor. -/
def isQuestion : Missive → Bool
  | .question => true
  | _ => false

/-- How often a shard is still to be asked. -/
def questions (w : Ward) (k : Nat) : Nat := (w.mail k).countP isQuestion

/-- The supervisor waits for the answer to one question. -/
structure Asking (w : Ward) : Prop where
  out : ∀ j, 0 < w.questions j → w.supervisor.asked = some j ∧ w.answer = none
  once : ∀ j, w.questions j ≤ 1
  idle : w.supervisor.asked = none → w.answer = none

theorem Asking.of_eq {v : Ward} (h : w.Asking) (hq : ∀ j, v.questions j = w.questions j)
    (hs : v.supervisor.asked = w.supervisor.asked) (ha : v.answer = w.answer) : v.Asking where
  out j := by
    rw [hq, hs, ha]
    exact h.out j
  once j := hq j ▸ h.once j
  idle := by
    rw [hs, ha]
    exact h.idle

theorem questions_deliver (w : Ward) (j : Nat) (letter : Missive) :
    (w.deliver j letter).questions k =
      w.questions k + if j = k ∧ isQuestion letter = true then 1 else 0 := by
  by_cases hj : j = k
  · subst hj
    cases hl : isQuestion letter <;> simp [questions, deliver, withMail, hl]
  · simp [questions, deliver, withMail, Function.update_of_ne (Ne.symm hj), hj]

theorem asking_askFrom (hq : ∀ j, w.questions j = 0) (ha : w.answer = none) (first : Nat) :
    (w.askFrom first).Asking := by
  have hwait : ∀ asked j, (w.waitFor asked).questions j = 0 := fun _ => hq
  rcases askFrom_cases w first with he | ⟨j, he⟩
  · rw [he]
    exact ⟨fun j hj => by simp [hwait] at hj, fun j => by simp [hwait], fun _ => ha⟩
  · rw [he]
    have hone : ∀ i, ((w.waitFor (some j)).deliver j .question).questions i =
        if j = i then 1 else 0 := by
      intro i
      simp [questions_deliver, hwait, isQuestion]
    refine ⟨fun i hi => ?_, fun i => ?_, fun hnone => ?_⟩
    · rw [hone] at hi
      split at hi
      case isTrue hj => exact ⟨congrArg some hj, ha⟩
      case isFalse => simp at hi
    · rw [hone]
      split <;> simp
    · simp [deliver, withMail, waitFor] at hnone

@[simp] theorem questions_blame (w : Ward) (j k : Nat) (authentication : Bool) :
    (w.blame j authentication).questions k = w.questions k := by
  unfold blame
  split <;> rfl

@[simp] theorem asked_blame (w : Ward) (j : Nat) (authentication : Bool) :
    (w.blame j authentication).supervisor.asked = w.supervisor.asked := by
  unfold blame
  split <;> rfl

@[simp] theorem answer_blame (w : Ward) (j : Nat) (authentication : Bool) :
    (w.blame j authentication).answer = w.answer := by
  unfold blame
  split <;> rfl

theorem Asking.deliver (h : w.Asking) (j : Nat) {letter : Missive}
    (hl : isQuestion letter = false) : (w.deliver j letter).Asking :=
  h.of_eq (fun i => by simp [questions_deliver, hl]) rfl rfl

theorem Asking.blame (h : w.Asking) (j : Nat) (authentication : Bool) :
    (w.blame j authentication).Asking :=
  h.of_eq (by simp) (by simp) (by simp)

/-- While no question is answered yet, or none is asked, no mailbox holds one. -/
theorem Asking.questions_eq_zero (h : w.Asking)
    (hw : w.supervisor.asked = none ∨ w.answer ≠ none) (j : Nat) : w.questions j = 0 := by
  by_contra hne
  obtain ⟨hasked, hanswer⟩ := h.out j (Nat.pos_of_ne_zero hne)
  rcases hw with hw | hw
  · simp [hasked] at hw
  · exact hw hanswer

theorem questions_withMail (w : Ward) {j : Nat} {letter : Missive} {rest : List Missive}
    (hmail : w.mail j = letter :: rest) (i : Nat) :
    w.questions i = (w.withMail j rest).questions i +
      if j = i ∧ isQuestion letter = true then 1 else 0 := by
  by_cases hj : j = i
  · subst hj
    cases hl : isQuestion letter <;> simp [questions, withMail, hmail, hl]
  · simp [questions, withMail, Function.update_of_ne (Ne.symm hj), hj]

theorem asking_begin (c : Config) (now : Instant) : (begin c now).Asking :=
  ⟨fun j hj => by simp [questions, begin] at hj, fun j => by simp [questions, begin], fun _ => rfl⟩

theorem Asking.read (h : w.Asking) {j : Nat} {letter : Missive} {rest : List Missive}
    (hmail : w.mail j = letter :: rest) (m : Session.Moment) :
    ((w.withMail j rest).onLetter c j m letter).Asking := by
  have hq := questions_withMail w hmail
  cases letter with
  | input i =>
    refine h.of_eq (fun l => ?_) rfl rfl
    simp [hq l, isQuestion]
    rfl
  | order =>
    refine h.of_eq (fun l => ?_) rfl rfl
    simp [hq l, isQuestion]
    rfl
  | question =>
    have hj : w.questions j = (w.withMail j rest).questions j + 1 := by
      simpa [isQuestion] using hq j
    have hasked := (h.out j (by omega)).1
    have hnone : ∀ l, (w.withMail j rest).questions l = 0 := by
      intro l
      by_contra hne
      have hl : 0 < w.questions l := by
        have hle := hq l
        omega
      obtain rfl : l = j := Option.some.inj ((h.out l hl).1.symm.trans hasked)
      have hone := h.once l
      omega
    have hnone' : ∀ l, ((w.withMail j rest).onLetter c j m .question).questions l = 0 := hnone
    refine ⟨fun l hl => ?_, fun l => ?_, fun hno => ?_⟩
    · simp [hnone'] at hl
    · simp [hnone']
    · have hsame : ((w.withMail j rest).onLetter c j m .question).supervisor = w.supervisor := rfl
      rw [hsame, hasked] at hno
      simp at hno

/-- What a move can be. -/
inductive Moved (c : Config) (w : Ward) : Move → Ward → Prop where
  /-- The move is not possible. -/
  | nothing (move : Move) : Moved c w move w
  | post (j : Nat) (i : Session.Input) : Moved c w (.post j i) (w.deliver j (.input i))
  | read (j : Nat) (m : Session.Moment) {letter : Missive} {rest : List Missive}
      (hmail : w.mail j = letter :: rest) :
    Moved c w (.read j m) ((w.withMail j rest).onLetter c j m letter)
  | hear {n : Notice} {rest : List Notice} (hasked : w.supervisor.asked = none)
      (hunread : w.unread = n :: rest) : Moved c w .hear ((w.skip 1).learn n)
  /-- Nobody is asked, for no shard is restarted. -/
  | ignore (n : Nat) (hp : w.supervisor.policy = .surface) : Moved c w (.miss n) (w.skip n)
  | miss (n : Nat) (hasked : w.supervisor.asked = none) :
    Moved c w (.miss n) ((w.skip n).askFrom 0)
  | answered {j : Nat} {cause : Option FatalCause} (hasked : w.supervisor.asked = some j)
      (hanswer : w.answer = some cause) :
    Moved c w .answered
      ((cause.elim w.answerless fun c => w.answerless.blame j c.authentication).askFrom (j + 1))
  | due (j : Nat) (hj : j ∈ w.cooling) : Moved c w (.due j) ((w.warmed j).deliver j .order)
  | strike (j : Nat) (hj : j ∈ w.handed) :
    Moved c w (.strike j)
      { w with
        handed := w.handed.erase j
        supervisor :=
          { w.supervisor with restarting := w.supervisor.restarting.filter (· ≠ j) } }

theorem moved_next (h : w.Asking) (move : Move) : Moved c w move (w.next c move) := by
  cases move with
  | post j i => exact .post j i
  | read j m =>
    simp only [Ward.next]
    split
    case h_1 => exact .nothing _
    case h_2 letter rest hmail => exact .read j m hmail
  | hear =>
    simp only [Ward.next]
    split
    case h_1 n rest hasked hunread =>
      rw [supervise_notice]
      exact .hear hasked hunread
    case h_2 => exact .nothing _
  | miss n =>
    simp only [Ward.next]
    split
    case isTrue hasked =>
      rw [supervise_lagged]
      split
      case isTrue hp => exact .ignore n hp
      case isFalse => exact .miss n hasked
    case isFalse => exact .nothing _
  | answered =>
    simp only [Ward.next]
    split
    case h_1 cause hanswer =>
      cases hasked : w.supervisor.asked with
      | none => simp [h.idle hasked] at hanswer
      | some j =>
        rw [supervise_answer w.answerless hasked]
        exact .answered hasked hanswer
    case h_2 => exact .nothing _
  | due j =>
    simp only [Ward.next]
    split
    case isTrue hj =>
      rw [supervise_due]
      exact .due j hj
    case isFalse => exact .nothing _
  | strike j =>
    simp only [Ward.next]
    split
    case isTrue hj =>
      rw [supervise_told]
      exact .strike j hj
    case isFalse => exact .nothing _

/-- The supervisor waits for one answer at any time. -/
theorem Asking.moved (h : w.Asking) {move : Move} {v : Ward} (hm : Moved c w move v) :
    v.Asking := by
  cases hm with
  | nothing => exact h
  | post j i => exact h.deliver j rfl
  | read j m hmail => exact h.read hmail m
  | hear _ _ =>
    have hskip : (w.skip 1).Asking := h.of_eq (fun _ => rfl) rfl rfl
    unfold learn
    split
    · exact hskip.blame _ _
    · exact hskip
  | ignore n _ => exact h.of_eq (fun _ => rfl) rfl rfl
  | miss n hasked =>
    exact asking_askFrom (w := w.skip n) (h.questions_eq_zero (.inl hasked)) (h.idle hasked) 0
  | @answered j cause hasked hanswer =>
    have hzero : ∀ l, w.answerless.questions l = 0 :=
      h.questions_eq_zero (.inr (by simp [hanswer]))
    cases cause with
    | none => exact asking_askFrom hzero rfl _
    | some cause => exact asking_askFrom (by simpa using hzero) (by simp [answerless]) _
  | due j _ =>
    have hwarmed : (w.warmed j).Asking := h.of_eq (fun _ => rfl) rfl rfl
    exact hwarmed.deliver j rfl
  | strike j _ => exact h.of_eq (fun _ => rfl) rfl rfl

/-! ## Moves of the supervisor -/

/-- No session did anything. -/
structure Keeps (w v : Ward) : Prop where
  sessions : v.sessions = w.sessions
  announced : v.announced = w.announced

theorem Keeps.trans {v u : Ward} (h : Keeps w v) (h' : Keeps v u) : Keeps w u :=
  ⟨h'.sessions.trans h.sessions, h'.announced.trans h.announced⟩

theorem keeps_skip (w : Ward) (n : Nat) : Keeps w (w.skip n) := ⟨rfl, rfl⟩

theorem keeps_answerless (w : Ward) : Keeps w w.answerless := ⟨rfl, rfl⟩

theorem keeps_blame (w : Ward) (j : Nat) (authentication : Bool) :
    Keeps w (w.blame j authentication) := by
  unfold blame
  split <;> exact ⟨rfl, rfl⟩

theorem keeps_askFrom (w : Ward) (first : Nat) : Keeps w (w.askFrom first) := by
  rcases askFrom_cases w first with he | ⟨j, he⟩ <;> rw [he] <;> exact ⟨rfl, rfl⟩

theorem keeps_learn (w : Ward) (n : Notice) : Keeps w (w.learn n) := by
  unfold learn
  split
  · exact keeps_blame ..
  · exact ⟨rfl, rfl⟩

/-- Sessions do something only when their shards read letters. -/
theorem keeps_moved {move : Move} {v : Ward} (hm : Moved c w move v)
    (hmove : ∀ j m, move ≠ .read j m) : Keeps w v := by
  cases hm with
  | read j m _ => exact absurd rfl (hmove j m)
  | hear _ _ => exact (keeps_skip ..).trans (keeps_learn ..)
  | miss n _ => exact (keeps_skip ..).trans (keeps_askFrom ..)
  | @answered j cause _ _ =>
    refine Keeps.trans ?_ (keeps_askFrom ..)
    cases cause with
    | none => exact keeps_answerless w
    | some cause => exact (keeps_answerless w).trans (keeps_blame ..)
  | _ => exact ⟨rfl, rfl⟩

theorem sessions_moved {move : Move} {v : Ward} (hm : Moved c w move v)
    (hmove : ∀ m, move ≠ .read k m) : v.sessions k = w.sessions k := by
  by_cases hread : ∃ j m, move = .read j m
  · obtain ⟨j, m, rfl⟩ := hread
    have hj : k ≠ j := fun hj => hmove m (by rw [hj])
    cases hm with
    | nothing => rfl
    | @read _ _ letter rest _ =>
      cases letter with
      | question => rfl
      | _ => exact Function.update_of_ne hj _ _
  · exact congrFun (keeps_moved hm fun j m hm => hread ⟨j, m, hm⟩).sessions k

theorem announced_moved {move : Move} {v : Ward} (hm : Moved c w move v) :
    w.announced ⊆ v.announced := by
  by_cases hread : ∃ j m, move = .read j m
  · obtain ⟨j, m, rfl⟩ := hread
    cases hm with
    | nothing => exact List.Subset.refl _
    | @read _ _ letter rest _ =>
      cases letter with
      | question => exact List.Subset.refl _
      | _ => exact List.subset_append_left ..
  · rw [(keeps_moved hm fun j m hm => hread ⟨j, m, hm⟩).announced]
    exact List.Subset.refl _

end Ward

end Switchboard
