import Mathlib.Data.List.Nodup
import Switchboard.Proofs.Pool.Restarts

/-!
# Which failures are repaired

A shard is listed while its restart is under way, and a listed shard is passed over. So a failure
draws a restart, unless the supervisor comes upon it in the moment in which the restart that
repaired the failure before was carried out and is still listed, or never hears of it because it
came before the start of the pool.

## Main definitions

* `Ward.opening`: a pool at its start.
* `Ward.hasRepair`: a restart of the shard is on its way.
* `Ward.Listed`: the list of the supervisor is the list of the restarts under way.
* `Ward.Noted`: why a failure is not lost.
* `Ward.heeds`: the supervisor does not pass over a failure that no restart on its way will repair.

## Main results

* `Ward.Listed.moved`, `Ward.Minded.moved`: what every move preserves.
* `Ward.repair_of_run`: which restarts are under way, and which failures they repair.
-/
namespace Switchboard.Ward

/-! ## The start of a pool -/

/-- The move is made by a shard, or by those that send letters to it. -/
def Move.isLocal : Move → Bool
  | .post .. | .read .. => true
  | _ => false

/-- The supervisor begins to listen; what was told before, it does not hear. -/
def listening (w : Ward) : Ward := { w with unread := [] }

/-- A pool at its start, after some moves of its shards. -/
def opening (c : Config) (now : Instant) (early : List Move) : Ward :=
  ((begin c now).run c (early.filter Move.isLocal)).listening

/-! ## What the supervisor comes upon -/

/-- A restart of the shard cools down, or was handed over and not handled. -/
def hasRepair (w : Ward) (k : Nat) : Bool := k ∈ w.cooling || (w.mail k).any isOrder

/-- The shard stopped for good, and may be restarted. -/
def hasFailed (w : Ward) (k : Nat) : Bool :=
  (w.sessions k).phase = .fatal && allows (w.sessions k).fatal

/-- With the move the supervisor hears of a failure of the shard, or goes past the shard while it
asks one after the other. -/
def considers (c : Config) (k : Nat) (w : Ward) : Move → Bool
  | .hear => w.supervisor.asked.isNone && w.unread.head?.any (tells k)
  | .miss n => w.supervisor.asked.isNone && (w.next c (.miss n)).supervisor.asked.all (k < ·)
  | .answered =>
    w.supervisor.asked.any (· < k) && (w.next c .answered).supervisor.asked.all (k < ·)
  | _ => false

/-- A failed shard that the supervisor comes upon has a restart on its way, or is not listed. -/
def heeds (c : Config) (k : Nat) (w : Ward) (move : Move) : Bool :=
  !(w.considers c k move && w.hasFailed k) || w.hasRepair k || k ∉ w.supervisor.restarting

/-- That holds at every move. -/
def heeded (c : Config) (k : Nat) : Ward → List Move → Bool
  | _, [] => true
  | w, move :: rest => w.heeds c k move && heeded c k (w.next c move) rest

variable {c : Config} {w v : Ward} {k : Nat}

theorem hasRepair_iff : w.hasRepair k = true ↔
    k ∈ w.cooling ∨ ∃ l ∈ w.mail k, isOrder l = true := by
  simp [hasRepair]

theorem hasFailed_iff : w.hasFailed k = true ↔ (w.sessions k).Failed := by
  simp [hasFailed, Session.Failed, allows_iff]

theorem hasRepair_of_heeds {move : Move} (h : w.heeds c k move = true)
    (hc : w.considers c k move = true) (hf : (w.sessions k).Failed)
    (hl : k ∈ w.supervisor.restarting) : w.hasRepair k = true := by
  simpa [heeds, hc, hasFailed_iff.mpr hf, hl] using h

/-! ## The list of the supervisor -/

/-- The supervisor works for a pool of this configuration. -/
structure Serves (c : Config) (w : Ward) : Prop where
  policy : w.supervisor.policy = c.fatalRestart
  shards : w.supervisor.shards = c.shardCount

theorem Serves.of_eq (h : w.Serves c) (hp : v.supervisor.policy = w.supervisor.policy)
    (hs : v.supervisor.shards = w.supervisor.shards) : v.Serves c :=
  ⟨hp.trans h.policy, hs.trans h.shards⟩

/-- The list of the supervisor is the list of the restarts under way, and each shard has one at
most. -/
structure Listed (w : Ward) : Prop where
  mem : ∀ j, j ∈ w.supervisor.restarting ↔ j ∈ w.cooling ++ w.handed
  nodup : (w.cooling ++ w.handed).Nodup

theorem Listed.of_eq (h : w.Listed) (hr : v.supervisor.restarting = w.supervisor.restarting)
    (hc : v.cooling = w.cooling) (hh : v.handed = w.handed) : v.Listed := by
  refine ⟨fun j => ?_, ?_⟩
  · rw [hr, hc, hh]
    exact h.mem j
  · rw [hc, hh]
    exact h.nodup

theorem wantsRestart_iff {s : Supervisor} {authentication : Bool} :
    s.wantsRestart k authentication = true ↔
      authentication = false ∧ s.policy = .restart ∧ k < s.shards ∧ k ∉ s.restarting := by
  simp [Supervisor.wantsRestart, and_assoc]

theorem Listed.blame (h : w.Listed) (j : Nat) (authentication : Bool) :
    (w.blame j authentication).Listed := by
  unfold Ward.blame
  split
  case isFalse => exact h
  case isTrue hwants =>
    have hnew : j ∉ w.cooling ++ w.handed :=
      fun hmem => (wantsRestart_iff.mp hwants).2.2.2 ((h.mem j).mpr hmem)
    have hperm : (w.cooling ++ [j] ++ w.handed).Perm (j :: (w.cooling ++ w.handed)) := by
      simp
    refine ⟨fun i => ?_, hperm.nodup_iff.mpr (List.nodup_cons.mpr ⟨hnew, h.nodup⟩)⟩
    have hmem := h.mem i
    simp only [List.mem_append] at hmem
    simp only [List.mem_append, List.mem_singleton, hmem]
    tauto

theorem Listed.askFrom (h : w.Listed) (first : Nat) : (w.askFrom first).Listed := by
  rcases askFrom_cases w first with he | ⟨j, he⟩ <;> rw [he] <;> exact h.of_eq rfl rfl rfl

theorem Listed.learn (h : w.Listed) (n : Notice) : (w.learn n).Listed := by
  unfold Ward.learn
  split
  · exact h.blame _ _
  · exact h

/-- A restart that is handed over is listed still. -/
theorem Listed.due (h : w.Listed) (hk : k ∈ w.cooling) :
    ((w.warmed k).deliver k .order).Listed := by
  have hperm : (w.cooling.erase k ++ (w.handed ++ [k])).Perm (w.cooling ++ w.handed) := by
    rw [← List.append_assoc]
    exact (List.perm_append_singleton ..).trans ((List.perm_cons_erase hk).symm.append_right _)
  exact ⟨fun j => (h.mem j).trans hperm.mem_iff.symm, hperm.nodup_iff.mpr h.nodup⟩

/-- A shard that is struck off the list has no restart under way. -/
theorem Listed.strike (h : w.Listed) (hk : k ∈ w.handed)
    (hr : v.supervisor.restarting = w.supervisor.restarting.filter (· ≠ k))
    (hc : v.cooling = w.cooling) (hh : v.handed = w.handed.erase k) : v.Listed := by
  obtain ⟨hcooling, hhanded, hapart⟩ := List.nodup_append.mp h.nodup
  refine ⟨fun j => ?_, ?_⟩
  · have hmem := h.mem j
    rw [hr, hc, hh]
    by_cases hj : j = k
    · subst hj
      have hgone : j ∉ w.cooling := fun hmem => hapart j hmem j hk rfl
      simp [hgone, hhanded.not_mem_erase]
    · simpa [hj, List.mem_erase_of_ne hj] using hmem
  · have hsub : (w.cooling ++ w.handed.erase k).Sublist (w.cooling ++ w.handed) :=
      List.erase_sublist.append_left _
    rw [hc, hh]
    exact h.nodup.sublist hsub

theorem Listed.read (h : w.Listed) (j : Nat) (m : Session.Moment) (letter : Missive)
    (rest : List Missive) : ((w.withMail j rest).onLetter c j m letter).Listed := by
  cases letter <;> exact h.of_eq rfl rfl rfl

/-- Every move keeps the list. -/
theorem Listed.moved (h : w.Listed) {move : Move} (hm : Moved c w move v) : v.Listed := by
  have hskip : ∀ n, (w.skip n).Listed := fun _ => h.of_eq rfl rfl rfl
  have hless : w.answerless.Listed := h.of_eq rfl rfl rfl
  cases hm with
  | nothing => exact h
  | post j i => exact h.of_eq rfl rfl rfl
  | read j m _ => exact h.read ..
  | hear _ _ => exact (hskip 1).learn _
  | ignore n _ => exact hskip n
  | miss n _ => exact (hskip n).askFrom 0
  | @answered j cause _ _ =>
    cases cause with
    | none => exact hless.askFrom _
    | some cause => exact (hless.blame _ _).askFrom _
  | due j hj => exact h.due hj
  | strike j hj => exact h.strike hj rfl rfl rfl

/-! ## The shard that is asked -/

/-- The supervisor asks only shards that are not listed. -/
def AsksUnlisted (w : Ward) : Prop :=
  ∀ j, w.supervisor.asked = some j → j ∉ w.supervisor.restarting

/-- After a shard, the next one is asked that is not listed. -/
theorem asked_askFrom (w : Ward) (first : Nat) :
    (w.askFrom first).supervisor.asked =
      (List.range' first (w.supervisor.shards - first)).find? (· ∉ w.supervisor.restarting) := by
  unfold Ward.askFrom Supervisor.askFrom
  split
  case h_1 j hj => exact hj.symm
  case h_2 hnone => exact hnone.symm

@[simp] theorem listed_askFrom (w : Ward) (first : Nat) :
    (w.askFrom first).supervisor.restarting = w.supervisor.restarting := by
  rcases askFrom_cases w first with he | ⟨j, he⟩ <;> rw [he] <;> rfl

theorem asksUnlisted_askFrom (w : Ward) (first : Nat) : (w.askFrom first).AsksUnlisted := by
  intro j hj
  rw [asked_askFrom, List.find?_range'_eq_some] at hj
  simpa using hj.1

/-- The supervisor asks a shard, or one before it, or it is listed. -/
theorem mem_of_passed {first : Nat} (hle : first ≤ k) (hlt : k < w.supervisor.shards)
    (hpassed : (w.askFrom first).supervisor.asked.all (k < ·) = true) :
    k ∈ w.supervisor.restarting := by
  rw [asked_askFrom] at hpassed
  cases hfind : (List.range' first (w.supervisor.shards - first)).find?
      (· ∉ w.supervisor.restarting) with
  | none =>
    rw [List.find?_range'_eq_none] at hfind
    simpa using hfind k hle (by omega)
  | some j =>
    have hkj : k < j := by
      rw [hfind] at hpassed
      simpa using hpassed
    rw [List.find?_range'_eq_some] at hfind
    simpa using hfind.2.2 k hle hkj

theorem questions_pos_of_asked {first : Nat}
    (h : (w.askFrom first).supervisor.asked = some k) : 0 < (w.askFrom first).questions k := by
  rcases askFrom_cases w first with he | ⟨j, he⟩
  · rw [he] at h
    simp [waitFor] at h
  · rw [he] at h ⊢
    obtain rfl : j = k := by simpa [deliver, withMail, waitFor] using h
    simp [questions_deliver, isQuestion]

/-! ## Why a failure is not lost -/

/-- Why the failure of a shard is not lost: a restart is on its way, the supervisor has still to
hear of it, or it asks the shards and has yet to come to this one or to hear its answer. -/
inductive Noted (w : Ward) (k : Nat) : Prop where
  | repair (h : w.hasRepair k = true)
  | unheard {n : Notice} (hn : n ∈ w.unread) (ht : tells k n = true)
  | ahead {j : Nat} (hj : w.supervisor.asked = some j) (hlt : j < k)
  | asked (hk : w.supervisor.asked = some k) (hq : 0 < w.questions k)
  | answer (hk : w.supervisor.asked = some k) (ha : w.answer.any allows = true)

theorem Noted.mono (h : w.Noted k) (hr : w.hasRepair k = true → v.hasRepair k = true)
    (hu : ∀ n ∈ w.unread, n ∈ v.unread) (ha : v.supervisor.asked = w.supervisor.asked)
    (hq : 0 < w.questions k → 0 < v.questions k)
    (hanswer : w.supervisor.asked = some k → w.answer.any allows = true →
      v.answer.any allows = true) : v.Noted k := by
  cases h with
  | repair h => exact .repair (hr h)
  | unheard hn ht => exact .unheard (hu _ hn) ht
  | ahead hj hlt => exact .ahead (ha ▸ hj) hlt
  | asked hk hpos => exact .asked (ha ▸ hk) (hq hpos)
  | answer hk h => exact .answer (ha ▸ hk) (hanswer hk h)

theorem hasRepair_of_imp (h : w.hasRepair k = true) (hc : k ∈ w.cooling → k ∈ v.cooling)
    (hm : ∀ l ∈ w.mail k, isOrder l = true → l ∈ v.mail k) : v.hasRepair k = true := by
  rw [hasRepair_iff] at h ⊢
  rcases h with h | ⟨l, hl, ho⟩
  · exact .inl (hc h)
  · exact .inr ⟨l, hm l hl ho, ho⟩

theorem mem_deliver {l : Missive} (h : l ∈ w.mail k) (j : Nat) (letter : Missive) :
    l ∈ (w.deliver j letter).mail k := by
  by_cases hj : j = k
  · subst hj
    simp [deliver, withMail, h]
  · simpa [deliver, withMail, Function.update_of_ne (Ne.symm hj)] using h

theorem hasRepair_deliver (h : w.hasRepair k = true) (j : Nat) (letter : Missive) :
    (w.deliver j letter).hasRepair k = true :=
  hasRepair_of_imp h id fun _ hl _ => mem_deliver hl j letter

theorem hasRepair_askFrom (h : w.hasRepair k = true) (first : Nat) :
    (w.askFrom first).hasRepair k = true := by
  rcases askFrom_cases w first with he | ⟨j, he⟩
  · rw [he]
    exact h
  · rw [he]
    exact hasRepair_deliver (w := w.waitFor (some j)) h j .question

theorem hasRepair_blame (h : w.hasRepair k = true) (j : Nat) (authentication : Bool) :
    (w.blame j authentication).hasRepair k = true := by
  unfold Ward.blame
  split
  · exact hasRepair_of_imp h (List.mem_append_left _) fun _ hl _ => hl
  · exact h

/-- A failure that may be repaired draws a restart, unless the shard is listed. -/
theorem hasRepair_of_blame (h : k ∈ w.supervisor.restarting → w.hasRepair k = true)
    (hp : w.supervisor.policy = .restart) (hk : k < w.supervisor.shards) :
    (w.blame k false).hasRepair k = true := by
  by_cases hl : k ∈ w.supervisor.restarting
  · exact hasRepair_blame (h hl) k false
  · have hwants : w.supervisor.wantsRestart k false = true := wantsRestart_iff.mpr ⟨rfl, hp, hk, hl⟩
    simp [Ward.blame, hwants, hasRepair]

theorem Noted.deliver (h : w.Noted k) (j : Nat) (letter : Missive) :
    (w.deliver j letter).Noted k := by
  refine h.mono (fun h => hasRepair_deliver h j letter) (fun _ => id) rfl (fun hq => ?_)
    (fun _ => id)
  rw [questions_deliver]
  omega

/-- While the supervisor asks one shard after the other, it comes to this one, if a restart is not
under way already. -/
theorem noted_askFrom {first : Nat} (hle : first ≤ k) (hlt : k < w.supervisor.shards)
    (hr : (w.askFrom first).supervisor.asked.all (k < ·) = true → k ∈ w.supervisor.restarting →
      w.hasRepair k = true) : (w.askFrom first).Noted k := by
  by_cases hpassed : (w.askFrom first).supervisor.asked.all (k < ·) = true
  · exact .repair (hasRepair_askFrom (hr hpassed (mem_of_passed hle hlt hpassed)) first)
  · cases hasked : (w.askFrom first).supervisor.asked with
    | none => simp [hasked] at hpassed
    | some j =>
      have hjk : j ≤ k := by simpa [hasked] using hpassed
      rcases Nat.lt_or_eq_of_le hjk with hlt | rfl
      · exact .ahead hasked hlt
      · exact .asked hasked (questions_pos_of_asked hasked)

/-! ## What the shards do -/

theorem hasRepair_read {j : Nat} {letter : Missive} {rest : List Missive}
    (hmail : w.mail j = letter :: rest) (hl : j ≠ k ∨ isOrder letter = false)
    (h : w.hasRepair k = true) : (w.withMail j rest).hasRepair k = true := by
  refine hasRepair_of_imp h id fun l hmem ho => ?_
  by_cases hj : j = k
  · subst hj
    have hne : l ≠ letter := by
      rintro rfl
      simp [ho] at hl
    have hrest : l ∈ rest := (List.mem_cons.mp (hmail ▸ hmem)).resolve_left hne
    simpa [withMail] using hrest
  · simpa [withMail, Function.update_of_ne (Ne.symm hj)] using hmem

/-- A letter that is no order and no question leaves what was noted. -/
theorem Noted.withMail (h : w.Noted k) {j : Nat} {letter : Missive} {rest : List Missive}
    (hmail : w.mail j = letter :: rest)
    (hl : j ≠ k ∨ isOrder letter = false ∧ isQuestion letter = false) :
    (w.withMail j rest).Noted k := by
  refine h.mono (hasRepair_read hmail (hl.imp_right (·.1))) (fun _ => id) rfl (fun hq => ?_)
    (fun _ => id)
  rw [questions_withMail w hmail k, if_neg] at hq
  · exact hq
  · rintro ⟨rfl, hquestion⟩
    simp [hquestion] at hl

theorem Noted.handle (h : w.Noted k) (j : Nat) (m : Session.Moment) (i : Session.Input) :
    (w.handle c j m i).Noted k :=
  h.mono id (fun _ => List.mem_append_left _) rfl id (fun _ => id)

/-- A shard that has failed after an input told so, or had failed before and was not restarted. -/
theorem noted_handle {m : Session.Moment} {i : Session.Input}
    (hf : ((w.handle c k m i).sessions k).Failed)
    (h : (w.sessions k).Failed → i ≠ .restart → w.Noted k) : (w.handle c k m i).Noted k := by
  have hsession : (w.handle c k m i).sessions k = (Session.step c (w.sessions k) m i).1 :=
    Function.update_self ..
  rw [hsession] at hf
  rcases Session.failed_of_happens (Session.happens_step ..) hf with ⟨cause, hmem, hauth⟩ | ⟨hw, hi⟩
  · refine .unheard (n := ⟨k, .fatal cause.reason false⟩) ?_ (tells_iff.mpr ⟨_, rfl⟩)
    refine List.mem_append_right _ (mem_notices.mpr ⟨rfl, ?_⟩)
    exact hauth ▸ Session.mem_failures.mp hmem
  · exact (h hw hi).handle k m i

theorem noted_read (ha : w.Asking) {j : Nat} {letter : Missive} {rest : List Missive}
    (hmail : w.mail j = letter :: rest) (m : Session.Moment)
    (h : (w.sessions k).Failed → w.Noted k)
    (hf : (((w.withMail j rest).onLetter c j m letter).sessions k).Failed) :
    ((w.withMail j rest).onLetter c j m letter).Noted k := by
  by_cases hj : j = k
  · subst hj
    cases letter with
    | input i =>
      exact noted_handle hf fun hw _ => (h hw).withMail hmail (.inr ⟨rfl, rfl⟩)
    | order => exact noted_handle hf fun _ hi => absurd rfl hi
    | question =>
      -- The answer tells of the failure.
      have hasked : w.supervisor.asked = some j :=
        (ha.out j (by simp [questions, hmail, isQuestion])).1
      obtain ⟨-, cause, hcause, hauth⟩ := hf
      refine .answer hasked ?_
      have hcause' : (w.sessions j).fatal = some cause := hcause
      simp [onLetter, Ward.withMail, hcause', allows, hauth]
  · have hwith : (w.sessions k).Failed → (w.withMail j rest).Noted k :=
      fun hw => (h hw).withMail hmail (.inl hj)
    have hsession : ((w.withMail j rest).onLetter c j m letter).sessions k = w.sessions k := by
      cases letter with
      | question => rfl
      | _ => exact Function.update_of_ne (Ne.symm hj) _ _
    rw [hsession] at hf
    cases letter with
    | input i => exact (hwith hf).handle j m i
    | order => exact (hwith hf).handle j m .restart
    | question =>
      have hasked : w.supervisor.asked = some j :=
        (ha.out j (by simp [questions, hmail, isQuestion])).1
      refine (hwith hf).mono id (fun _ => id) rfl id fun hk _ => ?_
      exact absurd (Option.some.inj (hasked.symm.trans hk)) hj

/-! ## What the supervisor does -/

theorem Noted.blame (h : w.Noted k) (j : Nat) (authentication : Bool) :
    (w.blame j authentication).Noted k := by
  refine h.mono (fun h => hasRepair_blame h j authentication) (fun n hn => ?_) (by simp) (by simp)
    (by simp)
  unfold Ward.blame
  split <;> exact hn

theorem Noted.learn (h : w.Noted k) (n : Notice) : (w.learn n).Noted k := by
  unfold Ward.learn
  split
  · exact h.blame _ _
  · exact h

/-- What is still to be noted after the next notice, if it does not tell of the shard. -/
theorem Noted.skip (h : w.Noted k) {n : Notice} {rest : List Notice} (hu : w.unread = n :: rest) :
    tells k n = true ∨ (w.skip 1).Noted k := by
  cases h with
  | repair h => exact .inr (.repair h)
  | @unheard n' hn ht =>
    rcases List.mem_cons.mp (hu ▸ hn) with rfl | hn
    · exact .inl ht
    · exact .inr (.unheard (by simpa [Ward.skip, hu] using hn) ht)
  | ahead hj hlt => exact .inr (.ahead hj hlt)
  | asked hk hq => exact .inr (.asked hk hq)
  | answer hk ha => exact .inr (.answer hk ha)

theorem learn_of_tells {n : Notice} (h : tells k n = true) : w.learn n = w.blame k false := by
  obtain ⟨reason, rfl⟩ := tells_iff.mp h
  rfl

theorem serves_blame (h : w.Serves c) (j : Nat) (authentication : Bool) :
    (w.blame j authentication).Serves c := by
  unfold Ward.blame
  split
  · exact h.of_eq rfl rfl
  · exact h

theorem serves_askFrom (h : w.Serves c) (first : Nat) : (w.askFrom first).Serves c := by
  rcases askFrom_cases w first with he | ⟨j, he⟩ <;> rw [he] <;> exact h.of_eq rfl rfl

theorem serves_moved (h : w.Serves c) {move : Move} (hm : Moved c w move v) : v.Serves c := by
  cases hm with
  | @read _ _ letter _ _ => cases letter <;> exact h.of_eq rfl rfl
  | hear _ _ =>
    have hskip : (w.skip 1).Serves c := h.of_eq rfl rfl
    unfold Ward.learn
    split
    · exact serves_blame hskip _ _
    · exact hskip
  | miss n _ => exact serves_askFrom (w := w.skip n) (h.of_eq rfl rfl) 0
  | @answered j cause _ _ =>
    have hless : w.answerless.Serves c := h.of_eq rfl rfl
    cases cause with
    | none => exact serves_askFrom hless _
    | some cause => exact serves_askFrom (serves_blame hless _ _) _
  | _ => exact h.of_eq rfl rfl

theorem AsksUnlisted.moved (h : w.AsksUnlisted) {move : Move} (hm : Moved c w move v) :
    v.AsksUnlisted := by
  cases hm with
  | @read _ _ letter _ _ => cases letter <;> exact h
  | @hear n rest hasked _ =>
    have hnone : ((w.skip 1).learn n).supervisor.asked = none := by
      unfold Ward.learn
      split
      · exact (asked_blame ..).trans hasked
      · exact hasked
    exact fun j hj => absurd (hnone.symm.trans hj) (by simp)
  | miss n _ => exact asksUnlisted_askFrom _ _
  | answered _ _ => exact asksUnlisted_askFrom _ _
  | strike j _ => exact fun i hi hmem => h i hi (List.mem_of_mem_filter hmem)
  | _ => exact h

/-- A restart that is handed over is in the mailbox of its shard. -/
theorem Noted.due (h : w.Noted k) (j : Nat) : ((w.warmed j).deliver j .order).Noted k := by
  by_cases hj : j = k
  · subst hj
    refine .repair (hasRepair_iff.mpr (.inr ⟨.order, ?_, rfl⟩))
    simp [Ward.deliver, Ward.withMail]
  · have hwarmed : (w.warmed j).Noted k := by
      refine h.mono (fun hr => ?_) (fun _ => id) rfl id (fun _ => id)
      refine hasRepair_of_imp hr (fun hmem => ?_) fun _ hl _ => hl
      exact (List.mem_erase_of_ne (Ne.symm hj)).mpr hmem
    exact hwarmed.deliver j .order

/-- What is preserved of what the supervisor knows of a shard. -/
structure Minded (c : Config) (k : Nat) (w : Ward) : Prop where
  asking : w.Asking
  unlisted : w.AsksUnlisted
  serves : w.Serves c
  noted : (w.sessions k).Failed → w.Noted k

/-- The answer of a shard reaches the supervisor. -/
def answeredBy (w : Ward) (j : Nat) (cause : Option FatalCause) : Ward :=
  cause.elim w.answerless fun c => w.answerless.blame j c.authentication

theorem hasRepair_answeredBy (h : w.hasRepair k = true) (j : Nat) (cause : Option FatalCause) :
    (w.answeredBy j cause).hasRepair k = true := by
  cases cause with
  | none => exact h
  | some cause => exact hasRepair_blame (w := w.answerless) h j _

theorem unread_askFrom (w : Ward) (first : Nat) : (w.askFrom first).unread = w.unread := by
  rcases askFrom_cases w first with he | ⟨j, he⟩ <;> rw [he] <;> rfl

theorem unread_answeredBy (w : Ward) (j : Nat) (cause : Option FatalCause) :
    (w.answeredBy j cause).unread = w.unread := by
  cases cause with
  | none => rfl
  | some cause =>
    change (w.answerless.blame j _).unread = _
    unfold Ward.blame
    split <;> rfl

theorem listed_answeredBy {j : Nat} {cause : Option FatalCause}
    (h : k ∈ (w.answeredBy j cause).supervisor.restarting) :
    k ∈ w.supervisor.restarting ∨ k = j := by
  cases cause with
  | none => exact .inl h
  | some cause =>
    change k ∈ (w.answerless.blame j _).supervisor.restarting at h
    unfold Ward.blame at h
    split at h
    · exact (List.mem_append.mp h).imp_right List.mem_singleton.mp
    · exact .inl h

theorem serves_answeredBy (h : w.Serves c) (j : Nat) (cause : Option FatalCause) :
    (w.answeredBy j cause).Serves c := by
  have hless : w.answerless.Serves c := h.of_eq rfl rfl
  cases cause with
  | none => exact hless
  | some cause => exact serves_blame hless _ _

/-- After the answer of a shard, the supervisor comes to the next ones; the answer itself draws a
restart if it tells of a failure. -/
theorem noted_answered (h : Minded c k w) (hc : c.fatalRestart = .restart) (hk : k < c.shardCount)
    {j : Nat} {cause : Option FatalCause} (hasked : w.supervisor.asked = some j)
    (hanswer : w.answer = some cause) (hf : (w.sessions k).Failed)
    (hpassed : j < k →
      ((w.answeredBy j cause).askFrom (j + 1)).supervisor.asked.all (k < ·) = true →
        k ∈ w.supervisor.restarting → w.hasRepair k = true) :
    ((w.answeredBy j cause).askFrom (j + 1)).Noted k := by
  have hserves := serves_answeredBy h.serves j cause
  cases h.noted hf with
  | repair hr => exact .repair (hasRepair_askFrom (hasRepair_answeredBy hr j cause) _)
  | unheard hn ht =>
    refine .unheard ?_ ht
    rwa [unread_askFrom, unread_answeredBy]
  | @ahead i hi hlt =>
    obtain rfl : i = j := Option.some.inj (hi.symm.trans hasked)
    refine noted_askFrom hlt (hserves.shards ▸ hk) fun hgone hl => ?_
    have hl : k ∈ w.supervisor.restarting := (listed_answeredBy hl).resolve_right (by omega)
    exact hasRepair_answeredBy (hpassed hlt hgone hl) i cause
  | asked _ hq => simp [(h.asking.out k hq).2] at hanswer
  | answer hk' ha =>
    obtain rfl : k = j := Option.some.inj (hk'.symm.trans hasked)
    obtain ⟨cause, rfl, hauth⟩ : ∃ c, cause = some c ∧ c.authentication = false := by
      simpa [hanswer, allows_iff] using ha
    have hnew : k ∈ w.supervisor.restarting → w.hasRepair k = true :=
      fun hl => absurd hl (h.unlisted k hasked)
    have hrepair : (w.answerless.blame k false).hasRepair k = true :=
      hasRepair_of_blame hnew (h.serves.policy.trans hc) (h.serves.shards ▸ hk)
    exact .repair (hasRepair_askFrom (by simpa [answeredBy, hauth] using hrepair) _)

theorem noted_moved (h : Minded c k w) (hc : c.fatalRestart = .restart) (hk : k < c.shardCount)
    {move : Move} (hm : Moved c w move v) (hv : v = w.next c move)
    (hheeds : w.heeds c k move = true) (hf : (v.sessions k).Failed) : v.Noted k := by
  have hpolicy : w.supervisor.policy = .restart := h.serves.policy.trans hc
  have hshards : k < w.supervisor.shards := h.serves.shards ▸ hk
  -- But for its letters, the shard stays as it is.
  have hsame : (∀ m, move ≠ .read k m) → (w.sessions k).Failed :=
    fun hmove => sessions_moved hm hmove ▸ hf
  cases hm with
  | nothing => exact h.noted hf
  | post j i => exact (h.noted (hsame (by simp))).deliver j _
  | read j m hmail => exact noted_read h.asking hmail m h.noted hf
  | @hear n rest hasked hunread =>
    have hw := hsame (by simp)
    rcases (h.noted hw).skip hunread with ht | hnoted
    · have hconsiders : w.considers c k .hear = true := by simp [considers, hasked, hunread, ht]
      have hrepair := hasRepair_of_heeds hheeds hconsiders hw
      rw [learn_of_tells ht]
      exact .repair (hasRepair_of_blame (w := w.skip 1) hrepair hpolicy hshards)
    · exact hnoted.learn n
  | ignore n hp => simp [hpolicy] at hp
  | miss n hasked =>
    have hw := hsame (by simp)
    refine noted_askFrom (w := w.skip n) (Nat.zero_le k) hshards fun hpassed hl => ?_
    refine hasRepair_of_heeds (w := w) hheeds ?_ hw hl
    simp only [considers, ← hv, hasked, hpassed, Option.isNone_none, Bool.and_self]
  | @answered j cause hasked hanswer =>
    have hw := hsame (by simp)
    refine noted_answered h hc hk hasked hanswer hw fun hlt hpassed hl => ?_
    refine hasRepair_of_heeds (w := w) hheeds ?_ hw hl
    simpa [considers, ← hv, hasked, hlt, answeredBy] using hpassed
  | due j hj => exact (h.noted (hsame (by simp))).due j
  | strike j hj => exact (h.noted (hsame (by simp))).mono id (fun _ => id) rfl id (fun _ => id)

theorem Minded.moved (h : Minded c k w) (hc : c.fatalRestart = .restart) (hk : k < c.shardCount)
    {move : Move} (hheeds : w.heeds c k move = true) : Minded c k (w.next c move) := by
  have hm := moved_next (c := c) h.asking move
  exact ⟨h.asking.moved hm, h.unlisted.moved hm, serves_moved h.serves hm,
    noted_moved h hc hk hm rfl hheeds⟩

/-! ## Runs -/

theorem minded_run (h : Minded c k w) (hc : c.fatalRestart = .restart) (hk : k < c.shardCount)
    (moves : List Move) (hheeded : heeded c k w moves = true) : Minded c k (w.run c moves) := by
  induction moves generalizing w with
  | nil => exact h
  | cons move rest ih =>
    obtain ⟨hmove, hrest⟩ : w.heeds c k move = true ∧ heeded c k (w.next c move) rest = true := by
      simpa [heeded] using hheeded
    exact ih (h.moved hc hk hmove) hrest

theorem listed_run (ha : w.Asking) (h : w.Listed) (moves : List Move) :
    (w.run c moves).Listed := by
  induction moves generalizing w with
  | nil => exact h
  | cons move rest ih =>
    have hm := moved_next (c := c) ha move
    exact ih (ha.moved hm) (h.moved hm)

/-- Nobody is asked, and no restart is under way. -/
structure Fresh (c : Config) (w : Ward) : Prop where
  asking : w.Asking
  serves : w.Serves c
  idle : w.supervisor.asked = none
  unlisted : w.supervisor.restarting = []
  cooling : w.cooling = []
  handed : w.handed = []

theorem fresh_begin (c : Config) (now : Instant) : Fresh c (begin c now) :=
  ⟨asking_begin c now, ⟨rfl, rfl⟩, rfl, rfl, rfl, rfl⟩

theorem Fresh.next (h : Fresh c w) {move : Move} (hlocal : move.isLocal = true) :
    Fresh c (w.next c move) := by
  have hm := moved_next (c := c) h.asking move
  have hasking := h.asking.moved hm
  have hserves := serves_moved h.serves hm
  cases move with
  | post j i => exact ⟨hasking, hserves, h.idle, h.unlisted, h.cooling, h.handed⟩
  | read j m =>
    generalize w.next c (.read j m) = v at hm hasking hserves ⊢
    cases hm with
    | nothing => exact h
    | @read _ _ letter _ _ =>
      cases letter <;> exact ⟨hasking, hserves, h.idle, h.unlisted, h.cooling, h.handed⟩
  | _ => simp [Move.isLocal] at hlocal

theorem fresh_run (h : Fresh c w) (early : List Move) (hlocal : ∀ move ∈ early, move.isLocal) :
    Fresh c (w.run c early) := by
  induction early generalizing w with
  | nil => exact h
  | cons move rest ih =>
    exact ih (h.next (hlocal move List.mem_cons_self))
      fun move hmem => hlocal move (List.mem_cons_of_mem _ hmem)

theorem fresh_opening (c : Config) (now : Instant) (early : List Move) :
    Fresh c (opening c now early) := by
  have h := fresh_run (fresh_begin c now) (early.filter Move.isLocal)
    fun _ hmem => (List.mem_filter.mp hmem).2
  exact ⟨h.asking.of_eq (fun _ => rfl) rfl rfl, h.serves.of_eq rfl rfl, h.idle, h.unlisted,
    h.cooling, h.handed⟩

theorem Fresh.listed (h : Fresh c w) : w.Listed := by
  refine ⟨fun j => ?_, ?_⟩ <;> simp [h.unlisted, h.cooling, h.handed]

theorem Fresh.minded (h : Fresh c w) (hf : ¬(w.sessions k).Failed) : Minded c k w :=
  ⟨h.asking, fun j hj => by simp [h.idle] at hj, h.serves, fun hfailed => absurd hfailed hf⟩

/-- **Which failures are repaired**, in any order of notices, losses, answers, cooldowns, strikes
off the list and whatever else happens to the shards of a pool that has started.

The supervisor lists the shards whose restart cools down, or was handed over and is to be struck
off, and no shard has two restarts under way. When it has heard all notices and asked all shards, a
shard that failed for a cause that allows a restart has one on its way, unless it had failed at the
start already, or the supervisor came upon its failure while it was listed for a restart that was
carried out before. -/
theorem repair_of_run (c : Config) (hc : c.fatalRestart = .restart) (now : Instant)
    (early moves : List Move) :
    let start := opening c now early
    let w := start.run c moves
    (∀ k, k ∈ w.supervisor.restarting ↔ k ∈ w.cooling ++ w.handed) ∧
    (w.cooling ++ w.handed).Nodup ∧
    (w.supervisor.asked = none → w.unread = [] → ∀ k < c.shardCount, (w.sessions k).Failed →
      ¬(start.sessions k).Failed → heeded c k start moves = true → w.hasRepair k = true) := by
  intro start w
  have hfresh : Fresh c start := fresh_opening c now early
  have hlisted : w.Listed := listed_run hfresh.asking hfresh.listed moves
  refine ⟨hlisted.mem, hlisted.nodup, fun hidle hheard k hk hfailed hstart hheeded => ?_⟩
  cases (minded_run (hfresh.minded hstart) hc hk moves hheeded).noted hfailed with
  | repair h => exact h
  | unheard hn _ =>
    have hheard : (start.run c moves).unread = [] := hheard
    simp [hheard] at hn
  | ahead hasked _ => exact absurd (hidle.symm.trans hasked) (by simp)
  | asked hasked _ => exact absurd (hidle.symm.trans hasked) (by simp)
  | answer hasked _ => exact absurd (hidle.symm.trans hasked) (by simp)

/-- A shard connects again, and is told once more that it may not go on. -/
def refusedAgain : List Move :=
  arrives 0 (.inbound 2 .opened) ++ arrives 0 (.inbound 2 (.closed (some 4014) ""))

/-- The notices about a failure are missed, and it is repaired; the next one is heard when the
shard is off the list. -/
def failsTwice : List Move :=
  refused ++ [.miss 3, .read 0 still, .answered, .due 0, .read 0 still, .strike 0] ++
    refusedAgain ++ List.replicate 6 .hear

/-- Both failures are repaired. -/
theorem repair_of_run_twice :
    let w := (opening repaired 0 []).run repaired failsTwice
    repaired.fatalRestart = .restart ∧ w.supervisor.asked = none ∧ w.unread = [] ∧
      0 < repaired.shardCount ∧ (w.sessions 0).Failed ∧
      ¬((opening repaired 0 []).sessions 0).Failed ∧
      heeded repaired 0 (opening repaired 0 []) failsTwice = true ∧ w.hasRepair 0 = true := by
  have hidle : ((opening repaired 0 []).run repaired failsTwice).supervisor.asked = none := by
    decide +kernel
  have hheard : ((opening repaired 0 []).run repaired failsTwice).unread = [] := by
    decide +kernel
  have hfailed : (((opening repaired 0 []).run repaired failsTwice).sessions 0).Failed :=
    hasFailed_iff.mp (by decide +kernel)
  have hstart : ¬((opening repaired 0 []).sessions 0).Failed :=
    fun h => absurd (hasFailed_iff.mpr h) (by decide +kernel)
  have hheeded : heeded repaired 0 (opening repaired 0 []) failsTwice = true := by decide +kernel
  have hshards : 0 < repaired.shardCount := by decide
  obtain ⟨-, -, hrepair⟩ := repair_of_run repaired rfl 0 [] failsTwice
  exact ⟨rfl, hidle, hheard, hshards, hfailed, hstart, hheeded,
    hrepair hidle hheard 0 hshards hfailed hstart hheeded⟩

/-- A shard fails again after its restart, and the supervisor hears of it before it strikes the
shard off its list; or it failed before the start of the pool: nothing will restart it. -/
theorem repair_of_run_forgotten :
    let again := refused ++ List.replicate 3 .hear ++ [.due 0, .read 0 still] ++ refusedAgain ++
      List.replicate 6 .hear ++ [.strike 0]
    let v := (opening repaired 0 []).run repaired again
    let w := (opening repaired 0 refused).run repaired (arrives 0 .start)
    (v.supervisor.asked = none ∧ v.unread = [] ∧ v.hasFailed 0 = true ∧ v.hasRepair 0 = false) ∧
      w.supervisor.asked = none ∧ w.unread = [] ∧ w.hasFailed 0 = true ∧ w.hasRepair 0 = false := by
  decide +kernel

end Switchboard.Ward
