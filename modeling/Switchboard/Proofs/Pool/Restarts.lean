import Switchboard.Proofs.Pool.Ward

/-!
# What a restart by the supervisor finds

A restart is planned when the supervisor hears of a failure, and handed over later; the shard is not
looked at again. What happens to the shard in between decides what the restart finds.

## Main definitions

* `Ward.awaits`: something is on its way that may restart the shard.
* `Ward.spared`: nobody else gets the shard out of its failure while something is.

## Main results

* `Ward.restart_of_run`: what a restart by the supervisor finds.
-/
namespace Switchboard.Ward

/-! ## What is on its way -/

/-- The letter is a restart by the supervisor. -/
def isOrder : Missive → Bool
  | .order => true
  | _ => false

/-- The notice tells that the shard failed, and may be restarted. -/
def tells (k : Nat) (n : Notice) : Bool :=
  n.shard = k && match n.happening with
    | .fatal _ authentication => !authentication
    | _ => false

/-- The cause is there, and allows a restart. -/
def allows : Option FatalCause → Bool
  | some cause => !cause.authentication
  | none => false

/-- Something is on its way that may restart the shard: a notice or an answer that tells why it
failed, a restart that cools down, or one that was handed over. -/
def awaits (w : Ward) (k : Nat) : Bool :=
  k ∈ w.cooling || (w.mail k).any isOrder || w.unread.any (tells k) ||
    (w.supervisor.asked = some k && w.answer.any allows)

theorem awaits_iff {w : Ward} {k : Nat} : w.awaits k = true ↔
    k ∈ w.cooling ∨ (∃ l ∈ w.mail k, isOrder l = true) ∨ (∃ n ∈ w.unread, tells k n = true) ∨
      w.supervisor.asked = some k ∧ w.answer.any allows = true := by
  simp [awaits, or_assoc]

/-- The move does not disturb the shard: it does not end, nobody gets it out of its failure while
something else is on its way that may restart it, and it is not asked for the cause of a failure
when it was shut down after that. -/
def spares (k : Nat) (w : Ward) : Move → Bool
  | .read j _ =>
    j ≠ k || match w.mail k with
      | [] => true
      | .input .stop :: _ => false
      | .input i :: rest => !i.revives || !(w.withMail k rest).awaits k
      | .order :: rest => !(w.withMail k rest).awaits k
      | .question :: _ => (w.sessions k).fatal.isNone || (w.sessions k).phase = .fatal
  | _ => true

/-- No move disturbs the shard. -/
def spared (c : Config) (k : Nat) : Ward → List Move → Bool
  | _, [] => true
  | w, move :: rest => w.spares k move && spared c k (w.next c move) rest

variable {c : Config} {w : Ward} {k : Nat}

/-! ## What may restart a shard -/

theorem tells_iff {n : Notice} : tells k n = true ↔ ∃ reason, n = ⟨k, .fatal reason false⟩ := by
  obtain ⟨j, happening⟩ := n
  cases happening <;> simp [tells]

theorem allows_iff {cause? : Option FatalCause} :
    allows cause? = true ↔ ∃ cause, cause? = some cause ∧ cause.authentication = false := by
  cases cause? <;> simp [allows]

theorem mem_notices {n : Notice} {es : List Session.Effect} :
    n ∈ notices k es ↔ n.shard = k ∧ .announce n.happening ∈ es := by
  obtain ⟨j, happening⟩ := n
  simp only [notices, List.mem_filterMap]
  constructor
  · rintro ⟨x, hx, hn⟩
    cases x with
    | announce h =>
      obtain ⟨rfl, rfl⟩ := Notice.mk.inj (Option.some.inj hn)
      exact ⟨rfl, hx⟩
    | _ => simp at hn
  · rintro ⟨rfl, hx⟩
    exact ⟨_, hx, rfl⟩

theorem awaits_of_imp {v : Ward} (h : v.awaits k = true) (hcooling : k ∈ v.cooling → k ∈ w.cooling)
    (hmail : ∀ l ∈ v.mail k, l ∈ w.mail k) (hunread : ∀ n ∈ v.unread, n ∈ w.unread)
    (hanswer : v.supervisor.asked = some k ∧ v.answer.any allows = true →
      w.supervisor.asked = some k ∧ w.answer.any allows = true) : w.awaits k = true := by
  rw [awaits_iff] at h ⊢
  rcases h with h | ⟨l, hl, ho⟩ | ⟨n, hn, ht⟩ | h
  · exact .inl (hcooling h)
  · exact .inr (.inl ⟨l, hmail l hl, ho⟩)
  · exact .inr (.inr (.inl ⟨n, hunread n hn, ht⟩))
  · exact .inr (.inr (.inr (hanswer h)))

theorem awaits_skip {n : Nat} (h : (w.skip n).awaits k = true) : w.awaits k = true :=
  awaits_of_imp h id (fun _ => id) (fun _ => List.mem_of_mem_drop) id

theorem mem_mail_deliver {j : Nat} {letter l : Missive} (h : l ∈ (w.deliver j letter).mail k) :
    l ∈ w.mail k ∨ j = k ∧ l = letter := by
  by_cases hj : j = k
  · subst hj
    simpa [deliver, withMail] using h
  · left
    simpa [deliver, withMail, Function.update_of_ne (Ne.symm hj)] using h

theorem awaits_deliver {j : Nat} {letter : Missive} (h : (w.deliver j letter).awaits k = true) :
    w.awaits k = true ∨ j = k ∧ isOrder letter = true := by
  rw [awaits_iff] at h ⊢
  rcases h with h | ⟨l, hl, ho⟩ | h | h
  · exact .inl (.inl h)
  · rcases mem_mail_deliver hl with hl | ⟨rfl, rfl⟩
    · exact .inl (.inr (.inl ⟨l, hl, ho⟩))
    · exact .inr ⟨rfl, ho⟩
  · exact .inl (.inr (.inr (.inl h)))
  · exact .inl (.inr (.inr (.inr h)))

theorem awaits_blame {j : Nat} {authentication : Bool}
    (h : (w.blame j authentication).awaits k = true) :
    w.awaits k = true ∨ j = k ∧ authentication = false := by
  unfold blame at h
  split at h
  case isTrue hwants =>
    rw [awaits_iff] at h ⊢
    rcases h with h | h
    · rcases List.mem_append.mp h with h | h
      · exact .inl (.inl h)
      · have hauth : authentication = false := by
          simp only [Supervisor.wantsRestart, Bool.and_eq_true, Bool.not_eq_true'] at hwants
          exact hwants.1.1.1
        exact .inr ⟨(List.mem_singleton.mp h).symm, hauth⟩
    · exact .inl (.inr h)
  case isFalse => exact .inl h

theorem awaits_learn {n : Notice} (h : (w.learn n).awaits k = true) :
    w.awaits k = true ∨ tells k n = true := by
  unfold learn at h
  split at h
  case h_1 j reason authentication =>
    rcases awaits_blame h with h | ⟨rfl, rfl⟩
    · exact .inl h
    · exact .inr (tells_iff.mpr ⟨reason, rfl⟩)
  case h_2 => exact .inl h

theorem awaits_askFrom {first : Nat} (hanswer : w.answer = none)
    (h : (w.askFrom first).awaits k = true) : w.awaits k = true := by
  have hwait : ∀ {asked}, (w.waitFor asked).awaits k = true → w.awaits k = true := fun h =>
    awaits_of_imp h id (fun _ => id) (fun _ => id) (by simp [waitFor, hanswer])
  rcases askFrom_cases w first with he | ⟨j, he⟩
  · exact hwait (he ▸ h)
  · rw [he] at h
    rcases awaits_deliver h with h | ⟨-, ho⟩
    · exact hwait h
    · simp [isOrder] at ho

/-- What a session does adds to what may restart its shard only a failure. -/
theorem awaits_handle {m : Session.Moment} {i : Session.Input} {j : Nat}
    (h : (w.handle c j m i).awaits k = true) :
    w.awaits k = true ∨
      ∃ n ∈ notices j (Session.step c (w.sessions j) m i).2, tells k n = true := by
  rw [awaits_iff] at h ⊢
  rcases h with h | h | ⟨n, hn, ht⟩ | h
  · exact .inl (.inl h)
  · exact .inl (.inr (.inl h))
  · rcases List.mem_append.mp hn with hn | hn
    · exact .inl (.inr (.inr (.inl ⟨n, hn, ht⟩)))
    · exact .inr ⟨n, hn, ht⟩
  · exact .inl (.inr (.inr (.inr h)))

/-- The answer of a shard may restart it if its session keeps a cause that allows that. -/
theorem awaits_question {j : Nat} {m : Session.Moment}
    (h : (w.onLetter c j m .question).awaits k = true) :
    w.awaits k = true ∨
      ∃ cause, (w.sessions j).fatal = some cause ∧ cause.authentication = false := by
  rw [awaits_iff] at h ⊢
  rcases h with h | h | h | ⟨-, ha⟩
  · exact .inl (.inl h)
  · exact .inl (.inr (.inl h))
  · exact .inl (.inr (.inr (.inl h)))
  · exact .inr (allows_iff.mp (by simpa [onLetter] using ha))

theorem awaits_of_withMail {letter : Missive} {rest : List Missive}
    (hmail : w.mail k = letter :: rest) (h : (w.withMail k rest).awaits k = true) :
    w.awaits k = true := by
  refine awaits_of_imp h id (fun l hl => ?_) (fun _ => id) id
  have hl' : l ∈ rest := by simpa [withMail] using hl
  exact hmail ▸ List.mem_cons_of_mem _ hl'

/-! ## Moves elsewhere -/

/-- What another shard reads adds nothing to what may restart this one. -/
theorem awaits_read_other (h : w.Asking) {j : Nat} {letter : Missive} {rest : List Missive}
    (hmail : w.mail j = letter :: rest) (hj : j ≠ k) {m : Session.Moment}
    (hv : ((w.withMail j rest).onLetter c j m letter).awaits k = true) : w.awaits k = true := by
  have hless : (w.withMail j rest).awaits k = true → w.awaits k = true := fun hw =>
    awaits_of_imp hw id (by simp [withMail, Function.update_of_ne (Ne.symm hj)]) (fun _ => id) id
  have hinput : ∀ i, ((w.withMail j rest).handle c j m i).awaits k = true → w.awaits k = true := by
    intro i hw
    rcases awaits_handle hw with hw | ⟨n, hn, ht⟩
    · exact hless hw
    · obtain ⟨reason, rfl⟩ := tells_iff.mp ht
      exact absurd (mem_notices.mp hn).1.symm hj
  cases letter with
  | input i => exact hinput i hv
  | order => exact hinput .restart hv
  | question =>
    have hasked : w.supervisor.asked = some j := by
      refine (h.out j ?_).1
      simp [questions, hmail, isQuestion]
    refine hless (awaits_of_imp hv id (fun _ => id) (fun _ => id) fun hk => ?_)
    exact absurd (Option.some.inj (hasked.symm.trans hk.1)) hj

/-- What may restart a shard comes of what the shard itself does. -/
theorem awaits_moved (h : w.Asking) {move : Move} {v : Ward} (hm : Moved c w move v)
    (hmove : ∀ m, move ≠ .read k m) (hv : v.awaits k = true) : w.awaits k = true := by
  cases hm with
  | nothing => exact hv
  | post j i =>
    rcases awaits_deliver hv with hw | ⟨-, ho⟩
    · exact hw
    · simp [isOrder] at ho
  | read j m hmail =>
    have hj : j ≠ k := fun hj => hmove m (by rw [hj])
    exact awaits_read_other h hmail hj hv
  | @hear n rest _ hunread =>
    rcases awaits_learn hv with hw | ht
    · exact awaits_skip hw
    · have hn : n ∈ w.unread := hunread ▸ List.mem_cons_self
      exact awaits_iff.mpr (.inr (.inr (.inl ⟨n, hn, ht⟩)))
  | ignore n _ => exact awaits_skip hv
  | miss n hasked => exact awaits_skip (awaits_askFrom (h.idle hasked) hv)
  | @answered j cause hasked hanswer =>
    have hless : w.answerless.awaits k = true → w.awaits k = true := fun hw =>
      awaits_of_imp hw id (fun _ => id) (fun _ => id) (by simp [answerless])
    cases cause with
    | none => exact hless (awaits_askFrom rfl hv)
    | some cause =>
      rcases awaits_blame (awaits_askFrom (by simp [answerless]) hv) with hw | ⟨rfl, hauth⟩
      · exact hless hw
      · exact awaits_iff.mpr (.inr (.inr (.inr ⟨hasked, by simp [hanswer, allows, hauth]⟩)))
  | due j hj =>
    rcases awaits_deliver hv with hw | ⟨rfl, -⟩
    · exact awaits_of_imp hw List.mem_of_mem_erase (fun _ => id) (fun _ => id) id
    · exact awaits_iff.mpr (.inl hj)
  | strike j _ => exact awaits_of_imp hv id (fun _ => id) (fun _ => id) id

/-! ## The shard itself -/

/-- A step of a session that tells of a failure which may be repaired leaves the session failed. -/
theorem failed_of_tells {m : Session.Moment} {i : Session.Input} {s : Session} {n : Notice}
    (hn : n ∈ notices k (Session.step c s m i).2) (ht : tells k n = true) :
    (Session.step c s m i).1.Failed := by
  obtain ⟨reason, rfl⟩ := tells_iff.mp ht
  have htold : ⟨reason, false⟩ ∈ Session.failures (Session.step c s m i).2 :=
    List.mem_filterMap.mpr ⟨_, (mem_notices.mp hn).2, rfl⟩
  cases Session.blames_happens (Session.happens_step c s m i) with
  | none _ hnone => simp [hnone] at htold
  | fail cause hp hf hone =>
    obtain rfl : ⟨reason, false⟩ = cause := by simpa [hone] using htold
    exact ⟨hp, _, hf, rfl⟩

/-- What the supervisor relies on: the session goes on, and it failed if something is on its way
that may restart it. -/
structure Safe (k : Nat) (w : Ward) : Prop where
  coupled : (w.sessions k).Coupled
  failed : w.awaits k = true → (w.sessions k).Failed

theorem safe_begin (c : Config) (now : Instant) (k : Nat) : Safe k (begin c now) :=
  ⟨Session.coupled_new _ _ _, fun h => by simp [awaits, begin] at h⟩

theorem Safe.handle (hs : (w.sessions k).Coupled) (m : Session.Moment) {i : Session.Input}
    (hi : i ≠ .stop) (hw : w.awaits k = true → (w.sessions k).Failed ∧ i.revives = false) :
    Safe k (w.handle c k m i) := by
  have hsession : (w.handle c k m i).sessions k = (Session.step c (w.sessions k) m i).1 :=
    Function.update_self ..
  constructor
  · rw [hsession]
    exact Session.coupled_happens hi (Session.happens_step ..) hs
  · intro ha
    rw [hsession]
    rcases awaits_handle ha with ha | ⟨n, hn, ht⟩
    · obtain ⟨hfailed, hrevives⟩ := hw ha
      exact hfailed.step hs hrevives
    · exact failed_of_tells hn ht

theorem spares_input {m : Session.Moment} {i : Session.Input} {rest : List Missive}
    (hmail : w.mail k = .input i :: rest) (h : w.spares k (.read k m) = true) :
    i ≠ .stop ∧ ((w.withMail k rest).awaits k = true → i.revives = false) := by
  cases i <;> simp_all [spares, Session.Input.revives]

theorem Safe.read (h : Safe k w) {letter : Missive} {rest : List Missive}
    (hmail : w.mail k = letter :: rest) (m : Session.Moment)
    (hspares : w.spares k (.read k m) = true) :
    Safe k ((w.withMail k rest).onLetter c k m letter) := by
  have hless := awaits_of_withMail hmail
  cases letter with
  | input i =>
    obtain ⟨hstop, hrevives⟩ := spares_input hmail hspares
    exact Safe.handle (w := w.withMail k rest) h.coupled m hstop fun ha =>
      ⟨h.failed (hless ha), hrevives ha⟩
  | order =>
    have hnothing : (w.withMail k rest).awaits k = false := by
      simpa [spares, hmail] using hspares
    exact Safe.handle (w := w.withMail k rest) h.coupled m (by simp) (by simp [hnothing])
  | question =>
    refine ⟨h.coupled, fun ha => ?_⟩
    rcases awaits_question ha with ha | ⟨cause, (hcause : (w.sessions k).fatal = some cause), hauth⟩
    · exact h.failed (hless ha)
    · have hphase : (w.sessions k).phase = .fatal := by
        simpa [spares, hmail, hcause] using hspares
      exact ⟨hphase, cause, hcause, hauth⟩

theorem Safe.moved (h : Safe k w) (ha : w.Asking) {move : Move} {v : Ward}
    (hm : Moved c w move v) (hspares : w.spares k move = true) : Safe k v := by
  by_cases hmove : ∃ m, move = .read k m
  · obtain ⟨m, rfl⟩ := hmove
    cases hm with
    | nothing => exact h
    | read _ _ hmail => exact h.read hmail m hspares
  · have hmove : ∀ m, move ≠ .read k m := fun m hm => hmove ⟨m, hm⟩
    have hsession := sessions_moved hm hmove
    exact ⟨hsession ▸ h.coupled, fun hv => hsession ▸ h.failed (awaits_moved ha hm hmove hv)⟩

/-! ## What was told -/

/-- Whatever may restart a shard comes from a failure that was told. -/
structure Told (k : Nat) (w : Ward) : Prop where
  cause : ∀ cause, (w.sessions k).fatal = some cause →
    ⟨k, .fatal cause.reason cause.authentication⟩ ∈ w.announced
  awaits : w.awaits k = true → ∃ reason, ⟨k, .fatal reason false⟩ ∈ w.announced

theorem told_begin (c : Config) (now : Instant) (k : Nat) : Told k (begin c now) :=
  ⟨fun cause h => by simp [begin, Session.new] at h, fun h => by simp [Ward.awaits, begin] at h⟩

theorem Told.handle (h : Told k w) (m : Session.Moment) (i : Session.Input) :
    Told k (w.handle c k m i) := by
  have hsession : (w.handle c k m i).sessions k = (Session.step c (w.sessions k) m i).1 :=
    Function.update_self ..
  have hannounced : (w.handle c k m i).announced =
      w.announced ++ notices k (Session.step c (w.sessions k) m i).2 := rfl
  constructor
  · intro cause hcause
    rw [hsession] at hcause
    rw [hannounced, List.mem_append]
    cases Session.blames_happens (Session.happens_step c (w.sessions k) m i) with
    | none hf _ =>
      rcases hf with hf | hf
      · exact .inl (h.cause cause (hf ▸ hcause))
      · simp [hf] at hcause
    | fail cause' _ hf hone =>
      obtain rfl : cause' = cause := Option.some.inj (hf.symm.trans hcause)
      refine .inr (mem_notices.mpr ⟨rfl, ?_⟩)
      have hmem : cause' ∈ Session.failures (Session.step c (w.sessions k) m i).2 := by
        simp [hone]
      exact Session.mem_failures.mp hmem
  · intro ha
    rw [hannounced]
    rcases awaits_handle ha with ha | ⟨n, hn, ht⟩
    · obtain ⟨reason, hmem⟩ := h.awaits ha
      exact ⟨reason, List.mem_append_left _ hmem⟩
    · obtain ⟨reason, rfl⟩ := tells_iff.mp ht
      exact ⟨reason, List.mem_append_right _ hn⟩

theorem Told.read (h : Told k w) {letter : Missive} {rest : List Missive}
    (hmail : w.mail k = letter :: rest) (m : Session.Moment) :
    Told k ((w.withMail k rest).onLetter c k m letter) := by
  have hrest : Told k (w.withMail k rest) :=
    ⟨h.cause, fun ha => h.awaits (awaits_of_withMail hmail ha)⟩
  cases letter with
  | input i => exact hrest.handle m i
  | order => exact hrest.handle m .restart
  | question =>
    refine ⟨h.cause, fun ha => ?_⟩
    rcases awaits_question ha with ha | ⟨cause, hcause, hauth⟩
    · exact hrest.awaits ha
    · exact ⟨cause.reason, hauth ▸ h.cause cause hcause⟩

theorem Told.moved (h : Told k w) (ha : w.Asking) {move : Move} {v : Ward}
    (hm : Moved c w move v) : Told k v := by
  by_cases hmove : ∃ m, move = .read k m
  · obtain ⟨m, rfl⟩ := hmove
    cases hm with
    | nothing => exact h
    | read _ _ hmail => exact h.read hmail m
  · have hmove : ∀ m, move ≠ .read k m := fun m hm => hmove ⟨m, hm⟩
    have hannounced := announced_moved hm
    refine ⟨fun cause hcause => ?_, fun hv => ?_⟩
    · rw [sessions_moved hm hmove] at hcause
      exact hannounced (h.cause cause hcause)
    · obtain ⟨reason, hmem⟩ := h.awaits (awaits_moved ha hm hmove hv)
      exact ⟨reason, hannounced hmem⟩

/-! ## Runs -/

theorem told_run (ha : w.Asking) (h : Told k w) (moves : List Move) :
    Told k (w.run c moves) := by
  induction moves generalizing w with
  | nil => exact h
  | cons move rest ih =>
    have hm := moved_next (c := c) ha move
    exact ih (ha.moved hm) (h.moved ha hm)

theorem safe_run (ha : w.Asking) (h : Safe k w) (moves : List Move)
    (hs : spared c k w moves = true) : Safe k (w.run c moves) := by
  induction moves generalizing w with
  | nil => exact h
  | cons move rest ih =>
    have hm := moved_next (c := c) ha move
    obtain ⟨hmove, hrest⟩ : w.spares k move = true ∧ spared c k (w.next c move) rest = true := by
      simpa [spared] using hs
    exact ih (ha.moved hm) (h.moved ha hm hmove) hrest

/-- **What a restart by the supervisor finds**, in any order of notices, losses, answers, cooldowns
and whatever else happens to the shards.

When a shard reads it, the shard has told of a failure that may be repaired. If nobody else got the
shard out of its failure while something was on its way that may restart it, then it is still
failed, for a cause that allows a restart, and it has no connection. -/
theorem restart_of_run (c : Config) (now : Instant) (k : Nat) (moves : List Move) :
    let w := (begin c now).run c moves
    (w.mail k).head?.any isOrder = true →
      (∃ reason, ⟨k, .fatal reason false⟩ ∈ w.announced) ∧
      (spared c k (begin c now) moves = true →
        (w.sessions k).Failed ∧ (w.sessions k).connection = none ∧
          (w.sessions k).link.current = none) := by
  intro w hnext
  have hawaits : w.awaits k = true := by
    obtain ⟨letter, hhead, ho⟩ := (Option.any_eq_true ..).mp hnext
    exact awaits_iff.mpr (.inr (.inl ⟨letter, List.mem_of_head? hhead, ho⟩))
  refine ⟨(told_run (asking_begin c now) (told_begin c now k) moves).awaits hawaits, fun hs => ?_⟩
  have hsafe : Safe k w := safe_run (asking_begin c now) (safe_begin c now k) moves hs
  have hfailed := hsafe.failed hawaits
  have hrest := hsafe.coupled.atRest (.inr hfailed.1)
  exact ⟨hfailed, hrest.connection, hrest.current⟩

/-- Surroundings in which everything works. -/
def still : Session.Moment := ⟨0, true, .ok (), 0⟩

/-- The pool of one shard that is restarted when it failed. -/
def repaired : Config := { fatalRestart := .restart }

/-- News reach a shard, and it reads them. -/
def arrives (k : Nat) (i : Session.Input) : List Move := [.post k i, .read k still]

/-- A shard opens its first connection, and is told that it may not go on. -/
def refused : List Move :=
  arrives 0 .start ++ arrives 0 (.inbound 1 .opened) ++
    arrives 0 (.inbound 1 (.closed (some 4014) ""))

/-- The supervisor misses the notices about the failure, asks for the cause, and restarts the shard
after the cooldown: it is still failed. -/
theorem restart_of_run_missed :
    let moves := refused ++ [.miss 3, .read 0 still, .answered, .due 0]
    let w := (begin repaired 0).run repaired moves
    (w.mail 0).head?.any isOrder = true ∧ spared repaired 0 (begin repaired 0) moves = true ∧
      (w.sessions 0).Failed ∧ (w.sessions 0).link.current = none := by
  intro moves w
  have hnext : (w.mail 0).head?.any isOrder = true := by decide +kernel
  have hspared : spared repaired 0 (begin repaired 0) moves = true := by decide +kernel
  obtain ⟨-, hsafe⟩ := restart_of_run repaired 0 0 moves hnext
  obtain ⟨hfailed, -, hcurrent⟩ := hsafe hspared
  exact ⟨hnext, hspared, hfailed, hcurrent⟩

/-- A shard that its owner restarts during the cooldown is restarted by the supervisor as well, even
if its credentials were rejected since, or it is connected. -/
theorem restart_of_run_overtaken :
    let heard := refused ++ [.hear, .hear, .hear] ++ arrives 0 .restart ++
      arrives 0 (.inbound 2 .opened)
    let v := (begin repaired 0).run repaired (heard ++ [.due 0])
    let w := (begin repaired 0).run repaired
      (heard ++ arrives 0 (.inbound 2 (.closed (some 4004) "")) ++ [.due 0])
    ((v.mail 0).head?.any isOrder = true ∧ (v.sessions 0).phase = .identifying ∧
        (v.sessions 0).link.current = some 2) ∧
      (w.mail 0).head?.any isOrder = true ∧ (w.sessions 0).phase = .fatal ∧
        (w.sessions 0).fatal.map (·.authentication) = some true := by
  decide +kernel

end Switchboard.Ward
