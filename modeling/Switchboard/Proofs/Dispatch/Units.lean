import Mathlib.Data.List.Basic
import Switchboard.Dispatch.Bucket

/-!
# The units of a bucket

What callers get of a bucket about which nothing is heard. Before its window ends they get the units
that are left, and no more; the first that asks then begins a window of its own. Whoever blocks the
bucket in the meantime takes the rest of the units and may put the end of the window off.

## Main definitions

* `Bucket.Use`: a unit is asked for, or the bucket is blocked.
* `Bucket.used`, `Bucket.usedAll`: the bucket afterwards.
* `Bucket.replies`: what those hear that ask.
* `Bucket.latest`: the end of the window, as blocks put it off.

## Main results

* `Bucket.reserve_of_open`, `Bucket.reserve_of_over`: what one hears before the end and afterwards.
* `Bucket.usedAll_of_open`: what uses before the end change.
* `Bucket.units_of_window`: the law for all uses.
-/
namespace Switchboard

namespace Bucket

/-- Something that is done with a bucket. -/
inductive Use where
  /-- A unit is asked for. -/
  | reserve
  | block (ending : Instant)
deriving DecidableEq, Repr

/-- The bucket after a use; a unit that there is not is not taken. -/
def used (b : Bucket) (now : Instant) : Use → Bucket
  | .reserve => (b.reserve now).toOption.getD b
  | .block ending => b.block ending

/-- The bucket after several uses, each at its instant. -/
def usedAll (b : Bucket) (uses : List (Instant × Use)) : Bucket :=
  uses.foldl (fun b x => b.used x.1 x.2) b

/-- What those hear that ask for a unit: that they have one, or when there will be one. -/
def replies (b : Bucket) : List (Instant × Use) → List (Except Instant Unit)
  | [] => []
  | (now, .reserve) :: rest =>
    (b.reserve now).map (fun _ => ()) :: replies (b.used now .reserve) rest
  | (now, .block ending) :: rest => replies (b.used now (.block ending)) rest

/-- The instants until which the bucket is blocked. -/
def blocks (uses : List (Instant × Use)) : List Instant :=
  uses.filterMap fun x => match x.2 with
    | .reserve => none
    | .block ending => some ending

/-- The end of a window that is blocked: the latest of its own and those of the blocks. -/
def latest (ending : Instant) (uses : List (Instant × Use)) : Instant :=
  (blocks uses).foldl max ending

/-- The end of a window after one more use. -/
def putOff (ending : Instant) : Use → Instant
  | .reserve => ending
  | .block other => max ending other

/-- The uses take place while the window is open, the end of which every block puts off. -/
def Early : Instant → List (Instant × Use) → Prop
  | _, [] => True
  | ending, (now, use) :: rest => now < ending ∧ Early (putOff ending use) rest

variable {b : Bucket} {now ending : Instant} {uses : List (Instant × Use)}

/-! ## One use -/

/-- Before the window ends, there is a unit exactly if one is left. -/
theorem reserve_of_open (hb : b.resetAt = some ending) (hlt : now < ending) :
    b.reserve now =
      if b.remaining = 0 then .error ending
      else .ok { b with remaining := b.remaining - 1, lastUsed := now } := by
  have hopen : ¬ ending ≤ now := Nat.not_le_of_lt hlt
  by_cases hnone : b.remaining = 0 <;>
    simp [reserve, refilled, hb, hopen, exhaustedUntil?, hnone]

/-- From its end on, there is one, of a window whose end is not known. -/
theorem reserve_of_over (hb : b.resetAt = some ending) (hle : ending ≤ now) :
    b.reserve now =
      .ok { b with remaining := b.limit.getD 1 - 1, resetAt := none, lastUsed := now } := by
  simp [reserve, refilled, hb, hle, exhaustedUntil?]

/-- Who finds no unit leaves the bucket as it is. -/
theorem used_of_error (h : b.reserve now = .error ending) : b.used now .reserve = b := by
  simp [used, h, Except.toOption]

theorem used_of_ok {b' : Bucket} (h : b.reserve now = .ok b') : b.used now .reserve = b' := by
  simp [used, h, Except.toOption]

theorem used_of_exhausted (hb : b.resetAt = some ending) (hlt : now < ending)
    (hnone : b.remaining = 0) : b.used now .reserve = b :=
  used_of_error (by rw [reserve_of_open hb hlt, if_pos hnone])

/-! ## Uses while the window is open -/

theorem latest_cons (x : Instant × Use) :
    latest ending (x :: uses) = latest (putOff ending x.2) uses := by
  obtain ⟨now, use⟩ := x
  cases use <;> rfl

theorem le_putOff (ending : Instant) (use : Use) : ending ≤ putOff ending use := by
  cases use with
  | reserve => exact Nat.le_refl _
  | block other => exact Nat.le_max_left _ _

theorem latest_of_blocks_eq_nil (h : blocks uses = []) : latest ending uses = ending := by
  rw [latest, h, List.foldl_nil]

/-- Uses before the latest end are early, if the bucket is blocked before the first end. -/
theorem early_of_lt_latest (hsorted : uses.Pairwise (·.1 ≤ ·.1))
    (hblocks : ∀ x ∈ uses, x.2 ≠ .reserve → x.1 < ending)
    (hopen : ∀ x ∈ uses, x.1 < latest ending uses) : Early ending uses := by
  induction uses generalizing ending with
  | nil => trivial
  | cons x rest ih =>
    obtain ⟨now, use⟩ := x
    obtain ⟨hnow, hsorted⟩ := List.pairwise_cons.mp hsorted
    have hlater : ∀ y ∈ rest, y.2 ≠ .reserve → y.1 < putOff ending use := fun y hy hblock =>
      Nat.lt_of_lt_of_le (hblocks y (List.mem_cons_of_mem _ hy) hblock) (le_putOff _ _)
    have hrest : ∀ y ∈ rest, y.1 < latest (putOff ending use) rest := fun y hy => by
      rw [latest_cons] at hopen
      exact hopen y (List.mem_cons_of_mem _ hy)
    refine ⟨?_, ih hsorted hlater hrest⟩
    -- If a block follows, this use is before it; if none does, the end is not put off any more.
    by_cases hblock : ∃ y ∈ (now, use) :: rest, y.2 ≠ .reserve
    · obtain ⟨y, hy, hne⟩ := hblock
      refine Nat.lt_of_le_of_lt ?_ (hblocks y hy hne)
      rcases List.mem_cons.mp hy with rfl | hy
      · exact Nat.le_refl _
      · exact hnow y hy
    · have hnone : blocks ((now, use) :: rest) = [] := by
        rw [blocks, List.filterMap_eq_nil_iff]
        intro y hy
        have hreserve : y.2 = .reserve := by
          by_contra hne
          exact hblock ⟨y, hy, hne⟩
        simp [hreserve]
      simpa [latest_of_blocks_eq_nil hnone] using hopen (now, use) List.mem_cons_self

theorem usedAll_cons (x : Instant × Use) :
    b.usedAll (x :: uses) = (b.used x.1 x.2).usedAll uses := rfl

/-- What uses before the end change: the units that are left, of which a block leaves none, the end
of the window, and the last use. -/
theorem usedAll_of_open (hb : b.resetAt = some ending) (h : Early ending uses) :
    ∃ remaining lastUsed, b.usedAll uses =
        { b with remaining, resetAt := some (latest ending uses), lastUsed } ∧
      (b.remaining = 0 ∨ blocks uses ≠ [] → remaining = 0) := by
  induction uses generalizing b ending with
  | nil =>
    refine ⟨b.remaining, b.lastUsed, ?_, fun h => h.resolve_right fun hne => hne rfl⟩
    simp [usedAll, latest, blocks, ← hb]
  | cons x rest ih =>
    obtain ⟨now, use⟩ := x
    obtain ⟨hlt, hrest⟩ := h
    rw [latest_cons, usedAll_cons]
    cases use with
    | reserve =>
      by_cases hnone : b.remaining = 0
      · rw [used_of_exhausted hb hlt hnone]
        obtain ⟨remaining, lastUsed, hafter, hzero⟩ := ih hb hrest
        exact ⟨remaining, lastUsed, hafter, fun _ => hzero (.inl hnone)⟩
      · rw [used_of_ok (by rw [reserve_of_open hb hlt, if_neg hnone])]
        obtain ⟨remaining, lastUsed, hafter, hzero⟩ :=
          ih (b := { b with remaining := b.remaining - 1, lastUsed := now }) hb hrest
        exact ⟨remaining, lastUsed, hafter, fun h => hzero (.inr (h.resolve_left hnone))⟩
    | block other =>
      have hblocked : (b.block other).resetAt = some (max ending other) := by simp [block, hb]
      obtain ⟨remaining, lastUsed, hafter, hzero⟩ := ih hblocked hrest
      exact ⟨remaining, lastUsed, hafter, fun _ => hzero (.inl rfl)⟩

/-- Those that ask before the end, one after the other, get what units there are. -/
theorem replies_of_open (hb : b.resetAt = some ending)
    (h : ∀ x ∈ uses, x.2 = .reserve ∧ x.1 < ending) :
    b.replies uses = List.replicate (min b.remaining uses.length) (.ok ()) ++
        List.replicate (uses.length - b.remaining) (.error ending) ∧
      b.usedAll uses = b.usedAll (uses.take b.remaining) := by
  induction uses generalizing b with
  | nil => simp [replies]
  | cons x rest ih =>
    obtain ⟨now, use⟩ := x
    obtain ⟨hreserve, hlt⟩ := h (now, use) List.mem_cons_self
    obtain rfl : use = .reserve := hreserve
    have hrest : ∀ x ∈ rest, x.2 = .reserve ∧ x.1 < ending := fun x hx =>
      h x (List.mem_cons_of_mem _ hx)
    cases hleft : b.remaining with
    | zero =>
      have herror : b.reserve now = .error ending := by rw [reserve_of_open hb hlt, if_pos hleft]
      obtain ⟨hreplies, hafter⟩ := ih hb hrest
      rw [hleft] at hreplies hafter
      refine ⟨?_, ?_⟩
      · simp [replies, used_of_error herror, herror, Except.map, hreplies, List.replicate_succ]
      · rw [List.take_zero, usedAll_cons, used_of_error herror]
        exact hafter
    | succ n =>
      have hok : b.reserve now = .ok { b with remaining := n, lastUsed := now } := by
        rw [reserve_of_open hb hlt, if_neg (by omega), hleft, Nat.add_sub_cancel]
      obtain ⟨hreplies, hafter⟩ := ih (b := { b with remaining := n, lastUsed := now }) hb hrest
      refine ⟨?_, ?_⟩
      · simp [replies, used_of_ok hok, hok, Except.map, hreplies, Nat.succ_min_succ,
          List.replicate_succ]
      · rw [List.take_succ_cons, usedAll_cons, usedAll_cons, used_of_ok hok]
        exact hafter

/-- **The units of a bucket** whose window ends, over uses in the order of their instants with
blocks before the end.

Without blocks, those that ask before the end get the units that are left, and the others hear when
the window ends and leave the bucket as it is. With blocks, everybody who asks after one and before
the latest end hears that end, and leaves the bucket as it is. The first that asks from the latest
end on gets one of as many units as a window has, whose end is not known then. -/
theorem units_of_window (b : Bucket) {ending : Instant} (hb : b.resetAt = some ending)
    {uses : List (Instant × Use)} (hsorted : uses.Pairwise (·.1 ≤ ·.1))
    (hblocks : ∀ x ∈ uses, x.2 ≠ .reserve → x.1 < ending) :
    ((∀ x ∈ uses, x.2 = .reserve ∧ x.1 < ending) →
      b.replies uses = List.replicate (min b.remaining uses.length) (.ok ()) ++
          List.replicate (uses.length - b.remaining) (.error ending) ∧
        b.usedAll uses = b.usedAll (uses.take b.remaining)) ∧
    (blocks uses ≠ [] → ∀ now, (∀ x ∈ uses, x.1 ≤ now) → now < latest ending uses →
      (b.usedAll uses).reserve now = .error (latest ending uses) ∧
        (b.usedAll uses).used now .reserve = b.usedAll uses) ∧
    ((∀ x ∈ uses, x.1 < latest ending uses) → ∀ now, latest ending uses ≤ now →
      (b.usedAll uses).reserve now =
        .ok { b with remaining := b.limit.getD 1 - 1, resetAt := none, lastUsed := now }) := by
  refine ⟨replies_of_open hb, fun hblocked now hnow hlt => ?_, fun hopen now hle => ?_⟩
  · have hopen : ∀ x ∈ uses, x.1 < latest ending uses := fun x hx =>
      Nat.lt_of_le_of_lt (hnow x hx) hlt
    have hearly := early_of_lt_latest hsorted hblocks hopen
    obtain ⟨remaining, lastUsed, hafter, hzero⟩ := usedAll_of_open hb hearly
    have hnone : (b.usedAll uses).remaining = 0 := by
      rw [hafter]
      exact hzero (.inr hblocked)
    have hreset : (b.usedAll uses).resetAt = some (latest ending uses) := by rw [hafter]
    exact ⟨by rw [reserve_of_open hreset hlt, if_pos hnone], used_of_exhausted hreset hlt hnone⟩
  · obtain ⟨remaining, lastUsed, hafter, -⟩ :=
      usedAll_of_open hb (early_of_lt_latest hsorted hblocks hopen)
    rw [hafter, reserve_of_over rfl hle]

/-- Of two units one is taken; a block takes the other, and puts the end off from ten to twenty. -/
theorem units_of_window_blocked :
    let b : Bucket :=
      { label := "a", limit := some 5, remaining := 2, resetAt := some 10, lastUsed := 0 }
    let uses : List (Instant × Use) := [(1, .reserve), (2, .block 20), (15, .reserve)]
    b.resetAt = some 10 ∧ uses.Pairwise (·.1 ≤ ·.1) ∧
      (∀ x ∈ uses, x.2 ≠ .reserve → x.1 < 10) ∧
      b.replies [(1, .reserve), (2, .reserve), (3, .reserve)] = [.ok (), .ok (), .error 10] ∧
      (b.usedAll uses).reserve 19 = .error 20 ∧
      (b.usedAll uses).reserve 20 =
        .ok { b with remaining := 4, resetAt := none, lastUsed := 20 } := by
  intro b uses
  have hsorted : uses.Pairwise (·.1 ≤ ·.1) := by decide
  have hblocks : ∀ x ∈ uses, x.2 ≠ .reserve → x.1 < 10 := by decide
  have hending : b.resetAt = some 10 := rfl
  obtain ⟨-, hblocked, hover⟩ := units_of_window b hending hsorted hblocks
  have hasked : List.Pairwise (·.1 ≤ ·.1) [(1, Use.reserve), (2, .reserve), (3, .reserve)] := by
    decide
  obtain ⟨hopen, -, -⟩ := units_of_window b hending hasked (by decide)
  exact ⟨hending, hsorted, hblocks, (hopen (by decide)).1,
    (hblocked (by decide) 19 (by decide) (by decide)).1, hover (by decide) 20 (by decide)⟩

end Bucket

end Switchboard
