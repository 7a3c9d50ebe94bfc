import Switchboard.Span

/-!
# Histograms with three significant digits

Values are counted in slots. Small values have a slot each; from there on the width of a slot
doubles with the value, so a slot always tells values apart that differ in the third digit. A slot
is named by its largest value, and a percentile is the largest value of the slot that it falls into.

## Main definitions

* `Histogram.slotOf`: the slot of a value.
* `Histogram.record`: counts a value.
* `Histogram.percentile`: the slot that a share of all values does not exceed.
-/
namespace Switchboard

/-- How often each slot was hit, by ascending slot. -/
structure Histogram where
  counts : List (Nat × Nat)
deriving DecidableEq, Repr, Inhabited

namespace Histogram

/-- Nothing was counted. -/
def empty : Histogram := ⟨[]⟩

/-- The magnitude, in binary digits, up to which every value has a slot of its own. -/
def exactDigits : Nat := 10

/-- The largest value that has a slot. -/
def top : Nat := (1 <<< 26) - 1

/-- The value that stands for all that have none. -/
def limit : Nat := 60000000

/-- The width of the slot of a value. -/
def widthOf (value : Nat) : Nat := Nat.pow 2 (Nat.log2 value - exactDigits)

/-- The slot of a value, by its largest value. -/
def slotOf (value : Nat) : Nat := (value / widthOf value + 1) * widthOf value - 1

/-- Counts a hit of a slot. -/
def bump (slot : Nat) : List (Nat × Nat) → List (Nat × Nat)
  | [] => [(slot, 1)]
  | (s, n) :: rest =>
    if slot < s then (slot, 1) :: (s, n) :: rest
    else if slot = s then (s, n + 1) :: rest
    else (s, n) :: bump slot rest

/-- Counts a value. -/
def record (h : Histogram) (value : Nat) : Histogram :=
  ⟨bump (slotOf (if value ≤ top then value else limit)) h.counts⟩

/-- The sum of counts. -/
def countsOf (counts : List (Nat × Nat)) : Nat := counts.foldr (fun c n => c.2 + n) 0

/-- How many values were counted. -/
def total (h : Histogram) : Nat := countsOf h.counts

/-- The first slot at which the count reaches `wanted`. -/
def reach (wanted : Nat) : List (Nat × Nat) → Nat
  | [] => 0
  | (s, n) :: rest => if wanted ≤ n then s else reach (wanted - n) rest

/-- The slot that holds the value at `share` percent of all values, in ascending order; zero when
there are none. -/
def percentile (h : Histogram) (share : Nat) : Nat :=
  reach (max 1 ((h.total * share + 99) / 100)) h.counts

theorem countsOf_bump (slot : Nat) (counts : List (Nat × Nat)) :
    countsOf (bump slot counts) = countsOf counts + 1 := by
  induction counts with
  | nil => rfl
  | cons c rest ih =>
    obtain ⟨s, n⟩ := c
    simp only [countsOf] at ih
    simp only [bump]
    split
    · simp only [countsOf, List.foldr_cons]; omega
    · split <;> simp only [countsOf, List.foldr_cons, ih] <;> omega

@[simp] theorem total_empty : empty.total = 0 := rfl

@[simp] theorem total_record (h : Histogram) (value : Nat) :
    (h.record value).total = h.total + 1 := countsOf_bump _ _

end Histogram

end Switchboard
