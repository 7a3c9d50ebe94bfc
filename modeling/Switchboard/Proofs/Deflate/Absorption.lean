import Switchboard.Deflate.Stream

/-!
# Reading to the end of what is there

A stream takes up all that has arrived: it reads items until none can be read. Every item takes a bit
at least, as no code has an empty word and no stored run is empty, so what bounds the number of items
never cuts the reading short. A stream that has read all it could reads nothing more until further
bytes arrive.

## Main definitions

* `Bits.Takes`: so many bits are taken at least, and what is read has a property.
* `Stream.Sound`: the item that is read next is not empty.
* `Stream.Settled`: nothing more can be read.

## Main results

* `Stream.Sound.step?`: one item.
* `Stream.Sound.absorb`: all that has arrived.
-/
namespace Switchboard.Deflate

namespace Bits

variable {α β : Type} {P Q : α → Prop} {R : β → Prop} {m n : Nat}

/-- A reader that succeeds takes `n` bits at least, and what it reads has a property. -/
def Takes (n : Nat) (P : α → Prop) (r : Reader α) : Prop :=
  ∀ b a rest, r b = .done a rest → rest.pending.length + n ≤ b.pending.length ∧ P a

theorem Takes.mono {r : Reader α} (h : Takes m P r) (hn : n ≤ m) (hP : ∀ a, P a → Q a) :
    Takes n Q r := by
  intro b a rest hdone
  obtain ⟨hlen, ha⟩ := h b a rest hdone
  exact ⟨by omega, hP a ha⟩

theorem takes_pure {a : α} (ha : P a) : Takes 0 P (pure a : Reader α) := by
  intro b a' rest hdone
  cases hdone
  exact ⟨Nat.le_refl _, ha⟩

theorem takes_fail : Takes n P (fail : Reader α) := by
  intro b a rest hdone
  cases hdone

theorem Takes.bind {r : Reader α} {f : α → Reader β} (h : Takes m P r)
    (hf : ∀ a, P a → Takes n R (f a)) : Takes (m + n) R (r >>= f) := by
  intro b c rest hdone
  cases hr : r b with
  | done a between =>
    have hrest : f a between = .done c rest := by simpa [Bind.bind, hr] using hdone
    obtain ⟨hlen, ha⟩ := h b a between hr
    obtain ⟨hlen', hc⟩ := hf a ha between c rest hrest
    exact ⟨by omega, hc⟩
  | short => simp [Bind.bind, hr] at hdone
  | corrupt => simp [Bind.bind, hr] at hdone

/-- The same if what comes after may take nothing. -/
theorem Takes.before {r : Reader α} {f : α → Reader β} (h : Takes m P r)
    (hf : ∀ a, P a → Takes 0 R (f a)) : Takes m R (r >>= f) := h.bind hf

theorem takes_bit : Takes 1 (fun _ => True) bit := by
  intro b a rest hdone
  obtain ⟨pending, phase⟩ := b
  cases pending with
  | nil => cases hdone
  | cons x pending =>
    cases hdone
    exact ⟨Nat.le_refl _, trivial⟩

theorem takes_number (width : Nat) : Takes width (fun _ => True) (number width) := by
  induction width with
  | zero => exact takes_pure trivial
  | succ width ih =>
    refine (takes_bit.bind fun low _ => ih.before fun high _ => ?_).mono
      (Nat.le_of_eq (Nat.add_comm width 1)) fun _ h => h
    exact takes_pure trivial

theorem takes_align : Takes 0 (fun _ => True) align := by
  intro b a rest hdone
  simp only [align] at hdone
  split at hdone
  · cases hdone
  · cases hdone
    exact ⟨by simp, trivial⟩

end Bits

/-! ## Codes -/

namespace Code

/-- No word of the code is empty. -/
def Proper (tree : Code) : Prop := ∀ symbol, tree ≠ leaf symbol

theorem length_walk_le {seen phase symbol : Nat} {bits : List Bool} {rest : Bits} {tree : Code}
    (h : walk seen bits phase tree = .done symbol rest) : rest.pending.length ≤ bits.length := by
  induction tree generalizing seen bits phase with
  | empty =>
    simp only [walk] at h
    split at h <;> cases h
  | leaf symbol' =>
    simp only [walk] at h
    cases h
    exact Nat.le_refl _
  | node zero one hzero hone =>
    match bits, h with
    | true :: bits, h => exact Nat.le_succ_of_le (hone h)
    | false :: bits, h => exact Nat.le_succ_of_le (hzero h)

theorem takes_read (tree : Code) : Bits.Takes 0 (fun _ => True) tree.read :=
  fun _ _ _ hdone => ⟨length_walk_le hdone, trivial⟩

/-- A symbol of a proper code takes a bit. -/
theorem Proper.takes_read {tree : Code} (h : tree.Proper) :
    Bits.Takes 1 (fun _ => True) tree.read := by
  intro b symbol rest hdone
  obtain ⟨bits, phase⟩ := b
  cases tree with
  | empty =>
    simp only [read, walk] at hdone
    split at hdone <;> cases hdone
  | leaf symbol' => exact absurd rfl (h symbol')
  | node zero one =>
    match bits, hdone with
    | true :: bits, hdone => exact ⟨Nat.succ_le_succ (length_walk_le hdone), trivial⟩
    | false :: bits, hdone => exact ⟨Nat.succ_le_succ (length_walk_le hdone), trivial⟩

theorem proper_insert {symbol : Nat} {path : List Bool} (h : path ≠ []) (tree : Code) :
    (insert symbol path tree).Proper := by
  cases path with
  | nil => exact absurd rfl h
  | cons b path =>
    intro symbol' heq
    simp only [insert] at heq
    split at heq <;> split at heq <;> cases heq

theorem proper_assign {ps : List (Nat × Nat)} (h : ∀ p ∈ ps, p.1 ≠ 0) {tree : Code}
    (ht : tree.Proper) (next length : Nat) : (assign next length ps tree).Proper := by
  induction ps generalizing tree next length with
  | nil => exact ht
  | cons p ps ih =>
    have hpath : bitsOf (next * Nat.pow 2 (p.1 - length)) p.1 ≠ [] := by
      have hpos := h p (by simp)
      simp [bitsOf, hpos]
    exact ih (fun q hq => h q (List.mem_cons_of_mem _ hq)) (proper_insert hpath tree) _ _

/-- A table makes a proper code: symbols of length zero are not used. -/
theorem proper_of_ofLengths? {loose : Bool} {lengths : List Nat} {tree : Code}
    (h : ofLengths? loose lengths = some tree) : tree.Proper := by
  simp only [ofLengths?] at h
  split at h
  · cases h
    refine proper_assign (fun p hp => ?_) (by simp [Proper]) 0 0
    simp only [ordered, List.mem_flatMap, List.mem_filter] at hp
    obtain ⟨_, _, ⟨_, hpos⟩, _⟩ := hp
    simpa using hpos
  · cases h

end Code

/-! ## Items -/

open Bits (Takes takes_pure takes_fail takes_bit takes_number takes_align)

theorem proper_fixedLiterals : fixedLiterals.Proper := by
  unfold fixedLiterals
  cases h : Code.ofLengths? true fixedLiteralLengths with
  | none => simp [Code.Proper]
  | some tree => exact Code.proper_of_ofLengths? h

/-- The item that is read at a stage is not empty, where that depends on data of the stage. -/
def Stage.Sound : Stage → Prop
  | .stored left => left ≠ 0
  | .symbols literals _ => literals.Proper
  | _ => True

/-- A stage that an item leads to; an empty stored run is passed over. -/
def Stage.Follows (next : Stage) : Prop := next = .stored 0 ∨ next.Sound

/-- The stage that an item leads to. -/
def Item.Sound : Item → Prop
  | .stage next | .begin _ next | .bytes _ next => next.Follows
  | .copy _ _ => True

theorem takes_readHeader : Takes 1 Item.Sound readHeader := by
  refine Takes.mono (m := 8) ((takes_number 8).before fun method _ => ?_) (by omega) fun _ h => h
  refine ((takes_number 8).mono (Nat.zero_le _) fun _ h => h).before fun flags _ => ?_
  split
  · exact takes_pure (.inr trivial)
  · exact takes_fail

/-- Any number of bits is none at least. -/
theorem takes_number_any (width : Nat) : Takes 0 (fun _ => True) (Bits.number width) :=
  (takes_number width).mono (Nat.zero_le _) fun _ h => h

theorem takes_readLengths (code : Code) (previous : Option Nat) (fuel left : Nat) :
    Takes 0 (fun _ => True) (readLengths code previous fuel left) := by
  induction fuel generalizing previous left with
  | zero =>
    cases left with
    | zero => exact takes_pure trivial
    | succ left => exact takes_fail
  | succ fuel ih =>
    cases left with
    | zero => exact takes_pure trivial
    | succ left =>
      have hrun : ∀ value base width, Takes 0 (fun _ => True) (do
          let extra ← Bits.number width
          let run := base + extra
          if left + 1 < run then Bits.fail
          else
            let rest ← readLengths code (some value) fuel (left + 1 - run)
            return List.replicate run value ++ rest) := by
        intro value base width
        refine (takes_number_any width).before fun extra _ => ?_
        dsimp only
        split
        · exact takes_fail
        · exact (ih _ _).before fun rest _ => takes_pure trivial
      refine (Code.takes_read code).before fun symbol _ => ?_
      split
      · exact (ih _ _).before fun rest _ => takes_pure trivial
      · dsimp only
        split
        · exact hrun _ _ _
        · exact takes_fail
        · exact hrun _ _ _
        · exact hrun _ _ _

theorem takes_readTriples (n : Nat) : Takes 0 (fun _ => True) (readTriples n) := by
  induction n with
  | zero => exact takes_pure trivial
  | succ n ih =>
    exact (takes_number_any 3).before fun first _ => ih.before fun rest _ => takes_pure trivial

theorem takes_readCodes : Takes 0 (fun codes => codes.1.Proper) readCodes := by
  refine (takes_number_any 5).before fun literals _ => ?_
  refine (takes_number_any 5).before fun distances _ => ?_
  refine (takes_number_any 4).before fun lengths _ => ?_
  split
  · exact takes_fail
  · refine (takes_readTriples _).before fun sent _ => ?_
    dsimp only
    split
    · exact takes_fail
    · refine (takes_readLengths _ _ _ _).before fun all _ => ?_
      split
      case h_1 l d hl hd => exact takes_pure (Code.proper_of_ofLengths? hl)
      case h_2 => exact takes_fail

theorem takes_readBlock : Takes 1 Item.Sound readBlock := by
  refine takes_bit.before fun last _ => (takes_number_any 2).before fun kind _ => ?_
  split
  · refine takes_align.before fun _ _ => (takes_number_any 16).before fun size _ =>
      (takes_number_any 16).before fun check _ => ?_
    split
    · refine takes_pure ?_
      by_cases hsize : size = 0
      · exact .inl (by rw [hsize])
      · exact .inr hsize
    · exact takes_fail
  · exact takes_pure (.inr proper_fixedLiterals)
  · exact takes_readCodes.before fun codes hcodes => takes_pure (.inr hcodes)
  · exact takes_fail

theorem takes_readFrom (table : List (Nat × Nat)) (index : Nat) :
    Takes 0 (fun _ => True) (readFrom table index) := by
  unfold readFrom
  split
  · exact takes_fail
  · exact (takes_number_any _).before fun extra _ => takes_pure trivial

theorem takes_readSymbol {literals distances : Code} (h : literals.Proper) :
    Takes 1 Item.Sound (readSymbol literals distances) := by
  refine h.takes_read.before fun symbol _ => ?_
  split
  · exact takes_pure (.inr h)
  · split
    · exact takes_pure (.inr trivial)
    · refine (takes_readFrom _ _).before fun length _ => ?_
      refine (Code.takes_read distances).before fun code _ => ?_
      exact (takes_readFrom _ _).before fun distance _ => takes_pure trivial

theorem takes_readBytes (n : Nat) : Takes n (fun _ => True) (readBytes n) := by
  induction n with
  | zero => exact takes_pure trivial
  | succ n ih =>
    refine Takes.mono (m := 8 + n) ?_ (by omega) fun _ h => h
    exact (takes_number 8).bind fun first _ => ih.before fun rest _ => takes_pure trivial

theorem takes_readStored {left : Nat} (h : left ≠ 0) : Takes 1 Item.Sound (readStored left) := by
  intro b item rest hdone
  have hrun : ∀ n, Takes n Item.Sound (do
      let data ← readBytes n
      return Item.bytes data (if left = n then .block else .stored (left - n))) := by
    refine fun n => (takes_readBytes n).before fun data _ => takes_pure ?_
    by_cases hall : left = n
    · exact .inr (by simp [hall, Stage.Sound])
    · by_cases hleft : left - n = 0
      · exact .inl (by simp [hall, hleft])
      · exact .inr (by simpa [hall, Stage.Sound] using hleft)
  have hpos : 1 ≤ min left (max b.wholeBytes 1) := by omega
  exact (hrun _).mono hpos (fun _ h => h) b item rest hdone

/-! ## Streams -/

namespace Stream

/-- The item that is read next is not empty. -/
def Sound (s : Stream) : Prop := s.stage.Sound

/-- Nothing more can be read. -/
def Settled (s : Stream) : Prop := s.step? = none

/-- How many items can be read at most. -/
def rank (s : Stream) : Nat :=
  if s.isFinished || s.isFailed then 0 else s.bits.pending.length + 1

theorem sound_start : start.Sound := trivial

theorem sound_enter (s : Stream) {next : Stage} (h : next.Follows) : (s.enter next).Sound := by
  have hblock : Stage.Sound (if s.lastBlock then .checksum else .block) := by
    cases s.lastBlock <;> trivial
  rcases h with rfl | h
  · exact hblock
  · cases next with
    | block => exact hblock
    | stored left =>
      cases left with
      | zero => exact hblock
      | succ left => exact h
    | _ => exact h

@[simp] theorem bits_enter (s : Stream) (next : Stage) : (s.enter next).bits = s.bits := by
  unfold enter
  split <;> rfl

theorem foldl_push_keeps (data : List UInt8) (s : Stream) :
    (data.foldl push s).stage = s.stage ∧ (data.foldl push s).bits = s.bits := by
  induction data generalizing s with
  | nil => exact ⟨rfl, rfl⟩
  | cons b data ih => exact ih (s.push b)

theorem copy_keeps (distance length : Nat) (s : Stream) :
    (copy distance length s).stage = s.stage ∧ (copy distance length s).bits = s.bits := by
  induction length generalizing s with
  | zero => exact ⟨rfl, rfl⟩
  | succ length ih => exact ih (s.push (s.back distance))

@[simp] theorem bits_apply (s : Stream) (item : Item) : (s.apply item).bits = s.bits := by
  cases item with
  | stage next => exact bits_enter s next
  | begin last next => exact bits_enter _ next
  | bytes data next => exact (bits_enter _ next).trans (foldl_push_keeps data s).2
  | copy length distance => exact (copy_keeps distance length s).2

theorem Sound.apply {s : Stream} (h : s.Sound) {item : Item} (hitem : item.Sound) :
    (s.apply item).Sound := by
  cases item with
  | stage next => exact sound_enter s hitem
  | begin last next => exact sound_enter _ hitem
  | bytes data next => exact sound_enter _ hitem
  | copy length distance =>
    rw [Sound, Stream.apply, (copy_keeps distance length s).1]
    exact h

/-- Reads one item. -/
def take? (s : Stream) (r : Bits.Reader Item) : Option Stream :=
  match r s.bits with
  | .done item rest => some ({ s with bits := rest }.apply item)
  | .short => none
  | .corrupt => some { s with stage := .failed }

/-- Reads the checksum. -/
def verify? (s : Stream) : Option Stream :=
  match readChecksum s.bits with
  | .done sum rest =>
    some { s with
      bits := rest
      stage := if sum = s.high * 65536 + s.low then .finished else .failed }
  | .short => none
  | .corrupt => some { s with stage := .failed }

theorem step?_eq (s : Stream) : s.step? =
    match s.stage with
    | .header => s.take? readHeader
    | .block => s.take? readBlock
    | .stored left => s.take? (readStored left)
    | .symbols literals distances => s.take? (readSymbol literals distances)
    | .checksum => s.verify?
    | .finished => none
    | .failed => none := rfl

theorem take?_eq_none {s : Stream} {r : Bits.Reader Item} :
    s.take? r = none ↔ r s.bits = .short := by
  unfold take?
  split <;> simp_all

theorem verify?_eq_none {s : Stream} : s.verify? = none ↔ readChecksum s.bits = .short := by
  unfold verify?
  split <;> simp_all

theorem rank_le (s : Stream) : s.rank ≤ s.bits.pending.length + 1 := by
  unfold rank
  split <;> omega

theorem Sound.take? {s next : Stream} {r : Bits.Reader Item} (h : s.Sound)
    (hr : Takes 1 Item.Sound r) (hrank : s.rank = s.bits.pending.length + 1)
    (htake : s.take? r = some next) : next.Sound ∧ next.rank < s.rank := by
  cases hread : r s.bits with
  | done item rest =>
    obtain ⟨hlen, hitem⟩ := hr _ _ _ hread
    obtain rfl : ({ s with bits := rest } : Stream).apply item = next := by
      simpa [Stream.take?, hread] using htake
    refine ⟨Sound.apply (s := { s with bits := rest }) h hitem, ?_⟩
    have hle := rank_le (({ s with bits := rest } : Stream).apply item)
    rw [bits_apply] at hle
    dsimp only at hle
    omega
  | short => simp [Stream.take?, hread] at htake
  | corrupt =>
    obtain rfl : { s with stage := .failed } = next := by
      simpa [Stream.take?, hread] using htake
    refine ⟨trivial, ?_⟩
    rw [hrank]
    exact Nat.succ_pos _

/-- The stream goes on: it is neither at its end nor corrupt. -/
theorem rank_of_open {s : Stream} (hfinished : s.stage ≠ .finished) (hfailed : s.stage ≠ .failed) :
    s.rank = s.bits.pending.length + 1 := by
  cases hstage : s.stage <;> simp_all [rank, isFinished, isFailed]

theorem rank_verify? {s next : Stream} (hstep : s.verify? = some next) : next.rank = 0 := by
  unfold verify? at hstep
  split at hstep
  case h_1 sum rest _ =>
    obtain rfl := Option.some.inj hstep
    by_cases hsum : sum = s.high * 65536 + s.low <;> simp [rank, isFinished, isFailed, hsum]
  case h_2 => cases hstep
  case h_3 =>
    obtain rfl := Option.some.inj hstep
    rfl

/-- A stream at its end, or a corrupt one, has no item that could be empty. -/
theorem sound_of_rank {s : Stream} (h : s.rank = 0) : s.Sound := by
  cases hstage : s.stage <;> simp_all [rank, isFinished, isFailed, Sound, Stage.Sound]

/-- **One item**: it leaves the next one not empty, and there are fewer to come. -/
theorem Sound.step? {s next : Stream} (h : s.Sound) (hstep : s.step? = some next) :
    next.Sound ∧ next.rank < s.rank := by
  have hsound : s.stage.Sound := h
  rw [step?_eq] at hstep
  cases hstage : s.stage with
  | header =>
    rw [hstage] at hstep
    exact h.take? takes_readHeader (rank_of_open (by simp [hstage]) (by simp [hstage])) hstep
  | block =>
    rw [hstage] at hstep
    exact h.take? takes_readBlock (rank_of_open (by simp [hstage]) (by simp [hstage])) hstep
  | stored left =>
    rw [hstage] at hstep hsound
    exact h.take? (takes_readStored hsound) (rank_of_open (by simp [hstage]) (by simp [hstage]))
      hstep
  | symbols literals distances =>
    rw [hstage] at hstep hsound
    exact h.take? (takes_readSymbol hsound) (rank_of_open (by simp [hstage]) (by simp [hstage]))
      hstep
  | checksum =>
    rw [hstage] at hstep
    have hrank := rank_verify? hstep
    rw [hrank, rank_of_open (by simp [hstage]) (by simp [hstage])]
    exact ⟨sound_of_rank hrank, Nat.succ_pos _⟩
  | finished => simp [hstage] at hstep
  | failed => simp [hstage] at hstep

theorem settled_of_rank {s : Stream} (h : s.rank = 0) : s.Settled := by
  cases hstage : s.stage <;> simp_all [rank, isFinished, isFailed, Settled, step?_eq]

/-- Fuel for every item that may be there is enough to read them all. -/
theorem Sound.run {s : Stream} {fuel : Nat} (h : s.Sound) (hfuel : s.rank ≤ fuel) :
    (run fuel s).Sound ∧ (run fuel s).Settled := by
  induction fuel generalizing s with
  | zero => exact ⟨h, settled_of_rank (Nat.le_zero.mp hfuel)⟩
  | succ fuel ih =>
    rw [Stream.run]
    split
    case h_1 next hstep =>
      obtain ⟨hnext, hless⟩ := h.step? hstep
      exact ih hnext (by omega)
    case h_2 hstep => exact ⟨h, hstep⟩

/-- **All that has arrived** is read: what is left is not enough for an item. -/
theorem Sound.absorb {s : Stream} (h : s.Sound) (input : List UInt8) :
    (s.absorb input).Sound ∧ (s.absorb input).Settled :=
  Sound.run (s := { s with bits := s.bits.append input }) h (rank_le _)

/-- Without further bytes nothing changes. -/
theorem Settled.absorb_nil {s : Stream} (h : s.Settled) : s.absorb [] = s := by
  have hbits : { s with bits := s.bits.append [] } = s := by
    simp [Bits.append, bitsOfBytes]
  have hstep : s.step? = none := h
  simp only [Stream.absorb, hbits]
  rw [Stream.run, hstep]

/-- Whether more can be read depends on the bits that are left and on what is read next. -/
theorem Settled.congr {s t : Stream} (h : s.Settled) (hstage : t.stage = s.stage)
    (hbits : t.bits = s.bits) : t.Settled := by
  rw [Settled, step?_eq] at h ⊢
  rw [hstage]
  cases hs : s.stage <;>
    simp only [hs, take?_eq_none, verify?_eq_none, hbits] at h ⊢ <;> exact h

/-! ### Giving out -/

/-- To give out bytes changes the history alone. -/
theorem exists_deliver (s : Stream) (room : Nat) : ∃ history delivered out,
    s.deliver room = ({ s with history := history, delivered := delivered }, out) :=
  ⟨_, _, _, rfl⟩

theorem Settled.deliver {s : Stream} (h : s.Settled) (room : Nat) : (s.deliver room).1.Settled := by
  obtain ⟨_, _, _, hdeliver⟩ := s.exists_deliver room
  rw [hdeliver]
  exact h.congr rfl rfl

theorem Sound.deliver {s : Stream} (h : s.Sound) (room : Nat) : (s.deliver room).1.Sound := by
  obtain ⟨_, _, _, hdeliver⟩ := s.exists_deliver room
  rw [hdeliver]
  exact h

@[simp] theorem isFinished_deliver (s : Stream) (room : Nat) :
    (s.deliver room).1.isFinished = s.isFinished := by
  obtain ⟨_, _, _, hdeliver⟩ := s.exists_deliver room
  rw [hdeliver]
  rfl

/-- As much is given out as waits, or as there is room for. -/
theorem length_deliver (s : Stream) (room : Nat) :
    (s.deliver room).2.length = min s.waiting room := by
  simp only [deliver, waiting, Array.length_toList, Array.size_extract]
  omega

theorem waiting_deliver (s : Stream) (room : Nat) :
    (s.deliver room).1.waiting = s.waiting - room := by
  simp only [deliver, waiting, Array.size_extract]
  omega

end Stream

end Switchboard.Deflate
