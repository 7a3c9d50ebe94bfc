import Mathlib.Tactic.SplitIfs
import Switchboard.Text.Utf8

/-!
# Decoding undoes encoding

A byte string is text exactly when it is the encoding of some string, and then it decodes to that
string. The lead byte of a sequence tells its length, and the bounds on the second byte exclude what
no character is encoded as; so a sequence that is read as a character is the encoding of it.

## Main results

* `Utf8.leading_encodeChar`: the encoding of a character is read as the character.
* `Utf8.encodeChar_of_leading`: what is read as a character is its encoding.
* `Utf8.decode_eq_ok_iff`: strict decoding.
-/
namespace Switchboard.Utf8

/-! ## Bytes as numbers -/

theorem isContinuation_iff {b : UInt8} :
    isContinuation b = true ↔ 0x80 ≤ b.toNat ∧ b.toNat ≤ 0xbf := by
  simp [isContinuation, UInt8.le_iff_toNat_le]

/-- The second byte continues a sequence, and it does so in the part of the range that the lead byte
leaves. -/
theorem secondAllowed_iff {lead b : UInt8} : secondAllowed lead b = true ↔
    (0x80 ≤ b.toNat ∧ b.toNat ≤ 0xbf) ∧ (lead.toNat = 0xe0 → 0xa0 ≤ b.toNat) ∧
      (lead.toNat = 0xed → b.toNat ≤ 0x9f) ∧ (lead.toNat = 0xf0 → 0x90 ≤ b.toNat) ∧
      (lead.toNat = 0xf4 → b.toNat ≤ 0x8f) := by
  simp only [secondAllowed, ← UInt8.toNat_inj]
  split_ifs <;> simp_all [isContinuation, UInt8.le_iff_toNat_le] <;> omega

/-! ## Sequences of each length -/

theorem leading_one {lead : UInt8} (rest : List UInt8) (h : lead.toNat < 0x80) :
    leading lead rest = .scalar (Char.ofNat lead.toNat) 1 := by
  have hlead : lead < 0x80 := UInt8.lt_iff_toNat_lt.mpr h
  simp [leading, hlead]

theorem leading_two {lead b : UInt8} (rest : List UInt8)
    (hlead : 0xc2 ≤ lead.toNat ∧ lead.toNat ≤ 0xdf) (hb : isContinuation b = true) :
    leading lead (b :: rest) = .scalar (Char.ofNat (lead.toNat % 32 * 64 + b.toNat % 64)) 2 := by
  have hone : ¬ lead < 0x80 := by simp [UInt8.lt_iff_toNat_lt]; omega
  have htwo : (0xc2 ≤ lead && lead ≤ 0xdf) = true := by simpa [UInt8.le_iff_toNat_le] using hlead
  simp only [leading, hone, htwo, hb, payload, if_true, if_false]

theorem leading_three {lead b c : UInt8} (rest : List UInt8)
    (hlead : 0xe0 ≤ lead.toNat ∧ lead.toNat ≤ 0xef) (hb : secondAllowed lead b = true)
    (hc : isContinuation c = true) : leading lead (b :: c :: rest) =
      .scalar (Char.ofNat ((lead.toNat % 16 * 64 + b.toNat % 64) * 64 + c.toNat % 64)) 3 := by
  have hone : ¬ lead < 0x80 := by simp [UInt8.lt_iff_toNat_lt]; omega
  have htwo : ¬ (0xc2 ≤ lead && lead ≤ 0xdf) = true := by simp [UInt8.le_iff_toNat_le]; omega
  have hthree : (0xe0 ≤ lead && lead ≤ 0xef) = true := by simpa [UInt8.le_iff_toNat_le] using hlead
  simp only [leading, hone, htwo, hthree, hb, hc, payload, if_true, Bool.false_eq_true, if_false]

theorem leading_four {lead b c d : UInt8} (rest : List UInt8)
    (hlead : 0xf0 ≤ lead.toNat ∧ lead.toNat ≤ 0xf4) (hb : secondAllowed lead b = true)
    (hc : isContinuation c = true) (hd : isContinuation d = true) :
    leading lead (b :: c :: d :: rest) = .scalar (Char.ofNat
      (((lead.toNat % 8 * 64 + b.toNat % 64) * 64 + c.toNat % 64) * 64 + d.toNat % 64)) 4 := by
  have hone : ¬ lead < 0x80 := by simp [UInt8.lt_iff_toNat_lt]; omega
  have htwo : ¬ (0xc2 ≤ lead && lead ≤ 0xdf) = true := by simp [UInt8.le_iff_toNat_le]; omega
  have hthree : ¬ (0xe0 ≤ lead && lead ≤ 0xef) = true := by simp [UInt8.le_iff_toNat_le]; omega
  have hfour : (0xf0 ≤ lead && lead ≤ 0xf4) = true := by simpa [UInt8.le_iff_toNat_le] using hlead
  simp only [leading, hone, htwo, hthree, hfour, hb, hc, hd, payload, if_true, Bool.false_eq_true,
    if_false]

/-- A sequence that is read as a character has one of the four lengths. -/
theorem leading_cases {lead : UInt8} {rest : List UInt8} {x : Char} {w : Nat}
    (h : leading lead rest = .scalar x w) :
    (lead.toNat < 0x80 ∧ x = Char.ofNat lead.toNat ∧ w = 1) ∨
    (∃ b more, rest = b :: more ∧ (0xc2 ≤ lead.toNat ∧ lead.toNat ≤ 0xdf) ∧
      isContinuation b = true ∧ x = Char.ofNat (lead.toNat % 32 * 64 + b.toNat % 64) ∧ w = 2) ∨
    (∃ b c more, rest = b :: c :: more ∧ (0xe0 ≤ lead.toNat ∧ lead.toNat ≤ 0xef) ∧
      secondAllowed lead b = true ∧ isContinuation c = true ∧
      x = Char.ofNat ((lead.toNat % 16 * 64 + b.toNat % 64) * 64 + c.toNat % 64) ∧ w = 3) ∨
    (∃ b c d more, rest = b :: c :: d :: more ∧ (0xf0 ≤ lead.toNat ∧ lead.toNat ≤ 0xf4) ∧
      secondAllowed lead b = true ∧ isContinuation c = true ∧ isContinuation d = true ∧
      x = Char.ofNat
        (((lead.toNat % 8 * 64 + b.toNat % 64) * 64 + c.toNat % 64) * 64 + d.toNat % 64) ∧
      w = 4) := by
  unfold leading at h
  split_ifs at h with hone htwo hthree hfour
  · cases h
    exact .inl ⟨UInt8.lt_iff_toNat_lt.mp hone, rfl, rfl⟩
  · have hlead : 0xc2 ≤ lead.toNat ∧ lead.toNat ≤ 0xdf := by
      simpa [UInt8.le_iff_toNat_le] using htwo
    match rest with
    | b :: more =>
      simp only at h
      split_ifs at h with hb
      cases h
      exact .inr (.inl ⟨b, more, rfl, hlead, hb, rfl, rfl⟩)
  · have hlead : 0xe0 ≤ lead.toNat ∧ lead.toNat ≤ 0xef := by
      simpa [UInt8.le_iff_toNat_le] using hthree
    match rest with
    | [b] =>
      simp only at h
      split_ifs at h
    | b :: c :: more =>
      simp only at h
      split_ifs at h with hb hc
      cases h
      exact .inr (.inr (.inl ⟨b, c, more, rfl, hlead, hb, hc, rfl, rfl⟩))
  · have hlead : 0xf0 ≤ lead.toNat ∧ lead.toNat ≤ 0xf4 := by
      simpa [UInt8.le_iff_toNat_le] using hfour
    match rest with
    | [b] =>
      simp only at h
      split_ifs at h
    | [b, c] =>
      simp only at h
      split_ifs at h
    | b :: c :: d :: more =>
      simp only at h
      split_ifs at h with hb hc hd
      cases h
      exact .inr (.inr (.inr ⟨b, c, d, more, rfl, hlead, hb, hc, hd, rfl, rfl⟩))

/-! ## Characters -/

/-- The number of a character is below the surrogates or between them and the end. -/
theorem toNat_cases (c : Char) :
    c.toNat < 0xd800 ∨ 0xdfff < c.toNat ∧ c.toNat < 0x110000 := c.valid

theorem toNat_ofNat {n : Nat} (h : n < 0xd800 ∨ 0xdfff < n ∧ n < 0x110000) :
    (Char.ofNat n).toNat = n := by
  have hvalid : n.isValidChar := h
  rw [Char.ofNat, dif_pos hvalid]
  rfl

/-- The bytes that encode a character, by the length of the sequence. -/
theorem encodeChar_one {c : Char} (h : c.toNat < 0x80) :
    String.utf8EncodeChar c = [UInt8.ofNat c.toNat] := by
  have hone : c.val.toNat ≤ 0x7f := Nat.le_of_lt_succ h
  simp only [String.utf8EncodeChar, hone, if_true]
  rfl

theorem encodeChar_two {c : Char} (h : 0x80 ≤ c.toNat ∧ c.toNat < 0x800) :
    String.utf8EncodeChar c =
      [UInt8.ofNat (c.toNat / 64 % 32 + 0xc0), UInt8.ofNat (c.toNat % 64 + 0x80)] := by
  have hone : ¬ c.val.toNat ≤ 0x7f := Nat.not_le.mpr h.1
  have htwo : c.val.toNat ≤ 0x7ff := Nat.le_of_lt_succ h.2
  simp only [String.utf8EncodeChar, hone, htwo, if_true, if_false]
  rfl

theorem encodeChar_three {c : Char} (h : 0x800 ≤ c.toNat ∧ c.toNat < 0x10000) :
    String.utf8EncodeChar c =
      [UInt8.ofNat (c.toNat / 4096 % 16 + 0xe0), UInt8.ofNat (c.toNat / 64 % 64 + 0x80),
        UInt8.ofNat (c.toNat % 64 + 0x80)] := by
  have hone : ¬ c.val.toNat ≤ 0x7f := Nat.not_le.mpr (by have := h.1; change _ < c.toNat; omega)
  have htwo : ¬ c.val.toNat ≤ 0x7ff := Nat.not_le.mpr h.1
  have hthree : c.val.toNat ≤ 0xffff := Nat.le_of_lt_succ h.2
  simp only [String.utf8EncodeChar, hone, htwo, hthree, if_true, if_false]
  rfl

theorem encodeChar_four {c : Char} (h : 0x10000 ≤ c.toNat) :
    String.utf8EncodeChar c =
      [UInt8.ofNat (c.toNat / 262144 % 8 + 0xf0), UInt8.ofNat (c.toNat / 4096 % 64 + 0x80),
        UInt8.ofNat (c.toNat / 64 % 64 + 0x80), UInt8.ofNat (c.toNat % 64 + 0x80)] := by
  have hone : ¬ c.val.toNat ≤ 0x7f := Nat.not_le.mpr (by change _ < c.toNat; omega)
  have htwo : ¬ c.val.toNat ≤ 0x7ff := Nat.not_le.mpr (by change _ < c.toNat; omega)
  have hthree : ¬ c.val.toNat ≤ 0xffff := Nat.not_le.mpr h
  simp only [String.utf8EncodeChar, hone, htwo, hthree, if_false]
  rfl

theorem toNat_byte {n : Nat} (h : n < 256) : (UInt8.ofNat n).toNat = n :=
  UInt8.toNat_ofNat_of_lt' h

/-- **The encoding of a character** is read as the character, whatever follows it. -/
theorem leading_encodeChar (c : Char) : ∃ lead tail, String.utf8EncodeChar c = lead :: tail ∧
    ∀ rest, leading lead (tail ++ rest) = .scalar c (tail.length + 1) := by
  have hcases := toNat_cases c
  by_cases hone : c.toNat < 0x80
  · refine ⟨_, _, encodeChar_one hone, fun rest => ?_⟩
    have hlead : (UInt8.ofNat c.toNat).toNat = c.toNat := toNat_byte (by omega)
    rw [leading_one _ (by omega), hlead, Char.ofNat_toNat]
    rfl
  by_cases htwo : c.toNat < 0x800
  · refine ⟨_, _, encodeChar_two ⟨by omega, htwo⟩, fun rest => ?_⟩
    have hlead := toNat_byte (n := c.toNat / 64 % 32 + 0xc0) (by omega)
    have hb := toNat_byte (n := c.toNat % 64 + 0x80) (by omega)
    rw [List.cons_append, leading_two _ (by omega) (isContinuation_iff.mpr (by omega)), hlead, hb]
    rw [show (c.toNat / 64 % 32 + 0xc0) % 32 * 64 + (c.toNat % 64 + 0x80) % 64 = c.toNat by omega,
      Char.ofNat_toNat]
    rfl
  by_cases hthree : c.toNat < 0x10000
  · refine ⟨_, _, encodeChar_three ⟨by omega, hthree⟩, fun rest => ?_⟩
    have hlead := toNat_byte (n := c.toNat / 4096 % 16 + 0xe0) (by omega)
    have hb := toNat_byte (n := c.toNat / 64 % 64 + 0x80) (by omega)
    have hc := toNat_byte (n := c.toNat % 64 + 0x80) (by omega)
    rw [List.cons_append, List.cons_append, leading_three _ (by omega)
      (secondAllowed_iff.mpr (by omega)) (isContinuation_iff.mpr (by omega)), hlead, hb, hc]
    rw [show ((c.toNat / 4096 % 16 + 0xe0) % 16 * 64 + (c.toNat / 64 % 64 + 0x80) % 64) * 64 +
      (c.toNat % 64 + 0x80) % 64 = c.toNat by omega, Char.ofNat_toNat]
    rfl
  · refine ⟨_, _, encodeChar_four (by omega), fun rest => ?_⟩
    have hlead := toNat_byte (n := c.toNat / 262144 % 8 + 0xf0) (by omega)
    have hb := toNat_byte (n := c.toNat / 4096 % 64 + 0x80) (by omega)
    have hc := toNat_byte (n := c.toNat / 64 % 64 + 0x80) (by omega)
    have hd := toNat_byte (n := c.toNat % 64 + 0x80) (by omega)
    rw [List.cons_append, List.cons_append, List.cons_append, leading_four _ (by omega)
      (secondAllowed_iff.mpr (by omega)) (isContinuation_iff.mpr (by omega))
      (isContinuation_iff.mpr (by omega)), hlead, hb, hc, hd]
    rw [show (((c.toNat / 262144 % 8 + 0xf0) % 8 * 64 + (c.toNat / 4096 % 64 + 0x80) % 64) * 64 +
      (c.toNat / 64 % 64 + 0x80) % 64) * 64 + (c.toNat % 64 + 0x80) % 64 = c.toNat by omega,
      Char.ofNat_toNat]
    rfl

/-- **What is read as a character** is its encoding, with something after it. -/
theorem encodeChar_of_leading {lead : UInt8} {rest : List UInt8} {x : Char} {w : Nat}
    (h : leading lead rest = .scalar x w) :
    ∃ tail more, rest = tail ++ more ∧ String.utf8EncodeChar x = lead :: tail ∧
      w = tail.length + 1 := by
  have hbyte : ∀ {b : UInt8} {n : Nat}, n = b.toNat → UInt8.ofNat n = b := by
    rintro b n rfl
    exact UInt8.ofNat_toNat
  rcases leading_cases h with ⟨hlead, rfl, rfl⟩ | ⟨b, more, rfl, hlead, hb, rfl, rfl⟩ |
    ⟨b, c, more, rfl, hlead, hb, hc, rfl, rfl⟩ | ⟨b, c, d, more, rfl, hlead, hb, hc, hd, rfl, rfl⟩
  · have hx := toNat_ofNat (n := lead.toNat) (by omega)
    refine ⟨[], rest, rfl, ?_, rfl⟩
    rw [encodeChar_one (by omega), hbyte hx]
  · rw [isContinuation_iff] at hb
    have hx := toNat_ofNat (n := lead.toNat % 32 * 64 + b.toNat % 64) (by omega)
    refine ⟨[b], more, rfl, ?_, rfl⟩
    rw [encodeChar_two (by omega), hx, hbyte (b := lead) (by omega), hbyte (b := b) (by omega)]
  · rw [secondAllowed_iff] at hb
    rw [isContinuation_iff] at hc
    have hx := toNat_ofNat (n := (lead.toNat % 16 * 64 + b.toNat % 64) * 64 + c.toNat % 64)
      (by omega)
    refine ⟨[b, c], more, rfl, ?_, rfl⟩
    rw [encodeChar_three (by omega), hx, hbyte (b := lead) (by omega), hbyte (b := b) (by omega),
      hbyte (b := c) (by omega)]
  · rw [secondAllowed_iff] at hb
    rw [isContinuation_iff] at hc hd
    have hx := toNat_ofNat
      (n := ((lead.toNat % 8 * 64 + b.toNat % 64) * 64 + c.toNat % 64) * 64 + d.toNat % 64)
      (by omega)
    refine ⟨[b, c, d], more, rfl, ?_, rfl⟩
    rw [encodeChar_four (by omega), hx, hbyte (b := lead) (by omega), hbyte (b := b) (by omega),
      hbyte (b := c) (by omega), hbyte (b := d) (by omega)]

/-! ## Texts -/

theorem segments_encodeChars (cs : List Char) :
    segments (encodeChars cs) = cs.map fun c => .scalar c c.utf8Size := by
  induction cs with
  | nil => simp [encodeChars, segments]
  | cons c cs ih =>
    obtain ⟨lead, tail, hencode, hleading⟩ := leading_encodeChar c
    have hbytes : encodeChars (c :: cs) = lead :: (tail ++ encodeChars cs) := by
      simp [encodeChars, hencode]
    have hwidth : tail.length + 1 = c.utf8Size := by
      rw [← String.length_utf8EncodeChar, hencode]
      rfl
    rw [hbytes, segments, hleading]
    simp only [Segment.width, Nat.add_sub_cancel, List.drop_left, ih, List.map_cons]
    rw [hwidth]

theorem collect_scalars (cs : List Char) (width : Char → Nat) (index : Nat) :
    collect index (cs.map fun c => .scalar c (width c)) = .ok cs := by
  induction cs generalizing index with
  | nil => rfl
  | cons c cs ih =>
    rw [List.map_cons, collect, ih]
    rfl

theorem encodeChars_of_collect {bytes : List UInt8} {index : Nat} {cs : List Char}
    (h : collect index (segments bytes) = .ok cs) : encodeChars cs = bytes := by
  induction bytes using segments.induct generalizing index cs with
  | case1 =>
    rw [segments] at h
    cases h
    rfl
  | case2 lead rest ih =>
    rw [segments] at h
    cases hleading : leading lead rest with
    | broken w | cut w => simp [hleading, collect] at h
    | scalar c w =>
      rw [hleading, collect] at h
      obtain ⟨tail, more, rfl, hencode, rfl⟩ := encodeChar_of_leading hleading
      cases hmore : collect (index + (tail.length + 1))
          (segments ((tail ++ more).drop ((Segment.scalar c (tail.length + 1)).width - 1))) with
      | error e => simp [hmore, Except.map] at h
      | ok more' =>
        rw [hmore] at h
        cases h
        rw [hleading] at ih
        have hrest := ih hmore
        simp only [Segment.width, Nat.add_sub_cancel, List.drop_left] at hrest
        simp [encodeChars, hencode] at hrest ⊢
        exact hrest

/-- **Strict decoding** succeeds on the encodings of texts, and gives the text. -/
theorem decode_eq_ok_iff {bytes : List UInt8} {s : String} :
    decode bytes = .ok s ↔ encode s = bytes := by
  have hchars : ∀ cs, decodeChars bytes = .ok cs ↔ encodeChars cs = bytes := by
    intro cs
    refine ⟨encodeChars_of_collect, ?_⟩
    rintro rfl
    rw [decodeChars, segments_encodeChars, collect_scalars]
  rw [decode, encode, ← hchars]
  cases decodeChars bytes with
  | error e => simp [Except.map]
  | ok cs =>
    simp only [Except.map, Except.ok.injEq]
    exact ⟨fun h => by rw [← h, String.toList_ofList], fun h => by rw [h, String.ofList_toList]⟩

end Switchboard.Utf8
