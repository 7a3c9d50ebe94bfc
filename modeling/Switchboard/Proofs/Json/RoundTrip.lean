import Mathlib.Tactic.SplitIfs
import Switchboard.Json.Fields
import Switchboard.Json.Printer

/-!
# Reading undoes printing

A value that holds no floats is read back from its compact text, whatever its strings are. What a
reader leaves is what stands behind the text, as long as that does not go on with a number; so each
kind of text can be judged on its own, and an array or object by the texts in it.

## Main definitions

* `Json.Fits`: whole numbers of 64 bits.
* `Json.Exact`: values whose numbers are whole ones of 64 bits.
* `Json.Ends`: what may stand behind a value.
* `Json.ReadsBack`: a value is read back from the front of a text.

## Main results

* `Json.readString_flatMap_escapeChar`: strings.
* `Json.readNumber_integerChars`: whole numbers.
* `Json.Exact.readsBack`: values.
* `Json.parse?_render`: documents.
* `Json.readFields?_render`: documents with known fields.
-/
namespace Switchboard

namespace Decimal

theorem digitsValue_digitChars (n : Nat) : digitsValue (digitChars n) = n := by
  calc digitsValue (digitChars n) = Nat.ofDigitChars 10 (digitChars n) 0 := by
        simp [digitsValue, Nat.ofDigitChars_eq_foldl, Nat.mul_comm]
    _ = n := Nat.ofDigitChars_ten_toDigits

end Decimal

namespace Json

/-! ## Strings -/

theorem readString_quote (rest : List Char) : readString ('"' :: rest) = some ([], rest) := by
  rw [readString.eq_def]
  rfl

theorem readString_plain {c : Char} (hquote : c ≠ '"') (hslash : c ≠ '\\')
    (hcontrol : ¬ c.toNat < 0x20) (rest : List Char) :
    readString (c :: rest) = withChar c (readString rest) := by
  rw [readString.eq_def]
  simp only [hquote, hslash, hcontrol, if_false]

theorem readString_short {e c : Char} (h : shortEscape? e = some c) (rest : List Char) :
    readString ('\\' :: e :: rest) = withChar c (readString rest) := by
  have hu : e ≠ 'u' := by
    rintro rfl
    have hnone : shortEscape? 'u' = none := by decide
    simp [hnone] at h
  rw [readString.eq_def]
  simp only [Char.reduceEq, hu, h, if_true, if_false]

theorem readString_unicode {a b c d : Char} {n : Nat} (h : codeUnit? a b c d = some n)
    (hn : n < 0xd800) (rest : List Char) :
    readString ('\\' :: 'u' :: a :: b :: c :: d :: rest) =
      withChar (Char.ofNat n) (readString rest) := by
  have hhigh : isHighSurrogate n = false := by simp [isHighSurrogate]; omega
  have hlow : isLowSurrogate n = false := by simp [isLowSurrogate]; omega
  rw [readString.eq_def]
  simp only [Char.reduceEq, h, hhigh, hlow, Bool.false_eq_true, if_true, if_false]

theorem hexDigit?_digitChar : ∀ d < 16, hexDigit? (Nat.digitChar d) = some d := by decide

theorem codeUnit?_digitChar {n : Nat} (h : n < 256) :
    codeUnit? '0' '0' (Nat.digitChar (n / 16)) (Nat.digitChar (n % 16)) = some n := by
  have hzero : hexDigit? '0' = some 0 := hexDigit?_digitChar 0 (by omega)
  have hhigh := hexDigit?_digitChar (n / 16) (by omega)
  have hlow := hexDigit?_digitChar (n % 16) (by omega)
  simp only [codeUnit?, hzero, hhigh, hlow, Option.bind_eq_bind, Option.bind_some, Option.pure_def]
  congr 1
  omega

/-- A control character is written with two zeros and the two digits of its number. -/
theorem hexEscape_of_lt {c : Char} (h : c.toNat < 256) : hexEscape c =
    ['\\', 'u', '0', '0', Nat.digitChar (c.toNat / 16), Nat.digitChar (c.toNat % 16)] := by
  by_cases hone : c.toNat < 16
  · rw [hexEscape, Nat.toDigits_of_lt_base hone, Nat.div_eq_of_lt hone, Nat.mod_eq_of_lt hone]
    rfl
  · rw [hexEscape, Nat.toDigits_of_base_le (by omega) (by omega),
      Nat.toDigits_of_lt_base (by omega : c.toNat / 16 < 16)]
    rfl

theorem readString_hexEscape {c : Char} (h : c.toNat < 256) (rest : List Char) :
    readString (hexEscape c ++ rest) = withChar c (readString rest) := by
  rw [hexEscape_of_lt h]
  simp only [List.cons_append, List.nil_append]
  rw [readString_unicode (codeUnit?_digitChar h) (by omega), Char.ofNat_toNat]

/-- A character of a string is read back from what stands for it. -/
theorem readString_escapeChar (c : Char) (rest : List Char) :
    readString (escapeChar c ++ rest) = withChar c (readString rest) := by
  have hchar : ∀ n, c.toNat = n → c = Char.ofNat n := fun n hn => by rw [← hn, Char.ofNat_toNat]
  rw [escapeChar]
  -- two marks and five controls are read by a letter, the other controls by their number
  split_ifs with hquote hslash hcontrol hback hfeed hline hreturn htab
  · rw [hquote]
    exact readString_short (by decide) rest
  · rw [hslash]
    exact readString_short (by decide) rest
  · rw [hchar _ hback]
    exact readString_short (by decide) rest
  · rw [hchar _ hfeed]
    exact readString_short (by decide) rest
  · rw [hline]
    exact readString_short (by decide) rest
  · rw [hreturn]
    exact readString_short (by decide) rest
  · rw [htab]
    exact readString_short (by decide) rest
  · exact readString_hexEscape (by omega) rest
  · exact readString_plain hquote hslash hcontrol rest

/-- **Strings** are read back up to their closing quote. -/
theorem readString_flatMap_escapeChar (cs rest : List Char) :
    readString (cs.flatMap escapeChar ++ '"' :: rest) = some (cs, rest) := by
  induction cs with
  | nil => exact readString_quote rest
  | cons c cs ih =>
    rw [List.flatMap_cons, List.append_assoc, readString_escapeChar, ih]
    rfl

/-! ## Numbers -/

/-- The text does not go on with a number. -/
def Ends : List Char → Prop
  | [] => True
  | c :: _ => c.isDigit = false ∧ c ≠ '.' ∧ c ≠ 'e' ∧ c ≠ 'E'

theorem spanDigits_append {ds rest : List Char} (hds : ∀ c ∈ ds, c.isDigit = true)
    (hrest : Ends rest) : Decimal.spanDigits (ds ++ rest) = (ds, rest) := by
  rw [Decimal.spanDigits, List.takeWhile_append_of_pos hds, List.dropWhile_append_of_pos hds]
  cases rest with
  | nil => simp
  | cons c rest => simp [hrest.1]

theorem readFraction_of_ends {rest : List Char} (h : Ends rest) :
    readFraction rest = some (none, rest) := by
  cases rest with
  | nil => rfl
  | cons c rest =>
    unfold readFraction
    split
    · rename_i hcons
      exact absurd (List.cons.inj hcons).1 h.2.1
    · rfl

theorem readPower_of_ends {rest : List Char} (h : Ends rest) :
    readPower rest = some (none, rest) := by
  cases rest with
  | nil => rfl
  | cons c rest => simp [readPower, h.2.2]

theorem digitChar_ne_zero : ∀ d < 10, 0 < d → Nat.digitChar d ≠ '0' := by decide

/-- The digits of a number begin with a zero for zero only. -/
theorem exists_digitChars (n : Nat) :
    ∃ d ds, Decimal.digitChars n = d :: ds ∧ d.isDigit = true ∧ (0 < n → d ≠ '0') := by
  have hsome : ∃ d ds, Decimal.digitChars n = d :: ds ∧ (0 < n → d ≠ '0') := by
    -- the first digit is that of the tenth part, down to a single digit
    induction n using Nat.strongRecOn with
    | ind n ih =>
      rw [Decimal.digitChars]
      by_cases hlt : n < 10
      · exact ⟨_, [], Nat.toDigits_of_lt_base hlt, digitChar_ne_zero n hlt⟩
      · obtain ⟨d, ds, hds, hd⟩ := ih (n / 10) (by omega)
        rw [Nat.toDigits_of_base_le (by omega) (by omega), ← Decimal.digitChars, hds]
        exact ⟨d, _, rfl, fun _ => hd (by omega)⟩
  obtain ⟨d, ds, hds, hd⟩ := hsome
  exact ⟨d, ds, hds, Decimal.isDigit_of_mem_digitChars (n := n) (by simp [hds]), hd⟩

theorem readWhole_digitChars (n : Nat) {rest : List Char} (h : Ends rest) :
    readWhole (Decimal.digitChars n ++ rest) = some (Decimal.digitChars n, rest) := by
  obtain rfl | hpos := Nat.eq_zero_or_pos n
  · rfl
  · have hspan : Decimal.spanDigits (Decimal.digitChars n ++ rest) = (Decimal.digitChars n, rest) :=
      spanDigits_append (fun _ hc => Decimal.isDigit_of_mem_digitChars hc) h
    obtain ⟨d, ds, hds, -, hd⟩ := exists_digitChars n
    rw [hds, List.cons_append] at hspan ⊢
    unfold readWhole
    split
    · rename_i hcons
      exact absurd (List.cons.inj hcons).1 (hd hpos)
    · simp [hspan]

theorem readFigure_integerChars (i : Int) {rest : List Char} (h : Ends rest) :
    readFigure (integerChars i ++ rest) =
      some (⟨decide (i < 0), Decimal.digitChars i.natAbs, none, none⟩, rest) := by
  cases i with
  | ofNat n =>
    obtain ⟨d, ds, hds, hdigit, -⟩ := exists_digitChars n
    have hsign : d ≠ '-' := by
      rintro rfl
      exact absurd hdigit (by decide)
    have hwhole := readWhole_digitChars n h
    rw [hds, List.cons_append] at hwhole
    simp [readFigure, integerChars, hds, hsign, hwhole, readFraction_of_ends, readPower_of_ends, h]
  | negSucc n =>
    simp [readFigure, integerChars, readWhole_digitChars, readFraction_of_ends, readPower_of_ends,
      h]

/-- A whole number of 64 bits, with a sign or without. -/
def Fits (i : Int) : Prop := -((1 <<< 63 : Nat) : Int) ≤ i ∧ i < ((1 <<< 64 : Nat) : Int)

/-- **Whole numbers** of 64 bits are read back. -/
theorem readNumber_integerChars {i : Int} (hi : Fits i) {rest : List Char} (h : Ends rest) :
    readNumber (integerChars i ++ rest) = some (.integer i, rest) := by
  have hfigure : (Figure.mk (decide (i < 0)) (Decimal.digitChars i.natAbs) none none).number? =
      some (.integer i) := by
    obtain ⟨hlow, hhigh⟩ := hi
    simp only [Figure.number?, Decimal.digitsValue_digitChars, decide_eq_true_eq]
    by_cases hneg : i < 0
    · have hbound : i.natAbs ≠ 0 ∧ i.natAbs ≤ 1 <<< 63 := by omega
      rw [if_pos hneg, if_pos hbound]
      congr 2
      omega
    · have hbound : i.natAbs < 1 <<< 64 := by omega
      rw [if_neg hneg, if_pos hbound]
      congr 2
      omega
  rw [readNumber, readFigure_integerChars i h]
  simp [hfigure]

/-! ## Values -/

/-- A value whose numbers are whole ones of 64 bits. -/
inductive Exact : Json → Prop where
  | null : Exact null
  | bool (b : Bool) : Exact (bool b)
  | number {i : Int} (h : Fits i) : Exact (number (.integer i))
  | text (s : String) : Exact (text s)
  | array {items : List Json} (h : ∀ item ∈ items, Exact item) : Exact (array items)
  | object {members : List (String × Json)} (h : ∀ member ∈ members, Exact member.2) :
      Exact (object members)

/-- A value is read back from the front of a text, with fuel for each of its characters. -/
def ReadsBack (v : Json) : Prop :=
  ∀ fuel rest, v.chars.length ≤ fuel → Ends rest →
    readValue fuel (v.chars ++ rest) = some (v, rest)

theorem skipSpace_cons {c : Char} (h : isSpace c = false) (cs : List Char) :
    skipSpace (c :: cs) = c :: cs := by
  simp [skipSpace, h]

theorem afterChar_cons_self {c : Char} (h : isSpace c = false) (cs : List Char) :
    afterChar c (c :: cs) = some cs := by
  simp [afterChar, skipSpace_cons h]

theorem afterChar_cons_of_ne {c d : Char} (h : isSpace d = false) (hne : d ≠ c) (cs : List Char) :
    afterChar c (d :: cs) = none := by
  simp [afterChar, skipSpace_cons h, hne]

/-- A number begins with a digit or a sign, and so with nothing that another value begins with. -/
theorem ne_of_opensNumber {c k : Char} (hc : c.isDigit = true ∨ c = '-')
    (hk : k.isDigit = false ∧ k ≠ '-') : c ≠ k := by
  rintro rfl
  simp [hk] at hc

theorem isSpace_of_opensNumber {c : Char} (hc : c.isDigit = true ∨ c = '-') :
    isSpace c = false := by
  simp [isSpace, ne_of_opensNumber hc]

theorem exists_integerChars (i : Int) :
    ∃ c cs, integerChars i = c :: cs ∧ (c.isDigit = true ∨ c = '-') := by
  cases i with
  | ofNat n =>
    obtain ⟨d, ds, hds, hdigit, -⟩ := exists_digitChars n
    exact ⟨d, ds, hds, .inl hdigit⟩
  | negSucc n => exact ⟨_, _, rfl, .inr rfl⟩

theorem readValue_of_opensNumber {c : Char} (hc : c.isDigit = true ∨ c = '-') (fuel : Nat)
    (cs : List Char) : readValue (fuel + 1) (c :: cs) =
      (readNumber (c :: cs)).map fun (n, more) => (number n, more) := by
  rw [readValue, skipSpace_cons (isSpace_of_opensNumber hc)]
  simp [ne_of_opensNumber hc]

/-- No text of a value begins with a blank or a bracket that closes an array. -/
theorem Exact.exists_chars {v : Json} (h : v.Exact) :
    ∃ c cs, v.chars = c :: cs ∧ isSpace c = false ∧ c ≠ ']' := by
  cases h with
  | null | array | object => exact ⟨_, _, by rw [chars], rfl, by decide⟩
  | text => exact ⟨_, _, by rw [chars, quoteChars]; rfl, rfl, by decide⟩
  | bool b => cases b <;> exact ⟨_, _, by rw [chars], rfl, by decide⟩
  | @number i =>
    obtain ⟨c, cs, hcs, hc⟩ := exists_integerChars i
    exact ⟨c, cs, by rw [chars, numberChars, hcs], isSpace_of_opensNumber hc,
      ne_of_opensNumber hc (by decide)⟩

/-- The items of an array, with a bracket behind the last one and a comma behind any other. -/
theorem readItems_itemsChars {items : List Json} (hne : items ≠ [])
    (h : ∀ item ∈ items, item.ReadsBack) {fuel : Nat} (hfuel : (itemsChars items).length ≤ fuel)
    (rest : List Char) : readItems fuel (itemsChars items ++ rest) = some (items, rest) := by
  induction items generalizing fuel with
  | nil => exact absurd rfl hne
  | cons item items ih =>
    have hitem := h item (by simp)
    cases items with
    | nil =>
      simp only [itemsChars, List.length_append, List.length_cons, List.length_nil] at hfuel
      obtain ⟨fuel, rfl⟩ : ∃ f, fuel = f + 1 := ⟨fuel - 1, by omega⟩
      have hread := hitem fuel (']' :: rest) (by omega) (by simp [Ends])
      rw [readItems]
      simp [itemsChars, hread, skipSpace_cons, isSpace]
    | cons next more =>
      simp only [itemsChars, List.length_append, List.length_cons] at hfuel
      obtain ⟨fuel, rfl⟩ : ∃ f, fuel = f + 1 := ⟨fuel - 1, by omega⟩
      have hread := hitem fuel (',' :: (itemsChars (next :: more) ++ rest)) (by omega)
        (by simp [Ends])
      have hrest : readItems fuel (itemsChars (next :: more) ++ rest) = some (next :: more, rest) :=
        ih (List.cons_ne_nil _ _) (fun x hx => h x (by simp [hx])) (by omega)
      rw [readItems]
      simp [itemsChars, hread, skipSpace_cons, isSpace, hrest]

/-- The text of a last member. -/
theorem membersChars_singleton_append (key : String) (value : Json) (rest : List Char) :
    membersChars [(key, value)] ++ rest =
      '"' :: (key.toList.flatMap escapeChar ++ '"' :: ':' :: (value.chars ++ '\x7d' :: rest)) := by
  simp [membersChars, memberChars, quoteChars]

/-- The text of a member that others follow. -/
theorem membersChars_cons_append (key : String) (value : Json) {members : List (String × Json)}
    (h : members ≠ []) (rest : List Char) :
    membersChars ((key, value) :: members) ++ rest =
      '"' :: (key.toList.flatMap escapeChar ++
        '"' :: ':' :: (value.chars ++ ',' :: (membersChars members ++ rest))) := by
  cases members with
  | nil => exact absurd rfl h
  | cons => simp [membersChars, memberChars, quoteChars]

/-- The text of an object is longer than those of its first value and of the other members. -/
theorem length_membersChars_cons (key : String) (value : Json) (members : List (String × Json)) :
    value.chars.length + (membersChars members).length <
      (membersChars ((key, value) :: members)).length := by
  cases members <;> simp [membersChars, memberChars, quoteChars] <;> omega

theorem afterChar_membersChars {members : List (String × Json)} (hne : members ≠ [])
    (rest : List Char) : afterChar '\x7d' (membersChars members ++ rest) = none := by
  obtain ⟨⟨key, value⟩, more, rfl⟩ := List.exists_cons_of_ne_nil hne
  cases more <;>
    simp [membersChars, memberChars, quoteChars, afterChar_cons_of_ne, isSpace]

/-- The members of an object, with a brace behind the last one and a comma behind any other. -/
theorem readMembers_membersChars {members : List (String × Json)} (hne : members ≠ [])
    (h : ∀ member ∈ members, member.2.ReadsBack) {fuel : Nat}
    (hfuel : (membersChars members).length ≤ fuel) (rest : List Char) :
    readMembers fuel (membersChars members ++ rest) = some (members, rest) := by
  induction members generalizing fuel with
  | nil => exact absurd rfl hne
  | cons member members ih =>
    obtain ⟨key, value⟩ := member
    have hlength := length_membersChars_cons key value members
    obtain ⟨fuel, rfl⟩ : ∃ f, fuel = f + 1 := ⟨fuel - 1, by omega⟩
    have hvalue : value.ReadsBack := h (key, value) (by simp)
    by_cases hmore : members = []
    · subst hmore
      have hread := hvalue fuel ('\x7d' :: rest) (by omega) (by simp [Ends])
      rw [membersChars_singleton_append, readMembers, afterChar_cons_self rfl]
      simp [readString_flatMap_escapeChar, afterChar_cons_self, hread, skipSpace_cons, isSpace]
    · have hread := hvalue fuel (',' :: (membersChars members ++ rest)) (by omega) (by simp [Ends])
      have hrest : readMembers fuel (membersChars members ++ rest) = some (members, rest) :=
        ih hmore (fun x hx => h x (by simp [hx])) (by omega)
      rw [membersChars_cons_append key value hmore, readMembers, afterChar_cons_self rfl]
      simp [readString_flatMap_escapeChar, afterChar_cons_self, hread, skipSpace_cons, isSpace,
        hrest]

theorem readsBack_number {i : Int} (hi : Fits i) : (number (.integer i)).ReadsBack := by
  intro fuel rest hfuel hrest
  obtain ⟨c, cs, hcs, hc⟩ := exists_integerChars i
  have hread := readNumber_integerChars hi hrest
  rw [chars, numberChars, hcs] at hfuel ⊢
  rw [hcs, List.cons_append] at hread
  obtain ⟨fuel, rfl⟩ := Nat.exists_eq_add_one_of_ne_zero (Nat.ne_zero_of_lt hfuel)
  rw [List.cons_append, readValue_of_opensNumber hc, hread]
  rfl

theorem readsBack_text (s : String) : (text s).ReadsBack := by
  intro fuel rest hfuel _
  have hchars : (text s).chars ++ rest = '"' :: (s.toList.flatMap escapeChar ++ '"' :: rest) := by
    simp [chars, quoteChars]
  obtain ⟨fuel, rfl⟩ := Nat.exists_eq_add_one_of_ne_zero (Nat.ne_zero_of_lt hfuel)
  rw [hchars, readValue, skipSpace_cons rfl]
  simp [readString_flatMap_escapeChar]

theorem readsBack_array {items : List Json} (h : ∀ item ∈ items, Exact item)
    (hitems : ∀ item ∈ items, item.ReadsBack) : (array items).ReadsBack := by
  intro fuel rest hfuel _
  rw [chars, List.length_cons] at hfuel
  obtain ⟨fuel, rfl⟩ := Nat.exists_eq_add_one_of_ne_zero (Nat.ne_zero_of_lt hfuel)
  rw [chars, List.cons_append, readValue, skipSpace_cons rfl]
  by_cases hne : items = []
  · subst hne
    simp [itemsChars, afterChar_cons_self, isSpace]
  · -- the first item is not taken for the end of the array
    have hopen : afterChar ']' (itemsChars items ++ rest) = none := by
      obtain ⟨item, more, rfl⟩ := List.exists_cons_of_ne_nil hne
      obtain ⟨c, cs, hcs, hspace, hclose⟩ := (h item (by simp)).exists_chars
      cases more <;> simp [itemsChars, hcs, afterChar_cons_of_ne hspace hclose]
    have hread := readItems_itemsChars hne hitems (Nat.le_of_succ_le_succ hfuel) rest
    simp [hopen, hread]

theorem readsBack_object {members : List (String × Json)}
    (hmembers : ∀ member ∈ members, member.2.ReadsBack) : (object members).ReadsBack := by
  intro fuel rest hfuel _
  rw [chars, List.length_cons] at hfuel
  obtain ⟨fuel, rfl⟩ := Nat.exists_eq_add_one_of_ne_zero (Nat.ne_zero_of_lt hfuel)
  rw [chars, List.cons_append, readValue, skipSpace_cons rfl]
  by_cases hne : members = []
  · subst hne
    simp [membersChars, afterChar_cons_self, isSpace]
  · have hopen : afterChar '\x7d' (membersChars members ++ rest) = none :=
      afterChar_membersChars hne rest
    have hread := readMembers_membersChars hne hmembers (Nat.le_of_succ_le_succ hfuel) rest
    simp [hopen, hread]

/-- **Values** without floats are read back. -/
theorem Exact.readsBack {v : Json} (h : v.Exact) : v.ReadsBack := by
  induction h with
  | null =>
    intro fuel rest hfuel _
    obtain ⟨fuel, rfl⟩ := Nat.exists_eq_add_one_of_ne_zero (Nat.ne_zero_of_lt hfuel)
    simp [chars, readValue, skipSpace_cons, isSpace, afterWord]
  | bool b =>
    intro fuel rest hfuel _
    cases b <;>
    · obtain ⟨fuel, rfl⟩ := Nat.exists_eq_add_one_of_ne_zero (Nat.ne_zero_of_lt hfuel)
      simp [chars, readValue, skipSpace_cons, isSpace, afterWord]
  | number hi => exact readsBack_number hi
  | text s => exact readsBack_text s
  | array h ih => exact readsBack_array h ih
  | object h ih => exact readsBack_object ih

/-- **Documents**: a value without floats is what its compact text says. -/
theorem parse?_render {v : Json} (h : v.Exact) : parse? v.render = some v := by
  have hread := h.readsBack (fuelFor v.chars) [] (by rw [fuelFor]; omega) trivial
  rw [List.append_nil] at hread
  rw [parse?, render, String.toList_ofList, parseChars?, hread]
  rfl

/-! ## Documents with known fields -/

theorem lookup?_eq_none {name : String} {members : List (String × Json)}
    (h : name ∉ members.map Prod.fst) : lookup? name members = none := by
  induction members with
  | nil => rfl
  | cons member members ih =>
    simp only [List.map_cons, List.mem_cons, not_or] at h
    simp [lookup?, Ne.symm h.1, ih h.2]

/-- Members whose names are known and new are all found. -/
theorem readKnown_membersChars {names : List String} {found members : List (String × Json)}
    (hne : members ≠ []) (h : ∀ member ∈ members, member.2.ReadsBack)
    (hknown : ∀ member ∈ members, member.1 ∈ names)
    (hdistinct : ((found ++ members).map Prod.fst).Nodup) {fuel : Nat}
    (hfuel : (membersChars members).length ≤ fuel) (rest : List Char) :
    readKnown names fuel found (membersChars members ++ rest) = some (found ++ members, rest) := by
  induction members generalizing fuel found with
  | nil => exact absurd rfl hne
  | cons member members ih =>
    obtain ⟨key, value⟩ := member
    have hlength := length_membersChars_cons key value members
    obtain ⟨fuel, rfl⟩ : ∃ f, fuel = f + 1 := ⟨fuel - 1, by omega⟩
    have hvalue : value.ReadsBack := h (key, value) (by simp)
    have hname : key ∈ names := hknown (key, value) (by simp)
    have hnew : lookup? key found = none := by
      rw [List.map_append, List.nodup_append] at hdistinct
      exact lookup?_eq_none fun hmem => hdistinct.2.2 key hmem key (by simp) rfl
    -- a known field is read with fuel of its own
    have hread : ∀ more, Ends more →
        readValue (fuelFor (value.chars ++ more)) (value.chars ++ more) = some (value, more) :=
      fun more hmore => hvalue _ _ (by simp only [fuelFor, List.length_append]; omega) hmore
    by_cases hmore : members = []
    · subst hmore
      have hlast := hread ('\x7d' :: rest) (by simp [Ends])
      rw [membersChars_singleton_append, readKnown, afterChar_cons_self rfl]
      simp [readString_flatMap_escapeChar, afterChar_cons_self, hlast, skipSpace_cons, isSpace,
        hname, hnew]
    · have hdistinct' : (((found ++ [(key, value)]) ++ members).map Prod.fst).Nodup := by
        simpa using hdistinct
      have hrest : readKnown names fuel (found ++ [(key, value)]) (membersChars members ++ rest) =
          some ((found ++ [(key, value)]) ++ members, rest) :=
        ih hmore (fun x hx => h x (by simp [hx])) (fun x hx => hknown x (by simp [hx])) hdistinct'
          (by omega)
      have hfirst := hread (',' :: (membersChars members ++ rest)) (by simp [Ends])
      rw [membersChars_cons_append key value hmore, readKnown, afterChar_cons_self rfl]
      simp [readString_flatMap_escapeChar, afterChar_cons_self, hfirst, skipSpace_cons, isSpace,
        hname, hnew, hrest]

/-- **Documents with known fields**: an object that has only such, each once, is what its compact
text says. -/
theorem readFields?_render {names : List String} {members : List (String × Json)}
    (h : ∀ member ∈ members, Exact member.2) (hknown : ∀ member ∈ members, member.1 ∈ names)
    (hdistinct : (members.map Prod.fst).Nodup) :
    readFields? names (object members).render = some members := by
  rw [readFields?, render, String.toList_ofList, chars, readFieldsChars?, skipSpace_cons rfl]
  by_cases hne : members = []
  · subst hne
    rfl
  · have hopen : afterChar '\x7d' (membersChars members) = none := by
      simpa using afterChar_membersChars hne []
    have hread : ∀ fuel, (membersChars members).length ≤ fuel →
        readKnown names fuel [] (membersChars members ++ []) = some ([] ++ members, []) :=
      fun fuel hfuel => readKnown_membersChars hne (fun x hx => (h x hx).readsBack) hknown
        (by simpa using hdistinct) hfuel []
    simp only [List.append_nil, List.nil_append] at hread
    simp [hopen, hread, atEnd, skipSpace]

end Json

end Switchboard
