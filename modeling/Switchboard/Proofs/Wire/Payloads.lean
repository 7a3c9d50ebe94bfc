import Switchboard.Wire.Payload

/-!
# What can be read off a payload

The texts that a session sends are read by their opcode, and a handshake that takes up a session
names the number from which it goes on. Neither depends on the rest of the text: the opcode stands
first and ends at a comma, the number stands last and begins after a colon.

## Main results

* `Payload.opcode_render`: the opcode can be read off the text.
* `Payload.op_eq_of_render_eq`: equal texts have equal opcodes.
* `Payload.sequence_eq_of_resume_eq`: equal handshakes go on from the same number.
-/
namespace Switchboard

namespace Decimal

theorem digitChars_injective {a b : Nat} (h : digitChars a = digitChars b) : a = b := by
  calc a = Nat.ofDigitChars 10 (digitChars a) 0 := Nat.ofDigitChars_ten_toDigits.symm
    _ = Nat.ofDigitChars 10 (digitChars b) 0 := by rw [h]
    _ = b := Nat.ofDigitChars_ten_toDigits

/-- The digits in front of a character that is none. -/
theorem takeWhile_isDigit {ds : List Char} {c : Char} (hds : ∀ x ∈ ds, x.isDigit = true)
    (rest : List Char) (hc : c.isDigit = false) : (ds ++ c :: rest).takeWhile Char.isDigit = ds := by
  rw [List.takeWhile_append_of_pos hds]
  simp [hc]

/-- Digits that stand last, after something else, are those of one number only. -/
theorem append_digitChars_inj {a b : Nat} {c : Char} {xs ys : List Char}
    (hc : c.isDigit = false) (h : xs ++ c :: digitChars a = ys ++ c :: digitChars b) : a = b := by
  have hlast : ∀ (n : Nat) (zs : List Char),
      (zs ++ c :: digitChars n).reverse.takeWhile Char.isDigit = (digitChars n).reverse := by
    intro n zs
    have hrev : (zs ++ c :: digitChars n).reverse = (digitChars n).reverse ++ c :: zs.reverse := by
      simp
    rw [hrev]
    exact takeWhile_isDigit (fun _ hx => isDigit_of_mem_digitChars (List.mem_reverse.mp hx)) _ hc
  refine digitChars_injective (List.reverse_inj.mp ?_)
  rw [← hlast a xs, h, hlast b ys]

end Decimal

namespace Payload

theorem chars_envelope (op : Nat) (data : Json) :
    (envelope op data).chars =
      ['\x7b', '"', 'o', 'p', '"', ':'] ++
        (Decimal.digitChars op ++ ',' :: (['"', 'd', '"', ':'] ++ (data.chars ++ ['\x7d']))) := by
  simp [envelope, Json.chars, Json.membersChars, Json.memberChars, Json.quoteChars, Json.ofNat,
    Json.numberChars, Json.integerChars, Json.escapeChar]

/-- The number that stands after the name of the first member. -/
def opcode (p : String) : Nat :=
  Nat.ofDigitChars 10 ((p.toList.drop 6).takeWhile Char.isDigit) 0

theorem opcode_render (op : Nat) (data : Json) : opcode (envelope op data).render = op := by
  have hchars : (envelope op data).render.toList =
      ['\x7b', '"', 'o', 'p', '"', ':'] ++
        (Decimal.digitChars op ++ ',' :: (['"', 'd', '"', ':'] ++ (data.chars ++ ['\x7d']))) := by
    rw [Json.render, String.toList_ofList, chars_envelope]
  rw [opcode, hchars]
  simp only [List.drop_succ_cons, List.drop_zero, List.cons_append, List.nil_append]
  rw [Decimal.takeWhile_isDigit (fun _ hx => Decimal.isDigit_of_mem_digitChars hx) _ (by decide)]
  exact Nat.ofDigitChars_ten_toDigits

/-- A payload that begins a session or takes one up. -/
def isHandshake (p : String) : Bool :=
  opcode p = Opcode.identify.toNat || opcode p = Opcode.resume.toNat

/-- A payload that begins a session. -/
def isIdentify (p : String) : Bool := opcode p = Opcode.identify.toNat

@[simp] theorem opcode_identify (token : String) (intents : Nat) (shard : Shard)
    (mode : Compression) (system : String) :
    opcode (identify token intents shard mode system) = Opcode.identify.toNat :=
  opcode_render ..

@[simp] theorem opcode_resume (token id : String) (q : Nat) :
    opcode (resume token id q) = Opcode.resume.toNat := opcode_render ..

@[simp] theorem opcode_heartbeat (q : Option Nat) :
    opcode (heartbeat q) = Opcode.heartbeat.toNat := opcode_render ..

@[simp] theorem opcode_command (op : Nat) (data : Json) : opcode (command op data) = op :=
  opcode_render ..

/-- The application has no handshakes. -/
theorem isHandshake_command {op : Nat} {data : Json} (hop : Opcode.allowsApplication op = true) :
    isHandshake (command op data) = false := by
  have hne : op ≠ Opcode.identify.toNat ∧ op ≠ Opcode.resume.toNat := by
    constructor <;> rintro rfl <;> exact absurd hop (by decide)
  simp [isHandshake, hne]

/-- Equal texts have equal opcodes. -/
theorem op_eq_of_render_eq {op op' : Nat} {data data' : Json}
    (h : (envelope op data).render = (envelope op' data').render) : op = op' := by
  rw [← opcode_render op data, h, opcode_render]

section Identify

variable {token system : String} {intents : Nat} {shard : Shard} {mode : Compression}

theorem identify_ne_command {op : Nat} {data : Json} (hop : Opcode.allowsApplication op = true) :
    identify token intents shard mode system ≠ command op data := by
  intro h
  have hidentify : Opcode.identify.toNat = op := op_eq_of_render_eq h
  subst hidentify
  exact absurd hop (by decide)

theorem identify_ne_resume {token' id : String} {q : Nat} :
    identify token intents shard mode system ≠ resume token' id q := by
  intro h
  exact absurd (op_eq_of_render_eq h) (by decide)

theorem identify_ne_heartbeat {q : Option Nat} :
    identify token intents shard mode system ≠ heartbeat q := by
  intro h
  exact absurd (op_eq_of_render_eq h) (by decide)

end Identify

theorem resume_ne_command {token id : String} {q op : Nat} {data : Json}
    (hop : Opcode.allowsApplication op = true) : resume token id q ≠ command op data := by
  intro h
  have hresume : Opcode.resume.toNat = op := op_eq_of_render_eq h
  subst hresume
  exact absurd hop (by decide)

theorem resume_ne_heartbeat {token id : String} {q : Nat} {q' : Option Nat} :
    resume token id q ≠ heartbeat q' := by
  intro h
  exact absurd (op_eq_of_render_eq h) (by decide)

/-- The number stands at the end, between a colon and the two braces. -/
theorem chars_resumeData (token id : String) (q : Nat) :
    ∃ cs, (resumeData token id q).chars = (cs ++ ':' :: Decimal.digitChars q) ++ ['\x7d'] := by
  refine ⟨'\x7b' :: (Json.memberChars ("token", .text token) ++
    ',' :: (Json.memberChars ("session_id", .text id) ++ ',' :: Json.quoteChars "seq".toList)), ?_⟩
  simp [resumeData, Json.chars, Json.membersChars, Json.memberChars, Json.ofNat, Json.numberChars,
    Json.integerChars]

/-- Equal handshakes go on from the same number. -/
theorem sequence_eq_of_resume_eq {token token' id id' : String} {q q' : Nat}
    (h : resume token id q = resume token' id' q') : q = q' := by
  have hchars : (envelope Opcode.resume.toNat (resumeData token id q)).chars =
      (envelope Opcode.resume.toNat (resumeData token' id' q')).chars := String.ofList_injective h
  obtain ⟨cs, hcs⟩ := chars_resumeData token id q
  obtain ⟨cs', hcs'⟩ := chars_resumeData token' id' q'
  rw [chars_envelope, chars_envelope, hcs, hcs'] at hchars
  have htail := (List.cons.inj (List.append_cancel_left (List.append_cancel_left hchars))).2
  have hdata := List.append_cancel_right (List.append_cancel_left htail)
  exact Decimal.append_digitChars_inj (by decide) (List.append_cancel_right hdata)

end Payload

end Switchboard
