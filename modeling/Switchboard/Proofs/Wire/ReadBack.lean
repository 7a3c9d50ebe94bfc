import Switchboard.Proofs.Json.RoundTrip
import Switchboard.Wire.Message
import Switchboard.Wire.Payload

/-!
# Payloads read back

What a session sends is strict JSON that says what was meant, whatever a token or the identifier of
a session holds; and it is a payload that a session could hear, known by its opcode.

## Main results

* `Envelope.parse?_render`: the fields of an outbound payload.
* `Message.parse_render`: the message that it would be.
* `Payload.reads_back`: handshakes and heartbeats.
-/
namespace Switchboard

namespace Json

theorem exact_ofNat {n : Nat} (h : n < Text.bound64) : (ofNat n).Exact :=
  .number ⟨by omega, Int.ofNat_lt.mpr h⟩

end Json

namespace Payload

theorem exact_envelope {op : Nat} {data : Json} (hop : op < Text.bound8) (h : data.Exact) :
    (envelope op data).Exact := by
  have hop' : op < Text.bound64 := Nat.lt_trans hop (by decide)
  exact .object (by simp [Json.exact_ofNat hop', h])

theorem exact_identifyData (token : String) {intents : Nat} {shard : Shard} (mode : Compression)
    (system : String) (hintents : intents < Text.bound64) (hid : shard.id < Text.bound64)
    (htotal : shard.total < Text.bound64) :
    (identifyData token intents shard mode system).Exact := by
  have hshard : shard.toJson.Exact :=
    .array (by simp [Json.exact_ofNat hid, Json.exact_ofNat htotal])
  have hproperties : (Json.object [("os", .text system), ("browser", .text libraryName),
      ("device", .text libraryName)]).Exact := .object (by simp [Json.Exact.text])
  exact .object (by
    simp [Json.Exact.text, Json.Exact.bool, Json.exact_ofNat hintents, hproperties, hshard,
      Json.exact_ofNat (show largeThreshold < Text.bound64 by decide)])

theorem exact_resumeData (token sessionId : String) {sequence : Nat}
    (h : sequence < Text.bound64) : (resumeData token sessionId sequence).Exact :=
  .object (by simp [Json.Exact.text, Json.exact_ofNat h])

theorem exact_sequenceData {sequence : Option Nat} (h : ∀ n ∈ sequence, n < Text.bound64) :
    (sequenceData sequence).Exact := by
  cases sequence with
  | none => exact .null
  | some n => exact Json.exact_ofNat (h n rfl)

end Payload

/-- The fields of a payload are its opcode and its data, unless these are null. -/
theorem Envelope.parse?_render {op : Nat} {data : Json} (hop : op < Text.bound8)
    (h : data.Exact) : Envelope.parse? (Payload.envelope op data).render =
      some ⟨op, (Json.nullable some data).join, none, none⟩ := by
  have hop' : op < Text.bound64 := Nat.lt_trans hop (by decide)
  have hfields : Json.readFields? fieldNames (Payload.envelope op data).render =
      some [("op", .ofNat op), ("d", data)] :=
    Json.readFields?_render (by simp [Json.exact_ofNat hop', h]) (by simp [fieldNames]) (by simp)
  cases data <;>
    simp [parse?, hfields, Json.required?, Json.optional?, Json.lookup?, Json.asNat?_ofNat hop,
      Json.nullable]

/-- A payload is heard by its opcode. -/
theorem Message.parse_render {op : Nat} {data : Json} (hop : op < Text.bound8) (h : data.Exact) :
    Message.parse (Payload.envelope op data).render =
      Message.ofEnvelope ⟨op, (Json.nullable some data).join, none, none⟩ := by
  rw [Message.parse, Envelope.parse?_render hop h]

namespace Payload

/-- **Handshakes and heartbeats** say what was meant, whatever the token, the identifier of the
session and the name of the system hold: each is strict JSON for an object with its opcode and its data and nothing else, and
heard by a session it would be known by its opcode. -/
theorem reads_back (token sessionId system : String) {sequence intents : Nat} {shard : Shard}
    (mode : Compression) {last : Option Nat} (hsequence : sequence < Text.bound64)
    (hintents : intents < Text.bound64) (hid : shard.id < Text.bound32)
    (htotal : shard.total < Text.bound32) (hlast : ∀ n ∈ last, n < Text.bound64) :
    (Json.parse? (resume token sessionId sequence) = some (.object [
        ("op", .ofNat 6),
        ("d", .object [
          ("token", .text token), ("session_id", .text sessionId), ("seq", .ofNat sequence)])]) ∧
      Message.parse (resume token sessionId sequence) = .ok (.unknown 6)) ∧
    (Json.parse? (identify token intents shard mode system) = some (.object [
        ("op", .ofNat 2),
        ("d", .object [
          ("token", .text token),
          ("intents", .ofNat intents),
          ("properties", .object [
            ("os", .text system), ("browser", .text "shardwire"), ("device", .text "shardwire")]),
          ("shard", .array [.ofNat shard.id, .ofNat shard.total]),
          ("compress", .bool (decide (mode = .payload))),
          ("large_threshold", .ofNat 250)])]) ∧
      Message.parse (identify token intents shard mode system) = .ok (.unknown 2)) ∧
    (Json.parse? (heartbeat last) =
        some (.object [("op", .ofNat 1), ("d", last.elim .null .ofNat)]) ∧
      Message.parse (heartbeat last) = .ok .heartbeat) := by
  have hwide : ∀ {n : Nat}, n < Text.bound32 → n < Text.bound64 :=
    fun h => Nat.lt_trans h (by decide)
  have hresume := exact_resumeData token sessionId hsequence
  have hidentify := exact_identifyData token mode system hintents (hwide hid) (hwide htotal)
  have hheartbeat := exact_sequenceData hlast
  refine ⟨⟨?_, ?_⟩, ⟨?_, ?_⟩, ⟨?_, ?_⟩⟩
  · exact Json.parse?_render (exact_envelope (by decide) hresume)
  · exact Message.parse_render (by decide) hresume
  · exact Json.parse?_render (exact_envelope (by decide) hidentify)
  · exact Message.parse_render (by decide) hidentify
  · rw [heartbeat, Json.parse?_render (exact_envelope (by decide) hheartbeat)]
    cases last <;> rfl
  · exact Message.parse_render (by decide) hheartbeat

/-- A token and an identifier of quotes, backslashes and controls, and a system named by one. -/
theorem reads_back_controls :
    9 < Text.bound64 ∧ 513 < Text.bound64 ∧ 1 < Text.bound32 ∧ 4 < Text.bound32 ∧
    (∀ n ∈ some 7, n < Text.bound64) ∧
    Json.parse? (resume "\"\\\n\x01\x7f" "\\\"" 9) = some (.object [
      ("op", .ofNat 6),
      ("d", .object [
        ("token", .text "\"\\\n\x01\x7f"),
        ("session_id", .text "\\\""),
        ("seq", .ofNat 9)])]) ∧
    Message.parse (identify "\"\\\n\x01\x7f" 513 ⟨1, 4⟩ .payload "\t") = .ok (.unknown 2) ∧
    Message.parse (heartbeat (some 7)) = .ok .heartbeat := by
  have hlast : ∀ n ∈ some 7, n < Text.bound64 := by simp [Text.bound64]
  have h := @reads_back "\"\\\n\x01\x7f" "\\\"" "\t" 9 513 ⟨1, 4⟩ .payload (some 7)
    (by decide) (by decide) (by decide) (by decide) hlast
  exact ⟨by decide, by decide, by decide, by decide, hlast, h.1.1, h.2.1.2, h.2.2.2⟩

end Payload

end Switchboard
