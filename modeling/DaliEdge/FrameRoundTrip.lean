import DaliEdge.FrameLayout

/-!
# Frames and accepted byte strings

`encode` and `decode` are inverse to each other: what is encoded is decoded to the same
fields, and what is accepted is the encoding of the frame that it is decoded to.
-/

namespace DaliEdge

open ByteBuffer WordBytes

/-- The two frames agree in all that is sent of them. -/
structure Frame.SameContent (f g : Frame) : Prop where
  version_eq : f.version = g.version
  type_eq : f.type = g.type
  sequence_eq : f.sequence = g.sequence
  payloadLength_eq : f.payloadLength = g.payloadLength
  payload_eq : f.payload.toList.take f.payloadLength.toNat =
    g.payload.toList.take f.payloadLength.toNat

namespace FrameCodec

theorem sameContent_of_storedIn {frame into g : Frame}
    (hle : frame.payloadLength.toNat ≤ Frame.kMaximumPayload)
    (h : (Layout.ofFrame frame).StoredIn into g) : Frame.SameContent g frame := by
  obtain ⟨hversion, htype, hsequence, hlength, hpayload⟩ := h
  have hlength' : g.payloadLength = frame.payloadLength :=
    hlength.trans (word_lowByte_highByte _)
  refine ⟨hversion, htype, hsequence.trans (word_lowByte_highByte _), hlength', ?_⟩
  rw [hlength', ← Layout.length_payload_ofFrame hle, hpayload.take_eq,
    Layout.length_payload_ofFrame hle]
  rfl

theorem decode_encodes {frame : Frame} {bytes : List UInt8} (h : Encodes frame bytes)
    (into : Frame) : ∃ decoded, decode (some bytes) bytes.length into = .ok (true, decoded) ∧
      Frame.SameContent decoded frame := by
  obtain ⟨hle, rfl⟩ := (encodes_iff frame bytes).1 h
  obtain ⟨-, g, hg, hstored⟩ | ⟨hl, -⟩ := decode_cases (Layout.ofFrame frame) into
  · exact ⟨g, hg, sameContent_of_storedIn hle hstored⟩
  · exact absurd (Layout.wellFormed_ofFrame hle) hl

theorem encodes_of_decode {bytes : List UInt8} {into decoded : Frame}
    (h : decode (some bytes) bytes.length into = .ok (true, decoded)) : Encodes decoded bytes := by
  obtain ⟨l, rfl, hl, hstored⟩ := exists_layout_of_decode h
  rw [encodes_iff, hstored.ofFrame_eq hl, hstored.payloadLength_eq, hl.length_eq]
  exact ⟨hl.payload_le, rfl⟩

/-- The codec is a bijection between frames, up to what is sent of them, and accepted bytes. -/
theorem encode_decode_bijective :
    (∀ frame output outputLength, ∃ ok output' outputLength',
      encode frame output outputLength = .ok (ok, output', outputLength') ∧
        (ok = true ↔ frame.payloadLength.toNat ≤ 240) ∧
        (ok = true → outputLength' = frame.payloadLength.toNat + 10)) ∧
    (∀ frame output outputLength output' outputLength',
      encode frame output outputLength = .ok (true, output', outputLength') → ∀ into,
        ∃ decoded, decode (some (output'.toList.take outputLength')) outputLength' into =
            .ok (true, decoded) ∧ Frame.SameContent decoded frame) ∧
    (∀ bytes into, (∃ decoded, decode (some bytes) bytes.length into = .ok (true, decoded)) ↔
      ∃ frame, Encodes frame bytes) ∧
    (∀ bytes into decoded, decode (some bytes) bytes.length into = .ok (true, decoded) →
      ∀ output outputLength, ∃ output',
        encode decoded output outputLength = .ok (true, output', bytes.length) ∧
          output'.toList.take bytes.length = bytes) := by
  refine ⟨?_, ?_, ?_, ?_⟩
  · intro frame output outputLength
    rcases Nat.lt_or_ge Frame.kMaximumPayload frame.payloadLength.toNat with hgt | hle
    · refine ⟨_, _, _, encode_refused hgt output outputLength, ?_, fun h => absurd h (by decide)⟩
      exact ⟨fun h => absurd h (by decide), fun h => absurd h (not_le.2 hgt)⟩
    · obtain ⟨output', hok, -⟩ := encode_filled hle output outputLength
      exact ⟨_, _, _, hok, ⟨fun _ => hle, fun _ => rfl⟩, fun _ => rfl⟩
  · intro frame output outputLength output' outputLength' hok into
    obtain ⟨hle, hlength, hbytes⟩ := encode_eq_ok hok
    have hsize : (output'.toList.take outputLength').length = outputLength' := by
      rw [hbytes, Layout.length_bytes, Layout.length_payload_ofFrame hle, hlength]
    have hdecode := decode_encodes ⟨_, _, _, _, hok, rfl⟩ into
    rwa [hsize] at hdecode
  · intro bytes into
    constructor
    · rintro ⟨decoded, h⟩
      exact ⟨decoded, encodes_of_decode h⟩
    · rintro ⟨frame, h⟩
      obtain ⟨decoded, hdecoded, -⟩ := decode_encodes h into
      exact ⟨decoded, hdecoded⟩
  · intro bytes into decoded h output outputLength
    obtain ⟨hle, hbytes⟩ := (encodes_iff decoded bytes).1 (encodes_of_decode h)
    obtain ⟨output', hok, hfilled⟩ := encode_filled hle output outputLength
    have hsize : bytes.length = decoded.payloadLength.toNat + 10 := by
      rw [hbytes, Layout.length_bytes, Layout.length_payload_ofFrame hle]
    refine ⟨output', by rw [hsize, hok], ?_⟩
    rw [hsize, (encode_eq_ok hok).2.2, ← hbytes]

theorem encode_decode_bijective_event :
    ∃ output', encode { type := .lightEvent, sequence := 42, payloadLength := 1 }
        (Vector.replicate 250 0) 0 = .ok (true, output', 11) ∧
      ∃ decoded, decode (some (output'.toList.take 11)) 11 {} = .ok (true, decoded) ∧
        decoded.sequence = 42 := by
  obtain ⟨ok, output', outputLength', hok, hiff, hlength⟩ := encode_decode_bijective.1
    { type := .lightEvent, sequence := 42, payloadLength := 1 } (Vector.replicate 250 0) 0
  obtain rfl : ok = true := hiff.2 (by decide)
  obtain rfl : outputLength' = 11 := hlength rfl
  obtain ⟨decoded, hdecoded, hsame⟩ := encode_decode_bijective.2.1 _ _ _ _ _ hok {}
  exact ⟨output', hok, decoded, hdecoded, hsame.sequence_eq⟩

end FrameCodec

end DaliEdge
