import DaliEdge.FrameLayout

/-!
# Frames from an unreliable link

Neither function ever makes a fault: the checks come before the accesses they guard. Since a read
behind the buffer would be one, what `decode` does is the same whatever lies there. A call that
fails leaves what it was given to write to.
-/

namespace DaliEdge

open ByteBuffer WordBytes

namespace FrameCodec

theorem crc16_append (bytes beyond : List UInt8) (length : ℕ) :
    Extends (crc16 bytes length) (crc16 (bytes ++ beyond) length) := by
  induction length with
  | zero => exact Extends.refl _
  | succ length ih =>
      apply ih.bind
      intro crc
      apply (read_append bytes beyond length).bind
      exact fun b => Extends.refl _

/-- In more memory `decode` does the same, when it makes no fault in less. -/
theorem decode_append (bytes beyond : List UInt8) (length : ℕ) (into : Frame) :
    Extends (decode (some bytes) length into) (decode (some (bytes ++ beyond)) length into) := by
  have hread := read_append bytes beyond
  have hcrc : ∀ n, Extends (crc16 (bytes.drop 1) n) (crc16 ((bytes ++ beyond).drop 1) n) := by
    intro n
    rw [List.drop_append]
    exact crc16_append (bytes.drop 1) _ n
  have hcopy : ∀ n, Extends (copy (bytes.drop 7) into.payload 0 n)
      (copy ((bytes ++ beyond).drop 7) into.payload 0 n) := by
    intro n
    rw [List.drop_append]
    exact copy_append (bytes.drop 7) _ into.payload 0 n
  rw [decode, decode]
  apply Extends.ite (.refl _)
  apply (hread 0).bind
  intro start
  apply Extends.ite (.refl _)
  apply (hread (length - 1)).bind
  intro stop
  apply Extends.ite (.refl _)
  apply (hread 5).bind
  intro low
  apply (hread 6).bind
  intro high
  apply Extends.ite (.refl _)
  apply (hread _).bind
  intro checksumLow
  apply (hread _).bind
  intro checksumHigh
  apply (hcrc _).bind
  intro checksum
  apply Extends.ite (.refl _)
  apply (hread 1).bind
  intro version
  apply (hread 2).bind
  intro type
  apply (hread 3).bind
  intro sequenceLow
  apply (hread 4).bind
  intro sequenceHigh
  apply (hcopy _).bind
  exact fun stored => Extends.refl _

theorem decode_exact (bytes : List UInt8) (into : Frame) :
    (∃ g, decode (some bytes) bytes.length into = .ok (true, g)) ∨
      decode (some bytes) bytes.length into = .ok (false, into) := by
  rcases Nat.lt_or_ge bytes.length 10 with hshort | hlong
  · exact .inr (decode_of_short hshort into)
  · obtain ⟨l, rfl⟩ := Layout.exists_of_length hlong
    rcases decode_cases l into with ⟨-, g, hg, -⟩ | ⟨-, hfalse⟩
    · exact .inl ⟨g, hg⟩
    · exact .inr hfalse

/-- Every call of the codec runs without a fault: no byte is read behind the buffer of `decode`,
and none is written behind a payload of 240 bytes or an output of 250. When it fails, the frame or
the output is as it was. -/
theorem malformed_frames_harmless :
    (∀ (bytes : List UInt8) (into : Frame),
      (∃ g, ∀ beyond, decode (some (bytes ++ beyond)) bytes.length into = .ok (true, g)) ∨
        ∀ beyond, decode (some (bytes ++ beyond)) bytes.length into = .ok (false, into)) ∧
    (∀ (length : ℕ) (into : Frame), decode none length into = .ok (false, into)) ∧
    ∀ (frame : Frame) (output : Vector UInt8 kMaximumEncodedSize) (outputLength : ℕ),
      (∃ output' outputLength',
        encode frame output outputLength = .ok (true, output', outputLength') ∧
          outputLength' ≤ 250 ∧
          output'.toList.drop outputLength' = output.toList.drop outputLength') ∨
        encode frame output outputLength = .ok (false, output, outputLength) := by
  refine ⟨fun bytes into => ?_, fun _ _ => rfl, fun frame output outputLength => ?_⟩
  · have hmore := fun beyond => decode_append bytes beyond bytes.length into
    rcases decode_exact bytes into with ⟨g, hg⟩ | hfalse
    · exact .inl ⟨g, fun beyond => hmore beyond _ hg⟩
    · exact .inr fun beyond => hmore beyond _ hfalse
  · rcases Nat.lt_or_ge Frame.kMaximumPayload frame.payloadLength.toNat with hgt | hle
    · exact .inr (encode_refused hgt output outputLength)
    · obtain ⟨output', hok, hfilled⟩ := encode_filled hle output outputLength
      have hlength : (Layout.ofFrame frame).bytes.length = frame.payloadLength.toNat + 10 := by
        rw [Layout.length_bytes, Layout.length_payload_ofFrame hle]
      refine .inl ⟨output', _, hok, ?_, ?_⟩
      · change _ ≤ 240 at hle
        omega
      · rw [← hlength, hfilled, List.drop_left]

end FrameCodec

end DaliEdge
