import DaliEdge.FrameCodec

/-!
# The layout of an encoded frame

Every byte string of at least ten bytes is the bytes of one layout. `encode` fills its buffer
with a well formed one, and `decode` accepts the well formed ones and no other.
-/

namespace DaliEdge

open ByteBuffer WordBytes FrameCodec

structure Layout where
  start : UInt8
  version : UInt8
  type : UInt8
  sequenceLow : UInt8
  sequenceHigh : UInt8
  lengthLow : UInt8
  lengthHigh : UInt8
  payload : List UInt8
  checksumLow : UInt8
  checksumHigh : UInt8
  stop : UInt8

namespace Layout

variable (l : Layout)

def header : List UInt8 :=
  [l.version, l.type, l.sequenceLow, l.sequenceHigh, l.lengthLow, l.lengthHigh]

def body : List UInt8 := l.header ++ l.payload

def trailer : List UInt8 := [l.checksumLow, l.checksumHigh, l.stop]

def bytes : List UInt8 := l.start :: (l.body ++ l.trailer)

@[simp] theorem length_header : l.header.length = 6 := rfl

@[simp] theorem length_trailer : l.trailer.length = 3 := rfl

@[simp] theorem length_body : l.body.length = 6 + l.payload.length := by simp [body]

@[simp] theorem length_bytes : l.bytes.length = l.payload.length + 10 := by
  simp only [bytes, List.length_cons, List.length_append, length_body, length_trailer]
  omega

theorem exists_of_length {bytes : List UInt8} (h : 10 ≤ bytes.length) :
    ∃ l : Layout, l.bytes = bytes := by
  match bytes, h with
  | b₀ :: b₁ :: b₂ :: b₃ :: b₄ :: b₅ :: b₆ :: rest, h =>
      have hrest : 3 ≤ rest.length := by simpa using h
      have hlast : (rest.drop (rest.length - 3)).length = 3 := by
        rw [List.length_drop]
        omega
      obtain ⟨c₀, c₁, c₂, hc⟩ := List.length_eq_three.1 hlast
      refine ⟨⟨b₀, b₁, b₂, b₃, b₄, b₅, b₆, rest.take (rest.length - 3), c₀, c₁, c₂⟩, ?_⟩
      change b₀ :: b₁ :: b₂ :: b₃ :: b₄ :: b₅ :: b₆ :: (rest.take (rest.length - 3) ++ [c₀, c₁, c₂]) = _
      rw [← hc, List.take_append_drop]

structure WellFormed : Prop where
  start_eq : l.start = kStart
  stop_eq : l.stop = kEnd
  length_eq : (word l.lengthLow l.lengthHigh).toNat = l.payload.length
  payload_le : l.payload.length ≤ Frame.kMaximumPayload
  checksum_eq : word l.checksumLow l.checksumHigh = crc l.body

/-- The layout that `frame` is written in. -/
def ofFrame (frame : Frame) : Layout :=
  let payload := frame.payload.toList.take frame.payloadLength.toNat
  let header := [frame.version, frame.type.code, lowByte frame.sequence, highByte frame.sequence,
    lowByte frame.payloadLength, highByte frame.payloadLength]
  let checksum := crc (header ++ payload)
  { start := kStart
    version := frame.version
    type := frame.type.code
    sequenceLow := lowByte frame.sequence
    sequenceHigh := highByte frame.sequence
    lengthLow := lowByte frame.payloadLength
    lengthHigh := highByte frame.payloadLength
    payload := payload
    checksumLow := lowByte checksum
    checksumHigh := highByte checksum
    stop := kEnd }

theorem length_payload_ofFrame {frame : Frame}
    (h : frame.payloadLength.toNat ≤ Frame.kMaximumPayload) :
    (ofFrame frame).payload.length = frame.payloadLength.toNat := by
  change (frame.payload.toList.take _).length = _
  rw [List.length_take_of_le (by rw [Vector.length_toList]; exact h)]

theorem wellFormed_ofFrame {frame : Frame}
    (h : frame.payloadLength.toNat ≤ Frame.kMaximumPayload) : (ofFrame frame).WellFormed where
  start_eq := rfl
  stop_eq := rfl
  length_eq := by
    rw [length_payload_ofFrame h]
    exact congrArg UInt16.toNat (word_lowByte_highByte _)
  payload_le := by rwa [length_payload_ofFrame h]
  checksum_eq := word_lowByte_highByte _

/-- The frame `g` is `into` with the fields of the layout stored in it. -/
structure StoredIn (into g : Frame) : Prop where
  version_eq : g.version = l.version
  type_eq : g.type = ⟨l.type⟩
  sequence_eq : g.sequence = word l.sequenceLow l.sequenceHigh
  payloadLength_eq : g.payloadLength = word l.lengthLow l.lengthHigh
  payload_eq : Filled into.payload l.payload g.payload

variable {l}

theorem StoredIn.ofFrame_eq {into g : Frame} (h : l.StoredIn into g) (hl : l.WellFormed) :
    ofFrame g = l := by
  obtain ⟨hversion, htype, hsequence, hlength, hpayload⟩ := h
  have htake : g.payload.toList.take (word l.lengthLow l.lengthHigh).toNat = l.payload := by
    rw [hl.length_eq, hpayload.take_eq]
  have hcrc := hl.checksum_eq.symm
  obtain ⟨start, version, type, s₀, s₁, l₀, l₁, payload, c₀, c₁, stop⟩ := l
  simp only [body, header] at htake hcrc
  simp only [ofFrame, hversion, htype, hsequence, hlength, lowByte_word, highByte_word, htake, hcrc,
    Layout.mk.injEq, true_and]
  exact ⟨hl.start_eq.symm, hl.stop_eq.symm⟩

end Layout

/-! ## What the two functions do -/

namespace FrameCodec

theorem encode_refused {frame : Frame} (h : Frame.kMaximumPayload < frame.payloadLength.toNat)
    (output : Vector UInt8 kMaximumEncodedSize) (outputLength : ℕ) :
    encode frame output outputLength = .ok (false, output, outputLength) := by
  rw [encode, if_pos h]

theorem encode_filled {frame : Frame} (h : frame.payloadLength.toNat ≤ Frame.kMaximumPayload)
    (output : Vector UInt8 kMaximumEncodedSize) (outputLength : ℕ) :
    ∃ output', encode frame output outputLength =
        .ok (true, output', frame.payloadLength.toNat + 10) ∧
      Filled output (Layout.ofFrame frame).bytes output' := by
  have hmax : frame.payloadLength.toNat ≤ 240 := h
  have hsource : frame.payloadLength.toNat ≤ frame.payload.toList.length := by simpa using hmax
  have htake : (frame.payload.toList.take frame.payloadLength.toNat).length =
      frame.payloadLength.toNat := List.length_take_of_le hsource
  have hroom : 10 + frame.payloadLength.toNat ≤ kMaximumEncodedSize := by
    change _ ≤ 250
    omega
  obtain ⟨o₀, w₀, f₀⟩ := (filled_nil output).write 0 kStart rfl (by omega)
  obtain ⟨o₁, w₁, f₁⟩ := f₀.write 1 frame.version rfl (by omega)
  obtain ⟨o₂, w₂, f₂⟩ := f₁.write 2 frame.type.code rfl (by omega)
  obtain ⟨o₃, w₃, f₃⟩ := f₂.write 3 (lowByte frame.sequence) rfl (by omega)
  obtain ⟨o₄, w₄, f₄⟩ := f₃.write 4 (highByte frame.sequence) rfl (by omega)
  obtain ⟨o₅, w₅, f₅⟩ := f₄.write 5 (lowByte frame.payloadLength) rfl (by omega)
  obtain ⟨o₆, w₆, f₆⟩ := f₅.write 6 (highByte frame.payloadLength) rfl (by omega)
  obtain ⟨o₇, w₇, f₇⟩ := f₆.copy frame.payload.toList 7 frame.payloadLength.toNat rfl hsource
    (by omega)
  have hbody : (o₇.toList.drop 1).take (6 + frame.payloadLength.toNat) =
      (Layout.ofFrame frame).body := by
    rw [f₇]
    change ((Layout.ofFrame frame).body ++ _).take _ = _
    rw [List.take_left']
    rw [Layout.length_body, Layout.length_payload_ofFrame h]
  have hcrc : crc16 (o₇.toList.drop 1) (6 + frame.payloadLength.toNat) =
      .ok (crc (Layout.ofFrame frame).body) := by
    rw [crc16_eq _ _ (by rw [List.length_drop, Vector.length_toList]; omega), hbody]
  obtain ⟨o₈, w₈, f₈⟩ := f₇.write (7 + frame.payloadLength.toNat)
    (lowByte (crc (Layout.ofFrame frame).body)) (by simp [htake]; omega) (by omega)
  obtain ⟨o₉, w₉, f₉⟩ := f₈.write (7 + frame.payloadLength.toNat + 1)
    (highByte (crc (Layout.ofFrame frame).body)) (by simp [htake]; omega) (by omega)
  obtain ⟨o₁₀, w₁₀, f₁₀⟩ := f₉.write (7 + frame.payloadLength.toNat + 2) kEnd
    (by simp [htake]; omega) (by omega)
  refine ⟨o₁₀, ?_, ?_⟩
  · rw [encode, if_neg (by omega)]
    simp only [w₀, w₁, w₂, w₃, w₄, w₅, w₆, w₇, w₈, w₉, w₁₀, hcrc, ok_bind]
    rw [if_neg (by omega), Nat.add_comm 7, Nat.add_assoc]
  · have hbytes : (Layout.ofFrame frame).bytes = kStart :: ((Layout.ofFrame frame).body ++
        [lowByte (crc (Layout.ofFrame frame).body), highByte (crc (Layout.ofFrame frame).body),
          kEnd]) := rfl
    rw [hbytes]
    simpa [Layout.body, Layout.header, Layout.ofFrame] using f₁₀

theorem decode_of_short {bytes : List UInt8} (h : bytes.length < 10) (into : Frame) :
    decode (some bytes) bytes.length into = .ok (false, into) := by
  rw [decode, if_pos h]

variable (l : Layout)

theorem read_stop : read l.bytes (l.bytes.length - 1) = .ok l.stop := by
  have hsplit : l.bytes = (l.start :: (l.body ++ [l.checksumLow, l.checksumHigh])) ++ [l.stop] := by
    simp [Layout.bytes, Layout.trailer]
  rw [Layout.length_bytes, hsplit]
  apply read_append_right
  simp only [List.length_cons, List.length_append, Layout.length_body, List.length_nil]
  omega

theorem read_checksumLow : read l.bytes (7 + l.payload.length) = .ok l.checksumLow := by
  change read ((l.start :: l.body) ++ l.checksumLow :: [l.checksumHigh, l.stop]) _ = _
  apply read_append_right
  simp only [List.length_cons, Layout.length_body]
  omega

theorem read_checksumHigh : read l.bytes (7 + l.payload.length + 1) = .ok l.checksumHigh := by
  have hsplit : l.bytes = (l.start :: (l.body ++ [l.checksumLow])) ++ [l.checksumHigh, l.stop] := by
    simp [Layout.bytes, Layout.trailer]
  rw [hsplit]
  apply read_append_right
  simp only [List.length_cons, List.length_append, Layout.length_body, List.length_nil]
  omega

theorem crc16_body :
    crc16 (l.bytes.drop 1) (6 + l.payload.length) = .ok (crc l.body) := by
  change crc16 (l.body ++ l.trailer) _ = _
  rw [crc16_eq _ _ (by simp), List.take_left' (by simp)]

/-- `decode` accepts a well formed layout and stores it, and refuses any other. -/
theorem decode_cases (into : Frame) :
    (l.WellFormed ∧ ∃ g, decode (some l.bytes) l.bytes.length into = .ok (true, g) ∧
      l.StoredIn into g) ∨
    (¬ l.WellFormed ∧ decode (some l.bytes) l.bytes.length into = .ok (false, into)) := by
  have hlong : ¬ l.bytes.length < 10 := by simp
  have hstart : read l.bytes 0 = .ok l.start := rfl
  have hlow : read l.bytes 5 = .ok l.lengthLow := rfl
  have hhigh : read l.bytes 6 = .ok l.lengthHigh := rfl
  simp only [decode, if_neg hlong, hstart, read_stop, hlow, hhigh, ok_bind]
  by_cases h₀ : l.start ≠ kStart
  · exact .inr ⟨fun hl => h₀ hl.start_eq, if_pos h₀⟩
  rw [if_neg h₀]
  by_cases h₁ : l.stop ≠ kEnd
  · exact .inr ⟨fun hl => h₁ hl.stop_eq, if_pos h₁⟩
  rw [if_neg h₁]
  by_cases h₂ : (word l.lengthLow l.lengthHigh).toNat > Frame.kMaximumPayload ∨
      l.bytes.length ≠ (word l.lengthLow l.lengthHigh).toNat + 10
  · refine .inr ⟨fun hl => ?_, if_pos h₂⟩
    have hle := hl.payload_le
    rw [hl.length_eq, Layout.length_bytes] at h₂
    omega
  rw [if_neg h₂]
  rw [not_or, not_lt, Layout.length_bytes] at h₂
  have hlen : (word l.lengthLow l.lengthHigh).toNat = l.payload.length := by omega
  rw [hlen, read_checksumLow, ok_bind, read_checksumHigh, ok_bind, crc16_body, ok_bind]
  by_cases h₃ : word l.checksumLow l.checksumHigh ≠ crc l.body
  · exact .inr ⟨fun hl => h₃ hl.checksum_eq, if_pos h₃⟩
  rw [if_neg h₃]
  have hle : l.payload.length ≤ Frame.kMaximumPayload := hlen ▸ h₂.1
  obtain ⟨payload, hcopy, hfilled⟩ := (filled_nil into.payload).copy (l.bytes.drop 7) 0
    l.payload.length rfl (by simp) (by change _ ≤ 240 at hle; omega)
  have hpayload : (l.bytes.drop 7).take l.payload.length = l.payload := List.take_left
  rw [hpayload, List.nil_append] at hfilled
  refine .inl ⟨⟨not_not.1 h₀, not_not.1 h₁, hlen, hle, not_not.1 h₃⟩,
    ⟨l.version, ⟨l.type⟩, word l.sequenceLow l.sequenceHigh, payload,
      word l.lengthLow l.lengthHigh⟩, ?_, ⟨rfl, rfl, rfl, rfl, hfilled⟩⟩
  rw [hcopy]
  rfl

/-- A frame that `decode` returns is stored in a well formed layout of the bytes. -/
theorem exists_layout_of_decode {bytes : List UInt8} {into g : Frame}
    (h : decode (some bytes) bytes.length into = .ok (true, g)) :
    ∃ l : Layout, l.bytes = bytes ∧ l.WellFormed ∧ l.StoredIn into g := by
  by_cases hshort : bytes.length < 10
  · rw [decode_of_short hshort] at h
    cases h
  · obtain ⟨l, rfl⟩ := Layout.exists_of_length (not_lt.1 hshort)
    obtain ⟨hl, g', hg, hstored⟩ | ⟨-, hfalse⟩ := decode_cases l into
    · rw [hg] at h
      cases h
      exact ⟨l, rfl, hl, hstored⟩
    · rw [hfalse] at h
      cases h

/-- Some call of `encode` with the frame succeeds and leaves `bytes` in its buffer. -/
def Encodes (frame : Frame) (bytes : List UInt8) : Prop :=
  ∃ output outputLength output' outputLength',
    encode frame output outputLength = .ok (true, output', outputLength') ∧
      bytes = output'.toList.take outputLength'

/-- Every call of `encode` that succeeds leaves the bytes of the frame's layout. -/
theorem encode_eq_ok {frame : Frame} {output output' : Vector UInt8 kMaximumEncodedSize}
    {outputLength outputLength' : ℕ}
    (h : encode frame output outputLength = .ok (true, output', outputLength')) :
    frame.payloadLength.toNat ≤ Frame.kMaximumPayload ∧
      outputLength' = frame.payloadLength.toNat + 10 ∧
      output'.toList.take outputLength' = (Layout.ofFrame frame).bytes := by
  rcases Nat.lt_or_ge Frame.kMaximumPayload frame.payloadLength.toNat with hgt | hle
  · rw [encode_refused hgt] at h
    cases h
  · obtain ⟨filled, hok, hfilled⟩ := encode_filled hle output outputLength
    rw [hok] at h
    cases h
    refine ⟨hle, rfl, ?_⟩
    rw [← Layout.length_payload_ofFrame hle, ← Layout.length_bytes, hfilled.take_eq]

theorem encodes_iff (frame : Frame) (bytes : List UInt8) :
    Encodes frame bytes ↔ frame.payloadLength.toNat ≤ Frame.kMaximumPayload ∧
      bytes = (Layout.ofFrame frame).bytes := by
  constructor
  · rintro ⟨output, outputLength, output', outputLength', hok, rfl⟩
    exact ⟨(encode_eq_ok hok).1, (encode_eq_ok hok).2.2⟩
  · rintro ⟨hle, rfl⟩
    obtain ⟨filled, hok, -⟩ := encode_filled hle (Vector.replicate _ 0) 0
    exact ⟨_, _, _, _, hok, (encode_eq_ok hok).2.2.symm⟩

end FrameCodec

end DaliEdge
