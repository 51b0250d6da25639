import DaliEdge.FrameLayout
import DaliEdge.RegisterBytes

/-!
# Corrupted frames

The checksum is a linear shift register of sixteen bits with three taps, the highest among
them. The bytes between the markers of a well formed layout, the stored checksum included,
empty the register, so an error that keeps the layout well formed empties it as well. No error
in an odd number of bits, and none inside sixteen consecutive bits, does.
-/

namespace DaliEdge

open ByteBuffer WordBytes ShiftRegister

namespace FrameCodec

def crcTaps : BitVec 16 := 0xA001#16

theorem msb_crcTaps : crcTaps.msb = true := by decide

theorem parity_crcTaps : parity crcTaps = 1 := by decide

theorem toBitVec_crcBit (crc : UInt16) : (crcBit crc).toBitVec = shift crcTaps crc.toBitVec := by
  have hlow : crc &&& 1 ≠ 0 ↔ crc.toBitVec.getLsbD 0 = true := by
    rw [ne_eq, ← UInt16.toNat_inj, UInt16.toNat_and]
    change ¬ (crc.toNat &&& 1 = 0) ↔ crc.toNat.testBit 0 = true
    rw [Nat.and_one_is_mod, Nat.testBit_zero, decide_eq_true_iff]
    omega
  rw [crcBit, shift]
  by_cases h : crc &&& 1 ≠ 0
  · rw [if_pos h, if_pos (hlow.1 h)]
    rfl
  · rw [if_neg h, if_neg (mt hlow.2 h)]
    rfl

theorem toBitVec_crcByte (crc : UInt16) (b : UInt8) :
    (crcByte crc b).toBitVec = absorb crcTaps crc.toBitVec b := by
  have hiterate : ∀ n c, (crcBit^[n] c).toBitVec = (shift crcTaps)^[n] c.toBitVec := by
    intro n
    induction n with
    | zero => exact fun c => rfl
    | succ n ih =>
        intro c
        rw [Function.iterate_succ_apply, Function.iterate_succ_apply, ih, toBitVec_crcBit]
  exact hiterate 8 _

theorem toBitVec_crc (bytes : List UInt8) :
    (crc bytes).toBitVec = feed crcTaps 0xFFFF#16 (bits bytes) := by
  rw [← foldl_absorb crcTaps _ bytes (by decide), crc]
  change _ = bytes.foldl (absorb crcTaps) (UInt16.toBitVec 0xFFFF)
  generalize (0xFFFF : UInt16) = start
  induction bytes generalizing start with
  | nil => rfl
  | cons b bytes ih => rw [List.foldl_cons, List.foldl_cons, ih, toBitVec_crcByte]

end FrameCodec

namespace Layout

def inner (l : Layout) : List UInt8 := l.body ++ [l.checksumLow, l.checksumHigh]

theorem bytes_eq_inner (l : Layout) : l.bytes = [l.start] ++ (l.inner ++ [l.stop]) := by
  simp [bytes, inner, trailer]

theorem checksum_eq_iff (l : Layout) : word l.checksumLow l.checksumHigh = FrameCodec.crc l.body ↔
    feed FrameCodec.crcTaps 0xFFFF#16 (bits l.inner) = 0 := by
  rw [inner, bits_append, feed_append, ← FrameCodec.toBitVec_crc,
    feed_pair_eq_zero_iff FrameCodec.msb_crcTaps, UInt16.toBitVec_inj, eq_comm]

/-- The layout with an error added to each of its bytes. -/
def corrupt (l e : Layout) : Layout where
  start := l.start ^^^ e.start
  version := l.version ^^^ e.version
  type := l.type ^^^ e.type
  sequenceLow := l.sequenceLow ^^^ e.sequenceLow
  sequenceHigh := l.sequenceHigh ^^^ e.sequenceHigh
  lengthLow := l.lengthLow ^^^ e.lengthLow
  lengthHigh := l.lengthHigh ^^^ e.lengthHigh
  payload := List.zipWith (fun a b => a ^^^ b) l.payload e.payload
  checksumLow := l.checksumLow ^^^ e.checksumLow
  checksumHigh := l.checksumHigh ^^^ e.checksumHigh
  stop := l.stop ^^^ e.stop

theorem inner_corrupt (l e : Layout) (h : l.payload.length = e.payload.length) :
    (l.corrupt e).inner = List.zipWith (fun a b => a ^^^ b) l.inner e.inner := by
  simp only [inner, body]
  rw [List.zipWith_append (by simp [h]),
    List.zipWith_append (show l.header.length = e.header.length from rfl)]
  rfl

theorem bytes_corrupt (l e : Layout) (h : l.payload.length = e.payload.length) :
    (l.corrupt e).bytes = List.zipWith (fun a b => a ^^^ b) l.bytes e.bytes := by
  simp only [bytes_eq_inner]
  rw [List.zipWith_append (show [l.start].length = [e.start].length from rfl),
    List.zipWith_append (by simp [inner, h]), inner_corrupt l e h]
  rfl

theorem eq_zero_of_xor_eq_left {a b : UInt8} (h : a ^^^ b = a) : b = 0 := by
  calc b = a ^^^ a ^^^ b := by rw [UInt8.xor_self, UInt8.zero_xor]
    _ = 0 := by rw [UInt8.xor_assoc, h, UInt8.xor_self]

theorem feed_error_eq_zero {l e : Layout} (h : l.payload.length = e.payload.length)
    (hl : l.WellFormed) (hc : (l.corrupt e).WellFormed) :
    feed FrameCodec.crcTaps 0 (bits e.bytes) = 0 := by
  have hstart : e.start = 0 := eq_zero_of_xor_eq_left (hc.start_eq.trans hl.start_eq.symm)
  have hstop : e.stop = 0 := eq_zero_of_xor_eq_left (hc.stop_eq.trans hl.stop_eq.symm)
  have hinner : feed FrameCodec.crcTaps 0 (bits e.inner) = 0 := by
    have hsum := feed_bits_xor FrameCodec.crcTaps 0xFFFF#16 0#16 l.inner e.inner (by simp [inner, h])
    rw [← inner_corrupt l e h, BitVec.xor_zero, (checksum_eq_iff _).1 hl.checksum_eq,
      (checksum_eq_iff _).1 hc.checksum_eq] at hsum
    exact (hsum.trans BitVec.zero_xor).symm
  rw [bytes_eq_inner, hstart, hstop, bits_append, bits_append, feed_append, feed_append]
  change feed _ (feed _ (feed _ 0 (byteBits 0 ++ [])) _) (byteBits 0 ++ []) = 0
  rw [List.append_nil, feed_zero_byteBits_zero, hinner, feed_zero_byteBits_zero]

end Layout

namespace FrameCodec

/-- An altered encoding is refused if the error is in an odd number of bits or in a window of
sixteen. -/
theorem decode_corrupted (frame : Frame) (bytes errors : List UInt8) (into : Frame)
    (hencodes : Encodes frame bytes) (hlength : errors.length = bytes.length)
    (hflip : true ∈ bits errors)
    (hkind : Odd ((bits errors).count true) ∨
      ∃ k, ∀ i, (bits errors)[i]? = some true → k ≤ i ∧ i < k + 16) :
    decode (some (List.zipWith (fun a b => a ^^^ b) bytes errors)) bytes.length into =
      .ok (false, into) := by
  obtain ⟨hle, rfl⟩ := (encodes_iff frame bytes).1 hencodes
  have hlong : 10 ≤ errors.length := by simp [hlength]
  obtain ⟨e, rfl⟩ := Layout.exists_of_length hlong
  have hpayload : (Layout.ofFrame frame).payload.length = e.payload.length := by
    simpa using hlength.symm
  have hsize : (Layout.ofFrame frame).bytes.length =
      ((Layout.ofFrame frame).corrupt e).bytes.length := by
    simp [Layout.corrupt, hpayload]
  rw [← Layout.bytes_corrupt _ _ hpayload, hsize]
  obtain ⟨hc, -⟩ | ⟨-, hfalse⟩ := decode_cases ((Layout.ofFrame frame).corrupt e) into
  · have hzero := Layout.feed_error_eq_zero hpayload (Layout.wellFormed_ofFrame hle) hc
    rcases hkind with hodd | ⟨k, hwindow⟩
    · exact absurd hzero (feed_ne_zero_of_odd crcTaps parity_crcTaps (by decide) hodd)
    · exact absurd hzero (feed_ne_zero_of_window crcTaps msb_crcTaps _ k hwindow hflip)
  · exact hfalse

/-- The lowest bit of the stored checksum of a heartbeat is flipped. -/
theorem decode_corrupted_heartbeat :
    decode (some (List.zipWith (fun a b => a ^^^ b) (Layout.ofFrame {}).bytes
      [0, 0, 0, 0, 0, 0, 0, 1, 0, 0])) 10 {} = .ok (false, {}) :=
  decode_corrupted {} (Layout.ofFrame {}).bytes [0, 0, 0, 0, 0, 0, 0, 1, 0, 0] {}
    ((encodes_iff _ _).2 ⟨by decide, rfl⟩) (by simp [Layout.length_payload_ofFrame])
    (by decide) (.inl ⟨0, by decide⟩)

end FrameCodec

end DaliEdge
