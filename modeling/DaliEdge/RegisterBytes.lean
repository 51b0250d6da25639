import DaliEdge.ShiftRegister
import DaliEdge.WordBytes

/-!
# Bytes fed to a shift register

A checksum loop adds a whole byte to the low end of its register and moves eight places. That
is the same as feeding the bits of the byte, the lowest first, so the results about bit
strings hold of byte strings.
-/

namespace ShiftRegister

variable {w : ℕ} (taps : BitVec w)

def byteBits (b : UInt8) : List Bool := (List.range 8).map b.toBitVec.getLsbD

def bits (bytes : List UInt8) : List Bool := bytes.flatMap byteBits

def absorb (s : BitVec w) (b : UInt8) : BitVec w := (shift taps)^[8] (s ^^^ b.toBitVec.setWidth w)

@[simp] theorem length_byteBits (b : UInt8) : (byteBits b).length = 8 := by simp [byteBits]

@[simp] theorem bits_nil : bits [] = [] := rfl

@[simp] theorem bits_cons (b : UInt8) (bytes : List UInt8) :
    bits (b :: bytes) = byteBits b ++ bits bytes := List.flatMap_cons

theorem bits_append (xs ys : List UInt8) : bits (xs ++ ys) = bits xs ++ bits ys :=
  List.flatMap_append

@[simp] theorem length_bits (bytes : List UInt8) : (bits bytes).length = 8 * bytes.length := by
  induction bytes with
  | nil => rfl
  | cons b bytes ih =>
      rw [bits_cons, List.length_append, length_byteBits, ih, List.length_cons]
      omega

theorem getElem?_byteBits (b : UInt8) (i : ℕ) :
    (byteBits b)[i]? = if i < 8 then some (b.toBitVec.getLsbD i) else none := by
  rw [byteBits, List.getElem?_map]
  by_cases hi : i < 8
  · simp [hi]
  · rw [List.getElem?_eq_none (by simpa using hi), if_neg hi]
    rfl

theorem load_byteBits (b : UInt8) : load (byteBits b) = b.toBitVec.setWidth w := by
  apply BitVec.eq_of_getLsbD_eq
  intro i hi
  rw [getLsbD_load _ i hi, BitVec.getLsbD_setWidth, List.getD_eq_getElem?_getD, getElem?_byteBits]
  by_cases hi8 : i < 8
  · simp [hi8, hi]
  · rw [if_neg hi8, BitVec.getLsbD_of_ge _ _ (by omega)]
    simp

theorem absorb_eq_feed (s : BitVec w) (b : UInt8) (hw : 8 ≤ w) :
    absorb taps s b = feed taps s (byteBits b) := by
  rw [absorb, feed_eq_iterate taps s _ (by simpa using hw), length_byteBits, load_byteBits b]

theorem foldl_absorb (s : BitVec w) (bytes : List UInt8) (hw : 8 ≤ w) :
    bytes.foldl (absorb taps) s = feed taps s (bits bytes) := by
  induction bytes generalizing s with
  | nil => rfl
  | cons b bytes ih =>
      rw [List.foldl_cons, ih, absorb_eq_feed taps s b hw, ← feed_append]
      rfl

/-! ## Errors added to bytes -/

theorem byteBits_xor (a b : UInt8) :
    byteBits (a ^^^ b) = List.zipWith (fun x y => x ^^ y) (byteBits a) (byteBits b) := by
  simp only [byteBits, List.zipWith_map, List.zipWith_self]
  refine List.map_congr_left fun i _ => ?_
  rw [UInt8.toBitVec_xor, BitVec.getLsbD_xor]

theorem bits_zipWith_xor (xs ys : List UInt8) (h : xs.length = ys.length) :
    bits (List.zipWith (fun a b => a ^^^ b) xs ys) =
      List.zipWith (fun a b => a ^^ b) (bits xs) (bits ys) := by
  induction xs generalizing ys with
  | nil => rfl
  | cons x xs ih =>
      cases ys with
      | nil => cases h
      | cons y ys =>
          rw [List.zipWith_cons_cons, bits_cons, bits_cons, bits_cons, ih ys (Nat.succ.inj h),
            byteBits_xor, List.zipWith_append (by simp)]

theorem feed_bits_xor (s t : BitVec w) (xs ys : List UInt8) (h : xs.length = ys.length) :
    feed taps (s ^^^ t) (bits (List.zipWith (fun a b => a ^^^ b) xs ys)) =
      feed taps s (bits xs) ^^^ feed taps t (bits ys) := by
  rw [bits_zipWith_xor xs ys h, feed_xor taps s t _ _ (by simp [h])]

theorem feed_zero_byteBits_zero : feed taps 0 (byteBits 0) = 0 :=
  feed_zero_of_not_mem taps (by decide)

/-! ## A sixteen-bit register and its stored bytes -/

theorem load_bits_pair (low high : UInt8) :
    load (bits [low, high]) = (WordBytes.word low high).toBitVec := by
  apply BitVec.eq_of_getLsbD_eq
  intro i hi
  have hword : (WordBytes.word low high).toBitVec =
      low.toBitVec.setWidth 16 ||| high.toBitVec.setWidth 16 <<< 8 := rfl
  rw [getLsbD_load _ i hi, List.getD_eq_getElem?_getD, hword]
  change ((byteBits low ++ (byteBits high ++ []))[i]?).getD false = _
  rw [List.append_nil]
  by_cases hi8 : i < 8
  · rw [List.getElem?_append_left (by simpa using hi8), getElem?_byteBits, if_pos hi8]
    simp [hi8, hi]
  · rw [List.getElem?_append_right (by simpa using hi8), length_byteBits, getElem?_byteBits,
      if_pos (by omega)]
    simp [hi8, hi, BitVec.getLsbD_of_ge low.toBitVec i (by omega)]

theorem feed_pair_eq_zero_iff {taps : BitVec 16} (hmsb : taps.msb = true) (s : BitVec 16)
    (low high : UInt8) :
    feed taps s (bits [low, high]) = 0 ↔ s = (WordBytes.word low high).toBitVec := by
  rw [feed_eq_zero_iff taps hmsb s _ (by simp), load_bits_pair]

end ShiftRegister
