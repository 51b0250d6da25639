import Mathlib.Data.Nat.Notation

/-!
# A sixteen-bit word and its two bytes

Packing and unpacking by shift, mask and bitwise or, with the arithmetic meaning of each.
-/

namespace WordBytes

def lowByte (w : UInt16) : UInt8 := (w &&& 0xFF).toUInt8

def highByte (w : UInt16) : UInt8 := (w >>> 8).toUInt8

def word (low high : UInt8) : UInt16 := low.toUInt16 ||| (high.toUInt16 <<< 8)

theorem toNat_lowByte (w : UInt16) : (lowByte w).toNat = w.toNat % 256 := by
  rw [lowByte, UInt16.toNat_toUInt8, UInt16.toNat_and]
  change (w.toNat &&& 2 ^ 8 - 1) % 2 ^ 8 = _
  rw [Nat.and_two_pow_sub_one_eq_mod]
  omega

theorem toNat_highByte (w : UInt16) : (highByte w).toNat = w.toNat / 256 := by
  have hw := w.toNat_lt
  rw [highByte, UInt16.toNat_toUInt8, UInt16.toNat_shiftRight]
  change (w.toNat >>> 8) % 2 ^ 8 = _
  rw [Nat.shiftRight_eq_div_pow]
  omega

theorem toNat_word (low high : UInt8) :
    (word low high).toNat = low.toNat + 256 * high.toNat := by
  have hl := low.toNat_lt
  have hh := high.toNat_lt
  rw [word, UInt16.or_comm, UInt16.toNat_or, UInt16.toNat_shiftLeft, UInt8.toNat_toUInt16,
    UInt8.toNat_toUInt16]
  change high.toNat <<< 8 % 2 ^ 16 ||| low.toNat = _
  rw [Nat.mod_eq_of_lt (by rw [Nat.shiftLeft_eq]; omega), ← Nat.shiftLeft_add_eq_or_of_lt hl,
    Nat.shiftLeft_eq]
  omega

@[simp] theorem lowByte_word (low high : UInt8) : lowByte (word low high) = low := by
  have hl := low.toNat_lt
  apply UInt8.toNat_inj.1
  rw [toNat_lowByte, toNat_word]
  omega

@[simp] theorem highByte_word (low high : UInt8) : highByte (word low high) = high := by
  have hl := low.toNat_lt
  apply UInt8.toNat_inj.1
  rw [toNat_highByte, toNat_word]
  omega

@[simp] theorem word_lowByte_highByte (w : UInt16) : word (lowByte w) (highByte w) = w := by
  apply UInt16.toNat_inj.1
  rw [toNat_word, toNat_lowByte, toNat_highByte]
  omega

end WordBytes
