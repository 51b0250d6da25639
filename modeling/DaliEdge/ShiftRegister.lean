import Mathlib.Algebra.BigOperators.Group.Finset.Basic
import Mathlib.Algebra.BigOperators.Intervals
import Mathlib.Algebra.Field.ZMod
import Mathlib.Algebra.Ring.Parity

/-!
# Linear feedback shift registers and the errors they detect

A register of `w` bits is fed a bit string one bit at a time: the bit is added to the lowest
place, the register moves down by one, and `taps` is added when a one falls out. Everything
here is linear over exclusive or. If the highest tap is set, moving is injective, and a
nonzero error that fits into `w` consecutive bits leaves a nonzero register. If the number of
taps is odd, moving keeps the parity, and an error in an odd number of bits is seen.
-/

open Finset

namespace ShiftRegister

variable {w : ℕ} (taps : BitVec w)

def shift (s : BitVec w) : BitVec w := if s.getLsbD 0 then (s >>> 1) ^^^ taps else s >>> 1

/-- The register with `b` in its lowest place. -/
def bitWord (b : Bool) : BitVec w := (BitVec.ofBool b).setWidth w

def feed (s : BitVec w) (bits : List Bool) : BitVec w :=
  bits.foldl (fun t b => shift taps (t ^^^ bitWord b)) s

/-- The register whose places hold `bits`, the first in the lowest place. -/
def load : List Bool → BitVec w
  | [] => 0
  | b :: bits => bitWord b ^^^ (load bits <<< 1)

@[simp] theorem feed_nil (s : BitVec w) : feed taps s [] = s := rfl

@[simp] theorem feed_cons (s : BitVec w) (b : Bool) (bits : List Bool) :
    feed taps s (b :: bits) = feed taps (shift taps (s ^^^ bitWord b)) bits := rfl

theorem feed_append (s : BitVec w) (bits bits' : List Bool) :
    feed taps s (bits ++ bits') = feed taps (feed taps s bits) bits' := List.foldl_append

theorem getLsbD_bitWord (b : Bool) (i : ℕ) (hi : i < w) :
    (bitWord b : BitVec w).getLsbD i = (decide (i = 0) && b) := by
  simp [bitWord, BitVec.getLsbD_ofBool, hi]

@[simp] theorem bitWord_false : (bitWord false : BitVec w) = 0 := by
  apply BitVec.eq_of_getLsbD_eq
  intro i hi
  simp [getLsbD_bitWord _ _ hi]

theorem bitWord_xor (b c : Bool) :
    (bitWord (b ^^ c) : BitVec w) = bitWord b ^^^ bitWord c := by
  apply BitVec.eq_of_getLsbD_eq
  intro i hi
  simp only [BitVec.getLsbD_xor, getLsbD_bitWord _ _ hi]
  cases decide (i = 0) <;> simp

/-! ## Linearity -/

theorem shift_xor (s t : BitVec w) : shift taps (s ^^^ t) = shift taps s ^^^ shift taps t := by
  have hcancel : ∀ x y : BitVec w, x ^^^ y = x ^^^ taps ^^^ (y ^^^ taps) := by
    intro x y
    rw [BitVec.xor_assoc, BitVec.xor_comm y, ← BitVec.xor_assoc taps, BitVec.xor_self,
      BitVec.zero_xor]
  unfold shift
  rw [BitVec.getLsbD_xor, BitVec.ushiftRight_xor_distrib]
  cases s.getLsbD 0 <;> cases t.getLsbD 0 <;> simp only [Bool.false_eq_true, if_true, if_false,
    Bool.xor_false, Bool.xor_true, Bool.not_true, Bool.not_false]
  · exact BitVec.xor_assoc _ _ _
  · rw [BitVec.xor_assoc, BitVec.xor_assoc, BitVec.xor_comm (t >>> 1)]
  · exact hcancel _ _

@[simp] theorem shift_zero : shift taps 0 = 0 := by simp [shift]

theorem iterate_shift_zero (n : ℕ) : (shift taps)^[n] 0 = 0 := Function.iterate_fixed (shift_zero taps) n

theorem feed_xor (s t : BitVec w) (bits bits' : List Bool) (h : bits.length = bits'.length) :
    feed taps (s ^^^ t) (List.zipWith (fun b c => b ^^ c) bits bits') =
      feed taps s bits ^^^ feed taps t bits' := by
  induction bits generalizing s t bits' with
  | nil =>
      have hnil : bits' = [] := List.length_eq_zero_iff.1 h.symm
      subst hnil
      rfl
  | cons b bits ih =>
      cases bits' with
      | nil => cases h
      | cons c bits' =>
          have hsplit : s ^^^ t ^^^ bitWord (b ^^ c) = (s ^^^ bitWord b) ^^^ (t ^^^ bitWord c) := by
            rw [bitWord_xor, BitVec.xor_assoc, BitVec.xor_assoc, ← BitVec.xor_assoc t,
              BitVec.xor_comm t, BitVec.xor_assoc]
          rw [List.zipWith_cons_cons, feed_cons, hsplit, shift_xor, ih _ _ _ (Nat.succ.inj h)]
          rfl

theorem feed_replicate_false (s : BitVec w) (n : ℕ) :
    feed taps s (List.replicate n false) = (shift taps)^[n] s := by
  induction n generalizing s with
  | zero => rfl
  | succ n ih =>
      have hzero : s ^^^ bitWord false = s := by
        rw [bitWord_false]
        exact BitVec.xor_zero
      rw [List.replicate_succ, feed_cons, hzero, ih, Function.iterate_succ_apply]

/-! ## Loading up to a register's width at once -/

theorem getLsbD_load (bits : List Bool) (i : ℕ) (hi : i < w) :
    (load bits : BitVec w).getLsbD i = bits.getD i false := by
  induction bits generalizing i with
  | nil => simp [load]
  | cons b bits ih =>
      rw [load, BitVec.getLsbD_xor, getLsbD_bitWord b i hi, BitVec.getLsbD_shiftLeft]
      cases i with
      | zero => simp
      | succ i => simp [hi, ih i (by omega)]

theorem shift_shiftLeft_one (x : BitVec w) (h : x.getLsbD (w - 1) = false) :
    shift taps (x <<< 1) = x := by
  have hlow : (x <<< 1).getLsbD 0 = false := by simp
  rw [shift, hlow, if_neg Bool.false_ne_true]
  apply BitVec.eq_of_getLsbD_eq
  intro i hi
  rw [BitVec.getLsbD_ushiftRight, BitVec.getLsbD_shiftLeft]
  by_cases hlast : i = w - 1
  · subst hlast
    simp [h]
  · simp [show 1 + i < w by omega]

theorem feed_eq_iterate (s : BitVec w) (bits : List Bool) (h : bits.length ≤ w) :
    feed taps s bits = (shift taps)^[bits.length] (s ^^^ load bits) := by
  induction bits generalizing s with
  | nil => simp [load]
  | cons b bits ih =>
      have hlen : bits.length + 1 ≤ w := h
      have htop : (load bits : BitVec w).getLsbD (w - 1) = false := by
        rw [getLsbD_load bits (w - 1) (by omega), List.getD_eq_getElem?_getD,
          List.getElem?_eq_none (by omega)]
        rfl
      have hmove : shift taps (s ^^^ load (b :: bits)) =
          shift taps (s ^^^ bitWord b) ^^^ load bits := by
        rw [load, ← BitVec.xor_assoc, shift_xor, shift_shiftLeft_one taps _ htop]
      rw [feed_cons, ih _ (by omega), List.length_cons, Function.iterate_succ_apply, hmove]

/-! ## Errors inside a window of the register's width -/

theorem shift_eq_zero {s : BitVec w} (hmsb : taps.msb = true) (h : shift taps s = 0) : s = 0 := by
  have hw : 0 < w := by
    by_contra hw
    obtain rfl : w = 0 := by omega
    simp [BitVec.msb, BitVec.getMsbD] at hmsb
  have hbits : s.getLsbD 0 = false := by
    by_contra hlow
    rw [Bool.not_eq_false] at hlow
    rw [shift, if_pos hlow] at h
    have htop := congrArg (fun x => BitVec.getLsbD x (w - 1)) h
    have hout : s.getLsbD (1 + (w - 1)) = false := BitVec.getLsbD_of_ge s _ (by omega)
    rw [BitVec.msb_eq_getLsbD_last] at hmsb
    simp [hmsb, hout] at htop
  rw [shift, hbits, if_neg Bool.false_ne_true] at h
  apply BitVec.eq_of_getLsbD_eq
  intro i hi
  cases i with
  | zero => simpa using hbits
  | succ i =>
      have hi' := congrArg (fun x => BitVec.getLsbD x i) h
      simpa [Nat.add_comm] using hi'

theorem iterate_shift_eq_zero {s : BitVec w} (hmsb : taps.msb = true) (n : ℕ)
    (h : (shift taps)^[n] s = 0) : s = 0 := by
  induction n generalizing s with
  | zero => exact h
  | succ n ih =>
      rw [Function.iterate_succ_apply] at h
      exact shift_eq_zero taps hmsb (ih h)

/-- A full register's worth of bits empties the register exactly when it loads the register. -/
theorem feed_eq_zero_iff (hmsb : taps.msb = true) (s : BitVec w) (bits : List Bool)
    (h : bits.length ≤ w) : feed taps s bits = 0 ↔ s = load bits := by
  rw [feed_eq_iterate taps s bits h]
  constructor
  · intro h0
    have hx := iterate_shift_eq_zero taps hmsb _ h0
    calc s = s ^^^ (load bits ^^^ load bits) := by rw [BitVec.xor_self, BitVec.xor_zero]
      _ = 0 ^^^ load bits := by rw [← BitVec.xor_assoc, hx]
      _ = load bits := BitVec.zero_xor
  · rintro rfl
    rw [BitVec.xor_self]
    exact iterate_shift_zero taps _

theorem eq_replicate_false {bits : List Bool} (h : true ∉ bits) :
    bits = List.replicate bits.length false := by
  rw [List.eq_replicate_iff]
  refine ⟨rfl, fun b hb => ?_⟩
  cases b with
  | false => rfl
  | true => exact absurd hb h

theorem feed_zero_of_not_mem {bits : List Bool} (h : true ∉ bits) : feed taps 0 bits = 0 := by
  rw [eq_replicate_false h, feed_replicate_false, iterate_shift_zero]

/-- A nonzero error inside `w` consecutive bits leaves a nonzero register. -/
theorem feed_ne_zero_of_window (hmsb : taps.msb = true) (errors : List Bool) (k : ℕ)
    (hwindow : ∀ i, errors[i]? = some true → k ≤ i ∧ i < k + w) (hne : true ∈ errors) :
    feed taps 0 errors ≠ 0 := by
  have hsplit : errors = errors.take k ++ ((errors.drop k).take w ++ errors.drop (k + w)) := by
    rw [← List.drop_drop, List.take_append_drop, List.take_append_drop]
  have hhead : true ∉ errors.take k := by
    intro hmem
    obtain ⟨i, hi⟩ := List.getElem?_of_mem hmem
    rw [List.getElem?_take] at hi
    split at hi
    · have hk := (hwindow i hi).1
      omega
    · cases hi
  have htail : true ∉ errors.drop (k + w) := by
    intro hmem
    obtain ⟨i, hi⟩ := List.getElem?_of_mem hmem
    rw [List.getElem?_drop] at hi
    have hk := (hwindow _ hi).2
    omega
  intro h0
  rw [hsplit, feed_append, feed_append, feed_zero_of_not_mem taps hhead,
    eq_replicate_false htail, feed_replicate_false] at h0
  have hmid := iterate_shift_eq_zero taps hmsb _ h0
  rw [feed_eq_zero_iff taps hmsb _ _ (List.length_take_le _ _)] at hmid
  obtain ⟨i, hi⟩ := List.getElem?_of_mem hne
  obtain ⟨hki, hiw⟩ := hwindow i hi
  have hbit := congrArg (fun x => BitVec.getLsbD x (i - k)) hmid
  have hin : ((errors.drop k).take w)[i - k]? = some true := by
    rw [List.getElem?_take, if_pos (by omega), List.getElem?_drop, Nat.add_sub_cancel' hki, hi]
  simp only [getLsbD_load _ (i - k) (show i - k < w by omega), List.getD_eq_getElem?_getD, hin,
    Option.getD_some] at hbit
  simp at hbit

/-! ## Errors in an odd number of bits -/

def parity (x : BitVec w) : ZMod 2 := ∑ i ∈ range w, if x.getLsbD i then 1 else 0

@[simp] theorem parity_zero : parity (0 : BitVec w) = 0 := by simp [parity]

theorem parity_xor (x y : BitVec w) : parity (x ^^^ y) = parity x + parity y := by
  rw [parity, parity, parity, ← sum_add_distrib]
  refine sum_congr rfl fun i _ => ?_
  rw [BitVec.getLsbD_xor]
  cases x.getLsbD i <;> cases y.getLsbD i <;> decide

theorem parity_bitWord (b : Bool) (hw : 0 < w) :
    parity (bitWord b : BitVec w) = if b then 1 else 0 := by
  rw [parity, sum_eq_single_of_mem 0 (mem_range.2 hw)]
  · rw [getLsbD_bitWord b 0 hw]
    simp
  · intro i hi hne
    rw [getLsbD_bitWord b i (mem_range.1 hi)]
    simp [hne]

theorem parity_ushiftRight_one (x : BitVec w) (hw : 0 < w) :
    parity (x >>> 1) + (if x.getLsbD 0 then 1 else 0) = parity x := by
  obtain ⟨n, rfl⟩ : ∃ n, w = n + 1 := ⟨w - 1, by omega⟩
  have htop : x.getLsbD (1 + n) = false := BitVec.getLsbD_of_ge x _ (by omega)
  rw [parity, parity, sum_range_succ,
    sum_range_succ' (fun i => if x.getLsbD i then (1 : ZMod 2) else 0)]
  simp only [BitVec.getLsbD_ushiftRight, htop, Bool.false_eq_true, if_false, add_zero]
  simp only [Nat.add_comm 1]

theorem parity_shift (hodd : parity taps = 1) (x : BitVec w) (hw : 0 < w) :
    parity (shift taps x) = parity x := by
  have hright := parity_ushiftRight_one x hw
  rw [shift]
  cases hlow : x.getLsbD 0 with
  | false => simpa [hlow] using hright
  | true =>
      rw [hlow, if_pos rfl] at hright
      rw [if_pos rfl, parity_xor, hodd, hright]

theorem parity_feed (hodd : parity taps = 1) (hw : 0 < w) (s : BitVec w) (bits : List Bool) :
    parity (feed taps s bits) = parity s + (bits.count true : ℕ) := by
  induction bits generalizing s with
  | nil => simp
  | cons b bits ih =>
      rw [feed_cons, ih, parity_shift taps hodd _ hw, parity_xor, parity_bitWord b hw,
        List.count_cons]
      cases b <;> simp [add_assoc, add_comm]

/-- An error in an odd number of bits leaves a nonzero register. -/
theorem feed_ne_zero_of_odd (hodd : parity taps = 1) (hw : 0 < w) {errors : List Bool}
    (h : Odd (errors.count true)) : feed taps 0 errors ≠ 0 := by
  intro h0
  have hpar := parity_feed taps hodd hw 0 errors
  rw [h0, parity_zero, zero_add, (ZMod.natCast_eq_one_iff_odd).2 h] at hpar
  exact zero_ne_one hpar

end ShiftRegister
