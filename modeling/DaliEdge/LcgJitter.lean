import DaliEdge.LinearCongruential
import DaliEdge.Transaction
import Mathlib.Data.Int.CardIntervalMod

/-!
# The jitter source

The jitters of the retry delays are drawn from a generator with a state of 32 bits. It goes through
all its states before it repeats one, so over its period every jitter is drawn as often as every
other, to within one.
-/

namespace DaliEdge

structure LcgJitter where
  state : UInt32 := 0x534C5301
  deriving DecidableEq

namespace LcgJitter

/-- A draw. Where `maxInclusive + 1` wraps to 0 the remainder of the source is undefined, and that
of the model is the state. -/
def next (jitter : LcgJitter) (maxInclusive : UInt32) : UInt32 × LcgJitter :=
  let state := jitter.state * 1664525 + 1013904223
  (state % (maxInclusive + 1), ⟨state⟩)

/-- The generator after a draw, whatever the bound of the draw. -/
def advance (jitter : LcgJitter) : LcgJitter := ⟨jitter.state * 1664525 + 1013904223⟩

/-- The value of draw `i`, counted from 0. -/
def draw (jitter : LcgJitter) (maxInclusive : UInt32) (i : ℕ) : UInt32 :=
  ((advance^[i] jitter).next maxInclusive).1

/-! ## The period -/

open LinearCongruential (step iterate_modEq_iff card_filter_orbit)

theorem toNat_advance (jitter : LcgJitter) :
    jitter.advance.state.toNat = (1664525 * jitter.state.toNat + 1013904223) % 2 ^ 32 := by
  rw [advance, UInt32.toNat_add, UInt32.toNat_mul, Nat.mod_add_mod, Nat.mul_comm]
  rfl

theorem state_iterate (jitter : LcgJitter) (n : ℕ) :
    ((advance^[n] jitter).state.toNat : ℤ) ≡
      (step 1664525 1013904223)^[n] (jitter.state.toNat : ℤ) [ZMOD 2 ^ 32] := by
  induction n with
  | zero => rfl
  | succ n ih =>
      have hadvance : (((advance^[n] jitter).advance.state.toNat : ℕ) : ℤ) ≡
          1664525 * ((advance^[n] jitter).state.toNat : ℤ) + 1013904223 [ZMOD 2 ^ 32] := by
        rw [toNat_advance]
        push_cast
        exact Int.mod_modEq _ _
      rw [Function.iterate_succ_apply' advance, Function.iterate_succ_apply' (step 1664525 1013904223)]
      exact hadvance.trans ((ih.mul_left 1664525).add_right 1013904223)

theorem eq_of_toNat_eq {jitter jitter' : LcgJitter} (h : jitter.state.toNat = jitter'.state.toNat) :
    jitter = jitter' := by
  obtain ⟨state⟩ := jitter
  obtain ⟨state'⟩ := jitter'
  exact congrArg LcgJitter.mk (UInt32.toNat_inj.1 h)

theorem iterate_eq_iff (jitter : LcgJitter) (m n : ℕ) :
    advance^[m] jitter = advance^[n] jitter ↔ m ≡ n [MOD 2 ^ 32] := by
  have hm := state_iterate jitter m
  have hn := state_iterate jitter n
  rw [← iterate_modEq_iff (by decide : (4 : ℤ) ∣ 1664525 - 1) (by decide : ¬ (2 : ℤ) ∣ 1013904223)
    jitter.state.toNat]
  constructor
  · intro h
    rw [h] at hm
    exact hm.symm.trans hn
  · intro h
    have hstates := Int.natCast_modEq_iff.1 ((hm.trans h).trans hn.symm)
    have hlt : ∀ i, (advance^[i] jitter).state.toNat < 2 ^ 32 := fun i => UInt32.toNat_lt _
    rw [Nat.ModEq, Nat.mod_eq_of_lt (hlt m), Nat.mod_eq_of_lt (hlt n)] at hstates
    exact eq_of_toNat_eq hstates

/-! ## The values -/

theorem draw_eq (jitter : LcgJitter) (maxInclusive : UInt32) (i : ℕ) :
    jitter.draw maxInclusive i = (advance^[i + 1] jitter).state % (maxInclusive + 1) := by
  rw [Function.iterate_succ_apply']
  rfl

theorem toNat_bound {maxInclusive : UInt32} (hmax : maxInclusive ≠ 0xFFFFFFFF) :
    (maxInclusive + 1).toNat = maxInclusive.toNat + 1 := by
  have hne : maxInclusive.toNat ≠ 4294967295 := fun h => hmax (UInt32.toNat_inj.1 h)
  have hlt := maxInclusive.toNat_lt
  rw [UInt32.toNat_add]
  exact Nat.mod_eq_of_lt (by simp only [UInt32.toNat_one]; omega)

theorem toNat_draw (jitter : LcgJitter) {maxInclusive : UInt32} (hmax : maxInclusive ≠ 0xFFFFFFFF)
    (i : ℕ) : (jitter.draw maxInclusive i).toNat =
      (advance^[i + 1] jitter).state.toNat % (maxInclusive.toNat + 1) := by
  rw [draw_eq, UInt32.toNat_mod, toNat_bound hmax]

theorem draw_le (jitter : LcgJitter) {maxInclusive : UInt32} (hmax : maxInclusive ≠ 0xFFFFFFFF)
    (i : ℕ) : jitter.draw maxInclusive i ≤ maxInclusive := by
  rw [UInt32.le_iff_toNat_le, toNat_draw jitter hmax]
  exact Nat.lt_succ_iff.1 (Nat.mod_lt _ (Nat.succ_pos _))

open Finset

theorem card_filter_states (jitter : LcgJitter) (p : ℕ → Prop) [DecidablePred p] :
    #{i ∈ range (2 ^ 32) | p (advance^[i + 1] jitter).state.toNat} = #{i ∈ range (2 ^ 32) | p i} := by
  refine card_filter_orbit (f := fun i => (advance^[i + 1] jitter).state.toNat)
    (fun i _ => UInt32.toNat_lt _) (fun i hi j hj heq => ?_) p
  have hstates : advance^[i + 1] jitter = advance^[j + 1] jitter := eq_of_toNat_eq heq
  have hmoments := Nat.ModEq.add_right_cancel' 1 ((jitter.iterate_eq_iff _ _).1 hstates)
  rwa [Nat.ModEq, Nat.mod_eq_of_lt hi, Nat.mod_eq_of_lt hj] at hmoments

/-- Whatever its state, the generator repeats a state exactly after the multiples of 2 ^ 32 draws; its
draws keep the bound that they are asked for, and in 2 ^ 32 draws every value up to the bound comes
as often as every other, but for one more of the lowest. -/
theorem draws_even (jitter : LcgJitter) {maxInclusive : UInt32} (hmax : maxInclusive ≠ 0xFFFFFFFF) :
    (∀ m n, advance^[m] jitter = advance^[n] jitter ↔ m ≡ n [MOD 2 ^ 32]) ∧
      (∀ i, jitter.draw maxInclusive i ≤ maxInclusive) ∧
      ∀ value ≤ maxInclusive,
        #{i ∈ range (2 ^ 32) | jitter.draw maxInclusive i = value} =
          2 ^ 32 / (maxInclusive.toNat + 1) +
            if value.toNat < 2 ^ 32 % (maxInclusive.toNat + 1) then 1 else 0 := by
  refine ⟨jitter.iterate_eq_iff, fun i => jitter.draw_le hmax i, fun value hvalue => ?_⟩
  have hsmall : value.toNat % (maxInclusive.toNat + 1) = value.toNat :=
    Nat.mod_eq_of_lt (Nat.lt_succ_of_le (UInt32.le_iff_toNat_le.1 hvalue))
  have hdrawn : ∀ i, jitter.draw maxInclusive i = value ↔
      (advance^[i + 1] jitter).state.toNat ≡ value.toNat [MOD maxInclusive.toNat + 1] := by
    intro i
    rw [← UInt32.toNat_inj, toNat_draw jitter hmax, Nat.ModEq, hsmall]
  rw [filter_congr fun i _ => hdrawn i,
    card_filter_states jitter fun state => state ≡ value.toNat [MOD maxInclusive.toNat + 1],
    ← Nat.count_eq_card_filter_range, Nat.count_modEq_card _ (Nat.succ_pos _), hsmall]

/-- Of the jitters of up to 25 ms, 3 comes once more often than 25. -/
theorem draws_even_retries :
    #{i ∈ range (2 ^ 32) | ({} : LcgJitter).draw kMaximumJitterMs i = 3} = 165191050 ∧
      #{i ∈ range (2 ^ 32) | ({} : LcgJitter).draw kMaximumJitterMs i = 25} = 165191049 :=
  ⟨(draws_even {} (by decide)).2.2 3 (by decide), (draws_even {} (by decide)).2.2 25 (by decide)⟩

end LcgJitter

end DaliEdge
