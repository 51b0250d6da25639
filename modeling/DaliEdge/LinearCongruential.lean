import Mathlib.Algebra.Ring.GeomSum
import Mathlib.Data.Finset.Card
import Mathlib.NumberTheory.Multiplicity
import Mathlib.Tactic.Ring

/-!
# Linear congruential generators

A generator multiplies its state by a constant and adds another. Its path is a geometric sum, so
for a multiplier that is 1 modulo 4 and an odd increment the states of two moments agree modulo a
power of two exactly when the moments do: the generator runs through all residues before it
repeats one.
-/

namespace LinearCongruential

open Finset

section Path

variable {R : Type*} [CommRing R] (a c : R)

def step (x : R) : R := a * x + c

theorem iterate_step_sub (x : R) (n : ℕ) :
    (step a c)^[n] x - x = (∑ i ∈ range n, a ^ i) * ((a - 1) * x + c) := by
  induction n with
  | zero => simp
  | succ n ih =>
      have hlast : (step a c)^[n + 1] x = a * (step a c)^[n] x + c :=
        Function.iterate_succ_apply' (step a c) n x
      have hpath : (step a c)^[n] x = (∑ i ∈ range n, a ^ i) * ((a - 1) * x + c) + x :=
        sub_eq_iff_eq_add.1 ih
      rw [hlast, hpath, geom_sum_succ]
      ring

end Path

section PowersOfTwo

variable {a c : ℤ}

theorem emultiplicity_geom_sum (ha : 4 ∣ a - 1) (n : ℕ) :
    emultiplicity 2 (∑ i ∈ range n, a ^ i) = emultiplicity (2 : ℤ) n := by
  by_cases hone : a = 1
  · rw [hone, one_geom_sum]
  · have hodd : ¬ 2 ∣ a := by omega
    have hfinite : FiniteMultiplicity 2 (a - 1) :=
      Int.finiteMultiplicity_iff.2 ⟨by decide, sub_ne_zero.2 hone⟩
    have hlift := Int.two_pow_sub_pow' n ha hodd
    rw [one_pow, ← geom_sum_mul, emultiplicity_mul Int.prime_two, add_comm] at hlift
    exact WithTop.add_left_cancel (finiteMultiplicity_iff_emultiplicity_ne_top.1 hfinite) hlift

/-- The generator is back modulo `2 ^ k` after the multiples of `2 ^ k`, and only then. -/
theorem two_pow_dvd_iterate_sub (ha : 4 ∣ a - 1) (hc : ¬ 2 ∣ c) (x : ℤ) (k n : ℕ) :
    2 ^ k ∣ (step a c)^[n] x - x ↔ (2 : ℤ) ^ k ∣ n := by
  have hodd : ¬ 2 ∣ (a - 1) * x + c := by
    have htwo : 2 ∣ (a - 1) * x := ((by decide : (2 : ℤ) ∣ 4).trans ha).mul_right x
    rwa [Int.dvd_add_right htwo]
  have hpath : emultiplicity 2 ((step a c)^[n] x - x) = emultiplicity (2 : ℤ) n := by
    rw [iterate_step_sub, emultiplicity_mul Int.prime_two, emultiplicity_geom_sum ha,
      emultiplicity_eq_zero.2 hodd, add_zero]
  rw [pow_dvd_iff_le_emultiplicity, pow_dvd_iff_le_emultiplicity, hpath]

/-- Two states of a run agree modulo `2 ^ k` exactly when their moments do. -/
theorem iterate_modEq_iff (ha : 4 ∣ a - 1) (hc : ¬ 2 ∣ c) (x : ℤ) (k m n : ℕ) :
    (step a c)^[m] x ≡ (step a c)^[n] x [ZMOD 2 ^ k] ↔ m ≡ n [MOD 2 ^ k] := by
  wlog hle : m ≤ n generalizing m n
  · rw [Int.modEq_comm, Nat.ModEq.comm]
    exact this n m (Nat.le_of_not_le hle)
  · obtain ⟨j, rfl⟩ := Nat.exists_eq_add_of_le hle
    rw [Nat.add_comm m j, Function.iterate_add_apply, Int.modEq_iff_dvd,
      two_pow_dvd_iterate_sub ha hc, Nat.modEq_iff_dvd]
    push_cast
    rw [add_sub_cancel_right]

end PowersOfTwo

/-! ## Full orbits -/

/-- A sequence that takes no value below `N` twice in its first `N` terms takes each once, so it
meets a condition as often as the numbers below `N` do. -/
theorem card_filter_orbit {N : ℕ} {f : ℕ → ℕ} (hlt : ∀ i < N, f i < N)
    (hinj : ∀ i < N, ∀ j < N, f i = f j → i = j) (p : ℕ → Prop) [DecidablePred p] :
    #{i ∈ range N | p (f i)} = #{i ∈ range N | p i} := by
  have hinjOn : Set.InjOn f (range N) := by
    intro i hi j hj
    exact hinj i (mem_range.1 hi) j (mem_range.1 hj)
  have hsubset : (range N).image f ⊆ range N :=
    image_subset_iff.2 fun i hi => mem_range.2 (hlt i (mem_range.1 hi))
  have himage : (range N).image f = range N :=
    eq_of_subset_of_card_le hsubset (card_image_of_injOn hinjOn).ge
  conv_rhs => rw [← himage, filter_image]
  rw [card_image_of_injOn (hinjOn.mono (filter_subset _ _))]

end LinearCongruential
