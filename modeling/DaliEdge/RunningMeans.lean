import Mathlib.Algebra.Order.BigOperators.Group.List
import Mathlib.Algebra.Order.Field.Basic
import Mathlib.Algebra.Order.Ring.Pow
import Mathlib.Order.Bounds.Basic
import Mathlib.Tactic.FieldSimp
import Mathlib.Tactic.LinearCombination
import Mathlib.Tactic.Ring

/-!
# Statistics that are kept up to date

When one more value comes, the mean and the sum of squared deviations of all values follow from
what they were, the number of values and the value alone. So do the least and the greatest value.
-/

namespace RunningMean

variable {F : Type*} [Field F]

def mean (xs : List F) : F := xs.sum / (xs.length : F)

def squaredDeviations (xs : List F) : F := (xs.map fun x => (x - mean xs) ^ 2).sum

def sampleVariance (xs : List F) : F := squaredDeviations xs / ((xs.length : F) - 1)

@[simp] theorem mean_nil : mean ([] : List F) = 0 := by
  rw [mean, List.sum_nil, zero_div]

@[simp] theorem squaredDeviations_nil : squaredDeviations ([] : List F) = 0 := rfl

theorem sum_sq_sub (xs : List F) (c : F) : (xs.map fun x => (x - c) ^ 2).sum =
    (xs.map (· ^ 2)).sum - 2 * c * xs.sum + (xs.length : F) * c ^ 2 := by
  induction xs with
  | nil => simp
  | cons x xs ih =>
      simp only [List.map_cons, List.sum_cons, List.length_cons, Nat.cast_succ, ih]
      ring

section CharZero

variable [CharZero F]

theorem length_mul_mean (xs : List F) : (xs.length : F) * mean xs = xs.sum := by
  cases xs with
  | nil => simp
  | cons x xs =>
      have hne : ((x :: xs).length : F) ≠ 0 := Nat.cast_ne_zero.2 (Nat.succ_ne_zero _)
      rw [mean, mul_div_cancel₀ _ hne]

theorem length_mul_mean_snoc (xs : List F) (x : F) :
    ((xs.length : F) + 1) * mean (xs ++ [x]) = (xs.length : F) * mean xs + x := by
  have h := length_mul_mean (xs ++ [x])
  rw [List.sum_append, List.sum_singleton, ← length_mul_mean xs, List.length_append,
    List.length_singleton, Nat.cast_add, Nat.cast_one] at h
  exact h

theorem mean_snoc (xs : List F) (x : F) :
    mean (xs ++ [x]) = mean xs + (x - mean xs) / ((xs.length + 1 : ℕ) : F) := by
  have hne : (xs.length : F) + 1 ≠ 0 := Nat.cast_add_one_ne_zero _
  apply mul_left_cancel₀ hne
  rw [length_mul_mean_snoc, Nat.cast_add, Nat.cast_one]
  field_simp
  ring

theorem squaredDeviations_eq (xs : List F) :
    squaredDeviations xs = (xs.map (· ^ 2)).sum - (xs.length : F) * mean xs ^ 2 := by
  rw [squaredDeviations, sum_sq_sub, ← length_mul_mean xs]
  ring

/-- A new value adds the product of its distances from the old and from the new mean. -/
theorem squaredDeviations_snoc (xs : List F) (x : F) :
    squaredDeviations (xs ++ [x]) =
      squaredDeviations xs + (x - mean xs) * (x - mean (xs ++ [x])) := by
  have hmean := length_mul_mean_snoc xs x
  rw [squaredDeviations_eq, squaredDeviations_eq, List.map_append, List.sum_append,
    List.length_append, List.length_singleton, Nat.cast_add, Nat.cast_one, List.map_singleton,
    List.sum_singleton]
  linear_combination -(mean (xs ++ [x]) + mean xs) * hmean

end CharZero

section Order

variable [LinearOrder F] [IsStrictOrderedRing F]

theorem squaredDeviations_nonneg (xs : List F) : 0 ≤ squaredDeviations xs := by
  apply List.sum_nonneg
  intro y hy
  obtain ⟨x, -, rfl⟩ := List.mem_map.1 hy
  exact sq_nonneg _

theorem sampleVariance_nonneg {xs : List F} (h : 1 ≤ xs.length) : 0 ≤ sampleVariance xs := by
  have hlength : (1 : F) ≤ (xs.length : F) := Nat.one_le_cast.2 h
  exact div_nonneg (squaredDeviations_nonneg xs) (sub_nonneg.2 hlength)

end Order

theorem toNat_count_succ {count : UInt32} {k : ℕ} (h : count.toNat = k) (hlt : k + 1 < 2 ^ 32) :
    (count + 1).toNat = k + 1 := by
  rw [UInt32.toNat_add, UInt32.toNat_one, h, Nat.mod_eq_of_lt hlt]

section Extremes

variable {α : Type*} [LinearOrder α] {xs : List α} {best : α}

omit [LinearOrder α] in
theorem mem_snoc_eq_insert (xs : List α) (x : α) :
    {y | y ∈ xs ++ [x]} = insert x {y | y ∈ xs} := by
  ext y
  simp [or_comm]

theorem isLeast_singleton (x : α) : IsLeast {y | y ∈ [x]} x := by
  simp [IsLeast, lowerBounds]

theorem isGreatest_singleton (x : α) : IsGreatest {y | y ∈ [x]} x := by
  simp [IsGreatest, upperBounds]

theorem isLeast_snoc (h : IsLeast {y | y ∈ xs} best) (x : α) :
    IsLeast {y | y ∈ xs ++ [x]} (if x < best then x else best) := by
  rw [mem_snoc_eq_insert, ← min_def_lt]
  exact h.insert x

theorem isGreatest_snoc (h : IsGreatest {y | y ∈ xs} best) (x : α) :
    IsGreatest {y | y ∈ xs ++ [x]} (if best < x then x else best) := by
  rw [mem_snoc_eq_insert, ← max_def_lt, max_comm]
  exact h.insert x

end Extremes

end RunningMean
