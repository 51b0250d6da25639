import Mathlib.Data.List.Basic

/-!
# Loops that try again

A loop makes attempts numbered from 0 up to a limit. After an attempt whose outcome asks for
another one it goes on from the state that the attempt and the pause behind it leave. `last` is
the attempt it ends with, and `unroll` the rule that brings the loop there.
-/

structure RetryLoop (σ ο : Type*) where
  outcome : σ → ο
  again : ο → Bool
  limit : ℕ
  /-- The state that the next attempt starts in. -/
  next : ℕ → σ → σ

namespace RetryLoop

variable {σ ο : Type*} (L : RetryLoop σ ο) (s : σ)

/-- The state before attempt `k`, if all attempts before it are tried again. -/
def before : ℕ → σ
  | 0 => s
  | k + 1 => L.next k (before k)

def outcomeAt (k : ℕ) : ο := L.outcome (L.before s k)

/-- The first attempt whose outcome does not ask for another, or else the one at the limit. -/
def last : ℕ := ((List.range L.limit).find? fun k => !L.again (L.outcomeAt s k)).getD L.limit

theorem last_spec : L.last s ≤ L.limit ∧ (∀ k < L.last s, L.again (L.outcomeAt s k) = true) ∧
    (L.again (L.outcomeAt s (L.last s)) = false ∨ L.last s = L.limit) := by
  unfold last
  cases hfind : (List.range L.limit).find? fun k => !L.again (L.outcomeAt s k) with
  | none =>
      refine ⟨Nat.le_refl _, fun k hk => ?_, .inr rfl⟩
      have hnone := List.find?_eq_none.1 hfind k (List.mem_range.2 hk)
      simpa using hnone
  | some n =>
      obtain ⟨hn, hmem, hbefore⟩ := List.find?_range_eq_some.1 hfind
      rw [Option.getD_some]
      refine ⟨Nat.le_of_lt (List.mem_range.1 hmem), fun k hk => ?_, .inl ?_⟩
      · simpa using hbefore k hk
      · simpa using hn

/-- A program that goes on after each outcome that asks for another attempt arrives at every
attempt up to the last. -/
theorem unroll {β : Type*} (loop : (remaining attempt : ℕ) → σ → β)
    (hstep : ∀ remaining k t, L.again (L.outcome t) = true → k ≠ L.limit →
      loop (remaining + 1) k t = loop remaining (k + 1) (L.next k t))
    {k : ℕ} (hk : k ≤ L.last s) :
    loop (L.limit + 1) 0 s = loop (L.limit + 1 - k) k (L.before s k) := by
  obtain ⟨hlimit, hagain, -⟩ := L.last_spec s
  induction k with
  | zero => rfl
  | succ k ih =>
      have hremaining : L.limit + 1 - k = (L.limit + 1 - (k + 1)) + 1 := by omega
      have hne : k ≠ L.limit := by omega
      rw [ih (by omega), hremaining, hstep _ k _ (hagain k (by omega)) hne]
      rfl

end RetryLoop
