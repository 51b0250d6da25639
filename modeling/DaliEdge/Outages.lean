import DaliEdge.History
import Mathlib.Data.List.Infix

/-!
# Outages in a word of missed answers

A word says of each poll whether its answer was missed. Its phases alternate: an answer, then
`k + 1` misses in a row, then an answer again, and so on. A counter that moves on exactly when
the next phase ends counts the phases of the word.
-/

namespace Outages

variable {k n : ℕ} {w : List Bool} {x : Bool}

/-- What phase `n` waits for: answers and outages in turn. -/
def Ends (k n : ℕ) (w : List Bool) : Prop :=
  if n % 2 = 0 then false ∈ w else List.replicate (k + 1) true <:+: w

/-- The poll `x` after `w` is what phase `n` waits for. -/
def Closes (k n : ℕ) (w : List Bool) (x : Bool) : Prop :=
  if n % 2 = 0 then x = false else x = true ∧ List.replicate k true <:+ w

/-- The word holds the first `n` phases, one after the other. -/
def Phases (k : ℕ) : ℕ → List Bool → Prop
  | 0, _ => True
  | n + 1, w => ∃ earlier later, w = earlier ++ later ∧ Phases k n earlier ∧ Ends k n later

theorem Ends.append (h : Ends k n w) (v : List Bool) : Ends k n (w ++ v) := by
  unfold Ends at h ⊢
  split_ifs at h ⊢
  · exact List.mem_append_left v h
  · exact h.trans (List.prefix_append w v).isInfix

theorem Phases.append (h : Phases k n w) (v : List Bool) : Phases k n (w ++ v) := by
  cases n with
  | zero => trivial
  | succ n =>
      obtain ⟨earlier, later, rfl, hearlier, hlater⟩ := h
      exact ⟨earlier, later ++ v, List.append_assoc _ _ _, hearlier, hlater.append v⟩

theorem not_ends_nil : ¬ Ends k n [] := by
  unfold Ends
  split_ifs
  · exact List.not_mem_nil
  · rw [List.infix_nil]
    exact List.cons_ne_nil _ _

theorem ends_snoc : Ends k n (w ++ [x]) ↔ Ends k n w ∨ Closes k n w x := by
  unfold Ends Closes
  split_ifs
  · rw [List.mem_append, List.mem_singleton, eq_comm (a := x)]
  · rw [List.infix_concat_iff, or_comm, History.replicate_suffix_snoc]

theorem phases_snoc : Phases k (n + 1) (w ++ [x]) ↔ Phases k (n + 1) w ∨
    ∃ earlier later, w = earlier ++ later ∧ Phases k n earlier ∧ Closes k n later x := by
  constructor
  · rintro ⟨earlier, later, hw, hearlier, hlater⟩
    rcases List.eq_nil_or_concat later with rfl | ⟨later, y, rfl⟩
    · exact absurd hlater not_ends_nil
    · rw [List.concat_eq_append, ← List.append_assoc] at hw
      obtain ⟨rfl, hxy⟩ := List.append_inj' hw rfl
      obtain rfl := List.singleton_inj.1 hxy
      rw [List.concat_eq_append, ends_snoc] at hlater
      rcases hlater with hlater | hlast
      · exact .inl ⟨earlier, later, rfl, hearlier, hlater⟩
      · exact .inr ⟨earlier, later, rfl, hearlier, hlast⟩
  · rintro (h | ⟨earlier, later, rfl, hearlier, hlast⟩)
    · exact h.append [x]
    · exact ⟨earlier, later ++ [x], List.append_assoc _ _ _, hearlier, ends_snoc.2 (.inr hlast)⟩

theorem phases_missed (h : n % 2 = 0) (j : ℕ) :
    Phases k (n + 1) (w ++ List.replicate j true) ↔ Phases k (n + 1) w := by
  induction j with
  | zero => rw [List.replicate_zero, List.append_nil]
  | succ j ih =>
      rw [List.replicate_succ', ← List.append_assoc, phases_snoc, ih]
      refine or_iff_left ?_
      rintro ⟨earlier, later, -, -, hx⟩
      rw [Closes, if_pos h] at hx
      exact Bool.noConfusion hx

theorem phases_succ_snoc : Phases k (n + 1) (w ++ [x]) ↔
    Phases k (n + 1) w ∨ (Phases k n w ∧ Closes k n w x) := by
  rw [phases_snoc]
  refine or_congr_right ⟨?_, ?_⟩
  · rintro ⟨earlier, later, rfl, hearlier, hlast⟩
    refine ⟨hearlier.append later, ?_⟩
    unfold Closes at hlast ⊢
    split_ifs at hlast ⊢
    · exact hlast
    · exact ⟨hlast.1, hlast.2.trans (List.suffix_append earlier later)⟩
  · rintro ⟨hw, hlast⟩
    by_cases h : n % 2 = 0
    · refine ⟨w, [], (List.append_nil w).symm, hw, ?_⟩
      rw [Closes, if_pos h] at hlast ⊢
      exact hlast
    · rw [Closes, if_neg h] at hlast
      obtain ⟨hx, earlier, rfl⟩ := hlast
      obtain ⟨m, rfl⟩ : ∃ m, n = m + 1 := ⟨n - 1, by omega⟩
      rw [phases_missed (by omega)] at hw
      refine ⟨earlier, _, rfl, hw, ?_⟩
      rw [Closes, if_neg h]
      exact ⟨hx, List.suffix_rfl⟩

/-- A counter that starts at zero and moves on when the next phase ends counts the phases. -/
theorem phases_iff_le {α : Type*} (missed : α → Bool) {f : List α → ℕ} (hnil : f [] = 0)
    (hnext : ∀ xs x, Closes k (f xs) (xs.map missed) (missed x) → f (xs ++ [x]) = f xs + 1)
    (hstay : ∀ xs x, ¬ Closes k (f xs) (xs.map missed) (missed x) → f (xs ++ [x]) = f xs)
    (n : ℕ) (xs : List α) : Phases k n (xs.map missed) ↔ n ≤ f xs := by
  induction xs using List.reverseRecOn generalizing n with
  | nil =>
      rw [hnil, List.map_nil]
      cases n with
      | zero => exact iff_of_true trivial le_rfl
      | succ n =>
          refine iff_of_false ?_ (by omega)
          rintro ⟨earlier, later, hnilled, -, hlater⟩
          obtain ⟨-, rfl⟩ := List.append_eq_nil_iff.1 hnilled.symm
          exact not_ends_nil hlater
  | append_singleton xs x ih =>
      cases n with
      | zero => exact iff_of_true trivial (Nat.zero_le _)
      | succ n =>
          rw [List.map_append, List.map_singleton, phases_succ_snoc, ih, ih]
          by_cases hcloses : Closes k (f xs) (xs.map missed) (missed x)
          · rw [hnext xs x hcloses]
            rcases Nat.lt_trichotomy n (f xs) with hlt | rfl | hgt
            · exact iff_of_true (.inl hlt) (by omega)
            · exact iff_of_true (.inr ⟨le_rfl, hcloses⟩) le_rfl
            · exact iff_of_false (by omega) (by omega)
          · rw [hstay xs x hcloses]
            rcases Nat.lt_trichotomy n (f xs) with hlt | rfl | hgt
            · exact iff_of_true (.inl hlt) hlt
            · exact iff_of_false (by rintro (hle | ⟨-, hlast⟩); exacts [by omega, hcloses hlast])
                (by omega)
            · exact iff_of_false (by omega) (by omega)

end Outages
