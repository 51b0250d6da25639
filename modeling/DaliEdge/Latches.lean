import DaliEdge.History
import Mathlib.Data.List.Infix

/-!
# Latches over a word of samples

A counter of the samples of one kind at the end of the word, kept up to a cap; and a latch that
`n` bad samples in a row set and `m` good ones in a row release. Bad samples are `true`.
-/

namespace Latches

variable {w : List Bool}

/-! ## Counters -/

/-- Up to the cap, `count` is the length of the repetition of `a` that the word ends with. -/
def Counts (cap : ℕ) (a : Bool) (count : ℕ) (w : List Bool) : Prop :=
  ∀ j ≤ cap, List.replicate j a <:+ w ↔ j ≤ count

variable {cap count : ℕ} {a x : Bool}

theorem counts_nil (cap : ℕ) (a : Bool) : Counts cap a 0 [] := by
  intro j _
  rw [List.suffix_nil, List.replicate_eq_nil_iff, Nat.le_zero]

theorem Counts.snoc_self (h : Counts cap a count w) :
    Counts cap a (min (count + 1) cap) (w ++ [a]) := by
  intro j hj
  cases j with
  | zero => simp
  | succ j =>
      rw [History.replicate_suffix_snoc, h j (by omega)]
      simp only [true_and]
      omega

theorem Counts.snoc_other (h : x ≠ a) : Counts cap a 0 (w ++ [x]) := by
  intro j _
  cases j with
  | zero => simp
  | succ j =>
      rw [History.replicate_suffix_snoc]
      simp [h]

/-! ## The latch -/

/-- Some `n` bad samples in a row, after which no `m` good ones in a row have come. -/
def Latched (n m : ℕ) (w : List Bool) : Prop :=
  ∃ before later, w = before ++ later ∧ List.replicate n true <:+ before ∧
    ¬ List.replicate m false <:+: later

variable {n m : ℕ}

theorem not_latched_nil (hn : 0 < n) : ¬ Latched n m [] := by
  rintro ⟨before, later, h, hset, -⟩
  obtain ⟨rfl, -⟩ := List.append_eq_nil_iff.1 h.symm
  rw [List.suffix_nil, List.replicate_eq_nil_iff] at hset
  omega

theorem good_suffix_of_append {before later : List Bool} (hn : 0 < n)
    (hset : List.replicate n true <:+ before) (h : List.replicate m false <:+ before ++ later) :
    List.replicate m false <:+ later := by
  obtain ⟨k, rfl⟩ : ∃ k, n = k + 1 := ⟨n - 1, by omega⟩
  have hbad : true :: later <:+ before ++ later := by
    have hone : [true] <:+ before :=
      (History.replicate_suffix_of_le (Nat.le_add_left 1 k) hset)
    obtain ⟨front, rfl⟩ := hone
    exact ⟨front, by simp⟩
  rcases List.suffix_or_suffix_of_suffix h hbad with h | h
  · rcases List.suffix_cons_iff.1 h with heq | h
    · have hmem : true ∈ List.replicate m false := heq ▸ List.mem_cons_self
      exact absurd (List.eq_of_mem_replicate hmem) (by decide)
    · exact h
  · have hmem := h.subset List.mem_cons_self
    exact absurd (List.eq_of_mem_replicate hmem) (by decide)

/-- A sample sets the latch, or leaves it set unless it completes `m` good ones in a row. -/
theorem latched_snoc (hn : 0 < n) (hm : 0 < m) : Latched n m (w ++ [x]) ↔
    List.replicate n true <:+ w ++ [x] ∨
      (Latched n m w ∧ ¬ List.replicate m false <:+ w ++ [x]) := by
  constructor
  · rintro ⟨before, later, h, hset, hkept⟩
    rcases List.eq_nil_or_concat later with rfl | ⟨later, y, rfl⟩
    · rw [List.append_nil] at h
      exact .inl (h ▸ hset)
    · rw [List.concat_eq_append] at h hkept
      rw [List.infix_concat_iff, not_or] at hkept
      rw [← List.append_assoc] at h
      obtain ⟨rfl, hxy⟩ := List.append_inj' h rfl
      obtain rfl := List.singleton_inj.1 hxy
      refine .inr ⟨⟨before, later, rfl, hset, hkept.2⟩, fun hclear => ?_⟩
      rw [List.append_assoc] at hclear
      exact hkept.1 (good_suffix_of_append hn hset hclear)
  · rintro (hset | ⟨⟨before, later, rfl, hset, hkept⟩, hclear⟩)
    · refine ⟨w ++ [x], [], (List.append_nil _).symm, hset, ?_⟩
      rw [List.infix_nil, List.replicate_eq_nil_iff]
      omega
    · refine ⟨before, later ++ [x], List.append_assoc _ _ _, hset, ?_⟩
      rw [List.infix_concat_iff, not_or]
      refine ⟨fun h => hclear ?_, hkept⟩
      rw [List.append_assoc]
      exact h.trans (List.suffix_append _ _)

theorem latched_snoc_bad (hn : 0 < n) (hm : 0 < m) : Latched n m (w ++ [true]) ↔
    List.replicate n true <:+ w ++ [true] ∨ Latched n m w := by
  obtain ⟨k, rfl⟩ : ∃ k, m = k + 1 := ⟨m - 1, by omega⟩
  rw [latched_snoc hn hm, History.replicate_suffix_snoc]
  simp

theorem latched_snoc_good (hn : 0 < n) (hm : 0 < m) : Latched n m (w ++ [false]) ↔
    Latched n m w ∧ ¬ List.replicate m false <:+ w ++ [false] := by
  obtain ⟨k, rfl⟩ : ∃ k, n = k + 1 := ⟨n - 1, by omega⟩
  rw [latched_snoc hn hm, History.replicate_suffix_snoc]
  simp

theorem not_latched_of_good (hn : 0 < n) (h : List.replicate m false <:+ w) :
    ¬ Latched n m w := by
  rintro ⟨before, later, rfl, hset, hkept⟩
  exact hkept (good_suffix_of_append hn hset h).isInfix

theorem Latched.of_le {k : ℕ} (hle : k ≤ n) (h : Latched n m w) : Latched k m w := by
  obtain ⟨before, later, rfl, hset, hkept⟩ := h
  exact ⟨before, later, rfl, History.replicate_suffix_of_le hle hset, hkept⟩

theorem Latched.append {more : List Bool} (hn : 0 < n) (hm : 0 < m) (h : Latched n m w)
    (hkept : ∀ seen, seen <+: more → ¬ List.replicate m false <:+ w ++ seen) :
    Latched n m (w ++ more) := by
  induction more using List.reverseRecOn with
  | nil => rwa [List.append_nil]
  | append_singleton more x ih =>
      rw [← List.append_assoc, latched_snoc hn hm]
      right
      constructor
      · exact ih fun seen hseen => hkept seen (hseen.trans (List.prefix_append _ _))
      · rw [List.append_assoc]
        exact hkept (more ++ [x]) List.prefix_rfl

end Latches
