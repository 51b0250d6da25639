import DaliEdge.QualityCounters
import Mathlib.Data.List.Infix

/-!
# The figure of failures

A snapshot reports as failures what the total is above the successes. Both counters stop at their
cap, the total first, and from then on every success takes one from the figure. It is kept
exactly when what comes after the total has stopped is in keeping with what came before: only
failures where there were some, and only successes where there were none.
-/

namespace SaturatingCounter

variable {α : Type*} (p : α → Bool) (cap : ℕ)

/-- By how much a counter of all elements is above a counter of one kind of them. -/
def gap (xs : List α) : ℕ := min xs.length cap - min (xs.countP p) cap

/-- What comes after the first `cap` elements is of the other kind exactly where some of these
are. -/
def InKeeping (xs : List α) : Prop :=
  ∀ x ∈ xs.drop cap, p x = false ↔ ∃ y ∈ xs.take cap, p y = false

variable {p cap} {xs ys zs : List α}

theorem countP_lt_iff : xs.countP p < xs.length ↔ ∃ x ∈ xs, p x = false := by
  have hle : xs.countP p ≤ xs.length := List.countP_le_length
  have hall : xs.countP p = xs.length ↔ ∀ x ∈ xs, p x = true := List.countP_eq_length
  constructor
  · intro hlt
    by_contra! hnone
    have heq := hall.2 fun x hx => by simpa using hnone x hx
    omega
  · rintro ⟨x, hx, hp⟩
    apply lt_of_le_of_ne hle
    intro heq
    rw [hall.1 heq x hx] at hp
    cases hp

theorem others_le_of_prefix (h : xs <+: ys) :
    xs.length - xs.countP p ≤ ys.length - ys.countP p := by
  obtain ⟨zs, rfl⟩ := h
  have hleft : xs.countP p ≤ xs.length := List.countP_le_length
  have hright : zs.countP p ≤ zs.length := List.countP_le_length
  rw [List.length_append, List.countP_append]
  omega

theorem InKeeping.of_prefix (h : InKeeping p cap ys) (hxs : xs <+: ys) : InKeeping p cap xs := by
  obtain ⟨zs, rfl⟩ := hxs
  intro x hx
  have hlong : cap ≤ xs.length := by
    have hpos := List.length_pos_of_mem hx
    rw [List.length_drop] at hpos
    omega
  rw [InKeeping, List.drop_append_of_le_length hlong, List.take_append_of_le_length hlong] at h
  exact h x (List.mem_append_left zs hx)

theorem gap_eq (h : InKeeping p cap xs) :
    gap p cap xs = (xs.take cap).length - (xs.take cap).countP p := by
  have hcount : xs.countP p = (xs.take cap).countP p + (xs.drop cap).countP p := by
    rw [← List.countP_append, List.take_append_drop]
  have hlength := congrArg List.length (List.take_append_drop cap xs)
  rw [List.length_append] at hlength
  have htake : (xs.take cap).length = min cap xs.length := List.length_take
  have hle : (xs.take cap).countP p ≤ (xs.take cap).length := List.countP_le_length
  have hrest : (xs.drop cap).countP p ≤ (xs.drop cap).length := List.countP_le_length
  by_cases hother : ∃ y ∈ xs.take cap, p y = false
  · have hnone : (xs.drop cap).countP p = 0 := by
      rw [List.countP_eq_zero]
      intro x hx
      rw [(h x hx).2 hother]
      decide
    rw [gap]
    omega
  · have hfull := countP_lt_iff.not.2 hother
    have hsame := countP_lt_iff.not.2 fun hx => by
      obtain ⟨x, hx, hp⟩ := hx
      exact hother ((h x hx).1 hp)
    rw [gap]
    omega

theorem gap_eq_zero (hlong : (xs.take cap).length = cap)
    (h : ¬ ∃ y ∈ xs.take cap, p y = false) : gap p cap xs = 0 := by
  have hle : (xs.take cap).countP p ≤ (xs.take cap).length := List.countP_le_length
  have hfull := countP_lt_iff.not.2 h
  have hmore : (xs.take cap).countP p ≤ xs.countP p := (List.take_sublist cap xs).countP_le
  rw [gap]
  omega

theorem gap_lt {x : α} (hlong : xs.length = cap) (h : ∃ y ∈ xs, p y = false) (hx : x ∈ ys)
    (hp : p x = true) : gap p cap (xs ++ ys) < gap p cap xs := by
  have hlt := countP_lt_iff.2 h
  have hpos := List.countP_pos_iff.2 ⟨x, hx, hp⟩
  rw [gap, gap, List.length_append, List.countP_append]
  omega

/-- The gap never decreases, and shows every element of the other kind, exactly along a list in
keeping. -/
theorem gap_kept_iff : ((∀ xs ys, xs <+: ys → ys <+: zs → gap p cap xs ≤ gap p cap ys) ∧
    ∀ xs, xs <+: zs → (∃ x ∈ xs, p x = false) → gap p cap xs ≠ 0) ↔ InKeeping p cap zs := by
  constructor
  · rintro ⟨hmono, hshown⟩ x hx
    have hlong : (zs.take cap).length = cap := by
      have hpos := List.length_pos_of_mem hx
      rw [List.length_drop] at hpos
      exact List.length_take_of_le (by omega)
    have hzs : zs.take cap ++ zs.drop cap = zs := List.take_append_drop cap zs
    constructor
    · intro hp
      by_contra hall
      apply hshown zs List.prefix_rfl ⟨x, List.mem_of_mem_drop hx, hp⟩
      exact gap_eq_zero hlong hall
    · intro hother
      rw [← Bool.not_eq_true]
      intro hp
      have hlt := gap_lt hlong hother hx hp
      have hle := hmono (zs.take cap) zs (List.take_prefix cap zs) List.prefix_rfl
      rw [hzs] at hlt
      omega
  · intro h
    constructor
    · intro xs ys hxs hys
      rw [gap_eq (h.of_prefix (hxs.trans hys)), gap_eq (h.of_prefix hys)]
      exact others_le_of_prefix (hxs.take cap)
    · rintro xs hxs ⟨x, hx, hp⟩
      have hkeeping := h.of_prefix hxs
      have hother : ∃ y ∈ xs.take cap, p y = false := by
        rw [← List.take_append_drop cap xs] at hx
        rcases List.mem_append.1 hx with hx | hx
        · exact ⟨x, hx, hp⟩
        · exact (hkeeping x hx).1 hp
      have hlt := countP_lt_iff.2 hother
      rw [gap_eq hkeeping]
      omega

end SaturatingCounter

namespace DaliEdge

open SaturatingCounter

namespace CommunicationQualityTracker

/-- The figure of failures in the snapshot after the results. -/
def failures (results : List DaliTransactionResult) : UInt32 :=
  (recordAll results).snapshot.failures

/-- All along the results the figure never decreases, and it is not zero once one of them has
failed. -/
structure KeepsFailures (results : List DaliTransactionResult) : Prop where
  mono : ∀ earlier later, earlier <+: later → later <+: results →
    failures earlier ≤ failures later
  shown : ∀ recorded, recorded <+: results → (∃ r ∈ recorded, r.status ≠ .ok) →
    failures recorded ≠ 0

theorem countOf_success (results : List DaliTransactionResult) :
    countOf results .success = results.countP fun r => r.status = .ok := by
  apply List.countP_congr
  intro r _
  rw [decide_eq_true_iff, decide_eq_true_iff, DaliTransactionResult.qualityClass]
  split_ifs with hok
  · exact iff_of_true rfl hok
  · refine iff_of_false ?_ hok
    cases r.lastPhyResult <;> exact nofun

theorem toNat_failures (results : List DaliTransactionResult) :
    (failures results).toNat = gap (fun r => r.status = .ok) maxCount results := by
  have htotal := total_recordAll results
  have hsuccess := ofClass_recordAll results .success
  rw [countOf_success] at hsuccess
  change (recordAll results).counters.successes.toNat = _ at hsuccess
  have hcount : results.countP (fun r => r.status = .ok) ≤ results.length := List.countP_le_length
  have hle : (recordAll results).counters.successes ≤ (recordAll results).counters.total := by
    rw [UInt32.le_iff_toNat_le]
    omega
  rw [failures, snapshot, if_pos hle, UInt32.toNat_sub_of_le _ _ hle, htotal, hsuccess, gap]

/-- The figure is kept exactly when the results recorded after the first 2 ^ 32 - 1 have failed,
all of them or none, as some of the first ones have or none has. -/
theorem keepsFailures_iff (results : List DaliTransactionResult) :
    KeepsFailures results ↔ ∀ r ∈ results.drop maxCount,
      r.status ≠ .ok ↔ ∃ r' ∈ results.take maxCount, r'.status ≠ .ok := by
  have hfailed : ∀ r : DaliTransactionResult, decide (r.status = .ok) = false ↔ r.status ≠ .ok :=
    fun r => decide_eq_false_iff_not
  have hkeeping : InKeeping (fun r : DaliTransactionResult => r.status = .ok) maxCount results ↔
      ∀ r ∈ results.drop maxCount,
        r.status ≠ .ok ↔ ∃ r' ∈ results.take maxCount, r'.status ≠ .ok := by
    simp only [InKeeping, hfailed]
  rw [← hkeeping, ← gap_kept_iff]
  simp only [hfailed, ← toNat_failures]
  constructor
  · rintro ⟨hmono, hshown⟩
    constructor
    · intro earlier later hearlier hlater
      exact UInt32.le_iff_toNat_le.1 (hmono earlier later hearlier hlater)
    · intro recorded hrecorded hsome hzero
      exact hshown recorded hrecorded hsome (UInt32.toNat_inj.1 hzero)
  · rintro ⟨hmono, hshown⟩
    constructor
    · intro earlier later hearlier hlater
      exact UInt32.le_iff_toNat_le.2 (hmono earlier later hearlier hlater)
    · intro recorded hrecorded hsome hzero
      exact hshown recorded hrecorded hsome (congrArg UInt32.toNat hzero)

def unanswered : DaliTransactionResult := { status := .retriesExhausted, lastPhyResult := .timeout }

def answered : DaliTransactionResult := { status := .ok, lastPhyResult := .ok }

theorem not_keepsFailures_of_le {n : ℕ} (hn : maxCount ≤ n) :
    ¬ KeepsFailures (unanswered :: List.replicate n answered) := by
  intro h
  have hfailed : unanswered.status ≠ .ok := by decide
  apply h.shown _ List.prefix_rfl ⟨unanswered, List.mem_cons_self, hfailed⟩
  have hcount : (List.replicate n answered).countP (fun r => r.status = .ok) = n :=
    (List.countP_eq_length.2 fun r hr => by rw [List.eq_of_mem_replicate hr]; decide).trans
      List.length_replicate
  have hle : n ≤ (unanswered :: List.replicate n answered).countP (fun r => r.status = .ok) := by
    rw [List.countP_cons, hcount]
    exact Nat.le_add_right _ _
  rw [← UInt32.toNat_inj, toNat_failures, gap, UInt32.toNat_zero]
  omega

/-- One failure and 2 ^ 32 - 1 successes: both counters stand at their cap. -/
theorem not_keepsFailures_after_saturation :
    ¬ KeepsFailures (unanswered :: List.replicate maxCount answered) :=
  not_keepsFailures_of_le le_rfl

end CommunicationQualityTracker

end DaliEdge
