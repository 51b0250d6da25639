import DaliEdge.Transaction
import Mathlib.Algebra.Ring.Nat

/-!
# What the quality counters count

Each recorded result belongs to one class: it succeeded, or it failed with the PHY result of
its last attempt. Every counter is the number of recorded results of its class, as long as the
counter can hold it.
-/

namespace SaturatingCounter

variable {σ α : Type*} (f : σ → α → σ) (counter : σ → ℕ) (p : α → Bool) (cap : ℕ)

/-- A counter that each element of its kind raises by one, up to a cap, counts them up to it. -/
theorem foldl_eq_min (hstep : ∀ s a, counter (f s a) =
      if p a = true then min (counter s + 1) cap else counter s)
    (s : σ) (hle : counter s ≤ cap) (xs : List α) :
    counter (xs.foldl f s) = min (counter s + xs.countP p) cap := by
  induction xs generalizing s with
  | nil => exact (Nat.min_eq_left hle).symm
  | cons x xs ih =>
      have hx := hstep s x
      rw [List.foldl_cons, List.countP_cons]
      by_cases hp : p x = true
      · rw [if_pos hp] at hx
        rw [ih (f s x) (hx ▸ Nat.min_le_right _ _), hx, if_pos hp]
        omega
      · rw [if_neg hp] at hx
        rw [ih (f s x) (hx ▸ hle), hx, if_neg hp]
        rfl

end SaturatingCounter

namespace DaliEdge

inductive QualityClass
  | success | timeout | collision | busy | busPowerLoss | transceiverFault | otherFailure
  deriving DecidableEq

/-- The class of a failure: that of the PHY result of the last attempt. -/
def QualityClass.ofFailure : PhyResult → QualityClass
  | .timeout => .timeout
  | .collision => .collision
  | .busy => .busy
  | .busPowerLost => .busPowerLoss
  | .transceiverFault => .transceiverFault
  | .ok | .invalidArgument | .notInitialised | .internalError => .otherFailure

def DaliTransactionResult.qualityClass (result : DaliTransactionResult) : QualityClass :=
  if result.status = .ok then .success else .ofFailure result.lastPhyResult

/-- The counter of a class. -/
def CommunicationQualityCounters.ofClass (c : CommunicationQualityCounters) :
    QualityClass → UInt32
  | .success => c.successes
  | .timeout => c.timeouts
  | .collision => c.collisions
  | .busy => c.busy
  | .busPowerLoss => c.busPowerLosses
  | .transceiverFault => c.transceiverFaults
  | .otherFailure => c.otherFailures

namespace CommunicationQualityTracker

def maxCount : ℕ := 2 ^ 32 - 1

theorem toNat_incrementSaturating (value : UInt32) :
    (incrementSaturating value).toNat = min (value.toNat + 1) maxCount := by
  have hlt := value.toNat_lt
  have hcap : maxCount = 4294967295 := rfl
  unfold incrementSaturating
  split_ifs with h
  · have hne : value.toNat ≠ 4294967295 := fun heq => h (UInt32.toNat_inj.1 heq)
    rw [UInt32.toNat_add, UInt32.toNat_one]
    omega
  · have heq : value.toNat = 4294967295 := congrArg UInt32.toNat (not_not.1 h)
    omega

/-- A recorded result raises the counter of its class, and no other one. -/
theorem ofClass_record (tracker : CommunicationQualityTracker) (result : DaliTransactionResult)
    (c : QualityClass) : (tracker.record result).counters.ofClass c =
      if result.qualityClass = c then incrementSaturating (tracker.counters.ofClass c)
      else tracker.counters.ofClass c := by
  unfold record DaliTransactionResult.qualityClass
  by_cases hok : result.status = .ok
  · simp only [if_pos hok]
    cases c <;> rfl
  · simp only [if_neg hok]
    cases result.lastPhyResult <;> cases c <;> rfl

theorem total_record (tracker : CommunicationQualityTracker) (result : DaliTransactionResult) :
    (tracker.record result).counters.total = incrementSaturating tracker.counters.total := by
  unfold record
  by_cases hok : result.status = .ok
  · simp only [if_pos hok]
  · simp only [if_neg hok]
    cases result.lastPhyResult <;> rfl

/-- The tracker after recording the results, in order. -/
def recordAll (results : List DaliTransactionResult) : CommunicationQualityTracker :=
  results.foldl record {}

theorem total_recordAll (results : List DaliTransactionResult) :
    (recordAll results).counters.total.toNat = min results.length maxCount := by
  have h := SaturatingCounter.foldl_eq_min record
    (fun t => t.counters.total.toNat) (fun _ => true) maxCount
    (fun t r => by rw [total_record, toNat_incrementSaturating, if_pos rfl]) {} (by decide) results
  rw [recordAll, h, List.countP_true]
  exact congrArg (min · _) (Nat.zero_add _)

def countOf (results : List DaliTransactionResult) (c : QualityClass) : ℕ :=
  results.countP fun r => r.qualityClass = c

theorem ofClass_recordAll (results : List DaliTransactionResult) (c : QualityClass) :
    ((recordAll results).counters.ofClass c).toNat = min (countOf results c) maxCount := by
  have h := SaturatingCounter.foldl_eq_min record
    (fun t => (t.counters.ofClass c).toNat)
    (fun r : DaliTransactionResult => decide (r.qualityClass = c)) maxCount
    (fun t r => by
      rw [ofClass_record, apply_ite UInt32.toNat, toNat_incrementSaturating]
      exact if_congr decide_eq_true_iff.symm rfl rfl)
    {} (by cases c <;> decide) results
  rw [recordAll, h, countOf]
  cases c <;> exact congrArg (min · _) (Nat.zero_add _)

theorem length_eq_sum_countOf (results : List DaliTransactionResult) :
    results.length = countOf results .success + countOf results .timeout +
      countOf results .collision + countOf results .busy + countOf results .busPowerLoss +
      countOf results .transceiverFault + countOf results .otherFailure := by
  induction results with
  | nil => rfl
  | cons r results ih =>
      simp only [countOf, List.countP_cons] at ih ⊢
      rw [List.length_cons, ih]
      cases r.qualityClass <;> simp only [reduceCtorEq, decide_false, decide_true,
        Bool.false_eq_true, if_false, if_true] <;> omega

theorem total_eq_sum (results : List DaliTransactionResult) (h : results.length < 2 ^ 32) :
    let c := (recordAll results).counters
    c.total.toNat = c.successes.toNat + c.timeouts.toNat + c.collisions.toNat + c.busy.toNat +
      c.busPowerLosses.toNat + c.transceiverFaults.toNat + c.otherFailures.toNat := by
  intro c
  have hle : results.length ≤ maxCount := Nat.le_pred_of_lt h
  have hexact : ∀ k, (c.ofClass k).toNat = countOf results k := by
    intro k
    have hcount : countOf results k ≤ results.length := List.countP_le_length
    exact (ofClass_recordAll results k).trans (Nat.min_eq_left (hcount.trans hle))
  have htotal : c.total.toNat = results.length :=
    (total_recordAll results).trans (Nat.min_eq_left hle)
  rw [htotal, length_eq_sum_countOf, ← hexact .success, ← hexact .timeout, ← hexact .collision,
    ← hexact .busy, ← hexact .busPowerLoss, ← hexact .transceiverFault, ← hexact .otherFailure]
  rfl

end CommunicationQualityTracker

end DaliEdge
