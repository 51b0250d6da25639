import DaliEdge.RunningMeans
import Mathlib.Algebra.Ring.Nat
import Mathlib.Analysis.Real.Sqrt

/-!
# The rolling baseline of a measurement

A baseline keeps no samples. Each one moves the mean, adds to `m2` the product of its distances
from the mean before and after it, and may replace one of the extremes. What is kept is at every
time what all samples together give.
-/

namespace DaliEdge

open RunningMean

structure RollingBaseline (F : Type*) [Zero F] where
  count_ : UInt32 := 0
  mean_ : F := 0
  m2_ : F := 0
  minimum_ : F := 0
  maximum_ : F := 0
  deriving DecidableEq

namespace RollingBaseline

section Update

variable {F : Type*} [Field F] [LinearOrder F]

/-- The first sample sets both extremes, and a later one is compared with each of them. -/
def add (baseline : RollingBaseline F) (value : F) : RollingBaseline F :=
  let count := baseline.count_ + 1
  let delta := value - baseline.mean_
  let mean := baseline.mean_ + delta / (count.toNat : F)
  let delta2 := value - mean
  { count_ := count
    mean_ := mean
    m2_ := baseline.m2_ + delta * delta2
    minimum_ := if baseline.count_ = 0 then value
      else if value < baseline.minimum_ then value else baseline.minimum_
    maximum_ := if baseline.count_ = 0 then value
      else if value > baseline.maximum_ then value else baseline.maximum_ }

def sampleCount (baseline : RollingBaseline F) : UInt32 := baseline.count_

def mean (baseline : RollingBaseline F) : F := baseline.mean_

def minimum (baseline : RollingBaseline F) : F :=
  if baseline.count_ = 0 then 0 else baseline.minimum_

def maximum (baseline : RollingBaseline F) : F :=
  if baseline.count_ = 0 then 0 else baseline.maximum_

/-- A fresh baseline with the samples added in order. -/
def run (samples : List F) : RollingBaseline F := samples.foldl add {}

theorem run_snoc (samples : List F) (value : F) :
    run (samples ++ [value]) = (run samples).add value := by
  rw [run, List.foldl_append, ← run, List.foldl_cons, List.foldl_nil]

/-- The baseline is what the samples give. -/
structure Summarises (baseline : RollingBaseline F) (samples : List F) : Prop where
  count_eq : baseline.count_.toNat = samples.length
  mean_eq : baseline.mean_ = RunningMean.mean samples
  m2_eq : baseline.m2_ = squaredDeviations samples
  isLeast : samples ≠ [] → IsLeast {x | x ∈ samples} baseline.minimum_
  isGreatest : samples ≠ [] → IsGreatest {x | x ∈ samples} baseline.maximum_

variable {baseline : RollingBaseline F} {samples : List F}

theorem summarises_fresh : Summarises ({} : RollingBaseline F) [] where
  count_eq := rfl
  mean_eq := mean_nil.symm
  m2_eq := squaredDeviations_nil.symm
  isLeast h := absurd rfl h
  isGreatest h := absurd rfl h

theorem Summarises.count_eq_zero_iff (h : Summarises baseline samples) :
    baseline.count_ = 0 ↔ samples = [] := by
  rw [← UInt32.toNat_inj, h.count_eq, UInt32.toNat_zero, List.length_eq_zero_iff]

/-- One sample more keeps the statistics those of all samples, as long as the counter does not
wrap. -/
theorem Summarises.add [CharZero F] (h : Summarises baseline samples) (value : F)
    (hlt : samples.length + 1 < 2 ^ 32) :
    Summarises (baseline.add value) (samples ++ [value]) := by
  have hcount := toNat_count_succ h.count_eq hlt
  have hmean : (baseline.add value).mean_ = RunningMean.mean (samples ++ [value]) := by
    change baseline.mean_ + (value - baseline.mean_) / ((baseline.count_ + 1).toNat : F) = _
    rw [mean_snoc, hcount, h.mean_eq]
  refine ⟨?_, hmean, ?_, fun _ => ?_, fun _ => ?_⟩
  · rw [List.length_append, List.length_singleton]
    exact hcount
  · change baseline.m2_ + (value - baseline.mean_) * (value - (baseline.add value).mean_) = _
    rw [squaredDeviations_snoc, hmean, h.m2_eq, h.mean_eq]
  · change IsLeast _ (if baseline.count_ = 0 then value
      else if value < baseline.minimum_ then value else baseline.minimum_)
    by_cases hfirst : samples = []
    · rw [if_pos (h.count_eq_zero_iff.2 hfirst), hfirst]
      exact isLeast_singleton value
    · rw [if_neg (mt h.count_eq_zero_iff.1 hfirst)]
      exact isLeast_snoc (h.isLeast hfirst) value
  · change IsGreatest _ (if baseline.count_ = 0 then value
      else if value > baseline.maximum_ then value else baseline.maximum_)
    by_cases hfirst : samples = []
    · rw [if_pos (h.count_eq_zero_iff.2 hfirst), hfirst]
      exact isGreatest_singleton value
    · rw [if_neg (mt h.count_eq_zero_iff.1 hfirst)]
      exact isGreatest_snoc (h.isGreatest hfirst) value

theorem summarises_run [CharZero F] (samples : List F) (hlt : samples.length < 2 ^ 32) :
    Summarises (run samples) samples := by
  induction samples using List.reverseRecOn with
  | nil => exact summarises_fresh
  | append_singleton samples value ih =>
      rw [List.length_append, List.length_singleton] at hlt
      rw [run_snoc]
      exact (ih (Nat.lt_of_succ_lt hlt)).add value hlt

example : run [(3 : ℚ), 1, 5] = ⟨3, 3, 8, 1, 5⟩ := by decide +kernel

end Update

/-- The square root is taken of a real number. -/
noncomputable def standardDeviation (baseline : RollingBaseline ℝ) : ℝ :=
  if baseline.count_ < 2 then 0
  else Real.sqrt (baseline.m2_ / ((baseline.count_ - 1).toNat : ℝ))

theorem Summarises.standardDeviation_eq {baseline : RollingBaseline ℝ} {samples : List ℝ}
    (h : Summarises baseline samples) (htwo : 2 ≤ samples.length) :
    baseline.standardDeviation = Real.sqrt (sampleVariance samples) := by
  have hcount : ¬ baseline.count_ < 2 := by
    rw [UInt32.lt_iff_toNat_lt, h.count_eq, not_lt]
    exact htwo
  have hpred : (baseline.count_ - 1).toNat = samples.length - 1 := by
    have hle : (1 : UInt32) ≤ baseline.count_ := by
      rw [UInt32.le_iff_toNat_le, h.count_eq]
      exact Nat.le_of_succ_le htwo
    rw [UInt32.toNat_sub_of_le _ _ hle, h.count_eq, UInt32.toNat_one]
  rw [standardDeviation, if_neg hcount, hpred, h.m2_eq, sampleVariance,
    Nat.cast_sub (Nat.le_of_succ_le htwo), Nat.cast_one]

/-- The statistics of a baseline are those of the samples that were added to it. -/
theorem statistics_of_run (samples : List ℝ) (hne : samples ≠ []) (hlt : samples.length < 2 ^ 32) :
    (run samples).sampleCount.toNat = samples.length ∧
      (run samples).mean = samples.sum / (samples.length : ℝ) ∧
      (run samples).m2_ = (samples.map fun x => (x - (run samples).mean) ^ 2).sum ∧
      0 ≤ (run samples).m2_ ∧
      (2 ≤ samples.length → (run samples).standardDeviation ^ 2 = sampleVariance samples) ∧
      IsLeast {x | x ∈ samples} (run samples).minimum ∧
      IsGreatest {x | x ∈ samples} (run samples).maximum := by
  have h := summarises_run samples hlt
  have hcount : (run samples).count_ ≠ 0 := mt h.count_eq_zero_iff.1 hne
  have hmean : (run samples).mean = RunningMean.mean samples := h.mean_eq
  refine ⟨h.count_eq, h.mean_eq, ?_, ?_, fun htwo => ?_, ?_, ?_⟩
  · rw [h.m2_eq, hmean]
    rfl
  · rw [h.m2_eq]
    exact squaredDeviations_nonneg samples
  · rw [h.standardDeviation_eq htwo]
    exact Real.sq_sqrt (sampleVariance_nonneg (Nat.le_of_succ_le htwo))
  · rw [minimum, if_neg hcount]
    exact h.isLeast hne
  · rw [maximum, if_neg hcount]
    exact h.isGreatest hne

theorem statistics_of_run_pair :
    (run [(1 : ℝ), 3]).mean = 2 ∧ (run [(1 : ℝ), 3]).standardDeviation ^ 2 = 2 ∧
      IsLeast {x | x ∈ [(1 : ℝ), 3]} (run [(1 : ℝ), 3]).minimum := by
  obtain ⟨-, hmean, -, -, hvariance, hleast, -⟩ :=
    statistics_of_run [1, 3] (List.cons_ne_nil _ _) (by norm_num)
  refine ⟨?_, ?_, hleast⟩
  · rw [hmean]
    norm_num
  · rw [hvariance (Nat.le_refl 2)]
    norm_num [sampleVariance, squaredDeviations, RunningMean.mean]

end RollingBaseline

end DaliEdge
