import DaliEdge.Latches
import DaliEdge.Machine
import Mathlib.Data.List.DropRight

/-!
# The persistence of faults

Two latches over the samples of a light, set by counts of abnormal samples and released by a
count of healthy ones. The counters are bytes and stay at 255. Both counts of abnormal samples
start again at every healthy one, so both latches see repetitions only: the warning misses
abnormal samples that come with healthy ones in between.
-/

namespace DaliEdge

structure FaultPersistence where
  warningSamples : UInt8
  faultSamples : UInt8
  recoverySamples : UInt8
  abnormalCount : UInt8 := 0
  consecutiveAbnormal : UInt8 := 0
  consecutiveHealthy : UInt8 := 0
  warningActive : Bool := false
  faultActive : Bool := false
  deriving DecidableEq

namespace FaultPersistence

def increment (count : UInt8) : UInt8 := if count < 255 then count + 1 else count

/-- The first half of `observe`: the counters, and the release of the latches. -/
def counted (p : FaultPersistence) (abnormal : Bool) : FaultPersistence :=
  if abnormal then
    { p with
        abnormalCount := increment p.abnormalCount
        consecutiveAbnormal := increment p.consecutiveAbnormal
        consecutiveHealthy := 0 }
  else
    let p := { p with
      abnormalCount := 0
      consecutiveAbnormal := 0
      consecutiveHealthy := increment p.consecutiveHealthy }
    if p.consecutiveHealthy ≥ p.recoverySamples then
      { p with warningActive := false, faultActive := false }
    else p

/-- The result says whether the warning has changed. -/
def observe (p : FaultPersistence) (abnormal : Bool) : FaultPersistence × Bool :=
  let q := p.counted abnormal
  let q := { q with
    warningActive := if q.abnormalCount ≥ q.warningSamples then true else q.warningActive
    faultActive := if q.consecutiveAbnormal ≥ q.faultSamples then true else q.faultActive }
  (q, p.warningActive != q.warningActive)

def machine : Machine FaultPersistence Bool Bool := ⟨observe⟩

/-- A persistence with these thresholds, after the samples. -/
def run (warningSamples faultSamples recoverySamples : UInt8) (samples : List Bool) :
    FaultPersistence :=
  machine.after ⟨warningSamples, faultSamples, recoverySamples, 0, 0, 0, false, false⟩ samples

variable {warningSamples faultSamples recoverySamples : UInt8}

theorem run_snoc (samples : List Bool) (sample : Bool) :
    run warningSamples faultSamples recoverySamples (samples ++ [sample]) =
      ((run warningSamples faultSamples recoverySamples samples).observe sample).1 :=
  machine.after_snoc _ samples sample

theorem toNat_increment (count : UInt8) : (increment count).toNat = min (count.toNat + 1) 255 := by
  have hlt := count.toNat_lt
  unfold increment
  split_ifs with h
  · rw [UInt8.lt_iff_toNat_lt] at h
    change count.toNat < 255 at h
    rw [UInt8.toNat_add, UInt8.toNat_one]
    omega
  · rw [UInt8.lt_iff_toNat_lt] at h
    change ¬ count.toNat < 255 at h
    omega

open Latches

/-- What the members are after the samples. -/
structure Tracks (warningSamples faultSamples recoverySamples : UInt8) (p : FaultPersistence)
    (samples : List Bool) : Prop where
  warningSamples_eq : p.warningSamples = warningSamples
  faultSamples_eq : p.faultSamples = faultSamples
  recoverySamples_eq : p.recoverySamples = recoverySamples
  abnormalCount : Counts 255 true p.abnormalCount.toNat samples
  consecutiveAbnormal : Counts 255 true p.consecutiveAbnormal.toNat samples
  consecutiveHealthy : Counts 255 false p.consecutiveHealthy.toNat samples
  warning_iff : p.warningActive = true ↔ Latched warningSamples.toNat recoverySamples.toNat samples
  fault_iff : p.faultActive = true ↔ Latched faultSamples.toNat recoverySamples.toNat samples

theorem counts_threshold {count threshold : UInt8} {a : Bool} {samples : List Bool}
    (h : Counts 255 a count.toNat samples) :
    count ≥ threshold ↔ List.replicate threshold.toNat a <:+ samples := by
  rw [h _ (Nat.le_of_lt_succ threshold.toNat_lt)]
  exact UInt8.le_iff_toNat_le

section Latch

variable {active : Bool} {count threshold recovery : UInt8} {samples : List Bool}

theorem latch_abnormal (ht : 0 < threshold.toNat) (hr : 0 < recovery.toNat)
    (hcount : Counts 255 true count.toNat (samples ++ [true]))
    (h : active = true ↔ Latched threshold.toNat recovery.toNat samples) :
    (if count ≥ threshold then true else active) = true ↔
      Latched threshold.toNat recovery.toNat (samples ++ [true]) := by
  rw [latched_snoc_bad ht hr, ← counts_threshold hcount, ← h]
  by_cases hset : count ≥ threshold
  · simp [hset]
  · simp [hset]

theorem latch_healthy (ht : 0 < threshold.toNat) (hr : 0 < recovery.toNat)
    (hcount : Counts 255 false count.toNat (samples ++ [false]))
    (h : active = true ↔ Latched threshold.toNat recovery.toNat samples) :
    (if (0 : UInt8) ≥ threshold then true else if count ≥ recovery then false else active) = true ↔
      Latched threshold.toNat recovery.toNat (samples ++ [false]) := by
  have hzero : ¬ (0 : UInt8) ≥ threshold := by
    rw [ge_iff_le, UInt8.le_iff_toNat_le]
    exact Nat.not_le_of_lt ht
  rw [latched_snoc_good ht hr, ← counts_threshold hcount, ← h, if_neg hzero]
  by_cases hrelease : count ≥ recovery
  · simp [hrelease]
  · simp [hrelease]

end Latch

namespace Tracks

variable {p : FaultPersistence} {samples : List Bool}

theorem initial (hw : 0 < warningSamples.toNat) (hf : 0 < faultSamples.toNat) :
    Tracks warningSamples faultSamples recoverySamples
      ⟨warningSamples, faultSamples, recoverySamples, 0, 0, 0, false, false⟩ [] where
  warningSamples_eq := rfl
  faultSamples_eq := rfl
  recoverySamples_eq := rfl
  abnormalCount := counts_nil 255 true
  consecutiveAbnormal := counts_nil 255 true
  consecutiveHealthy := counts_nil 255 false
  warning_iff := iff_of_false Bool.false_ne_true (not_latched_nil hw)
  fault_iff := iff_of_false Bool.false_ne_true (not_latched_nil hf)

theorem observe (hw : 0 < warningSamples.toNat) (hf : 0 < faultSamples.toNat)
    (hr : 0 < recoverySamples.toNat)
    (h : Tracks warningSamples faultSamples recoverySamples p samples) (sample : Bool) :
    Tracks warningSamples faultSamples recoverySamples (p.observe sample).1
      (samples ++ [sample]) := by
  obtain ⟨rfl, rfl, rfl, habnormal, hconsecutive, hhealthy, hwarning, hfault⟩ := h
  cases sample with
  | true =>
      have habnormal' := toNat_increment p.abnormalCount ▸ habnormal.snoc_self
      have hconsecutive' := toNat_increment p.consecutiveAbnormal ▸ hconsecutive.snoc_self
      exact ⟨rfl, rfl, rfl, habnormal', hconsecutive', Counts.snoc_other (by decide),
        latch_abnormal hw hr habnormal' hwarning, latch_abnormal hf hr hconsecutive' hfault⟩
  | false =>
      have hhealthy' := toNat_increment p.consecutiveHealthy ▸ hhealthy.snoc_self
      have hwarning' := latch_healthy hw hr hhealthy' hwarning
      have hfault' := latch_healthy hf hr hhealthy' hfault
      have hother : Counts 255 true 0 (samples ++ [false]) := Counts.snoc_other (by decide)
      by_cases hrelease : increment p.consecutiveHealthy ≥ p.recoverySamples
      · simp only [if_pos hrelease] at hwarning' hfault'
        simp only [FaultPersistence.observe, counted, Bool.false_eq_true, if_false, if_pos hrelease]
        exact ⟨rfl, rfl, rfl, hother, hother, hhealthy', hwarning', hfault'⟩
      · simp only [if_neg hrelease] at hwarning' hfault'
        simp only [FaultPersistence.observe, counted, Bool.false_eq_true, if_false, if_neg hrelease]
        exact ⟨rfl, rfl, rfl, hother, hother, hhealthy', hwarning', hfault'⟩

end Tracks

theorem run_tracks (hw : 0 < warningSamples.toNat) (hf : 0 < faultSamples.toNat)
    (hr : 0 < recoverySamples.toNat) (samples : List Bool) :
    Tracks warningSamples faultSamples recoverySamples
      (run warningSamples faultSamples recoverySamples samples) samples := by
  induction samples using List.reverseRecOn with
  | nil => exact Tracks.initial hw hf
  | append_singleton samples sample ih =>
      rw [run_snoc]
      exact ih.observe hw hf hr sample

/-- The fault is active exactly when its number of abnormal samples in a row has occurred with no
recovery after it. The warning stays until the recovery, which clears both, and is set whenever
the fault is, if it asks for no more samples. -/
theorem fault_hysteresis (hw : 0 < warningSamples) (hf : 0 < faultSamples)
    (hr : 0 < recoverySamples) (samples : List Bool) :
    ((run warningSamples faultSamples recoverySamples samples).faultActive = true ↔
      ∃ before later, samples = before ++ later ∧
        List.replicate faultSamples.toNat true <:+ before ∧
          ¬ List.replicate recoverySamples.toNat false <:+: later) ∧
    ((run warningSamples faultSamples recoverySamples samples).warningActive = true →
      ∀ more, (∀ seen, seen <+: more →
          ¬ List.replicate recoverySamples.toNat false <:+ samples ++ seen) →
        (run warningSamples faultSamples recoverySamples (samples ++ more)).warningActive = true) ∧
    (List.replicate recoverySamples.toNat false <:+ samples →
      (run warningSamples faultSamples recoverySamples samples).warningActive = false ∧
        (run warningSamples faultSamples recoverySamples samples).faultActive = false) ∧
    (warningSamples ≤ faultSamples →
      (run warningSamples faultSamples recoverySamples samples).faultActive = true →
        (run warningSamples faultSamples recoverySamples samples).warningActive = true) := by
  rw [UInt8.lt_iff_toNat_lt] at hw hf hr
  have htracks := run_tracks hw hf hr
  constructor
  · exact (htracks samples).fault_iff
  constructor
  · intro hwarning more hmore
    rw [(htracks _).warning_iff] at hwarning ⊢
    exact hwarning.append hw hr hmore
  constructor
  · intro hrecovered
    constructor
    · rw [← Bool.not_eq_true, (htracks samples).warning_iff]
      exact not_latched_of_good hw hrecovered
    · rw [← Bool.not_eq_true, (htracks samples).fault_iff]
      exact not_latched_of_good hf hrecovered
  · intro hle hfault
    rw [(htracks samples).fault_iff] at hfault
    rw [(htracks samples).warning_iff]
    exact hfault.of_le (UInt8.le_iff_toNat_le.1 hle)

/-- Five abnormal samples in a row and two healthy ones. -/
theorem fault_hysteresis_example :
    (run 3 5 10 [true, true, true, true, true, false, false]).warningActive = true :=
  (fault_hysteresis (by decide) (by decide) (by decide) _).2.2.2 (by decide) (by decide)

/-! ## Three of five -/

/-- Three of the five most recent samples are abnormal. -/
def ThreeOfFive (samples : List Bool) : Prop := 3 ≤ (samples.rtake 5).count true

instance (samples : List Bool) : Decidable (ThreeOfFive samples) :=
  inferInstanceAs (Decidable (_ ≤ _))

theorem ThreeOfFive.of_snoc_healthy {samples : List Bool} (h : ThreeOfFive (samples ++ [false])) :
    ThreeOfFive samples := by
  unfold ThreeOfFive at h ⊢
  rw [List.rtake_concat_succ, List.count_append] at h
  have hsub : (samples.rtake 4).Sublist (samples.rtake 5) :=
    List.drop_sublist_drop_left samples (by omega)
  exact h.trans (hsub.count_le true)

/-- Ten healthy samples in a row leave no room for three abnormal ones among the last five. -/
theorem ThreeOfFive.not_recovered {samples : List Bool} (h : ThreeOfFive samples) :
    ¬ List.replicate 10 false <:+ samples := by
  rintro ⟨before, rfl⟩
  have hlast : (before ++ List.replicate 10 false).rtake 5 = List.replicate 5 false := by
    rw [List.rtake, List.length_append, List.length_replicate, List.drop_append]
    simp
  rw [ThreeOfFive, hlast] at h
  exact absurd h (by decide)

/-- The warning is on whenever three of the five most recent samples are abnormal, along the whole
sequence, exactly when every abnormal sample that is the third of five, or more, is the third in a
row or comes after three in a row with no ten healthy ones in a row since. -/
theorem warning_covers_three_of_five_iff (samples : List Bool) :
    (∀ seen, seen <+: samples → ThreeOfFive seen → (run 3 5 10 seen).warningActive = true) ↔
      ∀ seen, seen ++ [true] <+: samples → ThreeOfFive (seen ++ [true]) →
        [true, true] <:+ seen ∨ Latched 3 10 seen := by
  have hwarning : ∀ seen, (run 3 5 10 seen).warningActive = true ↔ Latched 3 10 seen :=
    fun seen => (run_tracks (by decide) (by decide) (by decide) seen).warning_iff
  have hbad : ∀ seen, Latched 3 10 (seen ++ [true]) ↔ [true, true] <:+ seen ∨ Latched 3 10 seen := by
    intro seen
    rw [latched_snoc_bad (by decide) (by decide), History.replicate_suffix_snoc]
    simp [List.replicate]
  constructor
  · intro h seen hseen hthree
    rw [← hbad, ← hwarning]
    exact h (seen ++ [true]) hseen hthree
  · intro h seen hseen hthree
    induction seen using List.reverseRecOn with
    | nil => exact absurd hthree (by decide)
    | append_singleton seen sample ih =>
        cases sample with
        | true =>
            rw [hwarning, hbad]
            exact h seen hseen hthree
        | false =>
            -- the five before a healthy sample have as many abnormal ones
            have hbefore := ih ((List.prefix_append _ _).trans hseen) hthree.of_snoc_healthy
            rw [hwarning] at hbefore ⊢
            exact (latched_snoc_good (by decide) (by decide)).2 ⟨hbefore, hthree.not_recovered⟩

/-- Abnormal and healthy samples in turn: three of five, and no warning. -/
theorem intermittent_not_warned : ¬ ∀ samples, ThreeOfFive samples →
    (run 3 5 10 samples).warningActive = true := by
  intro h
  have halternating := h [true, false, true, false, true] (by decide)
  revert halternating
  decide

end FaultPersistence

end DaliEdge
