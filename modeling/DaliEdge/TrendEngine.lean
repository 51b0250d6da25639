import DaliEdge.RingBuffer
import Mathlib.Algebra.Order.Ring.Rat
import Mathlib.Data.List.Rotate

/-!
# Trends of a measurement

A ring of the last 1024 samples, and an evaluation that reads the slots from the first one on.
Until the ring is full that is the order in which the samples were added; afterwards it is that
order turned around the ring, with the newest samples in front of the oldest.
-/

namespace DaliEdge

structure TrendSample where
  timestampMs : UInt64 := 0
  value : ℚ := 0
  deriving DecidableEq

structure TrendResult where
  sampleCount : UInt32 := 0
  sevenDayAverage : ℚ := 0
  thirtyDayAverage : ℚ := 0
  exponentiallyWeightedAverage : ℚ := 0
  rateOfChange : ℚ := 0
  statisticallyMeaningful : Bool := false
  deriving DecidableEq

structure TrendSeries where
  samples : Vector TrendSample 1024 := Vector.replicate 1024 {}
  next : ℕ := 0
  count : ℕ := 0
  next_lt : next < 1024 := by decide
  count_le : count ≤ 1024 := by decide

namespace TrendSeries

abbrev kCapacity : ℕ := 1024

def add (series : TrendSeries) (timestampMs : UInt64) (value : ℚ) : TrendSeries where
  samples := series.samples.set series.next ⟨timestampMs, value⟩ series.next_lt
  next := (series.next + 1) % kCapacity
  count := if series.count < kCapacity then series.count + 1 else series.count
  next_lt := Nat.mod_lt _ (by decide)
  count_le := by
    have h := series.count_le
    split_ifs with hlt
    · exact hlt
    · exact h

def sevenDaysMs : UInt64 := 7 * 24 * 3600000

def thirtyDaysMs : UInt64 := 30 * 24 * 3600000

/-- The sum and the count of a window. -/
structure WindowSum where
  sum : ℚ := 0
  count : UInt32 := 0
  deriving DecidableEq

namespace WindowSum

def add (window : WindowSum) (inside : Bool) (value : ℚ) : WindowSum :=
  if inside then ⟨window.sum + value, window.count + 1⟩ else window

def average (window : WindowSum) : ℚ :=
  if window.count = 0 then 0 else window.sum / (window.count.toNat : ℚ)

end WindowSum

/-- The running average takes a value of zero for one that has not started. -/
def nextAverage (ewma value : ℚ) : ℚ :=
  if ewma = 0 then value else 1 / 5 * value + 4 / 5 * ewma

/-- The local variables of the loop in `evaluate`: `oldestTime` and `oldest` are one sample, as
are `newestTime` and `newest`. -/
structure Totals where
  seven : WindowSum := {}
  thirty : WindowSum := {}
  oldest : TrendSample
  newest : TrendSample := {}
  ewma : ℚ := 0
  deriving DecidableEq

namespace Totals

/-- One pass of the loop. -/
def add (nowMs : UInt64) (totals : Totals) (sample : TrendSample) : Totals :=
  if sample.timestampMs > nowMs then totals
  else
    let age := nowMs - sample.timestampMs
    { thirty := totals.thirty.add (age ≤ thirtyDaysMs) sample.value
      seven := totals.seven.add (age ≤ sevenDaysMs) sample.value
      oldest := if sample.timestampMs < totals.oldest.timestampMs then sample else totals.oldest
      newest := if sample.timestampMs ≥ totals.newest.timestampMs then sample else totals.newest
      ewma := nextAverage totals.ewma sample.value }

def rate (totals : Totals) : ℚ :=
  if totals.newest.timestampMs > totals.oldest.timestampMs then
    (totals.newest.value - totals.oldest.value) /
      ((totals.newest.timestampMs - totals.oldest.timestampMs).toNat : ℚ)
  else 0

def result (totals : Totals) : TrendResult where
  sampleCount := totals.thirty.count
  sevenDayAverage := totals.seven.average
  thirtyDayAverage := totals.thirty.average
  exponentiallyWeightedAverage := totals.ewma
  rateOfChange := totals.rate
  statisticallyMeaningful := totals.thirty.count ≥ 10 && decide (|totals.rate| > 1 / 1000000)

end Totals

def stored (series : TrendSeries) : List TrendSample := series.samples.toList.take series.count

/-- The local variables after the loop has read the samples. -/
def totalsOf (nowMs : UInt64) (samples : List TrendSample) : Totals :=
  samples.foldl (Totals.add nowMs) { oldest := ⟨nowMs, 0⟩ }

def evaluate (series : TrendSeries) (nowMs : UInt64) : TrendResult :=
  (totalsOf nowMs series.stored).result

/-- A new series after the samples were added in order. -/
def run (samples : List TrendSample) : TrendSeries :=
  samples.foldl (fun series sample => series.add sample.timestampMs sample.value) {}

theorem run_snoc (samples : List TrendSample) (sample : TrendSample) :
    run (samples ++ [sample]) = (run samples).add sample.timestampMs sample.value :=
  List.foldl_append

/-! ## What the slots hold -/

/-- The samples in the order in which they were added. -/
def history (series : TrendSeries) : List TrendSample :=
  RingBuffer.contents series.samples (if series.count < kCapacity then 0 else series.next)
    series.count

theorem count_run (samples : List TrendSample) : (run samples).count = min samples.length 1024 := by
  induction samples using List.reverseRecOn with
  | nil => rfl
  | append_singleton samples sample ih =>
      rw [run_snoc, List.length_append, List.length_singleton]
      simp only [add, ih, kCapacity]
      split_ifs <;> omega

theorem next_run (samples : List TrendSample) : (run samples).next = samples.length % 1024 := by
  induction samples using List.reverseRecOn with
  | nil => rfl
  | append_singleton samples sample ih =>
      rw [run_snoc, List.length_append, List.length_singleton]
      simp only [add, ih, kCapacity]
      omega

theorem history_add (series : TrendSeries) (timestampMs : UInt64) (value : ℚ)
    (h : series.count < 1024 → series.next = series.count) :
    (series.add timestampMs value).history =
      (series.history ++ [(⟨timestampMs, value⟩ : TrendSample)]).rtake 1024 := by
  obtain ⟨samples, next, count, hnext, hcount⟩ := series
  rw [add, history, history]
  by_cases hlt : count < 1024
  · obtain rfl : next = count := h hlt
    have hplace : RingBuffer.index 1024 0 next = ⟨next, hnext⟩ := Fin.ext (by
      change (0 + next) % 1024 = next
      omega)
    have hgrow := RingBuffer.contents_grow samples 0 hlt (⟨timestampMs, value⟩ : TrendSample)
    have hhead : (if next + 1 < 1024 then 0 else (next + 1) % 1024) = 0 := by
      split_ifs <;> omega
    rw [hplace] at hgrow
    simp only [if_pos hlt, hhead]
    exact hgrow
  · obtain rfl : count = 1024 := Nat.le_antisymm hcount (not_lt.1 hlt)
    have hplace : RingBuffer.index 1024 next 1024 = ⟨next, hnext⟩ := Fin.ext (by
      change (next + 1024) % 1024 = next
      omega)
    have hoverwrite := RingBuffer.contents_overwrite samples next (⟨timestampMs, value⟩ : TrendSample)
    rw [hplace] at hoverwrite
    simp only [if_neg hlt]
    exact hoverwrite

theorem history_run (samples : List TrendSample) :
    (run samples).history = samples.rtake 1024 := by
  induction samples using List.reverseRecOn with
  | nil => rfl
  | append_singleton samples sample ih =>
      have hplace : (run samples).count < 1024 → (run samples).next = (run samples).count := by
        rw [count_run, next_run]
        omega
      rw [run_snoc, history_add _ _ _ hplace, ih, RingBuffer.rtake_rtake_append]

theorem history_eq_rotate (series : TrendSeries) : series.history =
    series.stored.rotate (if series.count < 1024 then 0 else series.next) := by
  rw [history, stored]
  split_ifs with hlt
  · rw [List.rotate_zero]
    exact RingBuffer.contents_zero series.samples series.count_le
  · have hfull : series.count = 1024 := Nat.le_antisymm series.count_le (not_lt.1 hlt)
    have hall : series.samples.toList.take 1024 = series.samples.toList :=
      List.take_of_length_le (by rw [Vector.length_toList])
    rw [hfull, hall]
    exact RingBuffer.contents_eq_rotate series.samples series.next

theorem stored_of_le {samples : List TrendSample} (h : samples.length ≤ 1024) :
    (run samples).stored = samples := by
  have hrotate := (run samples).history_eq_rotate
  have hhead : (if (run samples).count < 1024 then 0 else (run samples).next) = 0 := by
    rw [count_run, next_run]
    split_ifs <;> omega
  rw [hhead, List.rotate_zero, history_run, RingBuffer.rtake_of_length_le h] at hrotate
  exact hrotate.symm

theorem rotate_stored {samples : List TrendSample} (h : 1024 ≤ samples.length) :
    (run samples).stored.rotate (samples.length % 1024) = samples.rtake 1024 := by
  have hrotate := (run samples).history_eq_rotate
  have hhead : (if (run samples).count < 1024 then 0 else (run samples).next) =
      samples.length % 1024 := by
    rw [count_run, next_run, if_neg (by omega)]
  rw [hhead, history_run] at hrotate
  exact hrotate.symm

theorem stored_perm (samples : List TrendSample) :
    (run samples).stored.Perm (samples.rtake 1024) := by
  rw [← history_run, history_eq_rotate]
  exact (List.rotate_perm _ _).symm

end TrendSeries

end DaliEdge
