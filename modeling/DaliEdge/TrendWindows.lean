import DaliEdge.TrendEngine
import Mathlib.Algebra.BigOperators.Group.List.Basic
import Mathlib.Order.OrderDual

/-!
# The statistics of a trend

The loop adds up two windows and keeps the earliest and the latest sample that is not later than
the evaluation. None of this depends on the order in which the samples are read, as long as no two
have the same timestamp, so it is the same wherever the ring has come to.
-/

/-- A loop that keeps the better one of what it has and what it reads ends with the best. -/
theorem foldl_select {α κ : Type*} [Preorder κ] (key : α → κ) (Better : α → α → Prop)
    [DecidableRel Better] (hle : ∀ x best, Better x best → key x ≤ key best)
    (hge : ∀ x best, ¬ Better x best → key best ≤ key x) (xs : List α) (start : α) :
    let best := xs.foldl (fun best x => if Better x best then x else best) start
    best ∈ start :: xs ∧ ∀ x ∈ start :: xs, key best ≤ key x := by
  induction xs generalizing start with
  | nil => simp
  | cons x xs ih =>
      rw [List.foldl_cons]
      by_cases h : Better x start
      · rw [if_pos h]
        obtain ⟨hmem, hbest⟩ := ih x
        refine ⟨List.mem_cons_of_mem _ hmem, ?_⟩
        rw [List.forall_mem_cons]
        exact ⟨(hbest x List.mem_cons_self).trans (hle x start h), hbest⟩
      · rw [if_neg h]
        obtain ⟨hmem, hbest⟩ := ih start
        rw [List.forall_mem_cons] at hbest
        constructor
        · rcases List.mem_cons.1 hmem with hstart | hmem
          · rw [hstart]
            exact List.mem_cons_self
          · exact List.mem_cons_of_mem _ (List.mem_cons_of_mem _ hmem)
        · rw [List.forall_mem_cons, List.forall_mem_cons]
          exact ⟨hbest.1, hbest.1.trans (hge x start h), hbest.2⟩

namespace DaliEdge

namespace TrendSeries

/-- The samples that are not later than the evaluation. -/
def past (nowMs : UInt64) (samples : List TrendSample) : List TrendSample :=
  samples.filter fun sample => sample.timestampMs ≤ nowMs

def lastDays (days : ℕ) (nowMs : UInt64) (samples : List TrendSample) : List TrendSample :=
  samples.filter fun sample =>
    nowMs.toNat - sample.timestampMs.toNat ≤ days * 24 * 3600000

/-- The mean of the values, and 0 when there are none. -/
def mean (samples : List TrendSample) : ℚ := (samples.map (·.value)).sum / (samples.length : ℚ)

theorem lastDays_snoc (days : ℕ) (nowMs : UInt64) (samples : List TrendSample)
    (sample : TrendSample) : lastDays days nowMs (samples ++ [sample]) =
      lastDays days nowMs samples ++
        if nowMs.toNat - sample.timestampMs.toNat ≤ days * 24 * 3600000 then [sample] else [] := by
  rw [lastDays, List.filter_append, ← lastDays]
  congr 1
  split_ifs with h
  · exact List.filter_cons_of_pos (decide_eq_true h)
  · exact List.filter_cons_of_neg (by rwa [decide_eq_true_iff])

theorem le_of_mem_past {nowMs : UInt64} {samples : List TrendSample} :
    ∀ s ∈ past nowMs samples, s.timestampMs ≤ nowMs := by
  intro s hs
  exact of_decide_eq_true (List.mem_filter.1 hs).2

theorem add_of_le {nowMs : UInt64} {sample : TrendSample} (h : sample.timestampMs ≤ nowMs)
    (totals : Totals) : totals.add nowMs sample =
      { thirty := totals.thirty.add (nowMs - sample.timestampMs ≤ thirtyDaysMs) sample.value
        seven := totals.seven.add (nowMs - sample.timestampMs ≤ sevenDaysMs) sample.value
        oldest := if sample.timestampMs < totals.oldest.timestampMs then sample else totals.oldest
        newest := if sample.timestampMs ≥ totals.newest.timestampMs then sample else totals.newest
        ewma := nextAverage totals.ewma sample.value } :=
  if_neg (UInt64.not_lt.2 h)

/-- A local variable that each counted sample changes in its own way is a loop of its own. -/
theorem totalsOf_project {β : Type*} {nowMs : UInt64} (f : Totals → β) (step : β → TrendSample → β)
    (hstep : ∀ totals sample, sample.timestampMs ≤ nowMs →
      f (totals.add nowMs sample) = step (f totals) sample) (samples : List TrendSample) :
    f (totalsOf nowMs samples) =
      (past nowMs samples).foldl step (f { oldest := ⟨nowMs, 0⟩ }) := by
  induction samples using List.reverseRecOn with
  | nil => rfl
  | append_singleton samples sample ih =>
      rw [totalsOf, List.foldl_append, ← totalsOf, past, List.filter_append, List.foldl_append,
        ← past, ← ih, List.foldl_cons, List.foldl_nil]
      by_cases h : sample.timestampMs ≤ nowMs
      · rw [hstep _ _ h]
        simp [h]
      · rw [Totals.add, if_pos (UInt64.not_le.1 h)]
        simp [h]

/-! ## The windows -/

theorem foldl_window {limit nowMs : UInt64} {days : ℕ} (hlimit : limit.toNat = days * 24 * 3600000)
    {samples : List TrendSample} (hpast : ∀ s ∈ samples, s.timestampMs ≤ nowMs) :
    samples.foldl (fun window s => window.add (nowMs - s.timestampMs ≤ limit) s.value) {} =
      (⟨((lastDays days nowMs samples).map (·.value)).sum,
        UInt32.ofNat (lastDays days nowMs samples).length⟩ : WindowSum) := by
  induction samples using List.reverseRecOn with
  | nil => rfl
  | append_singleton samples sample ih =>
      have hsample : sample.timestampMs ≤ nowMs := hpast sample (by simp)
      have hinside : nowMs - sample.timestampMs ≤ limit ↔
          nowMs.toNat - sample.timestampMs.toNat ≤ days * 24 * 3600000 := by
        rw [UInt64.le_iff_toNat_le, UInt64.toNat_sub_of_le _ _ hsample, hlimit]
      rw [List.foldl_append, ih fun s hs => hpast s (List.mem_append_left _ hs), List.foldl_cons,
        List.foldl_nil, lastDays_snoc, WindowSum.add]
      split_ifs with h₁ h₂ h₂
      · simp
      · exact absurd (hinside.1 (of_decide_eq_true h₁)) h₂
      · exact absurd (decide_eq_true (hinside.2 h₂)) h₁
      · rw [List.append_nil]

theorem average_eq_mean {samples : List TrendSample} (h : samples.length < 2 ^ 32) :
    WindowSum.average ⟨(samples.map (·.value)).sum, UInt32.ofNat samples.length⟩ = mean samples := by
  have hcount : (UInt32.ofNat samples.length).toNat = samples.length := UInt32.toNat_ofNat_of_lt' h
  rw [WindowSum.average, mean, hcount]
  split_ifs with hzero
  · have hempty : samples.length = 0 := by
      rw [← hcount]
      exact congrArg UInt32.toNat hzero
    rw [hempty, Nat.cast_zero, div_zero]
  · rfl

theorem windows_totalsOf (nowMs : UInt64) (samples : List TrendSample) :
    (totalsOf nowMs samples).thirty =
        ⟨((lastDays 30 nowMs (past nowMs samples)).map (·.value)).sum,
          UInt32.ofNat (lastDays 30 nowMs (past nowMs samples)).length⟩ ∧
      (totalsOf nowMs samples).seven =
        ⟨((lastDays 7 nowMs (past nowMs samples)).map (·.value)).sum,
          UInt32.ofNat (lastDays 7 nowMs (past nowMs samples)).length⟩ := by
  constructor
  · have hlimit : thirtyDaysMs.toNat = 30 * 24 * 3600000 := by decide
    rw [← foldl_window hlimit le_of_mem_past]
    exact totalsOf_project (·.thirty) _ (fun totals s h => congrArg _ (add_of_le h totals)) samples
  · have hlimit : sevenDaysMs.toNat = 7 * 24 * 3600000 := by decide
    rw [← foldl_window hlimit le_of_mem_past]
    exact totalsOf_project (·.seven) _ (fun totals s h => congrArg _ (add_of_le h totals)) samples

/-! ## The ends -/

theorem oldest_totalsOf (nowMs : UInt64) (samples : List TrendSample) :
    (totalsOf nowMs samples).oldest ∈ ⟨nowMs, 0⟩ :: past nowMs samples ∧
      ∀ s ∈ ⟨nowMs, 0⟩ :: past nowMs samples,
        (totalsOf nowMs samples).oldest.timestampMs.toNat ≤ s.timestampMs.toNat := by
  rw [totalsOf_project (·.oldest)
    (fun best s => if s.timestampMs < best.timestampMs then s else best)
    (fun totals s h => congrArg _ (add_of_le h totals))]
  exact foldl_select (fun s : TrendSample => s.timestampMs.toNat)
    (fun s best => s.timestampMs < best.timestampMs)
    (fun s best h => (UInt64.lt_iff_toNat_lt.1 h).le)
    (fun s best h => UInt64.le_iff_toNat_le.1 (UInt64.not_lt.1 h)) _ _

theorem newest_totalsOf (nowMs : UInt64) (samples : List TrendSample) :
    (totalsOf nowMs samples).newest ∈ ({} : TrendSample) :: past nowMs samples ∧
      ∀ s ∈ ({} : TrendSample) :: past nowMs samples,
        s.timestampMs.toNat ≤ (totalsOf nowMs samples).newest.timestampMs.toNat := by
  rw [totalsOf_project (·.newest)
    (fun best s => if s.timestampMs ≥ best.timestampMs then s else best)
    (fun totals s h => congrArg _ (add_of_le h totals))]
  exact foldl_select (fun s : TrendSample => OrderDual.toDual s.timestampMs.toNat)
    (fun s best => s.timestampMs ≥ best.timestampMs)
    (fun s best h => UInt64.le_iff_toNat_le.1 h)
    (fun s best h => (UInt64.lt_iff_toNat_lt.1 (UInt64.not_le.1 h)).le) _ _

theorem rate_of_length_lt {nowMs : UInt64} {samples : List TrendSample}
    (h : (past nowMs samples).length < 2) : (totalsOf nowMs samples).rate = 0 := by
  obtain ⟨hold, hfirst⟩ := oldest_totalsOf nowMs samples
  obtain ⟨hnew, hlast⟩ := newest_totalsOf nowMs samples
  apply if_neg
  rw [gt_iff_lt, UInt64.lt_iff_toNat_lt, not_lt]
  cases hpast : past nowMs samples with
  | nil =>
      rw [hpast, List.mem_singleton] at hnew
      rw [hnew]
      exact Nat.zero_le _
  | cons sample rest =>
      obtain rfl : rest = [] := by
        rw [hpast, List.length_cons] at h
        exact List.length_eq_zero_iff.1 (by omega)
      have hnow : sample.timestampMs ≤ nowMs :=
        le_of_mem_past sample (hpast ▸ List.mem_cons_self)
      rw [hpast] at hold hnew
      rcases List.mem_cons.1 hnew with hnew | hnew
      · rw [hnew]
        exact Nat.zero_le _
      · rw [List.mem_singleton.1 hnew]
        rcases List.mem_cons.1 hold with hold | hold
        · rw [hold]
          exact UInt64.le_iff_toNat_le.1 hnow
        · rw [List.mem_singleton.1 hold]

theorem exists_earlier {samples : List TrendSample}
    (hdistinct : (samples.map (·.timestampMs)).Nodup) (h : 2 ≤ samples.length) :
    ∃ a ∈ samples, ∃ b ∈ samples, a.timestampMs.toNat < b.timestampMs.toNat := by
  match samples, h with
  | x :: y :: rest, _ =>
      have hne : x.timestampMs.toNat ≠ y.timestampMs.toNat := by
        rw [List.map_cons, List.map_cons, List.nodup_cons, List.mem_cons] at hdistinct
        exact fun heq => hdistinct.1 (.inl (UInt64.toNat_inj.1 heq))
      rcases Nat.lt_or_gt_of_ne hne with hlt | hlt
      · exact ⟨x, by simp, y, by simp, hlt⟩
      · exact ⟨y, by simp, x, by simp, hlt⟩

/-- With two or more, at different times, it is that between the earliest and the latest. -/
theorem rate_of_two_le {nowMs : UInt64} {samples : List TrendSample}
    (hdistinct : ((past nowMs samples).map (·.timestampMs)).Nodup)
    (h : 2 ≤ (past nowMs samples).length) :
    ∃ earliest ∈ past nowMs samples, ∃ latest ∈ past nowMs samples,
      (∀ s ∈ past nowMs samples,
        earliest.timestampMs ≤ s.timestampMs ∧ s.timestampMs ≤ latest.timestampMs) ∧
      earliest.timestampMs < latest.timestampMs ∧
      (totalsOf nowMs samples).rate = (latest.value - earliest.value) /
        ((latest.timestampMs.toNat - earliest.timestampMs.toNat : ℕ) : ℚ) := by
  obtain ⟨hold, hfirst⟩ := oldest_totalsOf nowMs samples
  obtain ⟨hnew, hlast⟩ := newest_totalsOf nowMs samples
  -- two counted samples lie at different times, the earlier one before the evaluation
  obtain ⟨a, ha, b, hb, hab⟩ := exists_earlier hdistinct h
  have hbnow : b.timestampMs.toNat ≤ nowMs.toNat := UInt64.le_iff_toNat_le.1 (le_of_mem_past b hb)
  have hbefore := hfirst a (List.mem_cons_of_mem _ ha)
  have hafter := hlast b (List.mem_cons_of_mem _ hb)
  have hearliest : (totalsOf nowMs samples).oldest ∈ past nowMs samples := by
    apply (List.mem_cons.1 hold).resolve_left
    intro heq
    rw [heq] at hbefore
    change nowMs.toNat ≤ _ at hbefore
    omega
  have hlatest : (totalsOf nowMs samples).newest ∈ past nowMs samples := by
    apply (List.mem_cons.1 hnew).resolve_left
    intro heq
    rw [heq] at hafter
    change _ ≤ 0 at hafter
    omega
  have hlt : (totalsOf nowMs samples).oldest.timestampMs <
      (totalsOf nowMs samples).newest.timestampMs := by
    rw [UInt64.lt_iff_toNat_lt]
    omega
  refine ⟨_, hearliest, _, hlatest, fun s hs => ⟨?_, ?_⟩, hlt, ?_⟩
  · exact UInt64.le_iff_toNat_le.2 (hfirst s (List.mem_cons_of_mem _ hs))
  · exact UInt64.le_iff_toNat_le.2 (hlast s (List.mem_cons_of_mem _ hs))
  · rw [Totals.rate, if_pos hlt, UInt64.toNat_sub_of_le _ _ (UInt64.le_of_lt hlt)]

/-! ## Whatever the ring holds -/

theorem past_perm (nowMs : UInt64) {xs ys : List TrendSample} (h : xs.Perm ys) :
    (past nowMs xs).Perm (past nowMs ys) := h.filter _

theorem lastDays_perm (days : ℕ) (nowMs : UInt64) {xs ys : List TrendSample} (h : xs.Perm ys) :
    (lastDays days nowMs xs).Perm (lastDays days nowMs ys) := h.filter _

theorem mean_perm {xs ys : List TrendSample} (h : xs.Perm ys) : mean xs = mean ys := by
  rw [mean, mean, (h.map _).sum_eq, h.length_eq]

theorem length_stored_le (series : TrendSeries) : series.stored.length ≤ 1024 :=
  (List.length_take_le _ _).trans series.count_le

theorem length_lastDays_lt (days : ℕ) (nowMs : UInt64) (series : TrendSeries) :
    (lastDays days nowMs (past nowMs series.stored)).length < 2 ^ 32 := by
  have hwindow := List.length_filter_le (fun s : TrendSample =>
    decide (nowMs.toNat - s.timestampMs.toNat ≤ days * 24 * 3600000)) (past nowMs series.stored)
  have hpast := List.length_filter_le (fun s : TrendSample => decide (s.timestampMs ≤ nowMs))
    series.stored
  exact ((hwindow.trans hpast).trans series.length_stored_le).trans_lt (by decide)

/-- The count, the two averages and the rate are those of the last 1024 samples that are not later
than the evaluation, in whatever order they were added. -/
theorem window_statistics (samples : List TrendSample) (nowMs : UInt64)
    (hdistinct : (samples.map (·.timestampMs)).Nodup) :
    let counted := past nowMs (samples.rtake 1024)
    let result := (run samples).evaluate nowMs
    result.sampleCount.toNat = (lastDays 30 nowMs counted).length ∧
    result.thirtyDayAverage = mean (lastDays 30 nowMs counted) ∧
    result.sevenDayAverage = mean (lastDays 7 nowMs counted) ∧
    (2 ≤ counted.length → ∃ earliest ∈ counted, ∃ latest ∈ counted,
      (∀ s ∈ counted,
        earliest.timestampMs ≤ s.timestampMs ∧ s.timestampMs ≤ latest.timestampMs) ∧
      earliest.timestampMs < latest.timestampMs ∧
      result.rateOfChange = (latest.value - earliest.value) /
        ((latest.timestampMs.toNat - earliest.timestampMs.toNat : ℕ) : ℚ)) ∧
    (counted.length < 2 → result.rateOfChange = 0) := by
  intro counted result
  have hperm : (past nowMs (run samples).stored).Perm counted := past_perm nowMs (stored_perm samples)
  obtain ⟨hthirty, hseven⟩ := windows_totalsOf nowMs (run samples).stored
  have hlength30 := length_lastDays_lt 30 nowMs (run samples)
  have hlength7 := length_lastDays_lt 7 nowMs (run samples)
  refine ⟨?_, ?_, ?_, ?_, ?_⟩
  · change (totalsOf nowMs (run samples).stored).thirty.count.toNat = _
    rw [hthirty, UInt32.toNat_ofNat_of_lt' hlength30, (lastDays_perm 30 nowMs hperm).length_eq]
  · change (totalsOf nowMs (run samples).stored).thirty.average = _
    rw [hthirty, average_eq_mean hlength30, mean_perm (lastDays_perm 30 nowMs hperm)]
  · change (totalsOf nowMs (run samples).stored).seven.average = _
    rw [hseven, average_eq_mean hlength7, mean_perm (lastDays_perm 7 nowMs hperm)]
  · intro htwo
    have hlast : (samples.rtake 1024).Sublist samples := List.drop_sublist _ _
    have hnodup : ((past nowMs (run samples).stored).map (·.timestampMs)).Nodup := by
      rw [(hperm.map _).nodup_iff]
      exact hdistinct.sublist ((List.filter_sublist.trans hlast).map _)
    rw [← hperm.length_eq] at htwo
    obtain ⟨earliest, hearliest, latest, hlatest, hbounds, hlt, hrate⟩ := rate_of_two_le hnodup htwo
    refine ⟨earliest, hperm.mem_iff.1 hearliest, latest, hperm.mem_iff.1 hlatest, ?_, hlt, hrate⟩
    intro s hs
    exact hbounds s (hperm.mem_iff.2 hs)
  · intro hlt
    exact rate_of_length_lt (hperm.length_eq.trans_lt hlt)

/-- Two samples added in the wrong order, and one that is yet to come. -/
theorem window_statistics_example :
    let samples : List TrendSample := [⟨2000, 7⟩, ⟨1000, 3⟩, ⟨9000, 1⟩]
    ((run samples).evaluate 5000).thirtyDayAverage =
      mean (lastDays 30 5000 (past 5000 (samples.rtake 1024))) :=
  (window_statistics [⟨2000, 7⟩, ⟨1000, 3⟩, ⟨9000, 1⟩] 5000 (by decide)).2.1

end TrendSeries

end DaliEdge
