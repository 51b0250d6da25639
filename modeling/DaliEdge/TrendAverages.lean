import DaliEdge.TrendWindows
import Mathlib.Algebra.Order.Field.Power
import Mathlib.Tactic.Linarith
import Mathlib.Tactic.Ring

/-!
# The exponentially weighted average

The loop starts its average again whenever it has come to zero, and takes the samples in the order
of the slots. So it follows the recursion of the average until a sample other than zero comes after
an average of zero, and until the newest samples stand in front of the oldest in the ring.
-/

namespace DaliEdge

namespace TrendSeries

def runningAverage (samples : List TrendSample) : ℚ :=
  samples.foldl (fun ewma s => nextAverage ewma s.value) 0

/-- The average of the recursion: the first value, then a fifth of each further one and four fifths
of what was there before it. -/
def exponentialAverage : List TrendSample → ℚ
  | [] => 0
  | first :: rest => rest.foldl (fun e s => 1 / 5 * s.value + 4 / 5 * e) first.value

theorem runningAverage_snoc (samples : List TrendSample) (sample : TrendSample) :
    runningAverage (samples ++ [sample]) = nextAverage (runningAverage samples) sample.value :=
  List.foldl_append

theorem exponentialAverage_snoc {samples : List TrendSample} (h : samples ≠ [])
    (sample : TrendSample) : exponentialAverage (samples ++ [sample]) =
      1 / 5 * sample.value + 4 / 5 * exponentialAverage samples := by
  cases samples with
  | nil => exact absurd rfl h
  | cons first rest =>
      rw [List.cons_append, exponentialAverage, exponentialAverage, List.foldl_append]
      rfl

theorem ewma_totalsOf (nowMs : UInt64) (samples : List TrendSample) :
    (totalsOf nowMs samples).ewma = runningAverage (past nowMs samples) :=
  totalsOf_project (·.ewma) _ (fun totals _ h => congrArg _ (add_of_le h totals)) samples

theorem past_eq_self {samples : List TrendSample} {nowMs : UInt64}
    (h : ∀ s ∈ samples, s.timestampMs ≤ nowMs) : past nowMs samples = samples :=
  List.filter_eq_self.2 fun s hs => decide_eq_true (h s hs)

theorem evaluate_average {samples : List TrendSample} {nowMs : UInt64}
    (hlength : samples.length ≤ 1024) (hpast : ∀ s ∈ samples, s.timestampMs ≤ nowMs) :
    ((run samples).evaluate nowMs).exponentiallyWeightedAverage = runningAverage samples := by
  change (totalsOf nowMs (run samples).stored).ewma = _
  rw [ewma_totalsOf, stored_of_le hlength, past_eq_self hpast]

/-! ## The recursion -/

/-- The average is that of the recursion after every sample exactly when no sample other than zero
comes after samples whose average is zero. -/
theorem average_follows_recursion_iff (samples : List TrendSample) (nowMs : UInt64)
    (hlength : samples.length ≤ 1024) (hpast : ∀ s ∈ samples, s.timestampMs ≤ nowMs) :
    (∀ seen, seen <+: samples → seen ≠ [] →
      ((run seen).evaluate nowMs).exponentiallyWeightedAverage = exponentialAverage seen) ↔
    ∀ seen sample, seen ++ [sample] <+: samples → seen ≠ [] → exponentialAverage seen = 0 →
      sample.value = 0 := by
  have haverage : ∀ seen, seen <+: samples →
      ((run seen).evaluate nowMs).exponentiallyWeightedAverage = runningAverage seen := by
    intro seen hseen
    apply evaluate_average (hseen.length_le.trans hlength)
    exact fun s hs => hpast s (hseen.subset hs)
  constructor
  · intro h seen sample hprefix hne hzero
    have hprevious := (List.prefix_append seen [sample]).trans hprefix
    have hbefore := h seen hprevious hne
    have hafter := h (seen ++ [sample]) hprefix (by simp)
    rw [haverage seen hprevious] at hbefore
    rw [haverage _ hprefix, runningAverage_snoc, hbefore, hzero, nextAverage, if_pos rfl,
      exponentialAverage_snoc hne, hzero] at hafter
    linarith
  · intro h seen hseen hne
    rw [haverage seen hseen]
    induction seen using List.reverseRecOn with
    | nil => exact absurd rfl hne
    | append_singleton seen sample ih =>
        rw [runningAverage_snoc]
        by_cases hfirst : seen = []
        · subst hfirst
          rfl
        · have hbefore := ih ((List.prefix_append _ _).trans hseen) hfirst
          rw [hbefore, exponentialAverage_snoc hfirst, nextAverage]
          split_ifs with hzero
          · rw [h seen sample hseen hfirst hzero, hzero]
            norm_num
          · rfl

theorem average_follows_recursion_iff_example :
    ((run [⟨0, 5⟩, ⟨1, 10⟩]).evaluate 1).exponentiallyWeightedAverage =
      exponentialAverage [⟨0, 5⟩, ⟨1, 10⟩] := by
  apply (average_follows_recursion_iff [⟨0, 5⟩, ⟨1, 10⟩] 1 (by decide) (by decide)).2
  · intro seen sample hprefix hne hzero
    rcases seen with _ | ⟨first, _ | ⟨second, seen⟩⟩
    · exact absurd rfl hne
    · obtain ⟨rfl, -⟩ := List.cons_prefix_cons.1 hprefix
      norm_num [exponentialAverage] at hzero
    · have hlength := hprefix.length_le
      simp at hlength
  · exact List.prefix_rfl
  · exact List.cons_ne_nil _ _

/-- The second sample after a reading of zero is taken as the first. -/
theorem zero_reading_restarts : ¬ ∀ (samples : List TrendSample) (nowMs : UInt64), samples ≠ [] →
    samples.length ≤ 1024 → (∀ s ∈ samples, s.timestampMs ≤ nowMs) →
      ((run samples).evaluate nowMs).exponentiallyWeightedAverage = exponentialAverage samples := by
  intro h
  have haverage := h [⟨0, 0⟩, ⟨1, 1⟩] 1 (by decide) (by decide) (by decide)
  rw [evaluate_average (by decide) (by decide)] at haverage
  revert haverage
  norm_num [runningAverage, exponentialAverage, nextAverage]

/-! ## The order of the slots -/

theorem foldl_zeros {samples : List TrendSample} (h : ∀ s ∈ samples, s.value = 0) (ewma : ℚ) :
    samples.foldl (fun ewma s => nextAverage ewma s.value) ewma =
      (4 / 5) ^ samples.length * ewma := by
  induction samples generalizing ewma with
  | nil => simp
  | cons s samples ih =>
      have hnext : nextAverage ewma 0 = 4 / 5 * ewma := by
        unfold nextAverage
        split_ifs with hzero
        · rw [hzero, mul_zero]
        · ring
      rw [List.foldl_cons, h s List.mem_cons_self, hnext,
        ih fun s' hs' => h s' (List.mem_cons_of_mem s hs'), List.length_cons, pow_succ]
      ring

theorem runningAverage_impulse {before later : List TrendSample} {timestampMs : UInt64}
    (hbefore : ∀ s ∈ before, s.value = 0) (hlater : ∀ s ∈ later, s.value = 0) :
    runningAverage (before ++ ⟨timestampMs, 1⟩ :: later) = (4 / 5) ^ later.length := by
  rw [runningAverage, List.foldl_append, foldl_zeros hbefore, mul_zero, List.foldl_cons,
    foldl_zeros hlater, nextAverage, if_pos rfl, mul_one]

/-- In front of the zeros and behind them, such a reading gives two averages. -/
theorem ewma_impulse_ne {nowMs timestampMs : UInt64} {older later : List TrendSample}
    (hnow : timestampMs ≤ nowMs) (holder : ∀ s ∈ older, s.value = 0 ∧ s.timestampMs ≤ nowMs)
    (hlater : ∀ s ∈ later, s.value = 0) (hne : older ≠ []) :
    (totalsOf nowMs (⟨timestampMs, 1⟩ :: later ++ older)).ewma ≠
      (totalsOf nowMs (older ++ ⟨timestampMs, 1⟩ :: later)).ewma := by
  have hpast : ∀ s ∈ past nowMs later, s.value = 0 :=
    fun s hs => hlater s (List.mem_filter.1 hs).1
  have hold : past nowMs older = older := past_eq_self fun s hs => (holder s hs).2
  have hhead : past nowMs (⟨timestampMs, 1⟩ :: later) = ⟨timestampMs, 1⟩ :: past nowMs later :=
    List.filter_cons_of_pos (decide_eq_true hnow)
  have happend : ∀ xs ys, past nowMs (xs ++ ys) = past nowMs xs ++ past nowMs ys :=
    fun xs ys => List.filter_append ..
  rw [ewma_totalsOf, ewma_totalsOf, happend, happend, hhead, hold,
    runningAverage_impulse (fun s hs => (holder s hs).1) hpast, List.cons_append]
  have hzeros : ∀ s ∈ past nowMs later ++ older, s.value = 0 := by
    intro s hs
    rcases List.mem_append.1 hs with hs | hs
    · exact hpast s hs
    · exact (holder s hs).1
  have hfront : runningAverage (⟨timestampMs, 1⟩ :: (past nowMs later ++ older)) =
      (4 / 5) ^ (past nowMs later ++ older).length :=
    runningAverage_impulse (fun s hs => absurd hs List.not_mem_nil) hzeros
  rw [hfront, List.length_append]
  intro heq
  have hlength := pow_right_injective₀ (by norm_num) (by norm_num) heq
  have hpos := List.length_pos_of_ne_nil hne
  omega

/-- In a full ring the samples added since it last came round to its first slot stand in front of
the older ones. -/
theorem exists_older {samples : List TrendSample} (h : 1024 ≤ samples.length) :
    ∃ older, older ≠ [] ∧
      (run samples).stored = samples.rtake (samples.length % 1024) ++ older ∧
      samples.rtake 1024 = older ++ samples.rtake (samples.length % 1024) := by
  have hrotate := rotate_stored h
  have hlength : (run samples).stored.length = 1024 := by
    rw [(stored_perm samples).length_eq, RingBuffer.length_rtake, min_eq_left h]
  have hplace : samples.length % 1024 < (run samples).stored.length := by
    rw [hlength]
    exact Nat.mod_lt _ (by decide)
  rw [List.rotate_eq_drop_append_take hplace.le] at hrotate
  have hnewest : (run samples).stored.take (samples.length % 1024) =
      samples.rtake (samples.length % 1024) := by
    have hsuffix : (run samples).stored.take (samples.length % 1024) <:+ samples :=
      (hrotate ▸ List.suffix_append _ _).trans (List.drop_suffix _ _)
    rw [List.suffix_iff_eq_drop, List.length_take_of_le hplace.le] at hsuffix
    exact hsuffix
  refine ⟨(run samples).stored.drop (samples.length % 1024), ?_, ?_, ?_⟩
  · intro hnil
    rw [List.drop_eq_nil_iff] at hnil
    omega
  · rw [← hnewest, List.take_append_drop]
  · rw [← hnewest, hrotate]

theorem totalsOf_swap {nowMs : UInt64} {newer older : List TrendSample}
    (h : ∀ s ∈ newer, nowMs < s.timestampMs) :
    totalsOf nowMs (newer ++ older) = totalsOf nowMs (older ++ newer) := by
  have hnone : past nowMs newer = [] :=
    List.filter_eq_nil_iff.2 fun s hs => by simpa using h s hs
  have hcounted : ∀ samples, totalsOf nowMs samples =
      (past nowMs samples).foldl (Totals.add nowMs) { oldest := ⟨nowMs, 0⟩ } :=
    totalsOf_project id (Totals.add nowMs) fun _ _ _ => rfl
  have happend : ∀ xs ys, past nowMs (xs ++ ys) = past nowMs xs ++ past nowMs ys :=
    fun xs ys => List.filter_append ..
  rw [hcounted, hcounted, happend, happend, hnone, List.nil_append, List.append_nil]

theorem stored_rtake (samples : List TrendSample) :
    (run (samples.rtake 1024)).stored = samples.rtake 1024 := by
  apply stored_of_le
  rw [RingBuffer.length_rtake]
  exact min_le_left _ _

theorem evaluate_impulse_ne {front rest : List TrendSample} {timestampMs nowMs : UInt64}
    (hlong : 1024 ≤ (front ++ ⟨timestampMs, 1⟩ :: rest).length)
    (hplace : (front ++ (⟨timestampMs, 1⟩ : TrendSample) :: rest).length % 1024 = rest.length + 1)
    (hnow : timestampMs ≤ nowMs) (hfront : ∀ s ∈ front, s.value = 0 ∧ s.timestampMs ≤ nowMs)
    (hrest : ∀ s ∈ rest, s.value = 0) :
    (run (front ++ ⟨timestampMs, 1⟩ :: rest)).evaluate nowMs ≠
      (run ((front ++ ⟨timestampMs, 1⟩ :: rest).rtake 1024)).evaluate nowMs := by
  obtain ⟨older, hne, hstored, hlast⟩ := exists_older hlong
  have hnewest : (front ++ (⟨timestampMs, 1⟩ : TrendSample) :: rest).rtake (rest.length + 1) =
      ⟨timestampMs, 1⟩ :: rest := by
    rw [List.rtake, List.length_append, List.length_cons, Nat.add_sub_cancel, List.drop_left]
  rw [hplace, hnewest] at hstored hlast
  have holder : ∀ s ∈ older, s.value = 0 ∧ s.timestampMs ≤ nowMs := by
    obtain ⟨earlier, hsplit⟩ : older ++ (⟨timestampMs, 1⟩ : TrendSample) :: rest <:+
        front ++ ⟨timestampMs, 1⟩ :: rest := hlast ▸ List.drop_suffix _ _
    rw [← List.append_assoc] at hsplit
    obtain rfl := List.append_cancel_right hsplit
    exact fun s hs => hfront s (List.mem_append_right _ hs)
  intro heq
  rw [evaluate, evaluate, stored_rtake, hstored, hlast] at heq
  exact ewma_impulse_ne hnow holder hrest hne (congrArg (·.exponentiallyWeightedAverage) heq)

def quiet (times : List UInt64) : List TrendSample := times.map fun t => ⟨t, 0⟩

theorem map_timestampMs_quiet (times : List UInt64) :
    (quiet times).map (·.timestampMs) = times := by
  rw [quiet, List.map_map]
  exact List.map_id times

theorem of_mem_quiet {times : List UInt64} {s : TrendSample} (hs : s ∈ quiet times) :
    s.value = 0 ∧ s.timestampMs ∈ times := by
  obtain ⟨t, ht, rfl⟩ := List.mem_map.1 hs
  exact ⟨rfl, ht⟩

/-- When the first slot was last written no later than the evaluation, some samples at these times
are evaluated otherwise than in a new series. -/
theorem exists_evaluate_ne {front rest : List UInt64} {first nowMs : UInt64}
    (hlong : 1024 ≤ (front ++ first :: rest).length)
    (hplace : (front ++ first :: rest).length % 1024 = rest.length + 1)
    (hsorted : (front ++ first :: rest).Pairwise (· ≤ ·)) (hfirst : first ≤ nowMs) :
    ∃ samples : List TrendSample, samples.map (·.timestampMs) = front ++ first :: rest ∧
      (run samples).evaluate nowMs ≠ (run (samples.rtake 1024)).evaluate nowMs := by
  have hfront := (List.pairwise_append.1 hsorted).2.2
  have hsamples : (quiet front ++ (⟨first, 1⟩ : TrendSample) :: quiet rest).map (·.timestampMs) =
      front ++ first :: rest := by
    rw [List.map_append, List.map_cons, map_timestampMs_quiet, map_timestampMs_quiet]
  have htotal : (quiet front ++ (⟨first, 1⟩ : TrendSample) :: quiet rest).length =
      (front ++ first :: rest).length := by rw [← hsamples, List.length_map]
  refine ⟨_, hsamples, evaluate_impulse_ne ?_ ?_ hfirst ?_ ?_⟩
  · rwa [htotal]
  · rw [htotal, hplace, quiet, List.length_map]
  · intro s hs
    obtain ⟨hvalue, hmem⟩ := of_mem_quiet hs
    exact ⟨hvalue, UInt64.le_trans (hfront _ hmem first List.mem_cons_self) hfirst⟩
  · exact fun s hs => (of_mem_quiet hs).1

/-- For samples at these times, whatever their values, the series is evaluated like a new one with
the last 1024 of them, exactly when the samples added since the ring last came round to its first
slot are all later than the evaluation. -/
theorem evaluates_last_samples_iff (times : List UInt64) (nowMs : UInt64)
    (hlong : 1024 < times.length) (hsorted : times.Pairwise (· ≤ ·)) :
    (∀ samples : List TrendSample, samples.map (·.timestampMs) = times →
      (run samples).evaluate nowMs = (run (samples.rtake 1024)).evaluate nowMs) ↔
    ∀ t ∈ times.rtake (times.length % 1024), nowMs < t := by
  constructor
  · intro h t ht
    by_contra hnow
    rw [UInt64.not_lt] at hnow
    cases hnewest : times.rtake (times.length % 1024) with
    | nil =>
        rw [hnewest] at ht
        cases ht
    | cons first rest =>
        have hlength := congrArg List.length hnewest
        rw [RingBuffer.length_rtake, List.length_cons] at hlength
        obtain ⟨front, rfl⟩ : first :: rest <:+ times := hnewest ▸ List.drop_suffix _ _
        rw [hnewest] at ht
        have hrest := (List.pairwise_append.1 hsorted).2.1
        have hfirst : first ≤ nowMs := by
          rcases List.mem_cons.1 ht with rfl | ht
          · exact hnow
          · exact UInt64.le_trans ((List.pairwise_cons.1 hrest).1 t ht) hnow
        obtain ⟨samples, hsamples, hne⟩ :=
          exists_evaluate_ne hlong.le (by omega) hsorted hfirst
        exact hne (h samples hsamples)
  · rintro h samples rfl
    rw [List.length_map, ← RingBuffer.map_rtake] at h
    rw [List.length_map] at hlong
    obtain ⟨older, -, hstored, hlast⟩ := exists_older hlong.le
    have hlater : ∀ s ∈ samples.rtake (samples.length % 1024), nowMs < s.timestampMs :=
      fun s hs => h s.timestampMs (List.mem_map_of_mem hs)
    have hswap := @totalsOf_swap nowMs _ older hlater
    rw [evaluate, evaluate, stored_rtake, hstored, hlast, hswap]

theorem pairwise_zeros_snoc (n : ℕ) (t : UInt64) :
    (List.replicate n (0 : UInt64) ++ [t]).Pairwise (· ≤ ·) := by
  apply List.pairwise_append.2 ⟨List.pairwise_replicate.2 (.inr (by decide)), ?_, ?_⟩
  · exact List.pairwise_singleton _ _
  · intro u hu v _
    rw [List.eq_of_mem_replicate hu]
    exact UInt64.le_iff_toNat_le.2 (Nat.zero_le _)

theorem map_timestampMs_zeros_snoc (n : ℕ) (s : TrendSample) :
    (List.replicate n (⟨0, 0⟩ : TrendSample) ++ [s]).map (·.timestampMs) =
      List.replicate n 0 ++ [s.timestampMs] := by
  rw [List.map_append, List.map_replicate, List.map_singleton]

theorem evaluates_last_samples_iff_example :
    (run (List.replicate 1024 (⟨0, 0⟩ : TrendSample) ++ [(⟨5, 1⟩ : TrendSample)])).evaluate 1 =
      (run ((List.replicate 1024 (⟨0, 0⟩ : TrendSample) ++
        [(⟨5, 1⟩ : TrendSample)]).rtake 1024)).evaluate 1 := by
  have hlength : (List.replicate 1024 (0 : UInt64) ++ [5]).length = 1025 := by
    rw [List.length_append, List.length_replicate, List.length_singleton]
  have hiff := evaluates_last_samples_iff _ 1 (by rw [hlength]; decide) (pairwise_zeros_snoc 1024 5)
  apply hiff.2 _ _ (map_timestampMs_zeros_snoc 1024 ⟨5, 1⟩)
  intro t ht
  rw [hlength, List.rtake, hlength, List.drop_left' List.length_replicate] at ht
  rw [List.mem_singleton.1 ht]
  decide

/-- A reading of one after 1024 readings of zero: the loop takes it for the oldest. -/
theorem newest_sample_read_first : ¬ ∀ (samples : List TrendSample) (nowMs : UInt64),
    1024 < samples.length → (samples.map (·.timestampMs)).Pairwise (· ≤ ·) →
      (run samples).evaluate nowMs = (run (samples.rtake 1024)).evaluate nowMs := by
  intro h
  have hlength : (List.replicate 1024 (⟨0, 0⟩ : TrendSample) ++
      [(⟨1, 1⟩ : TrendSample)]).length = 1025 := by
    rw [List.length_append, List.length_replicate, List.length_singleton]
  have heq := h (List.replicate 1024 ⟨0, 0⟩ ++ [(⟨1, 1⟩ : TrendSample)]) 1
    (by rw [hlength]; decide) (by rw [map_timestampMs_zeros_snoc]; exact pairwise_zeros_snoc _ _)
  refine evaluate_impulse_ne ?_ ?_ (by decide) ?_ ?_ heq
  · rw [hlength]
    decide
  · rw [hlength]
    rfl
  · intro s hs
    rw [List.eq_of_mem_replicate hs]
    decide
  · exact fun s hs => absurd hs List.not_mem_nil

end TrendSeries

end DaliEdge
